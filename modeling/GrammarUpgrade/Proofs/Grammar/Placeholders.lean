import GrammarUpgrade.Grammar.Placeholder
import GrammarUpgrade.Proofs.Grammar.Expansion
import Mathlib.Data.List.Basic

/-!
# The placeholders of a grammar

The placeholders of a grammar are listed in order, brackets included.  The main
statement, `mem_placeholders_iff`, says that these are all its substrings of the
shape of a placeholder: neither stray brackets nor neighbouring placeholders can hide
one.  So a grammar mentions a token, `mentions_iff`, when the token has this shape and
occurs in the grammar.
-/

namespace GrammarUpgrade.Grammar

/-- The characters of a piece that is a placeholder. -/
def Token.placeholder? : Token → Option (List Char)
  | .placeholder body => some (bracketed body)
  | .text _ => none

/-- The placeholders of a grammar in order. -/
def placeholders (grammar : List Char) : List (List Char) :=
  (lexChars grammar).filterMap Token.placeholder?

/-- A text that is written like a placeholder. -/
def IsPlaceholder (token : List Char) : Prop :=
  ∃ body, BracketFree body ∧ bracketed body = token

theorem IsPlaceholder.ne_nil {token : List Char} (shaped : IsPlaceholder token) :
    token ≠ [] := by
  obtain ⟨body, _, rfl⟩ := shaped
  exact List.cons_ne_nil _ _

theorem IsPlaceholder.close_not_mem_dropLast {token : List Char}
    (shaped : IsPlaceholder token) : '>' ∉ token.dropLast := by
  obtain ⟨body, free, rfl⟩ := shaped
  rw [bracketed, List.dropLast_concat, List.mem_cons, not_or]
  exact ⟨by decide, free.not_mem (by decide)⟩

theorem IsPlaceholder.open_not_mem_tail {token : List Char}
    (shaped : IsPlaceholder token) : '<' ∉ token.tail := by
  obtain ⟨body, free, rfl⟩ := shaped
  rw [bracketed, List.cons_append, List.tail_cons, List.mem_append, not_or]
  exact ⟨free.not_mem (by decide), by decide⟩

/-- What starts with a placeholder starts with no other one. -/
theorem IsPlaceholder.eq_of_isPrefix {token body rest : List Char}
    (shaped : IsPlaceholder token) (free : BracketFree body)
    (starts : token <+: bracketed body ++ rest) : bracketed body = token := by
  obtain ⟨other, otherFree, rfl⟩ := shaped
  obtain ⟨tail, same⟩ := starts
  have bodies : other ++ '>' :: tail = body ++ '>' :: rest := by
    simpa [bracketed] using same
  rw [(otherFree.eq_of_append_close_eq free bodies).1]

/-- No placeholder starts at a loose character. -/
theorem Loose.not_isPrefix {token : List Char} {c : Char} {rest : List Char}
    (loose : Loose c rest) (shaped : IsPlaceholder token) :
    ¬ token <+: c :: rest := by
  obtain ⟨body, free, rfl⟩ := shaped
  rintro ⟨tail, same⟩
  obtain ⟨opened, closed⟩ := List.cons.inj same
  have inside : rest = body ++ '>' :: tail := by simp [← closed]
  exact loose opened.symm
    (head?_brackets_eq_some_iff.mpr ⟨by decide, body, tail, free, inside⟩)

/-- The placeholders are the expansion that forgets all other text. -/
theorem placeholders_eq_expansion :
    placeholders = expansion (fun body => [bracketed body]) fun _ => [] := by
  funext grammar
  rw [placeholders, expansion, List.filterMap_eq_flatMap_toList]
  congr 1
  funext piece
  cases piece <;> simp [Token.placeholder?, Token.expansion]

@[simp]
theorem placeholders_nil : placeholders [] = [] := by
  rw [placeholders_eq_expansion, expansion_nil]

theorem placeholders_bracketed_append {body : List Char} (free : BracketFree body)
    (rest : List Char) :
    placeholders (bracketed body ++ rest) = bracketed body :: placeholders rest := by
  rw [placeholders_eq_expansion, expansion_bracketed_append _ _ free]
  rfl

theorem placeholders_bracketed {body : List Char} (free : BracketFree body) :
    placeholders (bracketed body) = [bracketed body] := by
  rw [placeholders_eq_expansion, expansion_bracketed _ _ free]

theorem placeholders_cons_of_loose {c : Char} {rest : List Char}
    (loose : Loose c rest) : placeholders (c :: rest) = placeholders rest := by
  rw [placeholders_eq_expansion, expansion_cons_of_loose _ _ loose]
  rfl

/-- A placeholder splits the placeholders around it. -/
theorem placeholders_append_append {token : List Char} (shaped : IsPlaceholder token)
    (left right : List Char) :
    placeholders (left ++ token ++ right) =
      placeholders left ++ token :: placeholders right := by
  obtain ⟨body, free, rfl⟩ := shaped
  rw [placeholders_eq_expansion, expansion_append_bracketed_append _ _ free,
    List.append_assoc]
  rfl

/-- The placeholders of a grammar are its substrings that are written like one. -/
theorem mem_placeholders_iff {token grammar : List Char} :
    token ∈ placeholders grammar ↔ IsPlaceholder token ∧ token <:+: grammar := by
  constructor
  · intro member
    induction grammar using pieceInduction with
    | nil => simp at member
    | placeholder body rest free ih =>
        rw [placeholders_bracketed_append free, List.mem_cons] at member
        rcases member with rfl | member
        · exact ⟨⟨body, free, rfl⟩, List.infix_append_left⟩
        · exact (ih member).imp_right List.infix_append_of_infix_right
    | loose c rest loose ih =>
        rw [placeholders_cons_of_loose loose] at member
        exact (ih member).imp_right List.infix_cons
  · rintro ⟨shaped, left, right, rfl⟩
    rw [placeholders_append_append shaped]
    exact List.mem_append_right _ List.mem_cons_self

/-- Characters without one of the two brackets hold no placeholder. -/
theorem placeholders_eq_nil_of_not_mem {c : Char} {chars : List Char}
    (bracket : isBracket c = true) (absent : c ∉ chars) : placeholders chars = [] := by
  rw [List.eq_nil_iff_forall_not_mem]
  intro token member
  obtain ⟨⟨body, _, rfl⟩, occurs⟩ := mem_placeholders_iff.mp member
  have inside : c ∈ bracketed body := by
    rcases (by simpa [isBracket] using bracket : c = '<' ∨ c = '>') with rfl | rfl <;>
      simp [bracketed]
  exact absent (occurs.subset inside)

/-- A piece is a given placeholder when its characters are, as a placeholder. -/
theorem isPlaceholder_iff_placeholder?_eq {pattern : List Char} {piece : Token} :
    piece.isPlaceholder pattern = true ↔ piece.placeholder? = some pattern := by
  cases piece <;> simp [Token.isPlaceholder, Token.placeholder?]

/-- The search among the pieces finds the placeholders of the grammar. -/
theorem any_isPlaceholder_iff {grammar token : String} :
    (lex grammar).any (·.isPlaceholder token.toList) = true ↔
      token.toList ∈ placeholders grammar.toList := by
  simp only [List.any_eq_true, placeholders, List.mem_filterMap, lex,
    isPlaceholder_iff_placeholder?_eq]

/-- A grammar mentions its placeholders and nothing else: the search for the text of
the token comes first but does not change the answer. -/
theorem mentions_iff_mem_placeholders {grammar token : String} :
    mentions grammar token = true ↔ token.toList ∈ placeholders grammar.toList := by
  rw [mentions, Bool.and_eq_true, any_isPlaceholder_iff, Text.occursIn_iff]
  exact and_iff_right_of_imp fun member => (mem_placeholders_iff.mp member).2

/-- A grammar mentions a token that is written like a placeholder and occurs in it. -/
theorem mentions_iff {grammar token : String} :
    mentions grammar token = true ↔
      IsPlaceholder token.toList ∧ token.toList <:+: grammar.toList :=
  mentions_iff_mem_placeholders.trans mem_placeholders_iff

end GrammarUpgrade.Grammar
