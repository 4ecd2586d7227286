import GrammarUpgrade.Proofs.Grammar.Decomposition
import GrammarUpgrade.Proofs.Rule.FirstFault
import Mathlib.Tactic.TFAE

/-!
# The placeholders that a rule can name

The token of a rule is checked against a shape, and a grammar is split into pieces, without
one knowing of the other.  The main statement, `fault?_eq_none_tfae`, says that they agree:
the tokens that a rule may have are the placeholders that some grammar is split into, blank
ones apart.  So a rule that is accepted can find its token, and every placeholder that is
not blank can be replaced by a rule.
-/

namespace GrammarUpgrade

open Grammar

namespace Grammar

/-- A placeholder with something in its body that is no white space. -/
def Token.IsNamed : Token → Prop
  | .placeholder body => ∃ c ∈ body, Text.isBlank c = false
  | .text _ => False

/-- What is written like a placeholder is split into that placeholder alone. -/
theorem lexChars_bracketed {body : List Char} (free : BracketFree body) :
    lexChars (bracketed body) = [.placeholder body] := by
  have split := lexChars_bracketed_append free []
  rwa [List.append_nil, lexChars] at split

/-- The body of a placeholder among the pieces of a grammar has no brackets. -/
theorem bracketFree_of_mem_lex {grammar : String} {body : List Char}
    (member : .placeholder body ∈ lex grammar) : BracketFree body :=
  (isSplit_lexChars grammar.toList).wellFormed _ member

end Grammar

namespace Rule

/-- An opening bracket, any characters but brackets of which one is no white space, and a
closing bracket. -/
def HasShape (token : String) : Prop :=
  ∃ before c after, BracketFree before ∧ (isBracket c = false ∧ Text.isBlank c = false) ∧
    BracketFree after ∧ token.toList = '<' :: before ++ c :: after ++ ['>']

theorem isToken_iff_hasShape {token : String} : IsToken token ↔ HasShape token := by
  constructor
  · rintro ⟨body, free, ⟨c, member, inked⟩, written⟩
    obtain ⟨before, after, rfl⟩ := List.append_of_mem member
    obtain ⟨freeBefore, free⟩ := List.forall_mem_append.mp free
    obtain ⟨freeChar, freeAfter⟩ := List.forall_mem_cons.mp free
    exact ⟨before, c, after, freeBefore, ⟨freeChar, inked⟩, freeAfter, written.symm⟩
  · rintro ⟨before, c, after, freeBefore, ⟨freeChar, inked⟩, freeAfter, written⟩
    have free : BracketFree (before ++ c :: after) :=
      List.forall_mem_append.mpr ⟨freeBefore, List.forall_mem_cons.mpr ⟨freeChar, freeAfter⟩⟩
    exact ⟨before ++ c :: after, free, ⟨c, by simp, inked⟩, written.symm⟩

/-- A token is split into nothing but itself. -/
theorem exists_lex_eq_singleton_iff {token : String} :
    (∃ piece, lex token = [piece] ∧ piece.IsNamed) ↔ IsToken token := by
  constructor
  · rintro ⟨piece, split, named⟩
    cases piece with
    | text chars => exact named.elim
    | placeholder body =>
        have free : BracketFree body :=
          bracketFree_of_mem_lex (split ▸ List.mem_singleton_self _)
        have whole := flatten_lexChars token.toList
        rw [← lex, split] at whole
        refine ⟨body, free, named, ?_⟩
        simpa [flatten, Token.chars] using whole
  · rintro ⟨body, free, named, written⟩
    exact ⟨.placeholder body, by rw [lex, ← written, lexChars_bracketed free], named⟩

/-- A named piece of a grammar is a token, and the grammar mentions it. -/
theorem isToken_source {grammar : String} {piece : Token} (member : piece ∈ lex grammar)
    (named : piece.IsNamed) :
    IsToken piece.source ∧ mentions grammar piece.source = true := by
  cases piece with
  | text chars => exact named.elim
  | placeholder body =>
      have written : (Token.placeholder body).source.toList = bracketed body :=
        String.toList_ofList
      refine ⟨⟨body, bracketFree_of_mem_lex member, named, written.symm⟩, ?_⟩
      rw [mentions_iff_mem_placeholders, written]
      exact List.mem_filterMap.mpr ⟨_, member, rfl⟩

/-- A rule that replaces something by a fragment has no fault exactly when its token has the
right shape, when some grammar has the token as a piece that is named, and when the token is
by itself such a piece.  It then finds at least its own token; and whatever named piece a
grammar has, the rule with this piece for its token has no fault and finds it there. -/
theorem fault?_eq_none_tfae (rule : Rule) (filled : rule.replacement ≠ "") :
    [rule.fault? = none,
      HasShape rule.token,
      ∃ grammar, ∃ piece ∈ lex grammar, piece.IsNamed ∧ piece.source = rule.token,
      ∃ piece, lex rule.token = [piece] ∧ piece.IsNamed].TFAE ∧
    (rule.fault? = none → rule.matchesGrammar rule.token = true) ∧
    ∀ grammar, ∀ piece ∈ lex grammar, piece.IsNamed →
      let renamed : Rule := { rule with token := piece.source }
      renamed.fault? = none ∧ renamed.matchesGrammar grammar = true := by
  have accepted (token : String) :
      ({ rule with token := token } : Rule).fault? = none ↔ IsToken token := by
    rw [fault?_eq_none_iff, valid_iff_isToken]
    exact and_iff_left filled
  refine ⟨?_, ?_, ?_⟩
  · tfae_have 1 ↔ 2 := (accepted rule.token).trans isToken_iff_hasShape
    tfae_have 1 ↔ 4 := (accepted rule.token).trans exists_lex_eq_singleton_iff.symm
    tfae_have 4 → 3 := by
      rintro ⟨piece, split, named⟩
      have whole := flatten_lexChars rule.token.toList
      rw [← lex, split] at whole
      have chars : piece.chars = rule.token.toList := by simpa [flatten] using whole
      refine ⟨rule.token, piece, split ▸ List.mem_singleton_self _, named, ?_⟩
      rw [Token.source, chars, String.ofList_toList]
    tfae_have 3 → 1 := by
      rintro ⟨grammar, piece, member, named, same⟩
      rw [accepted rule.token, ← same]
      exact (isToken_source member named).1
    tfae_finish
  · intro faultless
    obtain ⟨body, free, _, written⟩ := (accepted rule.token).mp faultless
    exact mentions_iff.mpr ⟨⟨body, free, written⟩, List.infix_refl _⟩
  · intro grammar piece member named
    obtain ⟨isToken, mentioned⟩ := isToken_source member named
    exact ⟨(accepted piece.source).mpr isToken, mentioned⟩

/-- A token of two lines with wide spaces, found behind a stray bracket. -/
theorem fault?_eq_none_two_lines :
    let rule : Rule := ⟨"<\u2003é\n[0,∞]>", "x"⟩
    rule.replacement ≠ "" ∧ rule.fault? = none ∧
      ∃ piece, lex rule.token = [piece] ∧ piece.IsNamed ∧
        ({ rule with token := piece.source } : Rule).matchesGrammar
          "<<\u2003é\n[0,∞]>>" = true := by
  intro rule
  have filled : rule.replacement ≠ "" := by decide
  obtain ⟨same, _, found⟩ := fault?_eq_none_tfae rule filled
  have faultless : rule.fault? = none := by decide +kernel
  obtain ⟨piece, split, named⟩ := (same.out 0 3).mp faultless
  refine ⟨filled, faultless, piece, split, named, ?_⟩
  have single : lex rule.token = [.placeholder "\u2003é\n[0,∞]".toList] := by decide +kernel
  obtain rfl := List.singleton_inj.mp (split.symm.trans single)
  exact (found _ _ (by decide +kernel) named).2

/-- A placeholder that holds only white space is a piece of a grammar and no token. -/
example :
    lex "a <\u2003\n>" = [.text "a ".toList, .placeholder "\u2003\n".toList] ∧
      fault? ⟨"<\u2003\n>", "x"⟩ = some (.tokenShape "<\u2003\n>") := by
  decide +kernel

end Rule

end GrammarUpgrade
