import GrammarUpgrade.Proofs.Grammar.Placeholders
import GrammarUpgrade.Proofs.Text.Replacement

/-!
# Substitution of placeholders

A substitution gives some placeholders a new text, writes this text in their place and
copies everything else, all in one pass.  `toList_replace` says that the replacement of
one token is such a substitution, and `replaced_substitute` that it is the replacement
of all substrings equal to the token.  The main statement, `expansion_substitute`, is
about texts that begin and end in brackets looking outward: these cannot merge with
what stands around them, so a grammar may be expanded after the substitution or the
substituted texts before it.
-/

namespace GrammarUpgrade.Grammar

variable {β : Type}

/-! ## One pass over a grammar -/

/-- What is written for the placeholder with a given body. -/
def standIn (meaning : List Char → Option (List Char)) (body : List Char) :
    List Char :=
  (meaning (bracketed body)).getD (bracketed body)

/-- Write the new texts of placeholders in their place. -/
def substitute (meaning : List Char → Option (List Char)) :
    List Char → List Char :=
  expansion (standIn meaning) fun c => [c]

/-- The substitution of a single token. -/
def exchanging (token replacement placeholder : List Char) : Option (List Char) :=
  if placeholder = token then some replacement else none

@[simp]
theorem exchanging_self (token replacement : List Char) :
    exchanging token replacement token = some replacement :=
  if_pos rfl

theorem exchanging_of_ne {token replacement placeholder : List Char}
    (other : placeholder ≠ token) : exchanging token replacement placeholder = none :=
  if_neg other

theorem exchanging_eq_some_iff {token replacement placeholder text : List Char} :
    exchanging token replacement placeholder = some text ↔
      placeholder = token ∧ replacement = text :=
  Option.ite_none_right_eq_some.trans (and_congr_right' Option.some_inj)

variable {meaning : List Char → Option (List Char)}

@[simp]
theorem substitute_nil : substitute meaning [] = [] :=
  expansion_nil _ _

theorem substitute_bracketed_append {body : List Char} (free : BracketFree body)
    (rest : List Char) :
    substitute meaning (bracketed body ++ rest) =
      standIn meaning body ++ substitute meaning rest :=
  expansion_bracketed_append _ _ free rest

theorem substitute_cons_of_loose {c : Char} {rest : List Char}
    (loose : Loose c rest) :
    substitute meaning (c :: rest) = c :: substitute meaning rest :=
  expansion_cons_of_loose _ _ loose

/-- A placeholder is exchanged wherever it stands, and the texts around it are
rewritten on their own. -/
theorem substitute_append_append {token text : List Char}
    (shaped : IsPlaceholder token) (meant : meaning token = some text)
    (left right : List Char) :
    substitute meaning (left ++ token ++ right) =
      substitute meaning left ++ text ++ substitute meaning right := by
  obtain ⟨body, free, rfl⟩ := shaped
  rw [substitute, expansion_append_bracketed_append _ _ free, standIn, meant]
  rfl

/-- Only the meaning of the placeholders in the grammar counts. -/
theorem substitute_congr {other : List Char → Option (List Char)}
    {grammar : List Char}
    (agree : ∀ token ∈ placeholders grammar, meaning token = other token) :
    substitute meaning grammar = substitute other grammar := by
  induction grammar using pieceInduction with
  | nil => simp
  | placeholder body rest free ih =>
      rw [placeholders_bracketed_append free, List.forall_mem_cons] at agree
      rw [substitute_bracketed_append free, substitute_bracketed_append free,
        ih agree.2, standIn, standIn, agree.1]
  | loose c rest loose ih =>
      rw [placeholders_cons_of_loose loose] at agree
      rw [substitute_cons_of_loose loose, substitute_cons_of_loose loose, ih agree]

/-- A substitution that means nothing copies. -/
theorem substitute_none (grammar : List Char) :
    substitute (fun _ => none) grammar = grammar := by
  induction grammar using pieceInduction with
  | nil => simp
  | placeholder body rest free ih =>
      rw [substitute_bracketed_append free, ih]
      rfl
  | loose c rest loose ih => rw [substitute_cons_of_loose loose, ih]

/-- A grammar without a placeholder that has a meaning is copied. -/
theorem substitute_eq_self {grammar : List Char}
    (meaningless : ∀ token ∈ placeholders grammar, meaning token = none) :
    substitute meaning grammar = grammar :=
  (substitute_congr meaningless).trans (substitute_none grammar)

/-- A grammar in which the token does not occur is copied. -/
theorem substitute_exchanging_eq_self {token replacement grammar : List Char}
    (absent : token ∉ placeholders grammar) :
    substitute (exchanging token replacement) grammar = grammar :=
  substitute_eq_self fun _ member =>
    exchanging_of_ne fun same => absent (same ▸ member)

/-! ## Replacing one token -/

/-- The replacement of a token is the substitution of this token. -/
theorem toList_replace (grammar token replacement : String) :
    (replace grammar token replacement).toList =
      substitute (exchanging token.toList replacement.toList) grammar.toList := by
  cases mentioned : mentions grammar token with
  | false =>
      have absent : token.toList ∉ placeholders grammar.toList := fun member => by
        rw [mentions_iff_mem_placeholders.mpr member] at mentioned
        contradiction
      rw [replace_of_not_mentions replacement mentioned,
        substitute_exchanging_eq_self absent]
  | true =>
      have pieces : Token.replaced token.toList replacement.toList =
          Token.expansion (standIn (exchanging token.toList replacement.toList))
            fun c => [c] := by
        funext piece
        cases piece with
        | placeholder body =>
            by_cases same : bracketed body = token.toList <;>
              simp [Token.replaced, Token.isPlaceholder, Token.expansion, Token.chars,
                standIn, exchanging, same]
        | text chars =>
            simp [Token.replaced, Token.isPlaceholder, Token.expansion, Token.chars]
      rw [replace, replace?, if_pos mentioned, Option.getD_some, String.toList_ofList,
        pieces]
      rfl

/-- The substitution of a token is the replacement of all its occurrences. -/
theorem replaced_substitute {token replacement : List Char}
    (shaped : IsPlaceholder token) (grammar : List Char) :
    Text.Replaced token replacement grammar
      (substitute (exchanging token replacement) grammar) := by
  induction grammar using pieceInduction with
  | nil =>
      rw [substitute_nil]
      exact .done
  | placeholder body rest free ih =>
      rw [substitute_bracketed_append free, standIn]
      by_cases same : bracketed body = token
      · rw [same, exchanging_self]
        exact .found ih
      · rw [exchanging_of_ne same, Option.getD_none]
        have different : ¬ token <+: bracketed body ++ rest := fun starts =>
          same (shaped.eq_of_isPrefix free starts)
        have unopened : '<' ∉ body ++ ['>'] :=
          IsPlaceholder.open_not_mem_tail ⟨body, free, rfl⟩
        obtain ⟨other, _, rfl⟩ := shaped
        exact .copied different (ih.append_of_not_mem unopened)
  | loose c rest loose ih =>
      rw [substitute_cons_of_loose loose]
      exact .copied (loose.not_isPrefix shaped) ih

/-! ## Texts that look outward -/

/-- A text with brackets of which the first opens and the last closes. -/
def Guarded (text : List Char) : Prop :=
  (brackets text).head? = some '<' ∧ (brackets text).getLast? = some '>'

instance (text : List Char) : Decidable (Guarded text) :=
  inferInstanceAs (Decidable (_ ∧ _))

theorem guarded_bracketed {body : List Char} (free : BracketFree body) :
    Guarded (bracketed body) := by
  simp [Guarded, free]

/-- Nothing is opened at the end of a guarded text. -/
theorem Guarded.apart {text : List Char} (guarded : Guarded text)
    (right : List Char) : Apart text right := by
  intro opened
  rw [guarded.2] at opened
  contradiction

/-- Every new text of a substitution is guarded. -/
def GuardedMeaning (meaning : List Char → Option (List Char)) : Prop :=
  ∀ token text, meaning token = some text → Guarded text

theorem GuardedMeaning.standIn (guarded : GuardedMeaning meaning) {body : List Char}
    (free : BracketFree body) : Guarded (standIn meaning body) := by
  rw [Grammar.standIn]
  cases meant : meaning (bracketed body) with
  | none => exact guarded_bracketed free
  | some text => exact guarded _ _ meant

/-- The first bracket stays of the same kind. -/
theorem GuardedMeaning.head?_brackets_substitute (guarded : GuardedMeaning meaning)
    (grammar : List Char) :
    (brackets (substitute meaning grammar)).head? = (brackets grammar).head? := by
  induction grammar using pieceInduction with
  | nil => simp
  | placeholder body rest free ih =>
      rw [substitute_bracketed_append free]
      simp [List.head?_append, (guarded.standIn free).1, free]
  | loose c rest loose ih =>
      rw [substitute_cons_of_loose loose]
      cases bracket : isBracket c with
      | true => simp [brackets_cons_of_isBracket bracket]
      | false => simpa [brackets_cons_of_not_isBracket bracket] using ih

/-- The last bracket stays of the same kind. -/
theorem GuardedMeaning.getLast?_brackets_substitute (guarded : GuardedMeaning meaning)
    (grammar : List Char) :
    (brackets (substitute meaning grammar)).getLast? = (brackets grammar).getLast? := by
  induction grammar using pieceInduction with
  | nil => simp
  | placeholder body rest free ih =>
      rw [substitute_bracketed_append free, brackets_append, brackets_append,
        List.getLast?_append, List.getLast?_append, ih, (guarded.standIn free).2,
        (guarded_bracketed free).2]
  | loose c rest loose ih =>
      rw [substitute_cons_of_loose loose]
      cases bracket : isBracket c with
      | true => simp [brackets_cons_of_isBracket bracket, List.getLast?_cons, ih]
      | false => simpa [brackets_cons_of_not_isBracket bracket] using ih

/-- A guarded text stays guarded. -/
theorem Guarded.substitute {text : List Char} (guarded : Guarded text)
    (guardedMeaning : GuardedMeaning meaning) : Guarded (substitute meaning text) :=
  ⟨(guardedMeaning.head?_brackets_substitute text).trans guarded.1,
    (guardedMeaning.getLast?_brackets_substitute text).trans guarded.2⟩

/-- A loose character stays loose before the rewritten text. -/
theorem Loose.substitute (guarded : GuardedMeaning meaning) {c : Char}
    {rest : List Char} (loose : Loose c rest) : Loose c (substitute meaning rest) := by
  intro opened
  rw [guarded.head?_brackets_substitute]
  exact loose opened

/-- Expanding a rewritten grammar is expanding the texts written into it. -/
theorem expansion_substitute (guarded : GuardedMeaning meaning)
    (ofBody : List Char → List β) (ofChar : Char → List β) (grammar : List Char) :
    expansion ofBody ofChar (substitute meaning grammar) =
      expansion (fun body => expansion ofBody ofChar (standIn meaning body)) ofChar
        grammar := by
  induction grammar using pieceInduction with
  | nil => simp
  | placeholder body rest free ih =>
      rw [substitute_bracketed_append free, expansion_bracketed_append _ _ free,
        expansion_append _ _ ((guarded.standIn free).apart _), ih]
  | loose c rest loose ih =>
      rw [substitute_cons_of_loose loose, expansion_cons_of_loose _ _ loose,
        expansion_cons_of_loose _ _ (loose.substitute guarded), ih]

/-- The placeholders of a rewritten grammar are those of the texts written into it. -/
theorem placeholders_substitute (guarded : GuardedMeaning meaning)
    (grammar : List Char) :
    placeholders (substitute meaning grammar) =
      (placeholders grammar).flatMap fun token =>
        match meaning token with
        | some text => placeholders text
        | none => [token] := by
  rw [placeholders_eq_expansion, expansion_substitute guarded,
    ← placeholders_eq_expansion]
  induction grammar using pieceInduction with
  | nil => simp
  | placeholder body rest free ih =>
      rw [expansion_bracketed_append _ _ free, placeholders_bracketed_append free,
        List.flatMap_cons, ih, Grammar.standIn]
      congr 1
      cases meaning (bracketed body) with
      | none => exact placeholders_bracketed free
      | some text => rfl
  | loose c rest loose ih =>
      rw [expansion_cons_of_loose _ _ loose, placeholders_cons_of_loose loose, ih]
      rfl

/-- A substitution after one whose texts it does not touch can be made in the same
pass. -/
theorem substitute_substitute {second : List Char → Option (List Char)}
    (guarded : GuardedMeaning meaning)
    (untouched : ∀ token text, meaning token = some text →
      substitute second text = text) (grammar : List Char) :
    substitute second (substitute meaning grammar) =
      substitute (fun token => (meaning token).or (second token)) grammar := by
  have agree : ∀ body, BracketFree body →
      substitute second (Grammar.standIn meaning body) =
        Grammar.standIn (fun token => (meaning token).or (second token)) body := by
    intro body free
    rw [Grammar.standIn, Grammar.standIn]
    cases meant : meaning (bracketed body) with
    | none => exact expansion_bracketed _ _ free
    | some text => exact untouched _ _ meant
  calc
    substitute second (substitute meaning grammar) =
        expansion (fun body => substitute second (Grammar.standIn meaning body))
          (fun c => [c]) grammar := expansion_substitute guarded _ _ grammar
    _ = _ := congrFun (expansion_congr agree fun c => [c]) grammar

end GrammarUpgrade.Grammar
