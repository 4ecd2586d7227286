import GrammarUpgrade.Proofs.Rule.Accepted

/-!
# Guarded rule sets

The replacement of a guarded rule begins and ends in brackets that look outward, so
that it cannot merge with what stands around it.  Guarded rules act on the sequence of
placeholders alone, one rule after the other.  When moreover no replacement contains a
token, no rule acts on what another has written: the rules can be applied in a single
pass over the pieces of the grammar, and their order does not matter.  Both facts make
up the main statement, `apply_guarded`.
-/

namespace GrammarUpgrade

open Grammar

namespace Rule

/-- The rule's effect on a sequence of placeholders. -/
def rewritePlaceholders (rule : Rule) (found : List (List Char)) : List (List Char) :=
  found.flatMap fun token =>
    if token = rule.token.toList then placeholders rule.replacement.toList else [token]

/-- One pass over the pieces of a grammar in which every placeholder that is the token
of a rule is replaced and every other piece is copied. -/
def applyAtOnce (rules : List Rule) (grammar : String) : String :=
  String.ofList ((lex grammar).flatMap fun piece =>
    match rules.find? fun rule => piece.isPlaceholder rule.token.toList with
    | some rule => rule.replacement.toList
    | none => piece.chars)

/-- The replacement that rules have for a placeholder. -/
def replacement? (rules : List Rule) (token : List Char) : Option (List Char) :=
  (rules.find? fun rule => token = rule.token.toList).map (·.replacement.toList)

theorem guardedMeaning_exchanging {rule : Rule}
    (guarded : Guarded rule.replacement.toList) :
    GuardedMeaning (exchanging rule.token.toList rule.replacement.toList) := by
  intro token text meant
  obtain ⟨_, rfl⟩ := exchanging_eq_some_iff.mp meant
  exact guarded

/-- A guarded rule turns the placeholders of a text into those of the rewritten text. -/
theorem placeholders_rewrite {rule : Rule} (guarded : Guarded rule.replacement.toList)
    (text : List Char) :
    placeholders (rule.rewrite text) =
      rule.rewritePlaceholders (placeholders text) := by
  rw [rewrite, placeholders_substitute (guardedMeaning_exchanging guarded),
    rewritePlaceholders]
  congr 1
  funext token
  by_cases same : token = rule.token.toList
  · rw [if_pos same, same, exchanging_self]
  · rw [if_neg same, exchanging_of_ne same]

theorem placeholders_rewriteAll {rules : List Rule}
    (guarded : ∀ rule ∈ rules, Guarded rule.replacement.toList) (text : List Char) :
    placeholders (rewriteAll rules text) =
      rules.foldl (fun found rule => rule.rewritePlaceholders found)
        (placeholders text) := by
  induction rules generalizing text with
  | nil => rfl
  | cons rule rest ih =>
      rw [List.forall_mem_cons] at guarded
      rw [List.foldl_cons, ← placeholders_rewrite guarded.1]
      exact ih guarded.2 (rule.rewrite text)

/-! ## All rules at once -/

/-- The first rule has the first say. -/
theorem replacement?_cons (rule : Rule) (rest : List Rule) (token : List Char) :
    replacement? (rule :: rest) token =
      (exchanging rule.token.toList rule.replacement.toList token).or
        (replacement? rest token) := by
  by_cases same : token = rule.token.toList
  · simp [replacement?, same]
  · simp [replacement?, same, exchanging_of_ne same]

/-- Rules have no replacement for a placeholder that is none of their tokens. -/
theorem replacement?_eq_none {rules : List Rule} {token : List Char}
    (other : ∀ rule ∈ rules, token ≠ rule.token.toList) :
    replacement? rules token = none := by
  rw [replacement?, Option.map_eq_none_iff, List.find?_eq_none]
  simpa using other

/-- With different tokens a placeholder has the replacement of the rule for it. -/
theorem replacement?_eq_some_iff {rules : List Rule}
    (distinct : (rules.map Rule.token).Nodup) {token text : List Char} :
    replacement? rules token = some text ↔
      ∃ rule ∈ rules, rule.token.toList = token ∧ rule.replacement.toList = text := by
  induction rules with
  | nil => simp [replacement?]
  | cons rule rest ih =>
      rw [List.map_cons, List.nodup_cons] at distinct
      rw [replacement?_cons]
      by_cases same : token = rule.token.toList
      · rw [same, exchanging_self, Option.some_or, Option.some.injEq]
        constructor
        · rintro rfl
          exact ⟨rule, List.mem_cons_self, rfl, rfl⟩
        · rintro ⟨other, member, written, rfl⟩
          rcases List.mem_cons.mp member with rfl | member
          · rfl
          · have repeated : other.token = rule.token := String.toList_injective written
            exact absurd (repeated ▸ List.mem_map_of_mem member) distinct.1
      · rw [exchanging_of_ne same, Option.none_or, ih distinct.2]
        simp [Ne.symm same]

/-- The order of the rules does not matter for what they have for a placeholder. -/
theorem Accepted.replacement?_perm {rules other : List Rule}
    (accepted : Accepted rules) (perm : other.Perm rules) :
    replacement? other = replacement? rules := by
  funext token
  apply Option.ext
  intro text
  rw [replacement?_eq_some_iff (accepted.perm perm).distinct,
    replacement?_eq_some_iff accepted.distinct]
  simp only [perm.mem_iff]

/-- Guarded rules that write no tokens rewrite a text in one pass: what the first rule
writes is out of reach of the others. -/
theorem rewriteAll_eq_substitute {rules : List Rule}
    (guarded : ∀ rule ∈ rules, Guarded rule.replacement.toList)
    (tokenFree : TokenFree rules) (text : List Char) :
    rewriteAll rules text = substitute (replacement? rules) text := by
  induction rules generalizing text with
  | nil => exact (substitute_none text).symm
  | cons rule rest ih =>
      rw [List.forall_mem_cons] at guarded
      have tokenFreeRest : TokenFree rest :=
        tokenFree.of_subset (List.subset_cons_self rule rest)
      have untouched : substitute (replacement? rest) rule.replacement.toList =
          rule.replacement.toList := by
        refine substitute_eq_self fun token found => replacement?_eq_none ?_
        rintro other member rfl
        exact tokenFree rule List.mem_cons_self other (List.mem_cons_of_mem _ member)
          (mem_placeholders_iff.mp found).2
      have outOfReach : ∀ token text,
          exchanging rule.token.toList rule.replacement.toList token = some text →
            substitute (replacement? rest) text = text := by
        intro token text meant
        obtain ⟨_, rfl⟩ := exchanging_eq_some_iff.mp meant
        exact untouched
      calc
        rewriteAll (rule :: rest) text = rewriteAll rest (rule.rewrite text) := rfl
        _ = substitute (replacement? rest) (rule.rewrite text) :=
          ih guarded.2 tokenFreeRest _
        _ = _ := substitute_substitute (guardedMeaning_exchanging guarded.1) outOfReach
          text
        _ = substitute (replacement? (rule :: rest)) text :=
          congrArg (substitute · text)
            (funext fun token => (replacement?_cons rule rest token).symm)

theorem toList_applyAtOnce (rules : List Rule) (grammar : String) :
    (applyAtOnce rules grammar).toList =
      substitute (replacement? rules) grammar.toList := by
  rw [applyAtOnce, String.toList_ofList, substitute, expansion, lex]
  congr 1
  funext piece
  cases piece with
  | placeholder body =>
      simp only [Token.isPlaceholder, Token.expansion, standIn, replacement?]
      cases rules.find? fun rule => bracketed body = rule.token.toList <;> rfl
  | text chars =>
      have noRule : (rules.find? fun rule =>
          (Token.text chars).isPlaceholder rule.token.toList) = none :=
        List.find?_eq_none.mpr fun _ _ => Bool.false_ne_true
      rw [noRule]
      simp [Token.expansion, Token.chars]

end Rule

namespace RuleSet

/-- Every replacement is guarded. -/
def Guarded (set : RuleSet) : Prop :=
  ∀ rule ∈ set.rules, Grammar.Guarded rule.replacement.toList

instance (set : RuleSet) : Decidable set.Guarded :=
  inferInstanceAs (Decidable (∀ rule ∈ set.rules, _))

theorem apply_eq_applyAtOnce {set : RuleSet} (guarded : set.Guarded)
    (tokenFree : Rule.TokenFree set.rules) (grammar : String) :
    set.apply grammar = Rule.applyAtOnce set.rules grammar := by
  apply String.toList_injective
  rw [toList_apply, Rule.toList_applyAtOnce]
  exact Rule.rewriteAll_eq_substitute guarded tokenFree grammar.toList

/-- A permutation of guarded rules that write no tokens does the same. -/
theorem exists_permuted {set : RuleSet} (guarded : set.Guarded)
    (tokenFree : Rule.TokenFree set.rules) {permuted : List Rule}
    (perm : permuted.Perm set.rules) :
    ∃ other, RuleSet.ofList permuted = .ok other ∧
      ∀ grammar, other.apply grammar = set.apply grammar := by
  refine ⟨⟨permuted, set.accepted.perm perm⟩, ofList_eq_ok_iff.mpr rfl, ?_⟩
  have guardedOther : ∀ rule ∈ permuted, Grammar.Guarded rule.replacement.toList :=
    fun rule member => guarded rule (perm.subset member)
  have tokenFreeOther : Rule.TokenFree permuted := tokenFree.of_subset perm.subset
  intro grammar
  apply String.toList_injective
  rw [toList_apply, toList_apply,
    Rule.rewriteAll_eq_substitute guardedOther tokenFreeOther,
    Rule.rewriteAll_eq_substitute guarded tokenFree,
    set.accepted.replacement?_perm perm]

theorem guarded_tailwind : tailwind.Guarded := by
  decide +kernel

theorem guarded_inlined : inlined.Guarded := by
  decide +kernel

end RuleSet

/-- The rule sets at hand are guarded.  A guarded rule set rewrites the sequence of
placeholders rule by rule; if its replacements contain no tokens, it does so in a single
pass, and the order of its rules does not matter. -/
theorem apply_guarded :
    (RuleSet.tailwind.Guarded ∧ RuleSet.inlined.Guarded) ∧
      ∀ set : RuleSet, set.Guarded →
        (∀ grammar, placeholders (set.apply grammar).toList =
          set.rules.foldl (fun found rule => rule.rewritePlaceholders found)
            (placeholders grammar.toList)) ∧
        (Rule.TokenFree set.rules →
          (∀ grammar, set.apply grammar = Rule.applyAtOnce set.rules grammar) ∧
          ∀ permuted : List Rule, permuted.Perm set.rules →
            ∃ other, RuleSet.ofList permuted = .ok other ∧
              ∀ grammar, other.apply grammar = set.apply grammar) := by
  refine ⟨⟨RuleSet.guarded_tailwind, RuleSet.guarded_inlined⟩, fun set guarded => ⟨?_, ?_⟩⟩
  · intro grammar
    rw [RuleSet.toList_apply]
    exact Rule.placeholders_rewriteAll guarded grammar.toList
  · intro tokenFree
    constructor
    · intro grammar
      exact RuleSet.apply_eq_applyAtOnce guarded tokenFree grammar
    · intro permuted perm
      exact RuleSet.exists_permuted guarded tokenFree perm

/-- The rules for custom types can change places. -/
theorem apply_tailwind_reversed :
    ∃ other, RuleSet.ofList RuleSet.tailwind.rules.reverse = .ok other ∧
      ∀ grammar, other.apply grammar = RuleSet.tailwind.apply grammar := by
  have tokenFree : Rule.TokenFree RuleSet.tailwind.rules := by decide +kernel
  obtain ⟨⟨guarded, _⟩, general⟩ := apply_guarded
  exact ((general RuleSet.tailwind guarded).2 tokenFree).2 _ (List.reverse_perm _)

end GrammarUpgrade
