import GrammarUpgrade.Proofs.Rule.Accepted

/-!
# The rule that is blamed

A list of rules that cannot be used is refused for one rule: the first that has a fault
after the rules before it.  Of several faults of this rule the shape of its token is named
before its fragment, and its fragment before the repetition of a token.  The main
statement, `ofList_eq_error_iff_firstFaulty`, says which lists are refused and for what;
since the rules behind the blamed one have no say in this, more rules do not change it.
-/

namespace GrammarUpgrade

open Grammar

variable {seen : List String} {rules : List Rule} {rule : Rule} {error : RuleError}
  {position : Nat}

namespace Rule

/-- A body without brackets that is not blank, between brackets. -/
def IsToken (token : String) : Prop :=
  ∃ body, BracketFree body ∧ (∃ c ∈ body, Text.isBlank c = false) ∧
    bracketed body = token.toList

/-- What is wrong with a rule that follows rules with the tokens `seen`.  A later case
supposes that the earlier ones do not apply. -/
inductive Faulty (seen : List String) (rule : Rule) : RuleError → Prop
  | tokenShape : ¬ IsToken rule.token → Faulty seen rule (.tokenShape rule.token)
  | emptyFragment : IsToken rule.token → rule.replacement = "" →
      Faulty seen rule (.emptyFragment rule.token)
  | repeatedToken : IsToken rule.token → rule.replacement ≠ "" → rule.token ∈ seen →
      Faulty seen rule (.repeatedToken rule.token)

/-- The rule at a position is faulty after the tokens `seen` and those of the rules
before it. -/
def FaultyAt (seen : List String) (rules : List Rule) (position : Nat)
    (error : RuleError) : Prop :=
  ∃ rule, rules[position]? = some rule ∧
    Faulty ((rules.take position).map Rule.token ++ seen) rule error

/-- The error is that of the first position with a faulty rule. -/
def FirstFaulty (seen : List String) (rules : List Rule) (error : RuleError) : Prop :=
  ∃ position, FaultyAt seen rules position error ∧
    ∀ earlier < position, ∀ other, ¬ FaultyAt seen rules earlier other

/-! ## One rule -/

theorem valid_iff_isToken : rule.Valid ↔ IsToken rule.token ∧ rule.replacement ≠ "" :=
  and_congr_left fun _ => namesPlaceholder_iff

/-- A rule is at fault by itself, or it is valid and repeats a token. -/
theorem faulty_iff :
    Faulty seen rule error ↔
      rule.fault? = some error ∨
        rule.fault? = none ∧ rule.token ∈ seen ∧ error = .repeatedToken rule.token := by
  have named : namesPlaceholder rule.token = true ↔ IsToken rule.token :=
    namesPlaceholder_iff
  unfold fault?
  constructor
  · rintro (unnamed | ⟨isToken, empty⟩ | ⟨isToken, filled, repeated⟩)
    · simp [named, unnamed]
    · simp [named, isToken, empty]
    · simp [named, isToken, filled, repeated]
  · intro fault
    by_cases isToken : IsToken rule.token
    · by_cases empty : rule.replacement = ""
      · obtain rfl : RuleError.emptyFragment rule.token = error := by
          simpa [named.mpr isToken, empty] using fault
        exact .emptyFragment isToken empty
      · obtain ⟨repeated, rfl⟩ : rule.token ∈ seen ∧ error = .repeatedToken rule.token := by
          simpa [named.mpr isToken, empty] using fault
        exact .repeatedToken isToken empty repeated
    · have unnamed : namesPlaceholder rule.token = false :=
        Bool.eq_false_iff.mpr (isToken ∘ named.mp)
      obtain rfl : RuleError.tokenShape rule.token = error := by
        simpa [unnamed] using fault
      exact .tokenShape isToken

/-- It does not matter in which order, nor how often, the earlier tokens were seen. -/
theorem faulty_congr {others : List String} (same : ∀ token, token ∈ seen ↔ token ∈ others) :
    Faulty seen rule error ↔ Faulty others rule error := by
  rw [faulty_iff, faulty_iff, same]

/-! ## A list of rules -/

@[simp]
theorem faultyAt_cons_zero :
    FaultyAt seen (rule :: rules) 0 error ↔ Faulty seen rule error := by
  simp [FaultyAt]

@[simp]
theorem faultyAt_cons_succ :
    FaultyAt seen (rule :: rules) (position + 1) error ↔
      FaultyAt (rule.token :: seen) rules position error := by
  unfold FaultyAt
  rw [List.getElem?_cons_succ, List.take_succ_cons, List.map_cons]
  refine exists_congr fun other => and_congr_right fun _ => faulty_congr fun token => ?_
  simp only [List.cons_append, List.mem_cons, List.mem_append]
  exact or_left_comm

/-- The first rule is blamed if it is faulty, and else the first of the others that is
faulty after it. -/
theorem firstFaulty_cons_iff :
    FirstFaulty seen (rule :: rules) error ↔
      Faulty seen rule error ∨
        (∀ other, ¬ Faulty seen rule other) ∧
          FirstFaulty (rule.token :: seen) rules error := by
  constructor
  · rintro ⟨position, faulty, first⟩
    cases position with
    | zero => exact .inl (faultyAt_cons_zero.mp faulty)
    | succ position =>
        simp only [Nat.forall_lt_succ_left, faultyAt_cons_zero, faultyAt_cons_succ] at first
        exact .inr ⟨first.1, position, faultyAt_cons_succ.mp faulty, first.2⟩
  · rintro (faulty | ⟨faultless, position, faulty, first⟩)
    · exact ⟨0, faultyAt_cons_zero.mpr faulty, fun _ impossible => by omega⟩
    · refine ⟨position + 1, faultyAt_cons_succ.mpr faulty, ?_⟩
      simp only [Nat.forall_lt_succ_left, faultyAt_cons_zero, faultyAt_cons_succ]
      exact ⟨faultless, first⟩

/-- Rules that are added at the end do not change which rule is the first faulty one. -/
theorem FirstFaulty.append (blamed : FirstFaulty seen rules error) (added : List Rule) :
    FirstFaulty seen (rules ++ added) error := by
  have unchanged : ∀ {position error}, position < rules.length →
      (FaultyAt seen (rules ++ added) position error ↔
        FaultyAt seen rules position error) := by
    intro position error inside
    rw [FaultyAt, FaultyAt, List.getElem?_append_left inside,
      List.take_append_of_le_length inside.le]
  obtain ⟨position, faulty, first⟩ := blamed
  have ⟨_, found, _⟩ := faulty
  obtain ⟨inside, _⟩ := List.getElem?_eq_some_iff.mp found
  refine ⟨position, (unchanged inside).mpr faulty, fun earlier before other found => ?_⟩
  exact first earlier before other ((unchanged (before.trans inside)).mp found)

end Rule

namespace RuleSet

/-- The first fault that is found is that of the first faulty rule. -/
theorem firstFault?_eq_some_iff :
    firstFault? seen rules = some error ↔ Rule.FirstFaulty seen rules error := by
  induction rules generalizing seen with
  | nil => simp [firstFault?, Rule.FirstFaulty, Rule.FaultyAt]
  | cons rule rest ih =>
      rw [Rule.firstFaulty_cons_iff, ← ih, firstFault?]
      simp only [Rule.faulty_iff]
      cases fault : rule.fault? with
      | some found => simp
      | none => by_cases repeated : rule.token ∈ seen <;> simp [repeated, eq_comm]

theorem ofList_eq_error_iff :
    ofList rules = .error error ↔
      rules = [] ∧ error = .noRules ∨ Rule.FirstFaulty [] rules error := by
  rw [← firstFault?_eq_some_iff]
  unfold ofList
  by_cases empty : rules = []
  · subst empty
    simp [firstFault?, eq_comm]
  · rw [dif_neg empty]
    split
    · rename_i fault found
      simp [empty, found]
    · rename_i found
      simp [empty, found]

/-- Rules are accepted when there are some, each of them is valid and no token comes
twice. -/
theorem exists_ofList_eq_ok_iff :
    (∃ set, ofList rules = .ok set ∧ set.rules = rules) ↔ Rule.Accepted rules := by
  constructor
  · rintro ⟨set, _, rfl⟩
    exact set.accepted
  · intro accepted
    exact ⟨⟨rules, accepted⟩, ofList_eq_ok_iff.mpr rfl, rfl⟩

/-- A rule set is made from a list of rules, and holds just this list, exactly when there
are rules, each names a token and has a fragment, and the tokens are different.  Otherwise
no rules are refused as such, and other lists for their first faulty rule.  What comes
behind the rules that are refused does not change the error. -/
theorem ofList_eq_error_iff_firstFaulty (rules : List Rule) :
    ((∃ set, ofList rules = .ok set ∧ set.rules = rules) ↔
        rules ≠ [] ∧
          (∀ rule ∈ rules, Rule.IsToken rule.token ∧ rule.replacement ≠ "") ∧
          rules.Pairwise fun first second => first.token ≠ second.token) ∧
      (∀ set, ofList rules = .ok set → set.rules = rules) ∧
      (∀ error, ofList rules = .error error ↔
        rules = [] ∧ error = .noRules ∨ Rule.FirstFaulty [] rules error) ∧
      ∀ error added, rules ≠ [] → ofList rules = .error error →
        ofList (rules ++ added) = .error error := by
  refine ⟨?_, fun set made => ofList_eq_ok_iff.mp made, fun _ => ofList_eq_error_iff, ?_⟩
  · rw [exists_ofList_eq_ok_iff]
    simp only [← Rule.valid_iff_isToken]
    constructor
    · intro accepted
      exact ⟨accepted.nonempty, accepted.valid, accepted.pairwise_token_ne⟩
    · rintro ⟨nonempty, valid, distinct⟩
      exact ⟨nonempty, valid, List.pairwise_map.mpr distinct⟩
  · intro error added nonempty refused
    rw [ofList_eq_error_iff] at refused ⊢
    rcases refused with ⟨empty, _⟩ | blamed
    · exact absurd empty nonempty
    · exact .inr (blamed.append added)

/-- The missing fragment of the second rule is named before its repeated token, and before
the token of the third rule, which is none. -/
theorem ofList_missing_fragment :
    ofList [⟨"<a>", "x"⟩, ⟨"<a>", ""⟩] = .error (.emptyFragment "<a>") ∧
      ofList ([⟨"<a>", "x"⟩, ⟨"<a>", ""⟩] ++ [⟨"b", "y"⟩]) =
        .error (.emptyFragment "<a>") := by
  have refused : ofList [⟨"<a>", "x"⟩, ⟨"<a>", ""⟩] = .error (.emptyFragment "<a>") :=
    ofList_eq_error_iff.mpr (.inr (firstFault?_eq_some_iff.mp (by decide +kernel)))
  obtain ⟨_, _, _, unchanged⟩ := ofList_eq_error_iff_firstFaulty
    [⟨"<a>", "x"⟩, ⟨"<a>", ""⟩]
  exact ⟨refused, unchanged _ _ (by simp) refused⟩

end RuleSet

end GrammarUpgrade
