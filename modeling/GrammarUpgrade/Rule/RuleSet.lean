import GrammarUpgrade.Rule.Basic

/-!
# Rule sets

A rule set is a non-empty list of valid rules with different tokens, in the order
in which they are applied.  `RuleSet.ofList` is the only way to make one from
arbitrary rules; it reports the first fault in list order.
-/

namespace GrammarUpgrade

/-- What a list of rules must satisfy to be used. -/
structure Rule.Accepted (rules : List Rule) : Prop where
  nonempty : rules ≠ []
  valid : ∀ rule ∈ rules, rule.Valid
  distinct : (rules.map Rule.token).Nodup

/-- An ordered set of replacement rules. -/
structure RuleSet where
  rules : List Rule
  accepted : Rule.Accepted rules

namespace RuleSet

/-- The first fault of a list of rules that follow rules with the tokens `seen`:
at each rule its own fault comes before a repeated token. -/
def firstFault? (seen : List String) : List Rule → Option RuleError
  | [] => none
  | rule :: rest =>
      match rule.fault? with
      | some fault => some fault
      | none =>
          if rule.token ∈ seen then
            some (.repeatedToken rule.token)
          else
            firstFault? (rule.token :: seen) rest

/-- Rules have no fault exactly when each is valid and the tokens differ from one
another and from the ones seen before. -/
theorem firstFault?_eq_none_iff {seen : List String} {rules : List Rule} :
    firstFault? seen rules = none ↔
      (∀ rule ∈ rules, rule.Valid) ∧ (rules.map Rule.token).Nodup ∧
        ∀ rule ∈ rules, rule.token ∉ seen := by
  induction rules generalizing seen with
  | nil => simp [firstFault?]
  | cons rule rest ih =>
      unfold firstFault?
      cases fault : rule.fault? with
      | some found =>
          have invalid : ¬ rule.Valid := by
            rw [← Rule.fault?_eq_none_iff, fault]
            simp
          simp [invalid]
      | none =>
          have valid : rule.Valid := Rule.fault?_eq_none_iff.mp fault
          by_cases repeated : rule.token ∈ seen
          · simp [repeated]
          · simp only [repeated, if_false, ih, List.map_cons, List.nodup_cons,
              List.mem_map, List.mem_cons, not_or]
            constructor
            · rintro ⟨valids, nodup, fresh⟩
              refine ⟨?_, ⟨?_, nodup⟩, ?_⟩
              · rintro other (rfl | member)
                · exact valid
                · exact valids other member
              · rintro ⟨other, member, same⟩
                exact (fresh other member).1 same
              · rintro other (rfl | member)
                · exact repeated
                · exact (fresh other member).2
            · rintro ⟨valids, ⟨fresh, nodup⟩, unseen⟩
              exact ⟨fun other member => valids other (.inr member), nodup,
                fun other member => ⟨fun same => fresh ⟨other, member, same⟩,
                  unseen other (.inr member)⟩⟩

/-- Make a rule set, or say which rule stands in the way. -/
def ofList (rules : List Rule) : Except RuleError RuleSet :=
  if empty : rules = [] then
    .error .noRules
  else
    match found : firstFault? [] rules with
    | some fault => .error fault
    | none =>
        have sound := firstFault?_eq_none_iff.mp found
        .ok ⟨rules, ⟨empty, sound.1, sound.2.1⟩⟩

/-- The rules that send generic colours and lengths to the custom types which the
linter configuration defines beside the generated dictionaries. -/
def tailwind : RuleSet where
  rules :=
    [⟨"<color>", "<tailwindcss-color>"⟩, ⟨"<length>", "<tailwindcss-length>"⟩]
  accepted :=
    ⟨by simp, by decide +kernel, by decide +kernel⟩

/-- The rules that put the extended grammar in place of generic colours and
lengths instead of naming a custom type. -/
def inlined : RuleSet where
  rules :=
    [⟨"<color>", "[<color>|<--alpha()>]"⟩, ⟨"<length>", "[<length>|<--spacing()>]"⟩]
  accepted :=
    ⟨by simp, by decide +kernel, by decide +kernel⟩

instance : Inhabited RuleSet := ⟨tailwind⟩

/-- The number of rules. -/
def size (set : RuleSet) : Nat :=
  set.rules.length

/-- Whether a grammar mentions the token of some rule. -/
def matchesGrammar (set : RuleSet) (grammar : String) : Bool :=
  set.rules.any (·.matchesGrammar grammar)

/-- Apply every rule in order to the text built so far.  What a rule inserts is
seen by the rules after it. -/
def apply (set : RuleSet) (grammar : String) : String :=
  set.rules.foldl (fun text rule => rule.apply text) grammar

/-- A grammar that mentions no token of the set is left as it is. -/
theorem apply_of_not_matchesGrammar {set : RuleSet} {grammar : String}
    (unmentioned : set.matchesGrammar grammar = false) :
    set.apply grammar = grammar := by
  simp only [matchesGrammar, List.any_eq_false, Bool.not_eq_true] at unmentioned
  unfold apply
  generalize set.rules = rules at unmentioned
  induction rules with
  | nil => rfl
  | cons rule rest ih =>
      rw [List.foldl_cons,
        Rule.apply_of_not_matchesGrammar (unmentioned rule (by simp))]
      exact ih fun other member => unmentioned other (by simp [member])

end RuleSet

end GrammarUpgrade
