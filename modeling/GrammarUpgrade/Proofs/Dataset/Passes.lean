import GrammarUpgrade.Generation
import GrammarUpgrade.Proofs.Dataset.Accepted

/-!
# Several passes

An upgraded dataset can be upgraded again, with other rules.  A definition is left after
some passes if it was a candidate in each of them, and it may have become one only through
what an earlier pass has written.  The main statement, `mem_upgradeAll_iff`, says which
definitions these are and what has become of them: all passes have been applied to their
grammars, and nothing else has changed.
-/

namespace GrammarUpgrade

variable {ρ α : Type}

/-- What is said of each element of a list and those before it is said of the first and
of the others. -/
theorem forall_split_cons_iff {holds : List ρ → ρ → Prop} {first : ρ} {others : List ρ} :
    (∀ before one after, first :: others = before ++ one :: after → holds before one) ↔
      holds [] first ∧
        ∀ before one after, others = before ++ one :: after → holds (first :: before) one := by
  constructor
  · intro all
    refine ⟨all [] first others rfl, ?_⟩
    rintro before one after rfl
    exact all (first :: before) one after rfl
  · rintro ⟨atFirst, atOthers⟩ before one after split
    cases before with
    | nil =>
        obtain ⟨rfl, _⟩ := List.cons.inj split
        exact atFirst
    | cons other before =>
        obtain ⟨rfl, rest⟩ := List.cons.inj split
        exact atOthers before one after rest

namespace Dictionary

theorem keys_filterMap_sublist {β : Type} (change : α → Option β) (dictionary : Dictionary α) :
    (dictionary.filterMap change).keys.Sublist dictionary.keys := by
  rw [keys_filterMap]
  exact List.filter_sublist.map Prod.fst

theorem mapValues_mapValues {β γ : Type} (first : α → β) (second : β → γ)
    (dictionary : Dictionary α) :
    (dictionary.mapValues first).mapValues second =
      dictionary.mapValues fun value => second (first value) := by
  apply eq_of_entries_eq
  simp [mapValues]

theorem mapValues_self (dictionary : Dictionary α) :
    dictionary.mapValues (fun value => value) = dictionary := by
  apply eq_of_entries_eq
  simp [mapValues]

/-- Change the values of a dictionary in several passes.  An entry that a pass leaves out
is gone for the passes after it. -/
def filterMapAll (change : ρ → α → Option α) (passes : List ρ) (dictionary : Dictionary α) :
    Dictionary α :=
  passes.foldl (fun changed pass => changed.filterMap (change pass)) dictionary

theorem keys_filterMapAll_sublist (change : ρ → α → Option α) (passes : List ρ)
    (dictionary : Dictionary α) :
    (dictionary.filterMapAll change passes).keys.Sublist dictionary.keys := by
  induction passes generalizing dictionary with
  | nil => exact List.Sublist.refl _
  | cons pass others ih => exact (ih _).trans (keys_filterMap_sublist _ dictionary)

/-- An entry is left after some passes if each of them keeps what those before it have
made of the entry. -/
theorem mem_filterMapAll_iff {change : ρ → α → Option α} {kept : ρ → α → Bool}
    {changed : ρ → α → α}
    (decided : ∀ pass value,
      change pass value = if kept pass value then some (changed pass value) else none)
    {passes : List ρ} {dictionary : Dictionary α} {key : String} {value : α} :
    (key, value) ∈ (dictionary.filterMapAll change passes).entries ↔
      ∃ original, (key, original) ∈ dictionary.entries ∧
        (∀ before pass after, passes = before ++ pass :: after →
          kept pass (before.foldl (fun value pass => changed pass value) original) = true) ∧
        value = passes.foldl (fun value pass => changed pass value) original := by
  induction passes generalizing dictionary with
  | nil => simp [filterMapAll]
  | cons pass others ih =>
      rw [filterMapAll, List.foldl_cons, ← filterMapAll, ih,
        entries_filterMap_of_eq_ite (decided pass)]
      simp only [forall_split_cons_iff, List.mem_map, List.mem_filter, List.foldl_cons,
        List.foldl_nil]
      constructor
      · rintro ⟨_, ⟨⟨key, original⟩, ⟨member, keptFirst⟩, same⟩, keptLater, rfl⟩
        cases same
        exact ⟨original, member, ⟨keptFirst, keptLater⟩, rfl⟩
      · rintro ⟨original, member, ⟨keptFirst, keptLater⟩, rfl⟩
        exact ⟨changed pass original, ⟨(key, original), ⟨member, keptFirst⟩, rfl⟩,
          keptLater, rfl⟩

end Dictionary

namespace RuleSet

/-- Apply the rule sets of some passes one after the other. -/
def applyAll (passes : List RuleSet) (grammar : String) : String :=
  passes.foldl (fun text rules => rules.apply text) grammar

/-- A grammar is a candidate in each of some passes, given what the passes before have
made of it. -/
def Survives (passes : List RuleSet) (grammar : String) : Prop :=
  ∀ before rules after, passes = before ++ rules :: after →
    rules.matchesGrammar (applyAll before grammar) = true

end RuleSet

namespace AtRule

/-- Some descriptor of an at-rule is a candidate in each of some passes, not always the
same one. -/
def Survives (passes : List RuleSet) (entry : AtRule) : Prop :=
  ∀ before rules after, passes = before ++ rules :: after →
    ∃ descriptors, entry.descriptors = some descriptors ∧
      ∃ descriptor ∈ descriptors.entries,
        rules.matchesGrammar (RuleSet.applyAll before descriptor.2) = true

/-- Rewriting in several passes applies all of them to every descriptor. -/
theorem foldl_rewritten (passes : List RuleSet) (entry : AtRule) :
    passes.foldl (fun entry rules => entry.rewritten rules) entry =
      { entry with
        descriptors := entry.descriptors.map (·.mapValues (RuleSet.applyAll passes)) } := by
  induction passes generalizing entry with
  | nil =>
      have same : (fun descriptors : Dictionary String =>
          descriptors.mapValues (RuleSet.applyAll [])) = id :=
        funext Dictionary.mapValues_self
      rw [same, Option.map_id]
      rfl
  | cons rules others ih =>
      have composed : (fun descriptors : Dictionary String =>
          (descriptors.mapValues rules.apply).mapValues (RuleSet.applyAll others)) =
            fun descriptors => descriptors.mapValues (RuleSet.applyAll (rules :: others)) :=
        funext fun descriptors => descriptors.mapValues_mapValues _ _
      rw [List.foldl_cons, ih, rewritten, ← composed, Option.map_map]
      rfl

/-- An at-rule is a candidate through one of its descriptors. -/
theorem isCandidate_iff {rules : RuleSet} {entry : AtRule} :
    entry.isCandidate rules = true ↔
      ∃ descriptors, entry.descriptors = some descriptors ∧
        ∃ descriptor ∈ descriptors.entries, rules.matchesGrammar descriptor.2 = true := by
  unfold isCandidate
  cases entry.descriptors <;> simp

theorem isCandidate_foldl_rewritten_iff {rules : RuleSet} {passes : List RuleSet}
    {entry : AtRule} :
    (passes.foldl (fun entry rules => entry.rewritten rules) entry).isCandidate rules = true ↔
      ∃ descriptors, entry.descriptors = some descriptors ∧
        ∃ descriptor ∈ descriptors.entries,
          rules.matchesGrammar (RuleSet.applyAll passes descriptor.2) = true := by
  rw [foldl_rewritten, isCandidate_iff]
  cases entry.descriptors <;> simp [Dictionary.mapValues]

end AtRule

namespace Dataset

variable {dataset : Dataset} {passes : List RuleSet} {name : String}

/-- The sections of a dataset are upgraded apart from one another. -/
theorem upgradeAll_eq (dataset : Dataset) (passes : List RuleSet) :
    dataset.upgradeAll passes =
      { types := dataset.types.filterMapAll RuleSet.upgrade? passes
        properties := dataset.properties.filterMapAll RuleSet.upgrade? passes
        atRules := dataset.atRules.filterMapAll AtRule.upgrade? passes } := by
  induction passes generalizing dataset with
  | nil => rfl
  | cons rules others ih => exact ih (dataset.upgrade rules)

/-- A grammar is left after some passes if it was a candidate in each. -/
theorem mem_grammars_iff {grammars : Dictionary String} {grammar : String} :
    (name, grammar) ∈ (grammars.filterMapAll RuleSet.upgrade? passes).entries ↔
      ∃ original, (name, original) ∈ grammars.entries ∧
        RuleSet.Survives passes original ∧ grammar = RuleSet.applyAll passes original :=
  Dictionary.mem_filterMapAll_iff fun _ _ => rfl

/-- After any number of passes the names of each section are among those of the dataset,
in their order.  The definitions that are left are the ones that were candidates in every
pass.  All passes have been applied to a type, to a property and to each descriptor of an
at-rule in its place; the prelude and the further members of an at-rule are as they
were. -/
theorem mem_upgradeAll_iff (dataset : Dataset) (passes : List RuleSet) :
    let upgraded := dataset.upgradeAll passes
    (∀ document, (upgraded.names document).Sublist (dataset.names document)) ∧
      (∀ name grammar, (name, grammar) ∈ upgraded.types.entries ↔
        ∃ original, (name, original) ∈ dataset.types.entries ∧
          RuleSet.Survives passes original ∧ grammar = RuleSet.applyAll passes original) ∧
      (∀ name grammar, (name, grammar) ∈ upgraded.properties.entries ↔
        ∃ original, (name, original) ∈ dataset.properties.entries ∧
          RuleSet.Survives passes original ∧ grammar = RuleSet.applyAll passes original) ∧
      ∀ name entry, (name, entry) ∈ upgraded.atRules.entries ↔
        ∃ original, (name, original) ∈ dataset.atRules.entries ∧
          original.Survives passes ∧
          entry = { original with
            descriptors := original.descriptors.map
              (·.mapValues (RuleSet.applyAll passes)) } := by
  intro upgraded
  have sections : upgraded = _ := dataset.upgradeAll_eq passes
  rw [sections]
  refine ⟨?_, fun _ _ => mem_grammars_iff, fun _ _ => mem_grammars_iff, ?_⟩
  · intro document
    cases document <;> exact Dictionary.keys_filterMapAll_sublist _ passes _
  · intro name entry
    rw [Dictionary.mem_filterMapAll_iff AtRule.upgrade?_eq_ite]
    simp only [AtRule.isCandidate_foldl_rewritten_iff]
    simp only [AtRule.foldl_rewritten]
    rfl

/-- What the first pass has written makes the type a candidate for the second, and leaves
nothing for a third. -/
example :
    let dataset : Dataset := ⟨.ofList [("tint", "<color>"), ("gap", "auto")], .empty, .empty⟩
    (dataset.upgradeAll [.inlined, .tailwind]).types.entries =
        [("tint", "[<tailwindcss-color>|<--alpha()>]")] ∧
      (dataset.upgradeAll [.inlined, .tailwind, .inlined]).types.entries = [] := by
  decide +kernel

end Dataset

end GrammarUpgrade
