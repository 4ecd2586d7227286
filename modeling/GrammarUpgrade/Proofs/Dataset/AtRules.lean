import GrammarUpgrade.Proofs.Dataset.Candidates
import GrammarUpgrade.Sample

/-!
# Upgraded at-rules

An at-rule is a candidate through its descriptors alone, and the rules are applied to
each of them.  The main statement, `atRules_upgrade`, describes the at-rules of an
upgraded dataset in this way, without the detour through the upgraded descriptors that
are written over the old ones.
-/

namespace GrammarUpgrade

namespace AtRule

/-- Whether the grammar of some descriptor matches the rules. -/
def isCandidate (rules : RuleSet) (entry : AtRule) : Bool :=
  match entry.descriptors with
  | none => false
  | some descriptors =>
      descriptors.entries.any fun descriptor => rules.matchesGrammar descriptor.2

/-- The at-rule with the rules applied to every descriptor. -/
def rewritten (rules : RuleSet) (entry : AtRule) : AtRule :=
  { entry with descriptors := entry.descriptors.map (·.mapValues rules.apply) }

/-- Candidates are upgraded by applying the rules to their descriptors. -/
theorem upgrade?_eq_ite (rules : RuleSet) (entry : AtRule) :
    entry.upgrade? rules =
      if entry.isCandidate rules then some (entry.rewritten rules) else none := by
  rcases entry with ⟨preludeGrammar, descriptors, extra⟩
  cases descriptors with
  | none => rfl
  | some descriptors =>
      have empty : (descriptors.upgrade rules).isEmpty =
          !isCandidate rules ⟨preludeGrammar, some descriptors, extra⟩ :=
        Dictionary.isEmpty_upgrade rules descriptors
      cases candidate : isCandidate rules ⟨preludeGrammar, some descriptors, extra⟩ with
      | false => simp [upgrade?, empty, candidate]
      | true => simp [upgrade?, empty, candidate, rewritten, Dictionary.overlay_upgrade]

end AtRule

/-- The at-rules of an upgraded dataset are the candidates in order, with their prelude
and further members, and with the rules applied to every descriptor in its place. -/
theorem atRules_upgrade (rules : RuleSet) (dataset : Dataset) :
    (dataset.upgrade rules).atRules.entries =
        (dataset.atRules.entries.filter fun entry => entry.2.isCandidate rules).map
          (fun entry => (entry.1, entry.2.rewritten rules)) ∧
      (∀ descriptors : Dictionary String,
        descriptors.overlay (descriptors.upgrade rules) =
          descriptors.mapValues rules.apply) ∧
      ∀ grammar, rules.matchesGrammar grammar = false →
        rules.apply grammar = grammar := by
  refine ⟨?_, Dictionary.overlay_upgrade rules, fun _ unmatched =>
    RuleSet.apply_of_not_matchesGrammar unmatched⟩
  exact Dictionary.entries_filterMap_of_eq_ite (AtRule.upgrade?_eq_ite rules)
    dataset.atRules

/-- An at-rule without descriptors is dropped, and a descriptor without tokens is left
as it is. -/
theorem atRules_upgrade_sample :
    ((Sample.dataset.upgrade RuleSet.tailwind).atRules.entries.map fun entry =>
        (entry.1, entry.2.preludeGrammar, entry.2.descriptors.map (·.entries))) =
      [("font-face", none, some [("src", "<url> | <tailwindcss-length>"),
          ("font-style", "normal | italic")]),
        ("property", some "<custom-property-name>", some [("syntax", "<string>"),
          ("initial-value", "<tailwindcss-color>")])] ∧
      RuleSet.tailwind.apply "normal | italic" = "normal | italic" := by
  obtain ⟨entries, _, unmatched⟩ := atRules_upgrade RuleSet.tailwind Sample.dataset
  constructor
  · rw [entries]
    decide +kernel
  · exact unmatched _ (by decide +kernel)

end GrammarUpgrade
