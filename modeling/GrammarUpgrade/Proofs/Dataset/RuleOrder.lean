import GrammarUpgrade.Generation
import GrammarUpgrade.Proofs.Dataset.AtRules

/-!
# The names of an upgrade and the order of the rules

What the rules write depends on their order, since a rule can write the token of a later
one.  Which definitions are upgraded does not: it is decided on the grammars of the dataset,
by the tokens alone.  The main statement, `names_upgrade_perm`, says this for all names in
an upgraded dataset; `RuleSet.SameTokens` is what it needs of two rule sets.
-/

namespace GrammarUpgrade

/-- The names of the descriptors of an at-rule, in order. -/
def AtRule.descriptorNames (entry : AtRule) : Option (List String) :=
  entry.descriptors.map Dictionary.keys

/-! ## Rule sets with the same tokens -/

namespace RuleSet

variable {first second : RuleSet}

/-- Two rule sets look for the same tokens, each in its own order. -/
def SameTokens (first second : RuleSet) : Prop :=
  ∀ token, token ∈ first.rules.map Rule.token ↔ token ∈ second.rules.map Rule.token

theorem sameTokens_of_perm (perm : first.rules.Perm second.rules) : SameTokens first second :=
  fun _ => (perm.map Rule.token).mem_iff

/-- A grammar matches rules through their tokens. -/
theorem matchesGrammar_iff_exists_token {set : RuleSet} {grammar : String} :
    set.matchesGrammar grammar = true ↔
      ∃ token ∈ set.rules.map Rule.token, token.toList <:+: grammar.toList := by
  rw [matchesGrammar_iff]
  simp

/-- The same grammars are candidates for rules with the same tokens. -/
theorem SameTokens.matchesGrammar_eq (same : SameTokens first second) :
    first.matchesGrammar = second.matchesGrammar := by
  funext grammar
  rw [Bool.eq_iff_iff, matchesGrammar_iff_exists_token, matchesGrammar_iff_exists_token]
  simp only [same _]

end RuleSet

/-! ## The names that are left -/

namespace AtRule

theorem descriptorNames_rewritten (rules : RuleSet) (entry : AtRule) :
    (entry.rewritten rules).descriptorNames = entry.descriptorNames := by
  rw [descriptorNames, descriptorNames, rewritten, Option.map_map]
  congr 1
  funext descriptors
  exact Dictionary.keys_mapValues rules.apply descriptors

end AtRule

namespace Dataset

variable {first second : RuleSet}

/-- Upgraded at-rules have the names of the candidates, and these their descriptors. -/
theorem descriptorNames_upgrade (rules : RuleSet) (dataset : Dataset) :
    ((dataset.upgrade rules).atRules.mapValues AtRule.descriptorNames).entries =
      (dataset.atRules.entries.filter fun entry => entry.2.isCandidate rules).map
        fun entry => (entry.1, entry.2.descriptorNames) := by
  have entries : (dataset.upgrade rules).atRules.entries = _ :=
    Dictionary.entries_filterMap_of_eq_ite (AtRule.upgrade?_eq_ite rules) dataset.atRules
  rw [Dictionary.entries_mapValues, entries, List.map_map]
  simp only [Function.comp_def, AtRule.descriptorNames_rewritten]

/-- Rules with the same tokens leave the same at-rules, with the same descriptors. -/
theorem descriptorNames_upgrade_eq (same : RuleSet.SameTokens first second)
    (dataset : Dataset) :
    (dataset.upgrade first).atRules.mapValues AtRule.descriptorNames =
      (dataset.upgrade second).atRules.mapValues AtRule.descriptorNames := by
  apply Dictionary.eq_of_entries_eq
  simp only [descriptorNames_upgrade, AtRule.isCandidate, same.matchesGrammar_eq]

/-- Rules with the same tokens leave the same names in each section. -/
theorem names_upgrade_eq (same : RuleSet.SameTokens first second) (dataset : Dataset)
    (document : Document) :
    (dataset.upgrade first).names document = (dataset.upgrade second).names document := by
  cases document with
  | types =>
      simp only [names, upgrade, Dictionary.keys_upgrade, same.matchesGrammar_eq]
  | properties =>
      simp only [names, upgrade, Dictionary.keys_upgrade, same.matchesGrammar_eq]
  | atRules =>
      have keys := congrArg Dictionary.keys (descriptorNames_upgrade_eq same dataset)
      rwa [Dictionary.keys_mapValues, Dictionary.keys_mapValues] at keys

end Dataset

/-- Accepted rules are accepted in every order.  In each section of an upgraded dataset the
names are the same and in the same order, and so are the descriptors of each at-rule,
whatever the order of the rules has made of their grammars. -/
theorem names_upgrade_perm {rules other : List Rule} {set : RuleSet}
    (made : RuleSet.ofList rules = .ok set) (perm : other.Perm rules) :
    ∃ otherSet, RuleSet.ofList other = .ok otherSet ∧ otherSet.rules = other ∧
      ∀ dataset : Dataset,
        (∀ document, (dataset.upgrade otherSet).names document =
          (dataset.upgrade set).names document) ∧
        (dataset.upgrade otherSet).atRules.mapValues AtRule.descriptorNames =
          (dataset.upgrade set).atRules.mapValues AtRule.descriptorNames := by
  obtain rfl := RuleSet.ofList_eq_ok_iff.mp made
  let otherSet : RuleSet := ⟨other, set.accepted.perm perm⟩
  have same : RuleSet.SameTokens otherSet set := RuleSet.sameTokens_of_perm perm
  refine ⟨otherSet, RuleSet.ofList_eq_ok_iff.mpr rfl, rfl, fun dataset => ⟨?_, ?_⟩⟩
  · exact Dataset.names_upgrade_eq same dataset
  · exact Dataset.descriptorNames_upgrade_eq same dataset

/-- Rules of which one writes the token of the other leave the same names in both orders,
and not the same grammars. -/
theorem names_upgrade_swapped :
    ∃ set other, RuleSet.ofList [⟨"<a>", "<b> <b>"⟩, ⟨"<b>", "<c>"⟩] = .ok set ∧
      RuleSet.ofList [⟨"<b>", "<c>"⟩, ⟨"<a>", "<b> <b>"⟩] = .ok other ∧
      (∀ (dataset : Dataset) document,
        (dataset.upgrade other).names document = (dataset.upgrade set).names document) ∧
      set.apply "<a> | <b>" = "<c> <c> | <c>" ∧
      other.apply "<a> | <b>" = "<b> <b> | <c>" := by
  let set : RuleSet :=
    ⟨[⟨"<a>", "<b> <b>"⟩, ⟨"<b>", "<c>"⟩], ⟨by simp, by decide +kernel, by decide +kernel⟩⟩
  obtain ⟨other, made, written, same⟩ := names_upgrade_perm
    (RuleSet.ofList_eq_ok_iff.mpr (rfl : set.rules = _)) (List.Perm.swap _ _ [])
  refine ⟨set, other, RuleSet.ofList_eq_ok_iff.mpr rfl, made, fun dataset => (same dataset).1,
    by decide +kernel, ?_⟩
  rw [RuleSet.apply, written]
  decide +kernel

end GrammarUpgrade
