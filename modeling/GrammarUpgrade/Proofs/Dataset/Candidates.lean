import GrammarUpgrade.Dataset.Upgrade
import GrammarUpgrade.Proofs.Dictionary.Overlay
import GrammarUpgrade.Proofs.Rule.Accepted
import Mathlib.Data.List.Nodup

/-!
# Candidates for an upgrade

The entries of upgraded grammars are the candidates among the entries, each with all
rules applied, and putting them back over the grammars applies the rules to every
entry.  This is the form in which the other modules use an upgrade.
-/

namespace GrammarUpgrade

/-- A grammar that is no candidate would not be changed by the rules either. -/
theorem RuleSet.getD_upgrade? (rules : RuleSet) (grammar : String) :
    (rules.upgrade? grammar).getD grammar = rules.apply grammar := by
  rw [upgrade?]
  cases candidate : rules.matchesGrammar grammar with
  | true => rfl
  | false => exact (apply_of_not_matchesGrammar candidate).symm

namespace Dictionary

/-- Upgrading keeps the candidates, in order, and applies the rules to them. -/
theorem entries_upgrade (rules : RuleSet) (grammars : Dictionary String) :
    (grammars.upgrade rules).entries =
      (grammars.entries.filter fun entry => rules.matchesGrammar entry.2).map
        fun entry => (entry.1, rules.apply entry.2) :=
  entries_filterMap_of_eq_ite (fun _ => rfl) grammars

/-- The entries of upgraded grammars are the candidates with all rules applied. -/
theorem mem_entries_upgrade {rules : RuleSet} {grammars : Dictionary String}
    {name text : String} :
    (name, text) ∈ (grammars.upgrade rules).entries ↔
      ∃ grammar, (name, grammar) ∈ grammars.entries ∧
        rules.matchesGrammar grammar = true ∧ rules.apply grammar = text := by
  rw [entries_upgrade, List.mem_map]
  constructor
  · rintro ⟨⟨_, grammar⟩, kept, same⟩
    obtain ⟨rfl, rfl⟩ := Prod.mk.inj same
    obtain ⟨member, candidate⟩ := List.mem_filter.mp kept
    exact ⟨grammar, member, candidate, rfl⟩
  · rintro ⟨grammar, member, candidate, rfl⟩
    exact ⟨(name, grammar), List.mem_filter.mpr ⟨member, candidate⟩, rfl⟩

/-- Upgraded grammars have the names of the candidates. -/
theorem keys_upgrade (rules : RuleSet) (grammars : Dictionary String) :
    (grammars.upgrade rules).keys =
      (grammars.entries.filter fun entry => rules.matchesGrammar entry.2).map Prod.fst := by
  rw [keys, entries_upgrade, List.map_map]
  rfl

/-- A name is left exactly if its grammar is a candidate. -/
theorem mem_keys_upgrade {rules : RuleSet} {grammars : Dictionary String}
    {name grammar : String} (member : (name, grammar) ∈ grammars.entries) :
    name ∈ (grammars.upgrade rules).keys ↔ rules.matchesGrammar grammar = true := by
  rw [keys_upgrade, List.mem_map]
  constructor
  · rintro ⟨⟨_, other⟩, kept, rfl⟩
    obtain ⟨otherMember, candidate⟩ := List.mem_filter.mp kept
    have same := List.inj_on_of_nodup_map grammars.distinct otherMember member rfl
    rwa [← (Prod.mk.inj same).2]
  · intro candidate
    exact ⟨(name, grammar), List.mem_filter.mpr ⟨member, candidate⟩, rfl⟩

/-- Nothing is left of grammars without a candidate. -/
theorem isEmpty_upgrade (rules : RuleSet) (grammars : Dictionary String) :
    (grammars.upgrade rules).isEmpty =
      !grammars.entries.any fun entry => rules.matchesGrammar entry.2 := by
  rw [isEmpty, entries_upgrade, List.isEmpty_map, Bool.eq_iff_iff, List.isEmpty_iff,
    List.filter_eq_nil_iff]
  simp

/-- The upgraded grammars over the old ones are all grammars with the rules applied. -/
theorem overlay_upgrade (rules : RuleSet) (grammars : Dictionary String) :
    grammars.overlay (grammars.upgrade rules) = grammars.mapValues rules.apply := by
  rw [upgrade, overlay_filterMap]
  simp only [RuleSet.getD_upgrade?]

end Dictionary

end GrammarUpgrade
