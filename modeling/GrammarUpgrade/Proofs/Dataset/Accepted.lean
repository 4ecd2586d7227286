import GrammarUpgrade.Proofs.Dataset.AtRules
import GrammarUpgrade.Proofs.Dataset.Notation

/-!
# Datasets that have been read

The further members of an at-rule that has been read can be told from its grammars by
their keys, and are nested no deeper than a reader allows at their place.  Upgrading keeps
them as they are, so this stays true in any number of passes.
-/

namespace GrammarUpgrade

open Json

namespace AtRule

/-- What can stand beside the grammars of an at-rule. -/
def IsExtra (extra : Dictionary Value) : Prop :=
  ∀ member ∈ extra.entries,
    member.1 ≠ "prelude" ∧ member.1 ≠ "descriptors" ∧ member.2.Fits valueDepth

theorem Says.isExtra {members : List (String × List Char)} {entry : AtRule}
    (said : Says members entry) : IsExtra entry.extra := by
  intro field inExtra
  obtain ⟨written, member, means⟩ := said.extra.exists_of_mem inExtra
  have further := (List.mem_filter.mp member).2
  rw [isFurther, Bool.and_eq_true, decide_eq_true_eq, decide_eq_true_eq] at further
  exact ⟨further.1, further.2, means.fits⟩

end AtRule

namespace Dataset

/-- The further members of all at-rules are good. -/
def AllExtra (good : Dictionary Value → Prop) (dataset : Dataset) : Prop :=
  ∀ entry ∈ dataset.atRules.entries, good entry.2.extra

/-- The further members of all at-rules can stand where they are. -/
abbrev Readable (dataset : Dataset) : Prop :=
  dataset.AllExtra AtRule.IsExtra

theorem Sections.readable {members : List (String × List Char)} {dataset : Dataset}
    (sections : Sections members dataset) : dataset.Readable := by
  obtain ⟨atRules?, field, same⟩ := sections.atRules
  rw [Readable, AllExtra, ← same]
  generalize textsOf "atrules" members = texts at field
  cases field with
  | absent => exact List.forall_mem_nil _
  | present isWritten =>
      obtain ⟨named, isObject, collects⟩ := isWritten
      intro entry inAtRules
      obtain ⟨written, member, fields, _, said⟩ := collects.exists_of_mem inAtRules
      exact said.isExtra

/-- A dataset that a text holds. -/
theorem readable_of_ofText {text : String} {dataset : Dataset}
    (accepted : ofText text = .ok dataset) : dataset.Readable := by
  obtain ⟨written, holds, isWritten⟩ := ofText_eq_ok_iff.mp accepted
  cases isWritten with
  | object isObject areValues sections => exact sections.readable
  | array isArray few areValues sections => exact sections.readable

/-! ## Upgrading -/

/-- Upgrade a dataset in several passes. -/
def upgradeAll (dataset : Dataset) (passes : List RuleSet) : Dataset :=
  passes.foldl (fun upgraded rules => upgraded.upgrade rules) dataset

/-- Upgrading keeps the further members of every at-rule that it keeps. -/
theorem AllExtra.upgrade {good : Dictionary Value → Prop} {dataset : Dataset}
    (all : dataset.AllExtra good) (rules : RuleSet) : (dataset.upgrade rules).AllExtra good := by
  intro entry member
  rw [Dataset.upgrade, Dictionary.entries_filterMap_of_eq_ite (AtRule.upgrade?_eq_ite rules)]
    at member
  obtain ⟨source, kept, rfl⟩ := List.mem_map.mp member
  exact all source (List.mem_filter.mp kept).1

theorem AllExtra.upgradeAll {good : Dictionary Value → Prop} {dataset : Dataset}
    (all : dataset.AllExtra good) (passes : List RuleSet) :
    (dataset.upgradeAll passes).AllExtra good := by
  induction passes generalizing dataset with
  | nil => exact all
  | cons rules others ih => exact ih (all.upgrade rules)

end Dataset

end GrammarUpgrade
