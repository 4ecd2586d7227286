import GrammarUpgrade.Proofs.Dataset.Candidates
import GrammarUpgrade.Proofs.Grammar.WholeTokens

/-!
# The substring engine

A grammar can be taken as an opaque text in which tokens are searched and replaced as
plain substrings.  The engine of this module does so without ever splitting a text into
pieces.  The main statement, `entries_upgrade_eq_substringUpgrade`, says that it agrees
with the upgrade through placeholders on all texts: a token that stands somewhere in a
grammar is always a placeholder of it, also between stray brackets and in what earlier
rules have written.
-/

namespace GrammarUpgrade

/-- A text with all occurrences of the rule's token replaced. -/
def Rule.replaceAll (rule : Rule) (text : String) : String :=
  String.ofList
    (Text.replaceAll rule.token.toList rule.replacement.toList text.toList)

/-- The definitions in whose text the token of some rule occurs, with the tokens of all
rules replaced one after the other. -/
def substringUpgrade (rules : List Rule) (definitions : List (String × String)) :
    List (String × String) :=
  (definitions.filter fun definition =>
      ∃ rule ∈ rules, rule.token.toList <:+: definition.2.toList).map
    fun definition =>
      (definition.1, rules.foldl (fun text rule => rule.replaceAll text) definition.2)

/-- A valid rule replaces its token like any other substring. -/
theorem Rule.Valid.apply_eq_replaceAll {rule : Rule} (valid : rule.Valid)
    (text : String) : rule.apply text = rule.replaceAll text := by
  apply String.toList_injective
  rw [Rule.replaceAll, String.toList_ofList]
  exact Grammar.toList_replace_eq_replaceAll valid.isPlaceholder text rule.replacement

/-- A rule set replaces its tokens one after the other like any other substrings. -/
theorem RuleSet.apply_eq_foldl_replaceAll (set : RuleSet) (text : String) :
    set.apply text = set.rules.foldl (fun text rule => rule.replaceAll text) text := by
  unfold RuleSet.apply
  have valid := set.accepted.valid
  generalize set.rules = rules at valid
  induction rules generalizing text with
  | nil => rfl
  | cons rule rest ih =>
      rw [List.forall_mem_cons] at valid
      rw [List.foldl_cons, List.foldl_cons, valid.1.apply_eq_replaceAll]
      exact ih _ valid.2

/-- Upgrading through placeholders is upgrading through substrings. -/
theorem entries_upgrade_eq_substringUpgrade {rules : List Rule} {set : RuleSet}
    (made : RuleSet.ofList rules = .ok set) (grammars : Dictionary String) :
    (grammars.upgrade set).entries = substringUpgrade rules grammars.entries := by
  obtain rfl := RuleSet.ofList_eq_ok_iff.mp made
  have candidates : (fun entry : String × String => set.matchesGrammar entry.2) =
      fun entry => decide (∃ rule ∈ set.rules,
        rule.token.toList <:+: entry.2.toList) := by
    funext entry
    rw [Bool.eq_iff_iff, decide_eq_true_iff]
    exact RuleSet.matchesGrammar_iff
  rw [Dictionary.entries_upgrade, candidates, substringUpgrade]
  simp only [RuleSet.apply_eq_foldl_replaceAll]

/-- Stray brackets hide no token, and a rule sees the tokens that an earlier one has
written with the help of what stood around it. -/
theorem entries_upgrade_stray_brackets :
    ∃ set, RuleSet.ofList [⟨"<a>", "<<b>"⟩, ⟨"<b>", "c>"⟩] = .ok set ∧
      ((Dictionary.ofList [("x", "<<a>>"), ("y", "a>"), ("z", "<<a><b")]).upgrade
        set).entries = [("x", "<<c>>"), ("z", "<<c><b")] :=
  have made := RuleSet.ofList_eq_ok_iff.mpr
    (rfl : (RuleSet.mk [⟨"<a>", "<<b>"⟩, ⟨"<b>", "c>"⟩]
      ⟨by simp, by decide +kernel, by decide +kernel⟩).rules = _)
  ⟨_, made, (entries_upgrade_eq_substringUpgrade made _).trans (by decide +kernel)⟩

end GrammarUpgrade
