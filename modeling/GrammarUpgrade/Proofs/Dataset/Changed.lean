import GrammarUpgrade.Proofs.Dataset.Candidates
import GrammarUpgrade.Proofs.Rule.Unchanged
import GrammarUpgrade.Sample

/-!
# Upgraded definitions that did not change

A definition is upgraded because its grammar mentions a token, whatever the rules make of
it.  Every definition that they change is among the upgraded ones.  The others were changed
and changed back, or written over by themselves: `mem_upgrade_iff`.  For guarded rules it
is enough to look at the tokens; that no definition comes out unchanged, `EmitsChanged`, is
then a property of the rules that can be checked.
-/

namespace GrammarUpgrade

namespace RuleSet

/-- Of all named grammars, those are upgraded that the rules change. -/
def EmitsChanged (set : RuleSet) : Prop :=
  ∀ (grammars : Dictionary String) (name grammar : String),
    (name, grammar) ∈ grammars.entries →
      (name ∈ (grammars.upgrade set).keys ↔ set.apply grammar ≠ grammar)

variable {set : RuleSet}

/-- A grammar matches rules that change it at some point, or of which one replaces its
token by itself. -/
theorem matchesGrammar_iff_alters {grammar : String} :
    set.matchesGrammar grammar = true ↔
      Rule.Alters set.rules grammar ∨ Rule.WritesBack set.rules grammar := by
  rw [← Rule.exists_matchesGrammar_iff, matchesGrammar, List.any_eq_true]

theorem alters_of_apply_ne {grammar : String} (changed : set.apply grammar ≠ grammar) :
    Rule.Alters set.rules grammar :=
  ⟨set.rules, List.prefix_refl _, changed⟩

theorem emitsChanged_iff :
    set.EmitsChanged ↔
      ∀ grammar, set.matchesGrammar grammar = true → set.apply grammar ≠ grammar := by
  constructor
  · intro emitsChanged grammar candidate
    let grammars : Dictionary String := ⟨[("", grammar)], List.nodup_singleton ""⟩
    have member : ("", grammar) ∈ grammars.entries := List.mem_singleton_self _
    exact (emitsChanged grammars "" grammar member).mp
      ((Dictionary.mem_keys_upgrade member).mpr candidate)
  · intro changed grammars name grammar member
    rw [Dictionary.mem_keys_upgrade member]
    refine ⟨changed grammar, fun different => ?_⟩
    exact matchesGrammar_iff_alters.mpr (.inl (alters_of_apply_ne different))

/-- A rule set mentions its own tokens. -/
theorem matchesGrammar_token {rule : Rule} (member : rule ∈ set.rules) :
    set.matchesGrammar rule.token = true :=
  matchesGrammar_iff.mpr ⟨rule, member, List.infix_refl _⟩

/-- Guarded rules change every definition they upgrade, unless they give back one of their
own tokens. -/
theorem Guarded.emitsChanged_iff (guarded : set.Guarded) :
    set.EmitsChanged ↔ ∀ rule ∈ set.rules, set.apply rule.token ≠ rule.token := by
  rw [RuleSet.emitsChanged_iff]
  constructor
  · intro changed rule member
    exact changed rule.token (matchesGrammar_token member)
  · intro changed grammar candidate unchanged
    obtain ⟨rule, member, found⟩ := List.any_eq_true.mp candidate
    exact changed rule member (guarded.apply_eq_self_iff.mp unchanged rule member found)

end RuleSet

/-- Upgraded are the definitions that the rules change at some point, and those in which a
rule replaces its token by itself; so all that come out changed are there.  For guarded
rules one comes out unchanged exactly if its tokens do, and none does exactly if no token
does. -/
theorem mem_upgrade_iff (set : RuleSet) :
    (∀ (grammars : Dictionary String) (name text : String),
      (name, text) ∈ (grammars.upgrade set).entries ↔
        ∃ grammar, (name, grammar) ∈ grammars.entries ∧ set.apply grammar = text ∧
          (Rule.Alters set.rules grammar ∨ Rule.WritesBack set.rules grammar)) ∧
    (∀ (grammars : Dictionary String) (name grammar : String),
      (name, grammar) ∈ grammars.entries → set.apply grammar ≠ grammar →
        (name, set.apply grammar) ∈ (grammars.upgrade set).entries) ∧
    (set.Guarded →
      (∀ grammar, set.apply grammar = grammar ↔
        ∀ rule ∈ set.rules, rule.matchesGrammar grammar = true →
          set.apply rule.token = rule.token) ∧
      (set.EmitsChanged ↔ ∀ rule ∈ set.rules, set.apply rule.token ≠ rule.token)) := by
  refine ⟨?_, ?_, ?_⟩
  · intro grammars name text
    rw [Dictionary.mem_entries_upgrade]
    refine exists_congr fun grammar => and_congr_right fun _ => ?_
    rw [RuleSet.matchesGrammar_iff_alters, and_comm]
  · intro grammars name grammar member changed
    have candidate := RuleSet.matchesGrammar_iff_alters.mpr
      (.inl (RuleSet.alters_of_apply_ne changed))
    exact Dictionary.mem_entries_upgrade.mpr ⟨grammar, member, candidate, rfl⟩
  · intro guarded
    exact ⟨fun _ => guarded.apply_eq_self_iff, guarded.emitsChanged_iff⟩

/-- The rules for custom types change every definition they upgrade. -/
theorem mem_upgrade_tailwind :
    ("color", "<color>") ∈ Sample.properties.entries ∧
      RuleSet.tailwind.apply "<color>" ≠ "<color>" ∧
      ("color", "<tailwindcss-color>") ∈
        (Sample.properties.upgrade RuleSet.tailwind).entries ∧
      RuleSet.tailwind.Guarded ∧ RuleSet.tailwind.EmitsChanged := by
  obtain ⟨_, changed, general⟩ := mem_upgrade_iff RuleSet.tailwind
  have member : ("color", "<color>") ∈ Sample.properties.entries := by decide +kernel
  have written : RuleSet.tailwind.apply "<color>" = "<tailwindcss-color>" := by
    decide +kernel
  have different : RuleSet.tailwind.apply "<color>" ≠ "<color>" := by
    rw [written]
    decide
  have upgraded := changed Sample.properties "color" "<color>" member different
  rw [written] at upgraded
  exact ⟨member, different, upgraded, RuleSet.guarded_tailwind,
    (general RuleSet.guarded_tailwind).2.mpr (by decide +kernel)⟩

/-- Two rules that exchange their tokens give the first of them back: a definition that
mentions it is upgraded and comes out unchanged. -/
theorem not_emitsChanged_exchange :
    ∃ set, RuleSet.ofList [⟨"<a>", "<b>"⟩, ⟨"<b>", "<a>"⟩] = .ok set ∧
      ((Dictionary.ofList [("x", "<a>")]).upgrade set).entries = [("x", "<a>")] ∧
      set.apply "<a>" = "<a>" ∧ ¬ set.EmitsChanged := by
  let set : RuleSet :=
    ⟨[⟨"<a>", "<b>"⟩, ⟨"<b>", "<a>"⟩], ⟨by simp, by decide +kernel, by decide +kernel⟩⟩
  have unchanged : set.apply "<a>" = "<a>" := by decide +kernel
  refine ⟨set, RuleSet.ofList_eq_ok_iff.mpr rfl, by decide +kernel, unchanged, ?_⟩
  intro emitsChanged
  have candidate : set.matchesGrammar "<a>" = true := by decide +kernel
  exact RuleSet.emitsChanged_iff.mp emitsChanged "<a>" candidate unchanged

end GrammarUpgrade
