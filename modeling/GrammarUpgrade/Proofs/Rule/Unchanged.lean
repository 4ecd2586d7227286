import GrammarUpgrade.Proofs.Grammar.Unchanged
import GrammarUpgrade.Proofs.Rule.Guarded

/-!
# Grammars that rules leave alone

A rule that finds its token changes the text, unless it replaces the token by itself.  So
rules of which one matches a grammar change it at some point, but a later rule may change
it back: `exists_matchesGrammar_iff`.  Guarded rules do this token by token.  The main
statement, `RuleSet.Guarded.apply_eq_self_iff`, says that they give a grammar back only if
they give back each of their tokens in it.
-/

namespace GrammarUpgrade

open Grammar

variable {rules : List Rule} {text : List Char} {grammar : String}

namespace Rule

/-! ## Rules that change a grammar -/

/-- A rule leaves a grammar alone if it does not match it, and no other unless it replaces
its token by itself. -/
theorem apply_eq_self_iff {rule : Rule} {grammar : String} :
    rule.apply grammar = grammar ↔
      (rule.matchesGrammar grammar = true → rule.replacement = rule.token) := by
  rw [← String.toList_inj, toList_apply, rewrite, substitute_exchanging_eq_self_iff,
    mem_placeholders_iff, matchesGrammar, mentions_iff, String.toList_inj]

/-- The grammar is another one after some of the rules, although the rest of them may bring
it back. -/
def Alters (rules : List Rule) (grammar : String) : Prop :=
  ∃ applied, applied <+: rules ∧
    applied.foldl (fun text rule => rule.apply text) grammar ≠ grammar

/-- The grammar mentions the token of a rule that replaces it by itself. -/
def WritesBack (rules : List Rule) (grammar : String) : Prop :=
  ∃ rule ∈ rules, rule.replacement = rule.token ∧ rule.matchesGrammar grammar = true

/-- Rules that do not match a grammar leave it as it is. -/
theorem not_alters (unmatched : ∀ rule ∈ rules, rule.matchesGrammar grammar ≠ true) :
    ¬ Alters rules grammar := by
  rintro ⟨applied, isFirst, changed⟩
  apply changed
  rw [← String.toList_inj, toList_foldl_apply]
  apply rewriteAll_eq_self
  intro rule member found
  apply unmatched rule (isFirst.subset member)
  exact mentions_iff_mem_placeholders.mpr found

/-- Rules of which one matches a grammar change it at some point, or one of them replaces
its token by itself. -/
theorem exists_matchesGrammar_iff :
    (∃ rule ∈ rules, rule.matchesGrammar grammar = true) ↔
      Alters rules grammar ∨ WritesBack rules grammar := by
  constructor
  · rintro ⟨found, member, matched⟩
    induction rules with
    | nil => contradiction
    | cons rule rest ih =>
        by_cases kept : rule.apply grammar = grammar
        · by_cases here : rule.matchesGrammar grammar = true
          · have same := apply_eq_self_iff.mp kept here
            exact .inr ⟨rule, List.mem_cons_self, same, here⟩
          · have later : found ∈ rest := by
              rcases List.mem_cons.mp member with rfl | later
              · exact absurd matched here
              · exact later
            rcases ih later with ⟨applied, isFirst, changed⟩ | writesBack
            · refine .inl ⟨rule :: applied, List.cons_prefix_cons.mpr ⟨rfl, isFirst⟩, ?_⟩
              rwa [List.foldl_cons, kept]
            · obtain ⟨other, otherMember, same⟩ := writesBack
              exact .inr ⟨other, List.mem_cons_of_mem rule otherMember, same⟩
        · exact .inl ⟨[rule], List.prefix_append [rule] rest, kept⟩
  · rintro (alters | ⟨rule, member, _, matched⟩)
    · by_contra unmatched
      simp only [not_exists, not_and] at unmatched
      exact not_alters unmatched alters
    · exact ⟨rule, member, matched⟩

/-! ## Guarded rules -/

/-- What guarded rules make of a text, they make of each of its placeholders. -/
theorem rewriteAll_eq_expansion (guarded : ∀ rule ∈ rules, Guarded rule.replacement.toList)
    (text : List Char) :
    rewriteAll rules text =
      expansion (fun body => rewriteAll rules (bracketed body)) (fun c => [c]) text := by
  induction rules generalizing text with
  | nil => exact (substitute_none text).symm
  | cons rule rest ih =>
      rw [List.forall_mem_cons] at guarded
      have step (text : List Char) :
          rewriteAll (rule :: rest) text = rewriteAll rest (rule.rewrite text) :=
        rfl
      have agree : ∀ body, BracketFree body →
          rewriteAll rest (standIn (exchanging rule.token.toList rule.replacement.toList)
            body) = rewriteAll (rule :: rest) (bracketed body) := by
        intro body free
        rw [step, rewrite, substitute, expansion_bracketed _ _ free]
      rw [step, ih guarded.2, rewrite,
        expansion_substitute (guardedMeaning_exchanging guarded.1)]
      simp only [← ih guarded.2]
      exact congrFun (expansion_congr agree fun c => [c]) text

theorem guarded_rewriteAll (guarded : ∀ rule ∈ rules, Guarded rule.replacement.toList)
    (guardedText : Guarded text) : Guarded (rewriteAll rules text) := by
  induction rules generalizing text with
  | nil => exact guardedText
  | cons rule rest ih =>
      rw [List.forall_mem_cons] at guarded
      exact ih guarded.2 (guardedText.substitute (guardedMeaning_exchanging guarded.1))

/-- What becomes of the tokens of rules when all rules have been applied. -/
def outcome? (rules : List Rule) (token : List Char) : Option (List Char) :=
  if token ∈ rules.map (·.token.toList) then some (rewriteAll rules token) else none

theorem renewed_outcome? {body : List Char} (free : BracketFree body) :
    renewed (outcome? rules) (bracketed body) = rewriteAll rules (bracketed body) := by
  rw [renewed, outcome?]
  split
  · rfl
  · rename_i absent
    rw [Option.getD_none]
    refine (rewriteAll_eq_self fun rule member found => absent ?_).symm
    rw [placeholders_bracketed free, List.mem_singleton] at found
    exact List.mem_map.mpr ⟨rule, member, found⟩

/-- Guarded rules are one substitution. -/
theorem rewriteAll_eq_substitute_outcome?
    (guarded : ∀ rule ∈ rules, Guarded rule.replacement.toList) (text : List Char) :
    rewriteAll rules text = substitute (outcome? rules) text := by
  rw [rewriteAll_eq_expansion guarded, substitute]
  refine congrFun (expansion_congr (fun body free => ?_) fun c => [c]) text
  exact (renewed_outcome? free).symm

theorem guardedMeaning_outcome? (valid : ∀ rule ∈ rules, rule.Valid)
    (guarded : ∀ rule ∈ rules, Guarded rule.replacement.toList) :
    GuardedMeaning (outcome? rules) := by
  intro token text meant
  obtain ⟨isToken, same⟩ := Option.ite_none_right_eq_some.mp meant
  obtain rfl := Option.some.inj same
  obtain ⟨rule, member, rfl⟩ := List.mem_map.mp isToken
  obtain ⟨body, free, written⟩ := (valid rule member).isPlaceholder
  exact guarded_rewriteAll guarded (written ▸ guarded_bracketed free)

end Rule

namespace RuleSet

/-- A guarded rule set gives a grammar back exactly if it gives back each of its tokens
that the grammar mentions. -/
theorem Guarded.apply_eq_self_iff {set : RuleSet} (guarded : set.Guarded)
    {grammar : String} :
    set.apply grammar = grammar ↔
      ∀ rule ∈ set.rules, rule.matchesGrammar grammar = true →
        set.apply rule.token = rule.token := by
  have guardedMeaning := Rule.guardedMeaning_outcome? set.accepted.valid guarded
  simp only [← String.toList_inj, toList_apply, Rule.matchesGrammar,
    mentions_iff_mem_placeholders]
  rw [Rule.rewriteAll_eq_substitute_outcome? guarded, guardedMeaning.substitute_eq_self_iff]
  constructor
  · intro unchanged rule member found
    have same := unchanged _ found
    obtain ⟨body, free, written⟩ := isPlaceholder_of_mem member
    rw [← written] at same ⊢
    exact (Rule.renewed_outcome? free).symm.trans same
  · intro unchanged token found
    rw [renewed, Rule.outcome?]
    split
    · rename_i isToken
      obtain ⟨rule, member, rfl⟩ := List.mem_map.mp isToken
      exact unchanged rule member found
    · rfl

end RuleSet

end GrammarUpgrade
