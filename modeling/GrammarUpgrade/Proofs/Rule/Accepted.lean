import GrammarUpgrade.Proofs.Grammar.Substitution
import GrammarUpgrade.Rule.RuleSet
import Mathlib.Data.List.Infix

/-!
# Accepted rules

What the other modules use about the rules of a rule set: which lists of rules are
made into one, that the order of the list does not matter for this, that a token is
written like a placeholder, and that applying a rule is a substitution.  The main
statement, `RuleSet.matchesGrammar_iff`, says that the candidates of a rule set are
the grammars with one of its tokens as a substring.
-/

namespace GrammarUpgrade

open Grammar

namespace Rule

/-- The tokens that name a placeholder are a body without brackets that is not blank,
between brackets. -/
theorem namesPlaceholder_iff {token : String} :
    namesPlaceholder token = true ↔
      ∃ body, BracketFree body ∧ (∃ c ∈ body, Text.isBlank c = false) ∧
        bracketed body = token.toList := by
  unfold namesPlaceholder
  constructor
  · intro named
    split at named
    · rename_i rest written
      simp only [Bool.and_eq_true, decide_eq_true_eq, List.all_eq_true, List.any_eq_true,
        Bool.not_eq_true'] at named
      obtain ⟨⟨last, free⟩, inked⟩ := named
      refine ⟨rest.dropLast, free, inked, ?_⟩
      rw [written, bracketed, List.cons_append, List.dropLast_append_getLast? _ last]
    · contradiction
  · rintro ⟨body, free, ⟨c, member, inked⟩, written⟩
    rw [← written, bracketed, List.cons_append]
    have inside : body.all (!isBracket ·) = true :=
      List.all_eq_true.mpr fun c member => by simp [free c member]
    have visible : body.any (!Text.isBlank ·) = true :=
      List.any_eq_true.mpr ⟨c, member, by simp [inked]⟩
    simp [inside, visible]

theorem Valid.isPlaceholder {rule : Rule} (valid : rule.Valid) :
    IsPlaceholder rule.token.toList := by
  obtain ⟨body, free, _, written⟩ := namesPlaceholder_iff.mp valid.1
  exact ⟨body, free, written⟩

theorem Valid.replacement_ne_nil {rule : Rule} (valid : rule.Valid) :
    rule.replacement.toList ≠ [] := by
  simpa using valid.2

/-- The order of the rules does not matter for acceptance. -/
theorem Accepted.perm {rules other : List Rule} (accepted : Accepted rules)
    (perm : other.Perm rules) : Accepted other where
  nonempty := by
    rintro rfl
    exact accepted.nonempty perm.nil_eq.symm
  valid rule member := accepted.valid rule (perm.subset member)
  distinct := (perm.map Rule.token).nodup_iff.mpr accepted.distinct

/-- Tokens of different rules are different. -/
theorem Accepted.pairwise_token_ne {rules : List Rule} (accepted : Accepted rules) :
    rules.Pairwise fun first second => first.token ≠ second.token :=
  List.pairwise_map.mp accepted.distinct

/-- No replacement contains the token of a rule. -/
def TokenFree (rules : List Rule) : Prop :=
  ∀ rule ∈ rules, ∀ other ∈ rules,
    ¬ other.token.toList <:+: rule.replacement.toList

instance (rules : List Rule) : Decidable (TokenFree rules) :=
  inferInstanceAs (Decidable (∀ rule ∈ rules, ∀ other ∈ rules, ¬ _))

theorem TokenFree.of_subset {rules other : List Rule} (tokenFree : TokenFree rules)
    (subset : other ⊆ rules) : TokenFree other :=
  fun first firstMember second secondMember =>
    tokenFree first (subset firstMember) second (subset secondMember)

/-- The rewriting of characters that a rule stands for. -/
def rewrite (rule : Rule) : List Char → List Char :=
  substitute (exchanging rule.token.toList rule.replacement.toList)

/-- Rewrite with each rule in order. -/
def rewriteAll (rules : List Rule) (text : List Char) : List Char :=
  rules.foldl (fun text rule => rule.rewrite text) text

theorem toList_apply (rule : Rule) (grammar : String) :
    (rule.apply grammar).toList = rule.rewrite grammar.toList :=
  toList_replace grammar rule.token rule.replacement

/-- Applying rules in order rewrites with each of them. -/
theorem toList_foldl_apply (rules : List Rule) (grammar : String) :
    (rules.foldl (fun text rule => rule.apply text) grammar).toList =
      rewriteAll rules grammar.toList := by
  unfold rewriteAll
  induction rules generalizing grammar with
  | nil => rfl
  | cons rule rest ih =>
      rw [List.foldl_cons, List.foldl_cons, ih, toList_apply]

/-- Rules whose tokens are no placeholder of the text leave it alone. -/
theorem rewriteAll_eq_self {rules : List Rule} {text : List Char}
    (absent : ∀ rule ∈ rules, rule.token.toList ∉ placeholders text) :
    rewriteAll rules text = text := by
  induction rules with
  | nil => rfl
  | cons rule rest ih =>
      rw [List.forall_mem_cons] at absent
      rw [rewriteAll, List.foldl_cons, rewrite, substitute_exchanging_eq_self absent.1]
      exact ih absent.2

end Rule

namespace RuleSet

/-- A rule set is made from exactly its own list of rules. -/
theorem ofList_eq_ok_iff {rules : List Rule} {set : RuleSet} :
    ofList rules = .ok set ↔ set.rules = rules := by
  constructor
  · intro made
    unfold ofList at made
    split at made
    · contradiction
    · split at made
      · contradiction
      · rw [← Except.ok.inj made]
  · rintro rfl
    have faultless : firstFault? [] set.rules = none :=
      firstFault?_eq_none_iff.mpr
        ⟨set.accepted.valid, set.accepted.distinct, fun _ _ => List.not_mem_nil⟩
    unfold ofList
    rw [dif_neg set.accepted.nonempty]
    split
    · rename_i fault found
      rw [faultless] at found
      contradiction
    · rfl

theorem isPlaceholder_of_mem {set : RuleSet} {rule : Rule} (member : rule ∈ set.rules) :
    IsPlaceholder rule.token.toList :=
  (set.accepted.valid rule member).isPlaceholder

/-- Applying a rule set rewrites with each of its rules. -/
theorem toList_apply (set : RuleSet) (grammar : String) :
    (set.apply grammar).toList = Rule.rewriteAll set.rules grammar.toList :=
  Rule.toList_foldl_apply set.rules grammar

/-- A grammar matches when the token of a rule occurs in it. -/
theorem matchesGrammar_iff {set : RuleSet} {grammar : String} :
    set.matchesGrammar grammar = true ↔
      ∃ rule ∈ set.rules, rule.token.toList <:+: grammar.toList := by
  simp only [matchesGrammar, List.any_eq_true, Rule.matchesGrammar, mentions_iff]
  constructor
  · rintro ⟨rule, member, _, occurs⟩
    exact ⟨rule, member, occurs⟩
  · rintro ⟨rule, member, occurs⟩
    exact ⟨rule, member, isPlaceholder_of_mem member, occurs⟩

end RuleSet

end GrammarUpgrade
