import GrammarUpgrade.Proofs.Dataset.SubstringEngine
import GrammarUpgrade.Proofs.Text.Completion

/-!
# Exhaustive rule sets

After an upgrade one expects no token to be left, so that a second upgrade has nothing
to do.  It is not enough for this that the replacements contain no token: what a rule
inserts is not read again by this rule and the ones before it, and together with what
stands around it may spell their tokens.  The main statement, `exhaustive_iff_settled`,
says that this is the only obstacle.
-/

namespace GrammarUpgrade

open Grammar

namespace Rule

/-- The replacement of the second rule can take part in the token of the first. -/
def Respells (first second : Rule) : Prop :=
  Text.Completes second.replacement.toList first.token.toList

instance : DecidableRel Respells := fun first second =>
  inferInstanceAs (Decidable (Text.Completes second.replacement.toList
    first.token.toList))

/-- No replacement can take part in the token of its own rule or of an earlier one. -/
structure Settled (rules : List Rule) : Prop where
  own : ∀ rule ∈ rules, ¬ rule.Respells rule
  earlier : rules.Pairwise fun first second => ¬ first.Respells second

instance (rules : List Rule) : Decidable (Settled rules) :=
  decidable_of_iff
    ((∀ rule ∈ rules, ¬ rule.Respells rule) ∧
      rules.Pairwise fun first second => ¬ first.Respells second)
    ⟨fun both => ⟨both.1, both.2⟩, fun settled => ⟨settled.own, settled.earlier⟩⟩

/-! ## Settled rules leave no token -/

/-- A rule that cannot respell a token brings it into no text, and leaves none of its
own. -/
theorem Valid.infix_of_infix_rewrite {rule other : Rule} (valid : rule.Valid)
    (settled : ¬ other.Respells rule)
    (absent : ¬ other.token.toList <:+: rule.replacement.toList) {text : List Char}
    (occurs : other.token.toList <:+: rule.rewrite text) :
    other.token.toList <:+: text ∧ other.token ≠ rule.token := by
  have shaped := valid.isPlaceholder
  induction text using Text.occurrenceInduction shaped.ne_nil with
  | absent text unmentioned =>
      have kept : rule.rewrite text = text :=
        substitute_exchanging_eq_self fun member =>
          unmentioned (mem_placeholders_iff.mp member).2
      rw [kept] at occurs
      exact ⟨occurs, fun same => unmentioned (same ▸ occurs)⟩
  | around left right ihLeft ihRight =>
      rw [rewrite, substitute_append_append shaped (exchanging_self _ _)] at occurs
      rcases Text.infix_or_infix_of_not_completes settled absent occurs with
        occurs | occurs
      · refine (ihLeft occurs).imp_left fun found => ?_
        rw [List.append_assoc]
        exact List.infix_append_of_infix_left found
      · exact (ihRight occurs).imp_left List.infix_append_of_infix_right

theorem rewriteAll_append (first second : List Rule) (text : List Char) :
    rewriteAll (first ++ second) text = rewriteAll second (rewriteAll first text) :=
  List.foldl_append

/-- After each rule of a settled list none of the tokens so far occurs. -/
theorem Settled.not_infix_rewriteAll {rules : List Rule} (settled : Settled rules)
    (valid : ∀ rule ∈ rules, rule.Valid) (tokenFree : TokenFree rules)
    (text : List Char) :
    ∀ rule ∈ rules, ¬ rule.token.toList <:+: rewriteAll rules text := by
  induction rules using List.reverseRecOn with
  | nil => simp
  | append_singleton rules last ih =>
      have lastMember : last ∈ rules ++ [last] := by simp
      have earlierMembers : rules ⊆ rules ++ [last] := List.subset_append_left _ _
      obtain ⟨pairs, _, before⟩ := List.pairwise_append.mp settled.earlier
      have settledRules : Settled rules :=
        ⟨fun rule member => settled.own rule (earlierMembers member), pairs⟩
      have absent := ih settledRules
        (fun rule member => valid rule (earlierMembers member))
        (tokenFree.of_subset earlierMembers)
      intro rule member occurs
      rw [rewriteAll_append] at occurs
      have step := fun respells => (valid last lastMember).infix_of_infix_rewrite respells
        (tokenFree last lastMember rule member) occurs
      rcases List.mem_append.mp member with earlier | isLast
      · exact absent rule earlier (step (before rule earlier last (by simp))).1
      · obtain rfl := List.mem_singleton.mp isLast
        exact (step (settled.own rule lastMember)).2 rfl

/-! ## Rules that are not settled leave a token -/

/-- Only one rule rewrites a text in which the earlier rules find no token, when the
later ones find none in what it writes. -/
theorem rewriteAll_eq_of_single_step {before after : List Rule} {rule : Rule}
    {text result : List Char}
    (earlier : ∀ first ∈ before, first.token.toList ∉ placeholders text)
    (step : rule.rewrite text = result)
    (later : ∀ last ∈ after, last.token.toList ∉ placeholders result) :
    rewriteAll (before ++ rule :: after) text = result := by
  rw [rewriteAll_append, rewriteAll_eq_self earlier]
  calc
    rewriteAll (rule :: after) text = rewriteAll after (rule.rewrite text) := rfl
    _ = rewriteAll after result := by rw [step]
    _ = result := rewriteAll_eq_self later

/-- On some text a rule respells the token of its own or of an earlier rule: the earlier
rules find nothing to do there, and neither do the later ones in the result. -/
theorem Accepted.exists_respelled {before after : List Rule} {rule other : Rule}
    (accepted : Accepted (before ++ rule :: after))
    (tokenFree : TokenFree (before ++ rule :: after))
    (member : other ∈ before ++ [rule]) (respells : other.Respells rule) :
    ∃ text, other.token.toList <:+: rewriteAll (before ++ rule :: after) text := by
  have split : before ++ rule :: after = (before ++ [rule]) ++ after := by simp
  have ruleMember : rule ∈ before ++ rule :: after := by simp
  have otherMember : other ∈ before ++ rule :: after := by
    rw [split]
    exact List.mem_append_left _ member
  have shaped := (accepted.valid rule ruleMember).isPlaceholder
  have otherShaped := (accepted.valid other otherMember).isPlaceholder
  obtain ⟨_, _, fresh⟩ := List.pairwise_append.mp accepted.pairwise_token_ne
  obtain ⟨_, _, later⟩ := List.pairwise_append.mp (split ▸ accepted.pairwise_token_ne)
  obtain ⟨left, right, front, back, spelled, leftPart, rightPart, frontPart, backPart⟩ :=
    Text.exists_around_of_completes
      (accepted.valid rule ruleMember).replacement_ne_nil respells
  have noneLeft : placeholders left = [] :=
    placeholders_eq_nil_of_not_mem (by decide) fun closed =>
      otherShaped.close_not_mem_dropLast (leftPart.subset closed)
  have noneRight : placeholders right = [] :=
    placeholders_eq_nil_of_not_mem (by decide) fun opened =>
      otherShaped.open_not_mem_tail (rightPart.subset opened)
  have written : rewriteAll (before ++ rule :: after)
      (left ++ rule.token.toList ++ right) = front ++ other.token.toList ++ back := by
    apply rewriteAll_eq_of_single_step
    · intro first firstMember found
      rw [placeholders_append_append shaped, noneLeft, noneRight] at found
      exact fresh first firstMember rule (by simp)
        (String.toList_injective (List.mem_singleton.mp found))
    · rw [rewrite, substitute_append_append shaped (exchanging_self _ _),
        substitute_exchanging_eq_self (by simp [noneLeft]),
        substitute_exchanging_eq_self (by simp [noneRight]), spelled]
    · intro last lastMember found
      have lastAbsent := tokenFree rule ruleMember last (by simp [lastMember])
      rw [placeholders_append_append otherShaped, List.mem_append, List.mem_cons] at found
      rcases found with found | found | found
      · exact lastAbsent ((mem_placeholders_iff.mp found).2.trans frontPart)
      · exact later other member last lastMember (String.toList_injective found.symm)
      · exact lastAbsent ((mem_placeholders_iff.mp found).2.trans backPart)
  refine ⟨left ++ rule.token.toList ++ right, ?_⟩
  rw [written]
  exact List.infix_append _ _ _

/-- What holds between any entry of a list and the ones before it holds pairwise. -/
theorem pairwise_of_forall_split {related : Rule → Rule → Prop} {rules : List Rule}
    (apart : ∀ before rule after, rules = before ++ rule :: after →
      ∀ other ∈ before, related other rule) : rules.Pairwise related := by
  induction rules using List.reverseRecOn with
  | nil => exact .nil
  | append_singleton rules last ih =>
      refine List.pairwise_append.mpr ⟨ih ?_, List.pairwise_singleton _ _, ?_⟩
      · rintro before rule after rfl
        exact apart before rule (after ++ [last]) (by simp)
      · intro other member rule isLast
        obtain rfl := List.mem_singleton.mp isLast
        exact apart rules rule [] rfl other member

end Rule

/-! ## Exhaustion -/

namespace RuleSet

/-- No token outlasts an upgrade, and there is nothing to do for a second one. -/
structure Exhaustive (set : RuleSet) : Prop where
  exhausted : ∀ grammar, ∀ rule ∈ set.rules,
    ¬ rule.token.toList <:+: (set.apply grammar).toList
  idempotent : ∀ grammar, set.apply (set.apply grammar) = set.apply grammar
  upgradedOnce : ∀ grammars : Dictionary String,
    ((grammars.upgrade set).upgrade set).isEmpty = true

/-- When no token outlasts the rules, a second application finds nothing to do. -/
theorem exhaustive_of_exhausted {set : RuleSet}
    (exhausted : ∀ grammar, ∀ rule ∈ set.rules,
      ¬ rule.token.toList <:+: (set.apply grammar).toList) : set.Exhaustive where
  exhausted := exhausted
  idempotent grammar := by
    apply apply_of_not_matchesGrammar
    rw [Bool.eq_false_iff, Ne, matchesGrammar_iff]
    rintro ⟨rule, member, occurs⟩
    exact exhausted grammar rule member occurs
  upgradedOnce grammars := by
    rw [Dictionary.isEmpty_upgrade, Dictionary.entries_upgrade, Bool.not_eq_true',
      List.any_eq_false]
    intro upgraded member candidate
    obtain ⟨entry, _, rfl⟩ := List.mem_map.mp member
    obtain ⟨rule, ruleMember, occurs⟩ := matchesGrammar_iff.mp candidate
    exact exhausted entry.2 rule ruleMember occurs

/-- In an exhaustive rule set no rule respells its own token or an earlier one. -/
theorem Exhaustive.not_respells {set : RuleSet} (exhaustive : set.Exhaustive)
    (tokenFree : Rule.TokenFree set.rules) {before after : List Rule} {rule : Rule}
    (split : set.rules = before ++ rule :: after) {other : Rule}
    (member : other ∈ before ++ [rule]) : ¬ other.Respells rule := by
  intro respells
  obtain ⟨text, occurs⟩ := Rule.Accepted.exists_respelled (split ▸ set.accepted)
    (split ▸ tokenFree) member respells
  have otherMember : other ∈ set.rules := by
    rw [split, List.append_cons]
    exact List.mem_append_left _ member
  apply exhaustive.exhausted (String.ofList text) other otherMember
  rwa [toList_apply, split, String.toList_ofList]

end RuleSet

/-- Rules with token-free replacements are exhaustive exactly when no replacement can
respell the token of its own or of an earlier rule with what stands around it. -/
theorem exhaustive_iff_settled {rules : List Rule} {set : RuleSet}
    (made : RuleSet.ofList rules = .ok set) (tokenFree : Rule.TokenFree rules) :
    set.Exhaustive ↔ Rule.Settled rules := by
  obtain rfl := RuleSet.ofList_eq_ok_iff.mp made
  constructor
  · intro exhaustive
    constructor
    · intro rule member
      obtain ⟨before, after, split⟩ := List.append_of_mem member
      exact exhaustive.not_respells tokenFree split (by simp)
    · apply Rule.pairwise_of_forall_split
      intro before rule after split other member
      exact exhaustive.not_respells tokenFree split (List.mem_append_left _ member)
  · intro settled
    apply RuleSet.exhaustive_of_exhausted
    intro grammar rule member
    rw [RuleSet.toList_apply]
    exact settled.not_infix_rewriteAll set.accepted.valid tokenFree _ rule member

/-- A replacement may respell the token of a later rule, which then replaces it. -/
theorem exhaustive_later_respelled :
    ∃ set, RuleSet.ofList [⟨"<a>", "x <b"⟩, ⟨"<b c>", "y"⟩] = .ok set ∧
      Rule.TokenFree [⟨"<a>", "x <b"⟩, ⟨"<b c>", "y"⟩] ∧ set.Exhaustive :=
  have tokenFree : Rule.TokenFree [⟨"<a>", "x <b"⟩, ⟨"<b c>", "y"⟩] := by decide +kernel
  have made := RuleSet.ofList_eq_ok_iff.mpr
    (rfl : (RuleSet.mk [⟨"<a>", "x <b"⟩, ⟨"<b c>", "y"⟩]
      ⟨by simp, by decide +kernel, by decide +kernel⟩).rules = _)
  ⟨_, made, tokenFree, (exhaustive_iff_settled made tokenFree).mpr (by decide +kernel)⟩

/-- A replacement without any token can bring back its own: a lone bracket stays before
the text that followed the token. -/
theorem not_exhaustive_lone_bracket :
    ∃ set, RuleSet.ofList [⟨"<a>", "<"⟩] = .ok set ∧ Rule.TokenFree [⟨"<a>", "<"⟩] ∧
      set.apply "<a>a>" = "<a>" ∧ set.apply (set.apply "<a>a>") = "<" ∧
      ¬ set.Exhaustive := by
  let set : RuleSet := ⟨[⟨"<a>", "<"⟩], ⟨by simp, by decide +kernel, by decide +kernel⟩⟩
  have once : set.apply "<a>a>" = "<a>" := by
    rw [RuleSet.apply_eq_foldl_replaceAll]
    decide +kernel
  have twice : set.apply "<a>" = "<" := by
    rw [RuleSet.apply_eq_foldl_replaceAll]
    decide +kernel
  refine ⟨set, RuleSet.ofList_eq_ok_iff.mpr rfl, by decide +kernel, once, ?_, ?_⟩
  · rw [once, twice]
  · intro exhaustive
    have same := exhaustive.idempotent "<a>a>"
    rw [once, twice] at same
    exact absurd same (by decide)

end GrammarUpgrade
