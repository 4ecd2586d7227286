import Mathlib.Data.List.Infix

/-!
# Texts that complete a pattern

A text written between two others can take part in an occurrence of a pattern although
neither of the three contains the pattern.  `Completes` lists the ways in which this can
happen.  The list is exact: `infix_or_infix_of_not_completes` says that no occurrence
arises otherwise, and `exists_around_of_completes` that each way is open to some texts
around the inserted one.
-/

namespace GrammarUpgrade.Text

/-- The end of the inserted text begins the pattern, or its beginning ends the pattern,
or it lies within the pattern. -/
def Completes (inserted pattern : List Char) : Prop :=
  (∃ part ∈ inserted.tails, part ≠ [] ∧ part <+: pattern) ∨
    (∃ part ∈ inserted.inits, part ≠ [] ∧ part <:+ pattern) ∨
      inserted <:+: pattern

instance (inserted pattern : List Char) : Decidable (Completes inserted pattern) :=
  inferInstanceAs (Decidable (_ ∨ _ ∨ _))

variable {inserted pattern left right : List Char}

/-- An occurrence that shares no character with the inserted text lies beside it. -/
theorem infix_or_infix_of_not_completes (apart : ¬ Completes inserted pattern)
    (absent : ¬ pattern <:+: inserted)
    (occurs : pattern <:+: left ++ inserted ++ right) :
    pattern <:+: left ∨ pattern <:+: right := by
  simp only [Completes, not_or, not_exists, not_and, List.mem_tails, List.mem_inits]
    at apart
  obtain ⟨noEnd, noBeginning, noPart⟩ := apart
  rcases List.infix_append_iff.mp occurs with
    occurs | occurs | ⟨front, back, rfl, ⟨rest, ends⟩, begins⟩
  · rcases List.infix_append_iff.mp occurs with
      occurs | occurs | ⟨front, back, rfl, ends, begins⟩
    · exact .inl occurs
    · exact absurd occurs absent
    · by_cases empty : back = []
      · rw [empty, List.append_nil]
        exact .inl ends.isInfix
      · exact absurd (List.suffix_append front back) (noBeginning back begins empty)
  · exact .inr occurs
  · -- The occurrence ends on the right: it covers the inserted text or starts in it.
    rcases List.append_eq_append_iff.mp ends with
      ⟨start, _, covers⟩ | ⟨start, _, starts⟩
    · rw [covers] at noPart
      exact absurd (List.infix_append start inserted back) noPart
    · by_cases empty : front = []
      · rw [empty, List.nil_append]
        exact .inr begins.isInfix
      · exact absurd (List.prefix_append front back)
          (noEnd front ⟨start, starts.symm⟩ empty)

/-- Some texts on both sides complete the pattern; they are proper parts of it, and what
is left of the inserted text beside the occurrence is a part of the inserted text. -/
theorem exists_around_of_completes (nonempty : inserted ≠ [])
    (completes : Completes inserted pattern) :
    ∃ left right before after,
      left ++ inserted ++ right = before ++ pattern ++ after ∧
        left <+: pattern.dropLast ∧ right <:+ pattern.tail ∧
        before <:+: inserted ∧ after <:+: inserted := by
  simp only [Completes, List.mem_tails, List.mem_inits] at completes
  rcases completes with
    ⟨part, ⟨before, rfl⟩, filled, ⟨right, rfl⟩⟩ |
      ⟨part, ⟨after, rfl⟩, filled, ⟨left, rfl⟩⟩ | ⟨left, right, rfl⟩
  · refine ⟨[], right, before, [], by simp, List.nil_prefix, ?_,
      List.infix_append_left, List.nil_infix⟩
    rw [List.tail_append_of_ne_nil filled]
    exact List.suffix_append _ _
  · refine ⟨left, [], [], after, by simp, ?_, List.nil_suffix,
      List.nil_infix, List.infix_append_right⟩
    rw [List.dropLast_append_of_ne_nil filled]
    exact List.prefix_append _ _
  · refine ⟨left, right, [], [], by simp, ?_, ?_, List.nil_infix, List.nil_infix⟩
    · rw [List.append_assoc, List.dropLast_append_of_ne_nil (by simp [nonempty])]
      exact List.prefix_append _ _
    · rw [List.tail_append_of_ne_nil (by simp [nonempty])]
      exact List.suffix_append _ _

/-- A text without the pattern, or two texts around an occurrence of it. -/
@[elab_as_elim]
theorem occurrenceInduction (nonempty : pattern ≠ []) {motive : List Char → Prop}
    (absent : ∀ text, ¬ pattern <:+: text → motive text)
    (around : ∀ left right, motive left → motive right →
      motive (left ++ pattern ++ right))
    (text : List Char) : motive text := by
  induction measured : text.length using Nat.strongRecOn generalizing text with
  | ind size ih =>
      by_cases occurs : pattern <:+: text
      · obtain ⟨left, right, rfl⟩ := occurs
        have positive := List.length_pos_iff.mpr nonempty
        rw [List.length_append, List.length_append] at measured
        exact around left right (ih _ (by omega) left rfl) (ih _ (by omega) right rfl)
      · exact absent text occurs

end GrammarUpgrade.Text
