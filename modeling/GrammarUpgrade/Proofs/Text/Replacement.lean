import GrammarUpgrade.Text.Substring

/-!
# Replacement as a reading from left to right

`Replaced` says by rules how a text is rewritten: an occurrence of the pattern is
exchanged as a whole where it is met, any other character is copied, and what has been
inserted is not read again.  The main statement, `replaced_iff`, says that `replaceAll`
computes this relation, which therefore has exactly one result for each text.
-/

namespace GrammarUpgrade.Text

/-- One reading of a text that exchanges the occurrences of a pattern. -/
inductive Replaced (pattern replacement : List Char) :
    List Char → List Char → Prop
  | done : Replaced pattern replacement [] []
  | found {text result : List Char} : Replaced pattern replacement text result →
      Replaced pattern replacement (pattern ++ text) (replacement ++ result)
  | copied {c : Char} {text result : List Char} : ¬ pattern <+: c :: text →
      Replaced pattern replacement text result →
      Replaced pattern replacement (c :: text) (c :: result)

variable {pattern replacement : List Char}

/-- Covered characters are passed over. -/
theorem replaceAllFrom_eq_replaceAll_drop (covered : Nat) (text : List Char) :
    replaceAllFrom pattern replacement covered text =
      replaceAll pattern replacement (text.drop covered) := by
  induction text generalizing covered with
  | nil => simp [replaceAll, replaceAllFrom]
  | cons c rest ih =>
      cases covered with
      | zero => rfl
      | succ n => exact ih n

theorem replaceAll_append_self (nonempty : pattern ≠ []) (text : List Char) :
    replaceAll pattern replacement (pattern ++ text) =
      replacement ++ replaceAll pattern replacement text := by
  cases pattern with
  | nil => exact absurd rfl nonempty
  | cons p rest =>
      have starts : (p :: rest).isPrefixOf (p :: (rest ++ text)) = true :=
        List.isPrefixOf_iff_prefix.mpr (List.prefix_append (p :: rest) text)
      rw [List.cons_append, replaceAll, replaceAllFrom, if_pos starts,
        replaceAllFrom_eq_replaceAll_drop]
      simp

theorem replaceAll_cons_of_not_isPrefix {c : Char} {text : List Char}
    (other : ¬ pattern <+: c :: text) :
    replaceAll pattern replacement (c :: text) =
      c :: replaceAll pattern replacement text := by
  have differs : ¬ pattern.isPrefixOf (c :: text) = true := fun starts =>
    other (List.isPrefixOf_iff_prefix.mp starts)
  rw [replaceAll, replaceAllFrom, if_neg differs]
  rfl

/-- The computed text is a reading. -/
theorem replaced_replaceAll (nonempty : pattern ≠ []) (text : List Char) :
    Replaced pattern replacement text (replaceAll pattern replacement text) := by
  induction measured : text.length using Nat.strongRecOn generalizing text with
  | ind size ih =>
      by_cases starts : pattern <+: text
      · obtain ⟨rest, rfl⟩ := starts
        have shorter : rest.length < size := by
          have positive := List.length_pos_iff.mpr nonempty
          rw [List.length_append] at measured
          omega
        rw [replaceAll_append_self nonempty]
        exact .found (ih _ shorter rest rfl)
      · cases text with
        | nil => exact .done
        | cons c rest =>
            have shorter : rest.length < size := by
              rw [List.length_cons] at measured
              omega
            rw [replaceAll_cons_of_not_isPrefix starts]
            exact .copied starts (ih _ shorter rest rfl)

/-- Replacing all occurrences is the reading from left to right. -/
theorem replaced_iff (nonempty : pattern ≠ []) {text result : List Char} :
    Replaced pattern replacement text result ↔
      replaceAll pattern replacement text = result := by
  constructor
  · intro replaced
    induction replaced with
    | done => rfl
    | found _ ih => rw [replaceAll_append_self nonempty, ih]
    | copied other _ ih => rw [replaceAll_cons_of_not_isPrefix other, ih]
  · rintro rfl
    exact replaced_replaceAll nonempty text

/-- Characters with which the pattern does not begin are copied. -/
theorem Replaced.append_of_not_mem {p : Char} {tail front text result : List Char}
    (absent : p ∉ front) (replaced : Replaced (p :: tail) replacement text result) :
    Replaced (p :: tail) replacement (front ++ text) (front ++ result) := by
  induction front with
  | nil => exact replaced
  | cons c front ih =>
      rw [List.mem_cons, not_or] at absent
      refine .copied (fun starts => ?_) (ih absent.2)
      exact absent.1 (List.cons_prefix_cons.mp starts).1

end GrammarUpgrade.Text
