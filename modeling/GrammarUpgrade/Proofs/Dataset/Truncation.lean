import GrammarUpgrade.Proofs.Dataset.Notation
import GrammarUpgrade.Proofs.Json.Unambiguous

/-!
# Texts that are cut off

The text of a dataset stands between brackets, and what it begins with is one value and no
other.  So a text from which more than blanks has been cut off cannot hold a smaller dataset,
wherever the cut is; the main statement is `ofText_truncated`.
-/

namespace GrammarUpgrade

namespace Json

variable {ε : Type} {written other : List Char} {kept cut : String}

/-! ## Containers end with their brackets -/

/-- A text between the brackets of a container. -/
def Bracketed (written : List Char) : Prop :=
  ∃ (frame : Frame) (inside : List Char),
    written = frame.opening :: (inside ++ [frame.bracket])

/-- The entries of a container end with its closing bracket. -/
theorem Entries.closing_isSuffix {closing : Char} {entry : List Char → ε → Prop}
    {isFirst : Bool} {s rest : List Char} {entries : List ε}
    (isWritten : Entries closing entry isFirst s entries rest) : closing :: rest <:+ s := by
  induction isWritten with
  | closed => exact List.suffix_append _ _
  | first _ _ _ ih => exact ih.trans ((List.suffix_append _ _).trans (List.suffix_append _ _))
  | next _ _ _ _ ih =>
      refine .trans ?_ ((List.suffix_cons _ _).trans (List.suffix_append _ _))
      exact ih.trans ((List.suffix_append _ _).trans (List.suffix_append _ _))

theorem IsArray.bracketed {values : List (List Char)} (isArray : IsArray written values) :
    Bracketed written := by
  obtain ⟨_, rfl, entries⟩ := isArray
  obtain ⟨inside, rfl⟩ := entries.closing_isSuffix
  exact ⟨.list, inside, rfl⟩

theorem IsObject.bracketed {members : List (String × List Char)}
    (isObject : IsObject written members) : Bracketed written := by
  obtain ⟨_, rfl, entries⟩ := isObject
  obtain ⟨inside, rfl⟩ := entries.closing_isSuffix
  exact ⟨.object, inside, rfl⟩

/-- Nothing that follows a closing bracket can be taken for a part of the container. -/
theorem Bracketed.ends (bracketed : Bracketed written) (rest : List Char) :
    Ends written rest := by
  obtain ⟨frame, inside, rfl⟩ := bracketed
  rintro _ ⟨⟩ begins
  cases frame <;> cases begins

/-! ## Texts that are cut off -/

/-- A container is still held when blanks behind it are cut off. -/
theorem Holds.of_append (holds : Holds (kept ++ cut) written) (bracketed : Bracketed written)
    (blank : Blank cut.toList) : Holds kept written := by
  obtain ⟨before, after, blankBefore, blankAfter, text⟩ := holds
  obtain ⟨frame, inside, rfl⟩ := bracketed
  have noBracket : frame.bracket ∉ cut.toList := fun member =>
    absurd (blank _ member) (by simp [isBlank_bracket])
  have split : kept.toList ++ cut.toList =
      (before ++ frame.opening :: inside) ++ frame.bracket :: after := by
    simpa using text
  rcases List.append_eq_append_iff.mp split with ⟨lost, _, rest⟩ | ⟨behind, whole, rest⟩
  · exact absurd (by simp [rest]) noBracket
  · cases behind with
    | nil =>
        rw [List.nil_append] at rest
        exact absurd (by simp [← rest]) noBracket
    | cons c behind =>
        obtain ⟨rfl, rfl⟩ := List.cons.inj rest
        exact ⟨before, behind, blankBefore, (List.forall_mem_append.mp blankAfter).1,
          by simp [whole]⟩

/-- What is left of a text holds a container only if nothing but blanks has been cut off. -/
theorem Holds.blank_of_append (holds : Holds (kept ++ cut) written) (isValue : IsValue written)
    (bracketed : Bracketed written) (left : Holds kept other) (isOther : IsValue other)
    (otherBracketed : Bracketed other) : Blank cut.toList := by
  obtain ⟨before, after, blank, blankAfter, text⟩ := holds
  obtain ⟨spaces, behind, blankOther, _, leftText⟩ := left
  rw [String.toList_append, leftText, List.append_assoc, List.append_assoc] at text
  have values : written ++ after = other ++ (behind ++ cut.toList) :=
    eq_of_blank_append_starts blank blankOther isValue.starts isOther.starts text.symm
  obtain ⟨-, rfl⟩ := isValue.unique isOther (bracketed.ends _) (otherBracketed.ends _) values
  exact (List.forall_mem_append.mp blankAfter).2

end Json

namespace Dataset

open Json

theorem IsWritten.bracketed {written : List Char} {dataset : Dataset}
    (isWritten : IsWritten written dataset) : Bracketed written := by
  cases isWritten with
  | object isObject _ _ => exact isObject.bracketed
  | array isArray _ _ _ => exact isArray.bracketed

/-- A text that was cut off is never taken for a smaller dataset: if only blanks are missing it
is the same dataset, and otherwise it is rejected. -/
theorem ofText_truncated {kept cut : String} {dataset : Dataset}
    (accepted : ofText (kept ++ cut) = .ok dataset) :
    (Blank cut.toList → ofText kept = .ok dataset) ∧
      (¬Blank cut.toList → ∃ failure, ofText kept = .error failure) := by
  obtain ⟨written, holds, isWritten⟩ := ofText_eq_ok_iff.mp accepted
  constructor
  · intro blank
    exact ofText_eq_ok_iff.mpr ⟨written, holds.of_append isWritten.bracketed blank, isWritten⟩
  · intro more
    cases read : ofText kept with
    | error failure => exact ⟨failure, rfl⟩
    | ok smaller =>
        obtain ⟨other, left, isOther⟩ := ofText_eq_ok_iff.mp read
        exact absurd (holds.blank_of_append (read_decodes.isValue isWritten)
          isWritten.bracketed left (read_decodes.isValue isOther) isOther.bracketed) more

/-- All sections have been read when the last bracket is missing, and still the text is
rejected. -/
theorem ofText_truncated_bracket :
    let kept := "\x7b\"note\":[\"\\ud800\"],\"types\":\x7b\"a\":\"<b>\"\x7d "
    let dataset : Dataset := ⟨.ofList [("a", "<b>")], .empty, .empty⟩
    ofText (kept ++ "\x7d\n") = .ok dataset ∧ ∃ failure, ofText kept = .error failure := by
  intro kept dataset
  have accepted : ofText (kept ++ "\x7d\n") = .ok dataset := by
    have sections : (ofText (kept ++ "\x7d\n")).map (fun found =>
        (found.types.entries, found.properties.entries, found.atRules.keys)) =
          .ok ([("a", "<b>")], [], []) := by
      decide +kernel
    obtain ⟨⟨⟨types, _⟩, ⟨properties, _⟩, ⟨atRules, _⟩⟩, read, same⟩ := of_map_eq_ok sections
    obtain ⟨rfl, grammars⟩ := Prod.mk.inj same
    obtain ⟨rfl, noKeys⟩ := Prod.mk.inj grammars
    obtain rfl : atRules = [] := List.map_eq_nil_iff.mp noKeys
    exact read
  have notBlank : ¬Blank "\x7d\n".toList := fun blank =>
    absurd (blank '\x7d' (by decide)) (by decide)
  exact ⟨accepted, (ofText_truncated accepted).2 notBlank⟩

end Dataset

end GrammarUpgrade
