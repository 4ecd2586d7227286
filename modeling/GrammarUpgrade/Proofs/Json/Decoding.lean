import GrammarUpgrade.Proofs.Json.Skipping

/-!
# Readers of a notation

`Decodes` says that a reader reads exactly a notation: what it reads is written there in the
notation, and whatever is written in the notation is read back.  It is closed under the ways
in which readers are put together.
-/

namespace GrammarUpgrade.Json

variable {α β : Type}

/-- A reader reads what `means` says of the text of a value, and nothing else. -/
structure Decodes (reader : List Char → Reading α) (means : List Char → α → Prop) : Prop where
  isValue : ∀ {written value}, means written value → IsValue written
  readsBack : ∀ {written value}, means written value → ReadsBack reader written value
  of_read : ∀ {s value rest}, reader s = .ok (value, rest) →
    ∃ before written, Blank before ∧ means written value ∧ s = before ++ (written ++ rest)

namespace Decodes

variable {reader : List Char → Reading α} {means : List Char → α → Prop}

theorem congr (decodes : Decodes reader means) {other : List Char → α → Prop}
    (same : ∀ written value, means written value ↔ other written value) :
    Decodes reader other where
  isValue others := decodes.isValue ((same _ _).mpr others)
  readsBack others := decodes.readsBack ((same _ _).mpr others)
  of_read read := by
    obtain ⟨before, written, blank, means, text⟩ := decodes.of_read read
    exact ⟨before, written, blank, (same _ _).mp means, text⟩

/-- A reader that refuses everything. -/
theorem refused (failure : Failure) :
    Decodes (fun _ => (.error failure : Reading α)) fun _ _ => False where
  isValue := False.elim
  readsBack := False.elim
  of_read read := nomatch read

theorem map (decodes : Decodes reader means) (change : α → β) :
    Decodes (fun s => (reader s).map fun read => (change read.1, read.2))
      fun written later => ∃ value, means written value ∧ change value = later where
  isValue := by
    rintro written later ⟨value, means, -⟩
    exact decodes.isValue means
  readsBack := by
    rintro written later ⟨value, means, rfl⟩
    exact (decodes.readsBack means).map change
  of_read read := by
    obtain ⟨⟨value, left⟩, readValue, same⟩ := of_map_eq_ok read
    cases same
    obtain ⟨before, written, blank, means, text⟩ := decodes.of_read readValue
    exact ⟨before, written, blank, ⟨value, means, rfl⟩, text⟩

/-- A whole text is read as exactly what it holds. -/
theorem readDocument_eq_ok_iff (decodes : Decodes reader means) {text : String} {value : α} :
    readDocument reader text = .ok value ↔ ∃ written, Holds text written ∧ means written value := by
  constructor
  · intro accepted
    rw [readDocument] at accepted
    split at accepted
    · cases accepted
    rename_i rest read
    split at accepted
    · rename_i ended
      cases accepted
      obtain ⟨before, written, blank, means, same⟩ := decodes.of_read read
      exact ⟨written, ⟨before, rest, blank, skipBlanks_eq_nil_iff.mp ended, same⟩, means⟩
    · cases accepted
  · rintro ⟨written, ⟨before, after, blank, blankAfter, same⟩, means⟩
    have delimited : Delimited (after ++ []) := .blank_append blankAfter delimited_nil
    rw [List.append_nil] at delimited
    have read := (decodes.readsBack means).read blank delimited
    rw [← same] at read
    simp only [readDocument, read, skipBlanks_eq_nil_iff.mpr blankAfter]

end Decodes

/-! ## Skipped values -/

theorem skipValue_decodes (value : α) :
    Decodes (fun s => (skipValue s).map (value, ·))
      fun written next => IsValue written ∧ value = next where
  isValue means := means.1
  readsBack := by
    rintro written _ ⟨isValue, rfl⟩
    constructor
    intro before rest blank delimited
    rw [skipValue_append blank isValue fun _ _ _ => delimited]
    rfl
  of_read read := by
    obtain ⟨left, skipped, same⟩ := of_map_eq_ok read
    cases same
    obtain ⟨before, written, blank, isValue, text⟩ := of_skipValue skipped
    exact ⟨before, written, blank, ⟨isValue, rfl⟩, text⟩

/-! ## Strings and missing values -/

/-- The text of a string. -/
def IsString (written : List Char) (text : String) : Prop :=
  ∃ content, written = '"' :: (content ++ ['"']) ∧ SpellsKey content text

theorem readText_append {content : List Char} {text : String} (spells : SpellsKey content text)
    (rest : List Char) : readText (content ++ '"' :: rest) = .ok (text, rest) :=
  readText_eq_ok_iff.mpr ⟨content, spells, rfl⟩

theorem readStringValue_decodes : Decodes readStringValue IsString where
  isValue := by
    rintro written text ⟨content, rfl, spells⟩
    exact .string spells.isText
  readsBack := by
    rintro written text ⟨content, rfl, spells⟩
    refine .of_skips (fun same => by rw [readStringValue, readStringValue, same]) ?_
    intro rest _
    have own : isBlank '"' = false := by decide
    have read := readText_append spells rest
    simp [readStringValue, skipBlanks_cons own, read]
  of_read := by
    intro s text rest read
    rw [readStringValue] at read
    split at read
    · cases read
    rename_i c inside next
    obtain ⟨-, blanks, blank, rfl⟩ := exists_blanks_of_eq_cons next
    split at read
    · rename_i quote
      subst quote
      obtain ⟨content, spells, rfl⟩ := readText_eq_ok_iff.mp read
      exact ⟨blanks, _, blank, ⟨content, rfl, spells⟩, by simp⟩
    · cases read

/-- The text of something that may be `null`. -/
inductive IsNullable (means : List Char → α → Prop) : List Char → Option α → Prop
  | absent : IsNullable means ['n', 'u', 'l', 'l'] none
  | present {written : List Char} {value : α} (meant : means written value) :
      IsNullable means written (some value)

theorem Decodes.nullable {present : List Char → Reading α} {means : List Char → α → Prop}
    (decodes : Decodes present means)
    (begins : ∀ {written value}, means written value → written.head? ≠ some 'n') :
    Decodes (readNullable present) (IsNullable means) where
  isValue := by
    rintro written _ (_ | meant)
    · exact .nullWord
    · exact decodes.isValue meant
  readsBack := by
    rintro written _ (_ | meant)
    · exact none_readsBack
    · obtain ⟨c, tail, rfl, own⟩ := (decodes.isValue meant).starts
      have notNull : c ≠ 'n' := fun same => begins meant (congrArg some same)
      exact some_readsBack (decodes.readsBack meant)
        ⟨c, tail, rfl, (endsPiece_eq_false_iff.mp own).1, notNull⟩
  of_read := by
    intro s value? rest read
    rw [readNullable] at read
    obtain ⟨blanks, blank, text⟩ := exists_blanks s
    have reads {t : List Char} (same : t = skipBlanks s)
        (read : (present t).map (fun read => (some read.1, read.2)) = .ok (value?, rest)) :
        ∃ before written, Blank before ∧ IsNullable means written value? ∧
          s = before ++ (written ++ rest) := by
      obtain ⟨⟨value, left⟩, readValue, same⟩ := of_map_eq_ok read
      cases same
      obtain ⟨before, written, blankBefore, meant, rfl⟩ := decodes.of_read readValue
      exact ⟨blanks ++ before, written, List.forall_mem_append.mpr ⟨blank, blankBefore⟩,
        .present meant, by rw [text, ← same, List.append_assoc]⟩
    split at read
    · rename_i next
      exact reads next.symm read
    rename_i c inside next
    split at read
    · rename_i letter
      obtain ⟨left, word, same⟩ := of_map_eq_ok read
      cases same
      rw [readWord_eq_ok_iff] at word
      refine ⟨blanks, _, blank, .absent, ?_⟩
      rw [text, next, letter, word]
      rfl
    · exact reads next.symm read

end GrammarUpgrade.Json
