import GrammarUpgrade.Json.Reader

/-!
# Reading back what was written

`ReadsBack` says that a reader finds a value in a written text wherever the text stands:
after blanks and before anything that may follow a value.
-/

namespace GrammarUpgrade.Json

variable {α β : Type}

/-- A result that was made of another one. -/
theorem of_map_eq_ok {ε : Type} {result : Except ε α} {change : α → β} {value : β}
    (mapped : result.map change = .ok value) :
    ∃ found, result = .ok found ∧ change found = value := by
  cases result with
  | error failure => cases mapped
  | ok found =>
      cases mapped
      exact ⟨found, rfl, rfl⟩

/-! ## Blanks and what follows a value -/

/-- Text of blanks alone. -/
def Blank (s : List Char) : Prop :=
  ∀ c ∈ s, isBlank c = true

/-- Whether a character ends the piece before it. -/
def endsPiece (c : Char) : Bool :=
  isBlank c || c = ',' || c = ']' || c = '\x7d'

/-- Text that may follow a value. -/
def Delimited (rest : List Char) : Prop :=
  ∀ c ∈ rest.head?, endsPiece c = true

/-- Text that begins with a character of its own. -/
def Starts (written : List Char) : Prop :=
  ∃ c tail, written = c :: tail ∧ endsPiece c = false

theorem endsPiece_eq_false_iff {c : Char} :
    endsPiece c = false ↔ isBlank c = false ∧ c ≠ ',' ∧ c ≠ ']' ∧ c ≠ '\x7d' := by
  simp [endsPiece, and_assoc]

theorem delimited_nil : Delimited [] :=
  fun _ none => nomatch none

theorem delimited_cons {c : Char} (ends : endsPiece c = true) (rest : List Char) :
    Delimited (c :: rest) := by
  intro d head
  cases head
  exact ends

theorem Delimited.blank_append {blanks rest : List Char} (blank : Blank blanks)
    (delimited : Delimited rest) : Delimited (blanks ++ rest) := by
  cases blanks with
  | nil => exact delimited
  | cons c others =>
      refine delimited_cons ?_ _
      simp [endsPiece, blank c List.mem_cons_self]

theorem skipBlanks_append {blanks : List Char} (blank : Blank blanks) (s : List Char) :
    skipBlanks (blanks ++ s) = skipBlanks s :=
  List.dropWhile_append_of_pos blank

theorem skipBlanks_cons {c : Char} (notBlank : isBlank c = false) (s : List Char) :
    skipBlanks (c :: s) = c :: s := by
  simp [skipBlanks, notBlank]

/-- The blanks in front of the next piece. -/
theorem exists_blanks (s : List Char) : ∃ blanks, Blank blanks ∧ s = blanks ++ skipBlanks s :=
  ⟨s.takeWhile isBlank, fun _ member => List.all_eq_true.mp List.all_takeWhile _ member,
    List.takeWhile_append_dropWhile.symm⟩

theorem skipBlanks_eq_nil_iff {s : List Char} : skipBlanks s = [] ↔ Blank s := by
  constructor
  · intro ended
    obtain ⟨blanks, blank, text⟩ := exists_blanks s
    rw [ended, List.append_nil] at text
    exact text ▸ blank
  · intro blank
    have skipped := skipBlanks_append blank []
    rwa [List.append_nil] at skipped

theorem exists_blanks_of_eq_cons {s rest : List Char} {c : Char}
    (next : skipBlanks s = c :: rest) :
    isBlank c = false ∧ ∃ blanks, Blank blanks ∧ s = blanks ++ c :: rest := by
  obtain ⟨blanks, blank, same⟩ := exists_blanks s
  refine ⟨?_, blanks, blank, next ▸ same⟩
  have kept := List.head?_dropWhile_not isBlank s
  rw [← skipBlanks, next] at kept
  simpa using kept

theorem readWord_eq_ok_iff {word s rest : List Char} :
    readWord word s = .ok rest ↔ s = word ++ rest := by
  induction word generalizing s with
  | nil => simp [readWord]
  | cons c word ih =>
      cases s with
      | nil => simp [readWord]
      | cons d s =>
          by_cases same : c = d
          · simp [readWord, same, ih]
          · simp [readWord, same, Ne.symm same]

theorem readColon_eq_ok_iff {s rest : List Char} :
    readColon s = .ok rest ↔ ∃ blanks, Blank blanks ∧ s = blanks ++ ':' :: rest := by
  constructor
  · intro read
    rw [readColon] at read
    split at read
    · cases read
    rename_i next
    obtain ⟨-, blanks, blank, rfl⟩ := exists_blanks_of_eq_cons next
    split at read
    · rename_i colon
      cases read
      exact ⟨blanks, blank, colon ▸ rfl⟩
    · cases read
  · rintro ⟨blanks, blank, rfl⟩
    have own : isBlank ':' = false := by decide
    rw [readColon, skipBlanks_append blank, skipBlanks_cons own]
    rfl

/-! ## Values -/

/-- A reader finds a value in a written text, wherever it stands, and leaves what follows
it. -/
structure ReadsBack (reader : List Char → Reading α) (written : List Char) (value : α) :
    Prop where
  read : ∀ {before rest}, Blank before → Delimited rest →
    reader (before ++ (written ++ rest)) = .ok (value, rest)

namespace ReadsBack

variable {reader : List Char → Reading α} {written : List Char} {value : α}

/-- A reader that skips blanks first need only be looked at without them. -/
theorem of_skips (skips : ∀ {s t}, skipBlanks s = skipBlanks t → reader s = reader t)
    (reads : ∀ {rest}, Delimited rest → reader (written ++ rest) = .ok (value, rest)) :
    ReadsBack reader written value := by
  constructor
  intro before rest blank delimited
  rw [skips (skipBlanks_append blank _)]
  exact reads delimited

/-- A value that is followed by something is read back. -/
theorem followed (reads : ReadsBack reader written value) {rest : List Char}
    (delimited : Delimited rest) : reader (written ++ rest) = .ok (value, rest) :=
  reads.read (List.forall_mem_nil _) delimited

/-- What is made of a value that is read back. -/
theorem map (reads : ReadsBack reader written value) (change : α → β) :
    ReadsBack (fun s => (reader s).map fun read => (change read.1, read.2)) written
      (change value) := by
  constructor
  intro before rest blank delimited
  rw [reads.read blank delimited]
  rfl

end ReadsBack

/-! ## Missing values -/

section Nullable

variable {present : List Char → Reading α}

theorem readNullable_congr {s t : List Char} (same : skipBlanks s = skipBlanks t) :
    readNullable present s = readNullable present t := by
  rw [readNullable, readNullable, same]

theorem none_readsBack : ReadsBack (readNullable present) "null".toList none := by
  refine .of_skips readNullable_congr ?_
  intro rest _
  have own : isBlank 'n' = false := by decide
  rw [readNullable]
  simp [skipBlanks_cons own, readWord, Except.map]

/-- What is present is read back if it cannot be taken for `null`. -/
theorem some_readsBack {written : List Char} {value : α}
    (reads : ReadsBack present written value)
    (begins : ∃ c tail, written = c :: tail ∧ isBlank c = false ∧ c ≠ 'n') :
    ReadsBack (readNullable present) written (some value) := by
  obtain ⟨c, tail, rfl, notBlank, notNull⟩ := begins
  refine .of_skips readNullable_congr ?_
  intro rest delimited
  have read := reads.followed delimited
  rw [List.cons_append] at read ⊢
  rw [readNullable]
  simp only [skipBlanks_cons notBlank, notNull, if_false, read]
  rfl

end Nullable

end GrammarUpgrade.Json
