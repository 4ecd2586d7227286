import GrammarUpgrade.Proofs.Json.Decoding

/-!
# Arrays are decoded

A reader of elements that reads exactly a notation reads arrays of it exactly.  As for
objects, there is a lemma about one more element in each direction.
-/

namespace GrammarUpgrade.Json

variable {α : Type}

/-! ## The next element -/

theorem nextElement_congr {s t : List Char} (same : skipBlanks s = skipBlanks t)
    (isFirst : Bool) : nextElement isFirst s = nextElement isFirst t := by
  rw [nextElement, nextElement, same]

theorem nextElement_first {written : List Char} (starts : Starts written)
    (rest : List Char) : nextElement true (written ++ rest) = .ok (.entry (written ++ rest)) := by
  obtain ⟨c, tail, rfl, own⟩ := starts
  obtain ⟨notBlank, _, notClosing, _⟩ := endsPiece_eq_false_iff.mp own
  rw [List.cons_append, nextElement, skipBlanks_cons notBlank]
  simp [notClosing]

theorem nextElement_other {breaks written : List Char} (blank : Blank breaks)
    (starts : Starts written) (rest : List Char) :
    nextElement false (',' :: (breaks ++ (written ++ rest))) =
      .ok (.entry (written ++ rest)) := by
  obtain ⟨c, tail, rfl, own⟩ := starts
  obtain ⟨notBlank, _, notClosing, _⟩ := endsPiece_eq_false_iff.mp own
  have comma : isBlank ',' = false := by decide
  rw [nextElement, skipBlanks_cons comma]
  simp [skipBlanks_append blank, skipBlanks_cons notBlank, notClosing]

theorem nextElement_closed (isFirst : Bool) (rest : List Char) :
    nextElement isFirst (']' :: rest) = .ok (.closed rest) := by
  have bracket : isBlank ']' = false := by decide
  rw [nextElement, skipBlanks_cons bracket]
  rfl

variable {element : List Char → Reading α} {means : List Char → α → Prop} {s t rest : List Char}
  {items : List α}

theorem nextElement_eq_closed_iff {isFirst : Bool} :
    nextElement isFirst s = .ok (.closed rest) ↔
      ∃ blanks, Blank blanks ∧ s = blanks ++ ']' :: rest := by
  constructor
  · intro closed
    rw [nextElement] at closed
    split at closed
    · cases closed
    rename_i next
    obtain ⟨-, blanks, blank, rfl⟩ := exists_blanks_of_eq_cons next
    split at closed
    · rename_i bracket
      cases closed
      exact ⟨blanks, blank, bracket ▸ rfl⟩
    · grind
  · rintro ⟨blanks, blank, rfl⟩
    exact (nextElement_congr (skipBlanks_append blank _) isFirst).trans
      (nextElement_closed isFirst rest)

theorem of_nextElement_first (entry : nextElement true s = .ok (.entry rest)) :
    ∃ blanks, Blank blanks ∧ s = blanks ++ rest := by
  rw [nextElement] at entry
  split at entry
  · cases entry
  rename_i next
  obtain ⟨-, blanks, blank, rfl⟩ := exists_blanks_of_eq_cons next
  refine ⟨blanks, blank, ?_⟩
  grind

theorem of_nextElement_other (entry : nextElement false s = .ok (.entry rest)) :
    ∃ after before, Blank after ∧ Blank before ∧ s = after ++ ',' :: (before ++ rest) := by
  rw [nextElement] at entry
  split at entry
  · cases entry
  rename_i next
  obtain ⟨-, after, blankAfter, rfl⟩ := exists_blanks_of_eq_cons next
  split at entry
  · cases entry
  rw [if_neg (by decide)] at entry
  split at entry
  · rename_i comma
    split at entry
    · cases entry
    rename_i nextElement
    obtain ⟨-, before, blankBefore, rfl⟩ := exists_blanks_of_eq_cons nextElement
    refine ⟨after, before, blankAfter, blankBefore, ?_⟩
    grind
  · cases entry

section Entries

variable {first : List Char} {values : List (List Char)} {isFirst : Bool}

/-- Where an element is found there is an entry. -/
theorem entries_of_nextElement {before : List Char}
    (found : nextElement isFirst s = .ok (.entry (before ++ (first ++ t)))) (blank : Blank before)
    (behind : Entries ']' (· = ·) false t values rest) :
    Entries ']' (· = ·) isFirst s (first :: values) rest := by
  have both {blanks : List Char} (blankOthers : Blank blanks) : Blank (blanks ++ before) :=
    List.forall_mem_append.mpr ⟨blankOthers, blank⟩
  cases isFirst with
  | true =>
      obtain ⟨blanks, blankOthers, rfl⟩ := of_nextElement_first found
      rw [← List.append_assoc]
      exact .first (both blankOthers) rfl behind
  | false =>
      obtain ⟨after, blanks, blankAfter, blankOthers, rfl⟩ := of_nextElement_other found
      rw [← List.append_assoc blanks]
      exact .next blankAfter (both blankOthers) rfl behind

/-- Where there is an entry an element is found. -/
theorem nextElement_of_entries (entries : Entries ']' (· = ·) isFirst s (first :: values) rest)
    (starts : Starts first) :
    ∃ t, nextElement isFirst s = .ok (.entry (first ++ t)) ∧
      Entries ']' (· = ·) false t values rest := by
  cases entries with
  | @first before _ t _ _ _ blank isFirst behind =>
      subst isFirst
      exact ⟨t, (nextElement_congr (skipBlanks_append blank _) true).trans
        (nextElement_first starts t), behind⟩
  | @next after before _ t _ _ _ blankAfter blank isNext behind =>
      subst isNext
      exact ⟨t, (nextElement_congr (skipBlanks_append blankAfter _) false).trans
        (nextElement_other blank starts t), behind⟩

end Entries

/-! ## Elements -/

/-- The array ends, or there is one more element. -/
theorem readElementsUpTo_succ_cases {count : Nat} {isFirst : Bool}
    (read : readElementsUpTo element (count + 1) isFirst s = .ok (items, rest)) :
    (nextElement isFirst s = .ok (.closed rest) ∧ items = []) ∨
    ∃ t first after others, nextElement isFirst s = .ok (.entry t) ∧
      element t = .ok (first, after) ∧ items = first :: others ∧
      readElementsUpTo element count false after = .ok (others, rest) := by
  rw [readElementsUpTo] at read
  split at read
  · cases read
  · rename_i closed
    cases read
    exact .inl ⟨closed, rfl⟩
  rename_i t entry
  split at read
  · cases read
  rename_i first after readFirst
  split at read
  · cases read
  rename_i others last readOthers
  cases read
  exact .inr ⟨t, first, after, others, entry, readFirst, rfl, readOthers⟩

/-- One more element is read back. -/
theorem readElementsUpTo_entry {element : List Char → Reading α} {written : List Char}
    {item : α} (reads : ReadsBack element written item) {isFirst : Bool}
    {s next rest : List Char}
    (entry : nextElement isFirst s = .ok (.entry (written ++ next)))
    (delimited : Delimited next) {count : Nat} {items : List α}
    (others : readElementsUpTo element count false next = .ok (items, rest)) :
    readElementsUpTo element (count + 1) isFirst s = .ok (item :: items, rest) := by
  rw [readElementsUpTo, entry]
  simp only [reads.followed delimited, others]

namespace Decodes

variable (decodes : Decodes element means)

include decodes

/-- What is read of an array is written there. -/
theorem of_readElementsUpTo {count : Nat} {isFirst : Bool}
    (read : readElementsUpTo element count isFirst s = .ok (items, rest)) :
    ∃ entries : List (List Char × α),
      Entries ']' (· = ·) isFirst s (entries.map Prod.fst) rest ∧
      (∀ entry ∈ entries, means entry.1 entry.2) ∧ entries.map Prod.snd = items := by
  induction count generalizing isFirst items s with
  | zero => cases read
  | succ count ih =>
      rcases readElementsUpTo_succ_cases read with ⟨closed, rfl⟩ |
        ⟨t, first, left, others, found, readFirst, rfl, readOthers⟩
      · exact ⟨[], Entries.nil_iff.mpr (nextElement_eq_closed_iff.mp closed),
          List.forall_mem_nil _, rfl⟩
      · obtain ⟨before, written, blank, meant, rfl⟩ := decodes.of_read readFirst
        obtain ⟨entries, behind, all, rfl⟩ := ih readOthers
        exact ⟨(written, first) :: entries, entries_of_nextElement found blank behind,
          List.forall_mem_cons.mpr ⟨meant, all⟩, rfl⟩

/-- The elements of an array are read back. -/
theorem readElementsUpTo_of_entries {isFirst : Bool} {entries : List (List Char × α)}
    (written : Entries ']' (· = ·) isFirst s (entries.map Prod.fst) rest)
    (all : ∀ entry ∈ entries, means entry.1 entry.2) {count : Nat}
    (enough : entries.length < count) :
    readElementsUpTo element count isFirst s = .ok (entries.map Prod.snd, rest) := by
  induction entries generalizing isFirst s count with
  | nil =>
      obtain ⟨more, rfl⟩ := Nat.exists_eq_add_one.mpr enough
      rw [readElementsUpTo, nextElement_eq_closed_iff.mpr (Entries.nil_iff.mp written)]
      rfl
  | cons entry entries ih =>
      obtain ⟨more, rfl⟩ := Nat.exists_eq_add_one.mpr (Nat.zero_lt_of_lt enough)
      obtain ⟨meant, others⟩ := List.forall_mem_cons.mp all
      obtain ⟨t, found, behind⟩ :=
        nextElement_of_entries written (decodes.isValue meant).starts
      exact readElementsUpTo_entry (decodes.readsBack meant) found (behind.delimited (by decide))
        (ih behind others (Nat.lt_of_succ_lt_succ enough))

theorem readElements_of_entries {entries : List (List Char × α)}
    (written : Entries ']' (· = ·) true s (entries.map Prod.fst) rest)
    (all : ∀ entry ∈ entries, means entry.1 entry.2) :
    readElements element s = .ok (entries.map Prod.snd, rest) := by
  refine decodes.readElementsUpTo_of_entries written all ?_
  have values : ∀ value ∈ entries.map Prod.fst, IsValue value :=
    List.forall_mem_map.mpr fun entry member => decodes.isValue (all entry member)
  rw [← entries.length_map Prod.fst]
  refine (written.attach values).length_lt ?_
  rintro _ _ ⟨rfl, isValue⟩ rfl
  obtain ⟨_, _, none, _⟩ := isValue.starts
  cases none

end Decodes

end GrammarUpgrade.Json
