import GrammarUpgrade.Proofs.Json.Numeral

/-!
# Readers of values

What `readValue` does where a value begins: words and numbers are read back, and what is inside
a container is left to the readers of its entries.
-/

namespace GrammarUpgrade.Json

open GrammarUpgrade.Decimal (isDigit)

variable {allowed : Nat}

theorem readValue_congr (depth : Nat) {s t : List Char}
    (same : skipBlanks s = skipBlanks t) : readValue depth s = readValue depth t := by
  rw [readValue.eq_def, readValue.eq_def, same]

theorem null_readsBack : ReadsBack (readValue allowed) "null".toList .null := by
  refine .of_skips (readValue_congr allowed) ?_
  intro rest _
  have own : isBlank 'n' = false := by decide
  rw [readValue.eq_def]
  simp [skipBlanks_cons own, readWord, Except.map]

theorem true_readsBack : ReadsBack (readValue allowed) "true".toList (.boolean true) := by
  refine .of_skips (readValue_congr allowed) ?_
  intro rest _
  have own : isBlank 't' = false := by decide
  rw [readValue.eq_def]
  simp [skipBlanks_cons own, readWord, Except.map]

theorem false_readsBack : ReadsBack (readValue allowed) "false".toList (.boolean false) := by
  refine .of_skips (readValue_congr allowed) ?_
  intro rest _
  have own : isBlank 'f' = false := by decide
  rw [readValue.eq_def]
  simp [skipBlanks_cons own, readWord, Except.map]

/-- What a reader of numbers takes off every text is read back as a number. -/
theorem number_readsBack {written : List Char} {number : Number}
    (reads : ∀ {rest}, Delimited rest → ∃ c tail, written ++ rest = c :: tail ∧
      (c = '-' || isDigit c) = true ∧ readNumberFrom c tail = .ok (number, rest)) :
    ReadsBack (readValue allowed) written (.number number) := by
  refine .of_skips (readValue_congr allowed) ?_
  intro rest delimited
  obtain ⟨c, tail, text, numeral, read⟩ := reads delimited
  rw [text, readValue.eq_def]
  obtain ⟨own, notWord⟩ := begins_number numeral
  have notBlank := (endsPiece_eq_false_iff.mp own).1
  simp only [skipBlanks_cons notBlank, notWord, numeral, read, if_true, if_false]
  rfl

theorem readValue_array (inside : List Char) :
    readValue (allowed + 1) ('[' :: inside) =
      (readElements (readValue allowed) inside).map fun read => (.array read.1, read.2) := by
  have own : isBlank '[' = false := by decide
  rw [readValue.eq_def]
  simp only [skipBlanks_cons own]
  rfl

/-- Read a member of an object and put it to those before it. -/
def putMember (allowed : Nat) (members : List (String × Value)) (key : String)
    (afterKey : List Char) : Reading (List (String × Value)) :=
  match readColon afterKey with
  | .error failure => .error failure
  | .ok afterColon =>
      (readValue allowed afterColon).map fun read =>
        (Dictionary.put key read.1 members, read.2)

theorem readValue_object (inside : List Char) :
    readValue (allowed + 1) ('\x7b' :: inside) =
      (readMembers (putMember allowed) [] inside).map fun read =>
        (.object read.1, read.2) := by
  have own : isBlank '\x7b' = false := by decide
  rw [readValue.eq_def]
  simp only [skipBlanks_cons own]
  rfl

end GrammarUpgrade.Json
