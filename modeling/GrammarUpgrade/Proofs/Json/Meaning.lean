import GrammarUpgrade.Proofs.Dictionary.Gathering
import GrammarUpgrade.Proofs.Json.Elements
import GrammarUpgrade.Proofs.Json.Members
import GrammarUpgrade.Proofs.Json.Value

/-!
# The values that texts mean

`Means` relates a text to the value it stands for, by the notation alone; a repeated key of an
object keeps its first place and takes its last value.  `readValue` reads exactly this.
-/

namespace GrammarUpgrade.Json

open GrammarUpgrade.Decimal (isDigit)

/-- The value that a text stands for, with at most so many containers nested. -/
inductive Means : Nat → List Char → Value → Prop
  | null {depth : Nat} : Means depth ['n', 'u', 'l', 'l'] .null
  | yes {depth : Nat} : Means depth ['t', 'r', 'u', 'e'] (.boolean true)
  | no {depth : Nat} : Means depth ['f', 'a', 'l', 's', 'e'] (.boolean false)
  | number {depth : Nat} {written : List Char} {numeral : Numeral} {number : Number}
      (spells : SpellsNumeral written numeral) (unsigned : numeral.negative = false)
      (value : numeral.value? = some number) : Means depth written (.number number)
  | negative {depth : Nat} {written : List Char} {numeral : Numeral} {number : Number}
      (spells : SpellsNumeral written numeral) (signed : numeral.negative = true)
      (value : numeral.value? = some number) : Means depth ('-' :: written) (.number number)
  | string {depth : Nat} {written : List Char} {text : String}
      (isString : IsString written text) : Means depth written (.string text)
  | array {depth : Nat} {written : List Char} {entries : List (List Char × Value)}
      (isArray : IsArray written (entries.map Prod.fst))
      (means : ∀ entry ∈ entries, Means depth entry.1 entry.2) :
      Means (depth + 1) written (.array (entries.map Prod.snd))
  | object {depth : Nat} {written : List Char} {decoded : List (Decoded Value)}
      {dictionary : Dictionary Value} (isObject : IsObject written (decoded.map Decoded.member))
      (means : ∀ d ∈ decoded, Means depth d.written d.value)
      (gathers : dictionary.Gathers (decoded.map Decoded.entry)) :
      Means (depth + 1) written (.object dictionary.entries)

theorem Means.isValue {depth : Nat} {written : List Char} {value : Value}
    (means : Means depth written value) : IsValue written := by
  induction means with
  | null => exact .nullWord
  | yes => exact .trueWord
  | no => exact .falseWord
  | number spells => exact .number spells
  | negative spells => exact .negative spells
  | string isString => exact readStringValue_decodes.isValue isString
  | array isArray _ ih => exact isArray.isValue (List.forall_mem_map.mpr ih)
  | object isObject _ _ ih => exact isObject.isValue (List.forall_mem_map.mpr ih)

/-! ## Numbers -/

theorem readNumber_append {negative : Bool} {written rest : List Char} {numeral : Numeral}
    {number : Number} (spells : SpellsNumeral written numeral)
    (sign : numeral.negative = negative) (value : numeral.value? = some number)
    (delimited : Delimited rest) :
    readNumber negative (written ++ rest) = .ok (number, rest) := by
  subst sign
  simp only [readNumber, bind, Except.bind, readNumeral_append spells delimited, value]
  rfl

theorem of_readNumber {negative : Bool} {s rest : List Char} {number : Number}
    (read : readNumber negative s = .ok (number, rest)) :
    ∃ written numeral, SpellsNumeral written numeral ∧ numeral.negative = negative ∧
      numeral.value? = some number ∧ s = written ++ rest := by
  simp only [readNumber, bind, Except.bind] at read
  split at read
  · cases read
  rename_i found readNumeral
  obtain ⟨numeral, left⟩ := found
  obtain ⟨sign, written, spells, rfl⟩ := of_readNumeral readNumeral
  split at read
  · rename_i value
    cases read
    exact ⟨written, numeral, spells, sign, value, rfl⟩
  · cases read

/-! ## Values -/

section Values

variable {depth : Nat}

theorem putMember_decodes (decodes : Decodes (readValue depth) (Means depth)) :
    DecodesMembers (putMember depth) fun members key written next =>
      ∃ value, Means depth written value ∧ Dictionary.put key value members = next where
  exists_reader members key := by
    exact ⟨_, decodes.map fun value => Dictionary.put key value members, Iff.rfl⟩

theorem IsString.readsBack {written : List Char} {text : String}
    (isString : IsString written text) :
    ReadsBack (readValue depth) written (.string text) := by
  obtain ⟨content, rfl, spells⟩ := isString
  refine .of_skips (readValue_congr depth) ?_
  intro rest _
  have own : isBlank '"' = false := by decide
  have read := readText_append spells rest
  rw [readValue.eq_def]
  simp [skipBlanks_cons own, isDigit, read, Except.map]

theorem Means.readsBack {written : List Char} {value : Value}
    (inside : ∀ below, depth = below + 1 → Decodes (readValue below) (Means below))
    (means : Means depth written value) : ReadsBack (readValue depth) written value := by
  cases means with
  | null => exact null_readsBack
  | yes => exact true_readsBack
  | no => exact false_readsBack
  | number spells unsigned value =>
      refine number_readsBack fun {rest} delimited => ?_
      obtain ⟨c, tail, rfl, digit⟩ := spells.exists_digit
      have notSign : c ≠ '-' := by
        rintro rfl
        cases digit
      refine ⟨c, tail ++ rest, rfl, by simp [digit], ?_⟩
      rw [readNumberFrom, if_neg notSign]
      exact readNumber_append spells unsigned value delimited
  | negative spells signed value =>
      refine number_readsBack fun {rest} delimited => ?_
      refine ⟨'-', _, rfl, rfl, ?_⟩
      rw [readNumberFrom, if_pos rfl]
      exact readNumber_append spells signed value delimited
  | string isString => exact isString.readsBack
  | array isArray means =>
      obtain ⟨content, rfl, entries⟩ := isArray
      refine .of_skips (readValue_congr _) ?_
      intro rest _
      have read := (inside _ rfl).readElements_of_entries (entries.append rest) means
      rw [List.nil_append] at read
      rw [List.cons_append, readValue_array, read]
      rfl
  | object isObject means gathers =>
      obtain ⟨content, rfl, entries⟩ := isObject
      refine .of_skips (readValue_congr _) ?_
      intro rest _
      have leads := (leads_iff_foldl fun members key value => Dictionary.put key value members).mpr
        ⟨_, rfl, means, gathers.foldl_put⟩
      have read := (putMember_decodes (inside _ rfl)).readMembers_of_entries
        (entries.append rest) leads
      rw [List.nil_append] at read
      rw [List.cons_append, readValue_object, read]
      rfl

/-- What is read of a value is what its text means. -/
theorem of_readValue {s rest : List Char} {value : Value}
    (inside : ∀ below, depth = below + 1 → Decodes (readValue below) (Means below))
    (read : readValue depth s = .ok (value, rest)) :
    ∃ before written, Blank before ∧ Means depth written value ∧
      s = before ++ (written ++ rest) := by
  rw [readValue.eq_def] at read
  split at read
  · cases read
  rename_i c later next
  obtain ⟨-, blanks, blank, rfl⟩ := exists_blanks_of_eq_cons next
  have reads {written : List Char} (means : Means depth written value)
      (text : c :: later = written ++ rest) :
      ∃ before written, Blank before ∧ Means depth written value ∧
        blanks ++ c :: later = before ++ (written ++ rest) :=
    ⟨blanks, written, blank, means, congrArg _ text⟩
  -- Null, the two truth values, numbers and strings come first, then the containers.
  split at read
  · subst c
    obtain ⟨left, word, same⟩ := of_map_eq_ok read
    cases same
    exact reads .null (by rw [readWord_eq_ok_iff.mp word]; rfl)
  split at read
  · subst c
    obtain ⟨left, word, same⟩ := of_map_eq_ok read
    cases same
    exact reads .yes (by rw [readWord_eq_ok_iff.mp word]; rfl)
  split at read
  · subst c
    obtain ⟨left, word, same⟩ := of_map_eq_ok read
    cases same
    exact reads .no (by rw [readWord_eq_ok_iff.mp word]; rfl)
  split at read
  · obtain ⟨⟨number, left⟩, readNumber, same⟩ := of_map_eq_ok read
    cases same
    rw [readNumberFrom] at readNumber
    split at readNumber
    · subst c
      obtain ⟨written, numeral, spells, signed, value, rfl⟩ := of_readNumber readNumber
      exact reads (.negative spells signed value) rfl
    · obtain ⟨written, numeral, spells, unsigned, value, text⟩ := of_readNumber readNumber
      exact reads (.number spells unsigned value) text
  split at read
  · subst c
    obtain ⟨⟨text, left⟩, readString, same⟩ := of_map_eq_ok read
    cases same
    obtain ⟨content, spells, rfl⟩ := readText_eq_ok_iff.mp readString
    exact reads (.string ⟨content, rfl, spells⟩) (by simp)
  split at read
  · subst c
    cases depth with
    | zero => cases read
    | succ below =>
        obtain ⟨⟨items, left⟩, readItems, same⟩ := of_map_eq_ok read
        cases same
        obtain ⟨pairs, entries, means, rfl⟩ := (inside below rfl).of_readElementsUpTo readItems
        obtain ⟨content, inner, rfl⟩ := entries.exists_inside
        exact reads (.array ⟨content, rfl, inner⟩ means) rfl
  split at read
  · subst c
    cases depth with
    | zero => cases read
    | succ below =>
        obtain ⟨⟨members, left⟩, readAll, same⟩ := of_map_eq_ok read
        cases same
        obtain ⟨written, entries, leads⟩ :=
          (putMember_decodes (inside below rfl)).of_readMembersUpTo readAll
        obtain ⟨decoded, rfl, means, rfl⟩ := (leads_iff_foldl _).mp leads
        obtain ⟨content, inner, rfl⟩ := entries.exists_inside
        have gathers := Dictionary.gathers_ofList (decoded.map Decoded.entry)
        have meant : Means (below + 1) ('\x7b' :: content) _ :=
          .object ⟨content, rfl, inner⟩ means gathers
        rw [← gathers.foldl_put] at meant
        exact reads meant rfl
  · cases read

theorem readValue_decodes (depth : Nat) : Decodes (readValue depth) (Means depth) := by
  induction depth with
  | zero =>
      exact ⟨Means.isValue, Means.readsBack fun _ none => (nomatch none),
        of_readValue fun _ none => nomatch none⟩
  | succ depth ih =>
      have inside : ∀ below, depth + 1 = below + 1 → Decodes (readValue below) (Means below) := by
        rintro _ ⟨⟩
        exact ih
      exact ⟨Means.isValue, Means.readsBack inside, of_readValue inside⟩

end Values

/-! ## Depth -/

/-- At most so many containers are nested, and the keys of an object are different. -/
def Value.Fits : Nat → Value → Prop
  | 0, .array _ => False
  | 0, .object _ => False
  | depth + 1, .array items => ∀ item ∈ items, item.Fits depth
  | depth + 1, .object members =>
      (members.map Prod.fst).Nodup ∧ ∀ member ∈ members, member.2.Fits depth
  | _, _ => True

/-- A value is nested no deeper than its text may be. -/
theorem Means.fits {depth : Nat} {written : List Char} {value : Value}
    (means : Means depth written value) : value.Fits depth := by
  induction means with
  | null | yes | no | number | negative | string => all_goals cases ‹Nat› <;> trivial
  | array _ _ ih => exact List.forall_mem_map.mpr ih
  | object isObject means gathers ih =>
      refine ⟨Dictionary.distinct _, ?_⟩
      intro member inMembers
      obtain ⟨d, inDecoded, rfl⟩ := List.mem_map.mp (gathers.mem_of_mem inMembers)
      exact ih d inDecoded

end GrammarUpgrade.Json
