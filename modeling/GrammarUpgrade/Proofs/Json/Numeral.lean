import GrammarUpgrade.Json.Reader
import GrammarUpgrade.Proofs.Json.ReadBack

/-!
# Numbers in texts

A numeral is read where it is spelled, and reading stops after it when a delimiter follows:
`readNumeral_append` and `of_readNumeral`.  The digits of a whole number that fits a 64-bit
word are taken exactly.
-/

namespace GrammarUpgrade.Json

open GrammarUpgrade.Decimal (isDigit digitValue digitsOf)

/-! ## Digits -/

theorem isDigit_of_mem_digitsOf {n : Nat} {c : Char} (member : c ∈ digitsOf n) :
    isDigit c = true := by
  have digit := Nat.isDigit_of_mem_toDigits (by decide) (by decide) member
  simpa [isDigit, Char.isDigit, Char.le_def] using digit

/-- Only the digits of zero begin with a zero. -/
theorem eq_zero_of_head?_digitsOf {n : Nat} (head : (digitsOf n).head? = some '0') :
    n = 0 := by
  induction n using Nat.strongRecOn with
  | ind n ih =>
      by_cases small : n < 10
      · rw [digitsOf, Nat.toDigits_of_lt_base small] at head
        exact Nat.digitChar_eq_zero.mp (Option.some.inj head)
      · have leading : (digitsOf (n / 10)).head? = some '0' := by
          rw [digitsOf, Nat.toDigits_of_base_le (by decide) (by omega)] at head
          rw [← head, List.head?_append, digitsOf]
          cases digits : Nat.toDigits 10 (n / 10) with
          | nil => exact absurd digits Nat.toDigits_ne_nil
          | cons => rfl
        have := ih (n / 10) (by omega) leading
        omega

/-- Digits are taken as long as their number is small enough. -/
theorem absorb_eq {number : Nat} {digits : List Char}
    (small : Nat.ofDigitChars 10 digits number < 0x10000000000000000) :
    absorb number digits = (Nat.ofDigitChars 10 digits number, []) := by
  induction digits generalizing number with
  | nil => rfl
  | cons d rest ih =>
      rw [Nat.ofDigitChars_cons] at small ⊢
      have longer : number * 10 + digitValue d = 10 * number + (d.toNat - '0'.toNat) := by
        rw [digitValue, Nat.mul_comm]
      have grows : 10 * number + (d.toNat - '0'.toNat) ≤
          Nat.ofDigitChars 10 rest (10 * number + (d.toNat - '0'.toNat)) := by
        rw [Nat.ofDigitChars_eq_ofDigitChars_zero]
        exact Nat.le_add_right_of_le (Nat.le_mul_of_pos_left _ (Nat.pow_pos (by decide)))
      simp only [absorb, longer]
      rw [if_pos (by omega), ih small]

theorem absorb_digitsOf {n : Nat} (small : n < 0x10000000000000000) :
    absorb 0 (digitsOf n) = (n, []) := by
  have number : Nat.ofDigitChars 10 (digitsOf n) 0 = n := Nat.ofDigitChars_ten_toDigits
  rw [absorb_eq (by rwa [number]), number]

/-! ## The spelling -/

/-- A digit and perhaps more. -/
def IsDigits (digits : List Char) : Prop :=
  digits ≠ [] ∧ ∀ c ∈ digits, isDigit c = true

/-- Whole digits: a zero stands alone. -/
def IsWhole (digits : List Char) : Prop :=
  IsDigits digits ∧ (digits.head? = some '0' → digits = ['0'])

/-- What a fraction looks like, or none. -/
inductive SpellsFraction : List Char → Option (List Char) → Prop
  | none : SpellsFraction [] none
  | digits {digits : List Char} (isDigits : IsDigits digits) :
      SpellsFraction ('.' :: digits) (some digits)

/-- What an exponent looks like, or none. -/
inductive SpellsExponent : List Char → Option (Bool × List Char) → Prop
  | none : SpellsExponent [] none
  | unsigned {letter : Char} {digits : List Char} (isLetter : letter = 'e' ∨ letter = 'E')
      (isDigits : IsDigits digits) : SpellsExponent (letter :: digits) (some (false, digits))
  | plus {letter : Char} {digits : List Char} (isLetter : letter = 'e' ∨ letter = 'E')
      (isDigits : IsDigits digits) :
      SpellsExponent (letter :: '+' :: digits) (some (false, digits))
  | minus {letter : Char} {digits : List Char} (isLetter : letter = 'e' ∨ letter = 'E')
      (isDigits : IsDigits digits) :
      SpellsExponent (letter :: '-' :: digits) (some (true, digits))

/-- What a numeral looks like, apart from its sign. -/
inductive SpellsNumeral : List Char → Numeral → Prop
  | parts {negative : Bool} {whole fractionText exponentText : List Char}
      {fraction : Option (List Char)} {exponent : Option (Bool × List Char)}
      (isWhole : IsWhole whole) (spellsFraction : SpellsFraction fractionText fraction)
      (spellsExponent : SpellsExponent exponentText exponent) :
      SpellsNumeral (whole ++ (fractionText ++ exponentText))
        ⟨negative, whole, fraction, exponent⟩

/-- What follows a value is no part of a number. -/
theorem not_numeral_of_endsPiece {c : Char} (ends : endsPiece c = true) :
    isDigit c = false ∧ c ≠ '.' ∧ (c = 'e' || c = 'E') = false := by
  simp only [endsPiece, isBlank, Bool.or_eq_true, decide_eq_true_eq] at ends
  rcases ends with (((((rfl | rfl) | rfl) | rfl) | rfl) | rfl) | rfl <;> decide

/-- What a number begins with begins nothing else and ends nothing. -/
theorem begins_number {c : Char} (numeral : (c = '-' || isDigit c) = true) :
    endsPiece c = false ∧ c ≠ 'n' ∧ c ≠ 't' ∧ c ≠ 'f' := by
  refine ⟨?_, ?_, ?_, ?_⟩
  · rw [Bool.or_eq_true, decide_eq_true_eq] at numeral
    rcases numeral with rfl | digit
    · decide
    · cases ends : endsPiece c with
      | false => rfl
      | true => exact absurd digit (by rw [(not_numeral_of_endsPiece ends).1]; decide)
  all_goals
    rintro rfl
    exact absurd numeral (by decide)

/-- No digit comes next. -/
def NoDigit (rest : List Char) : Prop :=
  ∀ c ∈ rest.head?, isDigit c = false

theorem Delimited.noDigit {rest : List Char} (delimited : Delimited rest) : NoDigit rest :=
  fun c head => (not_numeral_of_endsPiece (delimited c head)).1

theorem noDigit_cons {c : Char} (notDigit : isDigit c = false) (rest : List Char) :
    NoDigit (c :: rest) := by
  rintro d ⟨⟩
  exact notDigit

/-! ### Runs of digits -/

theorem takeWhile_isDigit {digits rest : List Char}
    (allDigits : ∀ c ∈ digits, isDigit c = true) (noDigit : NoDigit rest) :
    (digits ++ rest).takeWhile isDigit = digits ∧
      (digits ++ rest).dropWhile isDigit = rest := by
  rw [List.takeWhile_append_of_pos allDigits, List.dropWhile_append_of_pos allDigits]
  cases rest with
  | nil => simp
  | cons c others => simp [noDigit c rfl]

theorem isDigits_cons_takeWhile {c : Char} (digit : isDigit c = true) (s : List Char) :
    IsDigits (c :: s.takeWhile isDigit) := by
  refine ⟨List.cons_ne_nil _ _, List.forall_mem_cons.mpr ⟨digit, ?_⟩⟩
  exact fun d member => List.all_eq_true.mp List.all_takeWhile d member

theorem readDigits_append {digits rest : List Char} (isDigits : IsDigits digits)
    (noDigit : NoDigit rest) (cutShort : Fault) :
    readDigits cutShort (digits ++ rest) = .ok (digits, rest) := by
  obtain ⟨filled, allDigits⟩ := isDigits
  cases digits with
  | nil => contradiction
  | cons c others =>
      obtain ⟨digit, othersDigits⟩ := List.forall_mem_cons.mp allDigits
      obtain ⟨taken, dropped⟩ := takeWhile_isDigit othersDigits noDigit
      simp only [List.cons_append, readDigits, digit, if_true, taken, dropped]

theorem of_readDigits {cutShort : Fault} {s digits rest : List Char}
    (read : readDigits cutShort s = .ok (digits, rest)) :
    IsDigits digits ∧ s = digits ++ rest := by
  rw [readDigits.eq_def] at read
  split at read
  · cases read
  split at read
  · rename_i c others digit
    cases read
    refine ⟨isDigits_cons_takeWhile digit others, ?_⟩
    rw [List.cons_append, List.takeWhile_append_dropWhile]
  · cases read

theorem readWhole_append {whole rest : List Char} (isWhole : IsWhole whole)
    (noDigit : NoDigit rest) (cutShort : Fault) :
    readWhole cutShort (whole ++ rest) = .ok (whole, rest) := by
  obtain ⟨⟨filled, allDigits⟩, alone⟩ := isWhole
  cases whole with
  | nil => contradiction
  | cons c others =>
      rw [List.cons_append, readWhole.eq_def]
      by_cases zero : c = '0'
      · subst zero
        obtain rfl := (List.cons.inj (alone rfl)).2
        cases rest with
        | nil => rfl
        | cons d after => simp [noDigit d rfl]
      · obtain ⟨digit, othersDigits⟩ := List.forall_mem_cons.mp allDigits
        obtain ⟨taken, dropped⟩ := takeWhile_isDigit othersDigits noDigit
        simp only [zero, digit, if_true, if_false, taken, dropped]

theorem isWhole_zero : IsWhole ['0'] := by
  refine ⟨⟨List.cons_ne_nil _ _, ?_⟩, fun _ => rfl⟩
  exact List.forall_mem_singleton.mpr (by decide)

theorem of_readWhole {cutShort : Fault} {s whole rest : List Char}
    (read : readWhole cutShort s = .ok (whole, rest)) :
    IsWhole whole ∧ s = whole ++ rest := by
  rw [readWhole.eq_def] at read
  split at read
  · cases read
  rename_i c others
  split at read
  · rename_i zero
    subst zero
    split at read
    · split at read
      · cases read
      · cases read
        exact ⟨isWhole_zero, rfl⟩
    · cases read
      exact ⟨isWhole_zero, rfl⟩
  split at read
  · rename_i notZero digit
    cases read
    refine ⟨⟨isDigits_cons_takeWhile digit others, ?_⟩, ?_⟩
    · intro zero
      exact absurd (Option.some.inj zero) notZero
    · rw [List.cons_append, List.takeWhile_append_dropWhile]
  · cases read

/-! ### Fractions and exponents -/

theorem readFraction_append {written rest : List Char} {fraction : Option (List Char)}
    (spells : SpellsFraction written fraction) (noDigit : NoDigit rest)
    (noPoint : rest.head? ≠ some '.') (cutShort : Fault) :
    readFraction cutShort (written ++ rest) = .ok (fraction, rest) := by
  cases spells with
  | none =>
      rw [List.nil_append, readFraction]
      rintro after rfl
      exact noPoint rfl
  | digits isDigits =>
      rw [List.cons_append, readFraction, readDigits_append isDigits noDigit]
      rfl

theorem of_readFraction {cutShort : Fault} {s rest : List Char}
    {fraction : Option (List Char)} (read : readFraction cutShort s = .ok (fraction, rest)) :
    ∃ written, SpellsFraction written fraction ∧ s = written ++ rest := by
  rw [readFraction.eq_def] at read
  split at read
  · obtain ⟨⟨digits, left⟩, readAll, same⟩ := of_map_eq_ok read
    cases same
    obtain ⟨isDigits, rfl⟩ := of_readDigits readAll
    exact ⟨_, .digits isDigits, rfl⟩
  · cases read
    exact ⟨[], .none, rfl⟩

theorem isDigit_head {digits : List Char} (isDigits : IsDigits digits) :
    ∃ c others, digits = c :: others ∧ c ≠ '-' ∧ c ≠ '+' := by
  obtain ⟨filled, allDigits⟩ := isDigits
  cases digits with
  | nil => contradiction
  | cons c others =>
      have digit := allDigits c List.mem_cons_self
      refine ⟨c, others, rfl, ?_, ?_⟩ <;>
      · rintro rfl
        cases digit

theorem readExponent_append {written rest : List Char} {exponent : Option (Bool × List Char)}
    (spells : SpellsExponent written exponent) (delimited : Delimited rest)
    (cutShort : Fault) :
    readExponent cutShort (written ++ rest) = .ok (exponent, rest) := by
  have marks {letter : Char} (isLetter : letter = 'e' ∨ letter = 'E') :
      (letter = 'e' || letter = 'E') = true := by
    simpa using isLetter
  cases spells with
  | none =>
      cases rest with
      | nil => rfl
      | cons c others =>
          have noExponent := (not_numeral_of_endsPiece (delimited c rfl)).2.2
          simp [readExponent, noExponent]
  | unsigned isLetter isDigits =>
      obtain ⟨c, others, rfl, notMinus, notPlus⟩ := isDigit_head isDigits
      have read := readDigits_append isDigits delimited.noDigit cutShort
      rw [List.cons_append] at read
      rw [List.cons_append, List.cons_append, readExponent.eq_def]
      simp only [marks isLetter, if_true]
      split
      · rename_i same
        exact absurd (List.cons.inj same).1 notMinus
      · rename_i same
        exact absurd (List.cons.inj same).1 notPlus
      · rw [read]
        rfl
  | plus isLetter isDigits =>
      rw [List.cons_append, List.cons_append, readExponent.eq_def]
      simp only [marks isLetter, if_true, readDigits_append isDigits delimited.noDigit]
      rfl
  | minus isLetter isDigits =>
      rw [List.cons_append, List.cons_append, readExponent.eq_def]
      simp only [marks isLetter, if_true, readDigits_append isDigits delimited.noDigit]
      rfl

theorem of_readExponent {cutShort : Fault} {s rest : List Char}
    {exponent : Option (Bool × List Char)}
    (read : readExponent cutShort s = .ok (exponent, rest)) :
    ∃ written, SpellsExponent written exponent ∧ s = written ++ rest := by
  rw [readExponent.eq_def] at read
  split at read
  · cases read
    exact ⟨[], .none, rfl⟩
  split at read
  · rename_i isLetter
    have isLetter := by simpa using isLetter
    split at read
    all_goals
      obtain ⟨⟨digits, left⟩, readAll, same⟩ := of_map_eq_ok read
      cases same
      obtain ⟨isDigits, rfl⟩ := of_readDigits readAll
    · exact ⟨_, .minus isLetter isDigits, rfl⟩
    · exact ⟨_, .plus isLetter isDigits, rfl⟩
    · exact ⟨_, .unsigned isLetter isDigits, rfl⟩
  · cases read
    exact ⟨[], .none, rfl⟩

/-! ### Numerals -/

/-- What follows the fraction of a numeral begins with neither a digit nor a point. -/
theorem SpellsExponent.ends {written rest : List Char} {exponent : Option (Bool × List Char)}
    (spells : SpellsExponent written exponent) (delimited : Delimited rest) :
    NoDigit (written ++ rest) ∧ (written ++ rest).head? ≠ some '.' := by
  have letterEnds {letter : Char} (isLetter : letter = 'e' ∨ letter = 'E')
      (others : List Char) : NoDigit (letter :: others) ∧ letter ≠ '.' := by
    rcases isLetter with rfl | rfl <;>
      exact ⟨noDigit_cons (by decide) others, by decide⟩
  cases spells with
  | none =>
      refine ⟨delimited.noDigit, fun point => ?_⟩
      exact (not_numeral_of_endsPiece (delimited '.' point)).2.1 rfl
  | unsigned isLetter _ | plus isLetter _ | minus isLetter _ =>
      obtain ⟨noDigit, notPoint⟩ := letterEnds isLetter _
      exact ⟨noDigit, fun point => notPoint (Option.some.inj point)⟩

/-- A spelled numeral is read in front of a delimiter. -/
theorem readNumeral_append {written rest : List Char} {numeral : Numeral}
    (spells : SpellsNumeral written numeral) (delimited : Delimited rest)
    (cutShort : Fault) :
    readNumeral cutShort numeral.negative (written ++ rest) = .ok (numeral, rest) := by
  obtain ⟨isWhole, spellsFraction, spellsExponent⟩ := spells
  rename_i whole fractionText exponentText fraction exponent
  obtain ⟨noDigit, noPoint⟩ := spellsExponent.ends delimited
  have wholeEnds : NoDigit (fractionText ++ (exponentText ++ rest)) := by
    cases spellsFraction with
    | none => exact noDigit
    | digits _ => exact noDigit_cons (by decide) _
  have readWhole := readWhole_append isWhole wholeEnds cutShort
  simp only [readNumeral, bind, Except.bind, List.append_assoc, readWhole,
    readFraction_append spellsFraction noDigit noPoint cutShort,
    readExponent_append spellsExponent delimited cutShort]
  rfl

/-- Reading a numeral finds one that is spelled there. -/
theorem of_readNumeral {cutShort : Fault} {negative : Bool} {s rest : List Char}
    {numeral : Numeral} (read : readNumeral cutShort negative s = .ok (numeral, rest)) :
    numeral.negative = negative ∧
      ∃ written, SpellsNumeral written numeral ∧ s = written ++ rest := by
  simp only [readNumeral, bind, Except.bind] at read
  split at read
  · cases read
  rename_i wholeRead readWhole
  obtain ⟨whole, afterWhole⟩ := wholeRead
  split at read
  · cases read
  rename_i fractionRead readFraction
  obtain ⟨fraction, afterFraction⟩ := fractionRead
  split at read
  · cases read
  rename_i exponentRead readExponent
  obtain ⟨exponent, left⟩ := exponentRead
  cases read
  obtain ⟨isWhole, rfl⟩ := of_readWhole readWhole
  obtain ⟨fractionText, spellsFraction, rfl⟩ := of_readFraction readFraction
  obtain ⟨exponentText, spellsExponent, rfl⟩ := of_readExponent readExponent
  exact ⟨rfl, _, .parts isWhole spellsFraction spellsExponent, by simp⟩

/-- The digits of a whole number are a numeral. -/
theorem spellsNumeral_digitsOf (negative : Bool) (n : Nat) :
    SpellsNumeral (digitsOf n) ⟨negative, digitsOf n, none, none⟩ := by
  have isWhole : IsWhole (digitsOf n) := by
    refine ⟨⟨Nat.toDigits_ne_nil, fun c member => isDigit_of_mem_digitsOf member⟩, ?_⟩
    intro leading
    rw [eq_zero_of_head?_digitsOf leading]
    decide
  have spells : SpellsNumeral (digitsOf n ++ ([] ++ [])) ⟨negative, digitsOf n, none, none⟩ :=
    .parts isWhole .none .none
  rwa [List.append_nil, List.append_nil] at spells

/-! ## The number -/

/-- The digits of a whole number stand for it, unless they are those of a negative zero. -/
theorem value?_digitsOf {negative : Bool} {n : Nat} (small : n < 0x10000000000000000)
    {value : Int} (signed : value = if negative then -(n : Int) else n)
    (fits : -0x8000000000000000 ≤ value ∧ value < 0x10000000000000000)
    (noNegativeZero : negative = true → n ≠ 0) :
    Numeral.value? ⟨negative, digitsOf n, none, none⟩ = some (.integer value fits) := by
  subst signed
  simp only [Numeral.value?, absorb_digitsOf small]
  rw [dif_pos fits, if_pos ⟨trivial, noNegativeZero⟩]

end GrammarUpgrade.Json
