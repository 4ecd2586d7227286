import GrammarUpgrade.Proofs.Json.ReadBack
import GrammarUpgrade.Proofs.Json.Text

/-!
# Spellings of strings

A string has many spellings: a character stands for itself or is escaped, in some cases in
several ways.  `Spells` relates what stands between the quotes to the characters meant, and
reading a string finds the only characters that are spelled there.  `IsText` is the notation
alone, in which escaped halves of code points may stand by themselves; this is what skipping
a string asks for.
-/

namespace GrammarUpgrade.Json

open GrammarUpgrade.Text (hexValue? consRead)

/-! ## Spelled characters -/

/-- Four hexadecimal digits and their number. -/
inductive IsUnit : List Char → Nat → Prop
  | digits {a b c d : Char} {i j k l : Nat} (first : hexValue? a = some i)
      (second : hexValue? b = some j) (third : hexValue? c = some k)
      (fourth : hexValue? d = some l) :
      IsUnit [a, b, c, d] (((i * 16 + j) * 16 + k) * 16 + l)

/-- The code point that two halves make up. -/
def joinHalves (high low : Nat) : Char :=
  Char.ofNat (0x10000 + (high - 0xD800) * 0x400 + (low - 0xDC00))

/-- What a character inside a string can look like. -/
inductive SpellsChar : List Char → Char → Prop
  | plain {c : Char} (notQuote : c ≠ '"') (notBackslash : c ≠ '\\')
      (notControl : ¬c.toNat < 32) : SpellsChar [c] c
  | short {c meant : Char} (escape : shortEscape? c = some meant) :
      SpellsChar ['\\', c] meant
  | code {digits : List Char} {unit : Nat} (isUnit : IsUnit digits unit)
      (notHigh : isHighHalf unit = false) (notLow : isLowHalf unit = false) :
      SpellsChar ('\\' :: 'u' :: digits) (Char.ofNat unit)
  | halves {digits others : List Char} {high low : Nat} (first : IsUnit digits high)
      (isHigh : isHighHalf high = true) (second : IsUnit others low)
      (isLow : isLowHalf low = true) :
      SpellsChar ('\\' :: 'u' :: (digits ++ '\\' :: 'u' :: others)) (joinHalves high low)

/-- What stands between the quotes of a string, and the characters that it stands for. -/
inductive Spells : List Char → List Char → Prop
  | nil : Spells [] []
  | cons {spelled rest chars : List Char} {c : Char} (first : SpellsChar spelled c)
      (others : Spells rest chars) : Spells (spelled ++ rest) (c :: chars)

/-- A character, an escape or half of one. -/
inductive IsTextPiece : List Char → Prop
  | plain {c : Char} (notQuote : c ≠ '"') (notBackslash : c ≠ '\\')
      (notControl : ¬c.toNat < 32) : IsTextPiece [c]
  | short {c : Char} (escape : (shortEscape? c).isSome) : IsTextPiece ['\\', c]
  | unit {digits : List Char} {unit : Nat} (isUnit : IsUnit digits unit) :
      IsTextPiece ('\\' :: 'u' :: digits)

/-- What may stand between the quotes of a string. -/
inductive IsText : List Char → Prop
  | nil : IsText []
  | cons {piece rest : List Char} (first : IsTextPiece piece) (others : IsText rest) :
      IsText (piece ++ rest)

theorem Spells.isText {content chars : List Char} (spells : Spells content chars) :
    IsText content := by
  induction spells with
  | nil => exact .nil
  | cons first others ih =>
      cases first with
      | plain notQuote notBackslash notControl =>
          exact .cons (.plain notQuote notBackslash notControl) ih
      | short escape => exact .cons (.short (by simp [escape])) ih
      | code isUnit => exact .cons (.unit isUnit) ih
      | halves first _ second _ =>
          rw [List.cons_append, List.cons_append, List.append_assoc]
          exact .cons (.unit first) (.cons (.unit second) ih)

/-! ## Escapes -/

theorem readUnit_append {digits : List Char} {unit : Nat} (isUnit : IsUnit digits unit)
    (rest : List Char) : readUnit (digits ++ rest) = .ok (unit, rest) := by
  obtain ⟨first, second, third, fourth⟩ := isUnit
  simp [readUnit, first, second, third, fourth]

theorem readUnit_eq_ok_iff {s rest : List Char} {unit : Nat} :
    readUnit s = .ok (unit, rest) ↔ ∃ digits, IsUnit digits unit ∧ s = digits ++ rest := by
  constructor
  · intro read
    rw [readUnit.eq_def] at read
    split at read
    · split at read
      · rename_i first second third fourth
        cases read
        exact ⟨_, .digits first second third fourth, rfl⟩
      · cases read
    · split at read <;> cases read
  · rintro ⟨digits, isUnit, rfl⟩
    exact readUnit_append isUnit rest

theorem not_isHighHalf_of_isLowHalf {unit : Nat} (isLow : isLowHalf unit = true) :
    isHighHalf unit = false := by
  simp only [isLowHalf, isHighHalf, Bool.and_eq_true, decide_eq_true_eq,
    Bool.and_eq_false_iff, decide_eq_false_iff_not] at isLow ⊢
  omega

theorem not_isLowHalf_of_isHighHalf {unit : Nat} (isHigh : isHighHalf unit = true) :
    isLowHalf unit = false := by
  cases isLow : isLowHalf unit with
  | false => rfl
  | true => exact absurd isHigh (by simp [not_isHighHalf_of_isLowHalf isLow])

theorem readLowHalf_eq_ok_iff {high : Nat} {s rest : List Char} {c : Char} :
    readLowHalf high s = .ok (c, rest) ↔
      ∃ digits low, IsUnit digits low ∧ isLowHalf low = true ∧
        s = '\\' :: 'u' :: digits ++ rest ∧ joinHalves high low = c := by
  constructor
  · intro read
    rw [readLowHalf.eq_def] at read
    split at read
    · cases read
    split at read
    · cases read
    rename_i backslash
    obtain rfl := Decidable.not_not.mp backslash
    split at read
    · cases read
    split at read
    · cases read
    rename_i letter
    obtain rfl := Decidable.not_not.mp letter
    split at read
    · cases read
    rename_i low after readDigits
    obtain ⟨digits, isUnit, rfl⟩ := readUnit_eq_ok_iff.mp readDigits
    split at read
    · rename_i isLow
      obtain ⟨joined, rfl⟩ := Prod.mk.inj (Except.ok.inj read)
      exact ⟨digits, low, isUnit, isLow, rfl, joined⟩
    · cases read
  · rintro ⟨digits, low, isUnit, isLow, rfl, rfl⟩
    rw [readLowHalf.eq_def]
    simp [readUnit_append isUnit, isLow, joinHalves]

/-- Reading an escape finds the character that it spells. -/
theorem readEscape_eq_ok_iff {s rest : List Char} {c : Char} :
    readEscape s = .ok (c, rest) ↔
      ∃ escape, SpellsChar ('\\' :: escape) c ∧ s = escape ++ rest := by
  constructor
  · intro read
    rw [readEscape.eq_def] at read
    split at read
    · cases read
    split at read
    · rename_i letter
      subst letter
      rw [readCodePoint] at read
      split at read
      · cases read
      rename_i unit after readDigits
      obtain ⟨digits, isUnit, rfl⟩ := readUnit_eq_ok_iff.mp readDigits
      split at read
      · cases read
      rename_i notLow
      split at read
      · rename_i isHigh
        obtain ⟨others, low, second, isLow, rfl, rfl⟩ := readLowHalf_eq_ok_iff.mp read
        exact ⟨_, .halves isUnit isHigh second isLow, by simp⟩
      · rename_i notHigh
        cases read
        exact ⟨_, .code isUnit (by simpa using notHigh) (by simpa using notLow), rfl⟩
    · split at read
      · rename_i escape
        cases read
        exact ⟨_, .short escape, rfl⟩
      · cases read
  · rintro ⟨escape, spells, rfl⟩
    generalize written : '\\' :: escape = spelled at spells
    cases spells with
    | plain _ notBackslash _ => exact absurd (List.cons.inj written).1.symm notBackslash
    | @short letter _ meant =>
        cases written
        have notCode : letter ≠ 'u' := by
          rintro rfl
          cases meant
        simp [readEscape, notCode, meant]
    | code isUnit notHigh notLow =>
        cases written
        simp [readEscape, readCodePoint, readUnit_append isUnit, notHigh, notLow]
    | @halves digits others high low first isHigh second isLow =>
        have readLow : readLowHalf high ('\\' :: 'u' :: others ++ rest) =
            .ok (joinHalves high low, rest) :=
          readLowHalf_eq_ok_iff.mpr ⟨others, low, second, isLow, rfl, rfl⟩
        obtain rfl := (List.cons.inj written).2
        rw [List.cons_append, List.append_assoc, readEscape.eq_def]
        simp only [if_true, readCodePoint, readUnit_append first, isHigh,
          not_isLowHalf_of_isHighHalf isHigh, readLow, Bool.false_eq_true, if_false]

/-! ## Whole strings -/

/-- A spelled character in front of others is read first. -/
theorem readChars_append_of_spellsChar {spelled : List Char} {c : Char}
    (spells : SpellsChar spelled c) (s : List Char) :
    readChars (spelled ++ s) = (readChars s).map (consRead c) := by
  cases spelled with
  | nil => cases spells
  | cons first escape =>
      by_cases escaped : first = '\\'
      · subst escaped
        exact readChars_of_escape (readEscape_eq_ok_iff.mpr ⟨escape, spells, rfl⟩)
      · cases spells with
        | plain notQuote notBackslash notControl =>
            exact readChars_of_plain notQuote notBackslash notControl s
        | _ => contradiction

/-- Reading a string finds the characters that are spelled up to its closing quote. -/
theorem readChars_eq_ok_iff {s chars rest : List Char} :
    readChars s = .ok (chars, rest) ↔
      ∃ content, Spells content chars ∧ s = content ++ '"' :: rest := by
  constructor
  · intro read
    fun_induction readChars s generalizing chars with
    | case1 => cases read
    | case2 s =>
        cases read
        exact ⟨[], .nil, rfl⟩
    | case3 => cases read
    | case4 s meant after readEscaped notQuote ih =>
        obtain ⟨⟨others, left⟩, readOthers, same⟩ := of_map_eq_ok read
        cases same
        obtain ⟨escape, spells, rfl⟩ := readEscape_eq_ok_iff.mp readEscaped
        obtain ⟨content, spellsOthers, rfl⟩ := ih readOthers
        exact ⟨_, .cons spells spellsOthers, by simp⟩
    | case5 => cases read
    | case6 c s notQuote notBackslash notControl ih =>
        obtain ⟨⟨others, left⟩, readOthers, same⟩ := of_map_eq_ok read
        cases same
        obtain ⟨content, spells, rfl⟩ := ih readOthers
        exact ⟨_, .cons (.plain notQuote notBackslash notControl) spells, rfl⟩
  · rintro ⟨content, spells, rfl⟩
    induction spells with
    | nil => rw [List.nil_append, readChars, if_pos rfl]
    | cons first others ih =>
        rw [List.append_assoc, readChars_append_of_spellsChar first, ih]
        rfl

theorem readText_eq_ok_iff {s rest : List Char} {text : String} :
    readText s = .ok (text, rest) ↔
      ∃ content, Spells content text.toList ∧ s = content ++ '"' :: rest := by
  rw [← readChars_eq_ok_iff, readText]
  constructor
  · intro read
    obtain ⟨⟨chars, left⟩, readAll, same⟩ := of_map_eq_ok read
    cases same
    rw [readAll, String.toList_ofList]
  · intro read
    rw [read]
    simp [Except.map]

/-! ## Skipped strings -/

theorem skipEscape_eq_ok_iff {s rest : List Char} :
    skipEscape s = .ok rest ↔ ∃ escape, IsTextPiece ('\\' :: escape) ∧ s = escape ++ rest := by
  constructor
  · intro skipped
    rw [skipEscape.eq_def] at skipped
    split at skipped
    · cases skipped
    split at skipped
    · rename_i letter
      subst letter
      obtain ⟨⟨unit, left⟩, readDigits, same⟩ := of_map_eq_ok skipped
      cases same
      obtain ⟨digits, isUnit, rfl⟩ := readUnit_eq_ok_iff.mp readDigits
      exact ⟨_, .unit isUnit, rfl⟩
    split at skipped
    · rename_i escape
      cases skipped
      exact ⟨_, .short escape, rfl⟩
    · cases skipped
  · rintro ⟨escape, piece, rfl⟩
    generalize written : '\\' :: escape = spelled at piece
    cases piece with
    | plain _ notBackslash _ => exact absurd (List.cons.inj written).1.symm notBackslash
    | @short letter escape =>
        cases written
        have notCode : letter ≠ 'u' := by
          rintro rfl
          cases escape
        simp [skipEscape, notCode, escape]
    | unit isUnit =>
        cases written
        simp [skipEscape, readUnit_append isUnit, Except.map]

theorem skipText_of_escape {s after : List Char} (escape : skipEscape s = .ok after) :
    skipText ('\\' :: s) = skipText after := by
  rw [skipText, if_neg (by decide), if_pos rfl]
  split
  · rename_i failed
    rw [escape] at failed
    cases failed
  · rename_i skipped
    rw [escape] at skipped
    cases skipped
    rfl

theorem skipText_append_of_piece {piece : List Char} (isPiece : IsTextPiece piece)
    (s : List Char) : skipText (piece ++ s) = skipText s := by
  cases piece with
  | nil => cases isPiece
  | cons first escape =>
      by_cases escaped : first = '\\'
      · subst escaped
        exact skipText_of_escape (skipEscape_eq_ok_iff.mpr ⟨escape, isPiece, rfl⟩)
      · cases isPiece with
        | plain notQuote notBackslash notControl =>
            rw [List.singleton_append, skipText, if_neg notQuote, if_neg notBackslash,
              if_neg notControl]
        | _ => contradiction

/-- Skipping a string stops after its closing quote. -/
theorem skipText_eq_ok_iff {s rest : List Char} :
    skipText s = .ok rest ↔ ∃ content, IsText content ∧ s = content ++ '"' :: rest := by
  constructor
  · intro skipped
    fun_induction skipText s with
    | case1 => cases skipped
    | case2 s =>
        cases skipped
        exact ⟨[], .nil, rfl⟩
    | case3 => cases skipped
    | case4 s after skippedEscape notQuote ih =>
        obtain ⟨escape, piece, rfl⟩ := skipEscape_eq_ok_iff.mp skippedEscape
        obtain ⟨content, isText, rfl⟩ := ih skipped
        exact ⟨_, .cons piece isText, by simp⟩
    | case5 => cases skipped
    | case6 c s notQuote notBackslash notControl ih =>
        obtain ⟨content, isText, rfl⟩ := ih skipped
        exact ⟨_, .cons (.plain notQuote notBackslash notControl) isText, rfl⟩
  · rintro ⟨content, isText, rfl⟩
    induction isText with
    | nil => rw [List.nil_append, skipText, if_pos rfl]
    | cons first others ih => rw [List.append_assoc, skipText_append_of_piece first, ih]

end GrammarUpgrade.Json
