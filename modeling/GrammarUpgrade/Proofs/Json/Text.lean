import GrammarUpgrade.Json.Text

/-!
# Strings are read back

A written string stands for the string it was written from, whatever its characters are
and whatever follows it.
-/

namespace GrammarUpgrade.Json

open GrammarUpgrade.Text (hexValue? consRead)

theorem hexValue?_hexDigit : ∀ digit < 16, hexValue? (hexDigit digit) = some digit := by
  decide

/-- The four digits of a small code point. -/
theorem readUnit_hexDigits {unit : Nat} (small : unit < 32) (rest : List Char) :
    readUnit ('0' :: '0' :: hexDigit (unit / 16) :: hexDigit (unit % 16) :: rest) =
      .ok (unit, rest) := by
  have zero : hexValue? '0' = some 0 := by decide
  have high := hexValue?_hexDigit (unit / 16) (by omega)
  have low := hexValue?_hexDigit (unit % 16) (by omega)
  simp only [readUnit, zero, high, low, Except.ok.injEq, Prod.mk.injEq, and_true]
  omega

/-- An escaped control character. -/
theorem readEscape_control {c : Char} (control : c.toNat < 32) (rest : List Char) :
    readEscape ('u' :: '0' :: '0' :: hexDigit (c.toNat / 16) :: hexDigit (c.toNat % 16) ::
      rest) = .ok (c, rest) := by
  have notLow : isLowHalf c.toNat = false := by
    simp only [isLowHalf, Bool.and_eq_false_iff, decide_eq_false_iff_not]
    omega
  have notHigh : isHighHalf c.toNat = false := by
    simp only [isHighHalf, Bool.and_eq_false_iff, decide_eq_false_iff_not]
    omega
  rw [readEscape, if_pos rfl, readCodePoint, readUnit_hexDigits control]
  simp only [notLow, notHigh, Bool.false_eq_true, if_false, Char.ofNat_toNat]

theorem readChars_of_escape {s after : List Char} {meant : Char}
    (escape : readEscape s = .ok (meant, after)) :
    readChars ('\\' :: s) = (readChars after).map (consRead meant) := by
  rw [readChars, if_neg (by decide), if_pos rfl]
  split
  · rename_i failed
    rw [escape] at failed
    cases failed
  · rename_i read
    rw [escape] at read
    cases read
    rfl

theorem readChars_of_plain {c : Char} (notQuote : c ≠ '"') (notBackslash : c ≠ '\\')
    (notControl : ¬c.toNat < 32) (s : List Char) :
    readChars (c :: s) = (readChars s).map (consRead c) := by
  rw [readChars, if_neg notQuote, if_neg notBackslash, if_neg notControl]

/-- A written character is read back. -/
theorem readChars_escapeChar (c : Char) (s : List Char) :
    readChars (escapeChar c ++ s) = (readChars s).map (consRead c) := by
  have of_code {code : Nat} (same : c.toNat = code) : c = Char.ofNat code := by
    rw [← same, Char.ofNat_toNat]
  unfold escapeChar
  split
  · subst c
    exact readChars_of_escape rfl
  split
  · subst c
    exact readChars_of_escape rfl
  split
  · rename_i backspace
    rw [of_code backspace]
    exact readChars_of_escape rfl
  split
  · rename_i formFeed
    rw [of_code formFeed]
    exact readChars_of_escape rfl
  split
  · subst c
    exact readChars_of_escape rfl
  split
  · subst c
    exact readChars_of_escape rfl
  split
  · subst c
    exact readChars_of_escape rfl
  split
  · rename_i control
    exact readChars_of_escape (readEscape_control control s)
  · rename_i notQuote notBackslash _ _ _ _ _ notControl
    exact readChars_of_plain notQuote notBackslash notControl s

theorem readChars_flatMap_escapeChar (chars rest : List Char) :
    readChars (chars.flatMap escapeChar ++ '"' :: rest) = .ok (chars, rest) := by
  induction chars with
  | nil =>
      rw [List.flatMap_nil, List.nil_append, readChars]
      rfl
  | cons c chars ih =>
      rw [List.flatMap_cons, List.append_assoc, readChars_escapeChar, ih]
      rfl

/-- A written string is read back. -/
theorem readText_flatMap_escapeChar (text : String) (rest : List Char) :
    readText (text.toList.flatMap escapeChar ++ '"' :: rest) = .ok (text, rest) := by
  rw [readText, readChars_flatMap_escapeChar]
  simp [Except.map]

end GrammarUpgrade.Json
