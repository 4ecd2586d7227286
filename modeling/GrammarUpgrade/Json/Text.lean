import GrammarUpgrade.Json.Fault
import GrammarUpgrade.Text.Characters

/-!
# Strings of the JSON notation

Writing escapes quotes, backslashes and controls and nothing else.  Reading
accepts every escape of the notation; code points beyond the basic plane are two
escaped halves, and a half by itself is refused.  Skipping checks the notation of
a string without asking what it stands for, so that halves pass.
-/

namespace GrammarUpgrade.Json

open GrammarUpgrade.Text (hexValue? byteLength consRead)

/-! ## Writing -/

/-- The digit of a number below sixteen, in lower case. -/
def hexDigit (n : Nat) : Char :=
  if n < 10 then Char.ofNat ('0'.toNat + n) else Char.ofNat ('a'.toNat + (n - 10))

/-- A character inside a written string. -/
def escapeChar (c : Char) : List Char :=
  if c = '"' then ['\\', '"']
  else if c = '\\' then ['\\', '\\']
  else if c.toNat = 8 then ['\\', 'b']
  else if c.toNat = 12 then ['\\', 'f']
  else if c = '\n' then ['\\', 'n']
  else if c = '\r' then ['\\', 'r']
  else if c = '\t' then ['\\', 't']
  else if c.toNat < 32 then
    ['\\', 'u', '0', '0', hexDigit (c.toNat / 16), hexDigit (c.toNat % 16)]
  else [c]

/-- A written string with its quotes. -/
def writeText (text : String) : List Char :=
  '"' :: text.toList.flatMap escapeChar ++ ['"']

/-! ## Reading -/

/-- Four hexadecimal digits.  With fewer than four bytes left the text has ended
too early, whatever these bytes are. -/
def readUnit (s : List Char) : Reading Nat :=
  match s with
  | a :: b :: c :: d :: rest =>
      match hexValue? a, hexValue? b, hexValue? c, hexValue? d with
      | some a, some b, some c, some d =>
          .ok (((a * 16 + b) * 16 + c) * 16 + d, rest)
      | _, _, _, _ => .error ⟨.invalidEscape, s, 4⟩
  | _ =>
      if byteLength s < 4 then .error (.atEnd .endOfString)
      else .error ⟨.invalidEscape, s, 4⟩

/-- Four digits are used up by reading them. -/
theorem length_lt_of_readUnit {s rest : List Char} {unit : Nat}
    (read : readUnit s = .ok (unit, rest)) : rest.length < s.length := by
  unfold readUnit at read
  split at read
  · split at read
    · simp only [Except.ok.injEq, Prod.mk.injEq] at read
      obtain ⟨-, rfl⟩ := read
      simp only [List.length_cons]
      omega
    · simp at read
  · split at read <;> simp at read

/-- Whether a unit is the first half of a code point beyond the basic plane. -/
def isHighHalf (unit : Nat) : Bool :=
  0xD800 ≤ unit && unit ≤ 0xDBFF

/-- Whether a unit is the second half of a code point beyond the basic plane. -/
def isLowHalf (unit : Nat) : Bool :=
  0xDC00 ≤ unit && unit ≤ 0xDFFF

/-- The second half of a code point whose first half has been read. -/
def readLowHalf (high : Nat) : List Char → Reading Char
  | [] => .error (.atEnd .endOfString)
  | c :: rest =>
      if c ≠ '\\' then .error (.peeked .unexpectedEndOfHexEscape (c :: rest))
      else
        match rest with
        | [] => .error (.atEnd .endOfString)
        | d :: after =>
            if d ≠ 'u' then .error (.peeked .unexpectedEndOfHexEscape (d :: after))
            else
              match readUnit after with
              | .error failure => .error failure
              | .ok (low, last) =>
                  if isLowHalf low then
                    .ok (Char.ofNat
                      (0x10000 + (high - 0xD800) * 0x400 + (low - 0xDC00)), last)
                  else .error (.before .loneSurrogate last)

/-- The character after `\u`. -/
def readCodePoint (s : List Char) : Reading Char :=
  match readUnit s with
  | .error failure => .error failure
  | .ok (unit, rest) =>
      if isLowHalf unit then .error (.before .loneSurrogate rest)
      else if isHighHalf unit then readLowHalf unit rest
      else .ok (Char.ofNat unit, rest)

/-- The characters that a backslash and one letter stand for. -/
def shortEscape? : Char → Option Char
  | '"' => some '"'
  | '\\' => some '\\'
  | '/' => some '/'
  | 'b' => some '\x08'
  | 'f' => some '\x0c'
  | 'n' => some '\n'
  | 'r' => some '\r'
  | 't' => some '\t'
  | _ => none

/-- The character after a backslash. -/
def readEscape : List Char → Reading Char
  | [] => .error (.atEnd .endOfString)
  | c :: rest =>
      if c = 'u' then readCodePoint rest
      else
        match shortEscape? c with
        | some meant => .ok (meant, rest)
        | none => .error (.peeked .invalidEscape (c :: rest))

/-- A second half is used up by reading it. -/
theorem length_lt_of_readLowHalf {high : Nat} {s rest : List Char} {c : Char}
    (read : readLowHalf high s = .ok (c, rest)) : rest.length < s.length := by
  unfold readLowHalf at read
  repeat' split at read
  all_goals try simp at read
  rename_i unitRead _
  have := length_lt_of_readUnit unitRead
  obtain ⟨-, rfl⟩ := read
  simp only [List.length_cons]
  omega

/-- An escape is used up by reading it. -/
theorem length_lt_of_readEscape {s rest : List Char} {c : Char}
    (read : readEscape s = .ok (c, rest)) : rest.length < s.length := by
  unfold readEscape at read
  split at read
  · simp at read
  · simp only [List.length_cons]
    split at read
    · unfold readCodePoint at read
      split at read
      · simp at read
      · rename_i unitRead
        have shorter := length_lt_of_readUnit unitRead
        repeat' split at read
        · simp at read
        · have := length_lt_of_readLowHalf read
          omega
        · simp only [Except.ok.injEq, Prod.mk.injEq] at read
          obtain ⟨-, rfl⟩ := read
          omega
    · split at read
      · simp only [Except.ok.injEq, Prod.mk.injEq] at read
        obtain ⟨-, rfl⟩ := read
        omega
      · simp at read

/-- The characters of a string whose opening quote has been read. -/
def readChars (s : List Char) : Reading (List Char) :=
  match s with
  | [] => .error (.atEnd .endOfString)
  | c :: rest =>
      if c = '"' then .ok ([], rest)
      else if c = '\\' then
        match _escaped : readEscape rest with
        | .error failure => .error failure
        | .ok (meant, after) => (readChars after).map (consRead meant)
      else if c.toNat < 32 then .error (.peeked .controlCharacter (c :: rest))
      else (readChars rest).map (consRead c)
termination_by s.length
decreasing_by
  · have := length_lt_of_readEscape _escaped
    simp only [List.length_cons]
    omega
  · simp

/-- The string whose opening quote has been read. -/
def readText (s : List Char) : Reading String :=
  (readChars s).map fun read => (String.ofList read.1, read.2)

/-! ## Skipping -/

/-- The characters after an escape whose backslash has been read. -/
def skipEscape : List Char → Except Failure (List Char)
  | [] => .error (.atEnd .endOfString)
  | c :: rest =>
      if c = 'u' then (readUnit rest).map Prod.snd
      else if (shortEscape? c).isSome then .ok rest
      else .error (.peeked .invalidEscape (c :: rest))

/-- An escape is used up by skipping it. -/
theorem length_lt_of_skipEscape {s rest : List Char}
    (skipped : skipEscape s = .ok rest) : rest.length < s.length := by
  unfold skipEscape at skipped
  split at skipped
  · simp at skipped
  · simp only [List.length_cons]
    split at skipped
    · rename_i after _
      cases unitRead : readUnit after with
      | error failure => simp [unitRead, Except.map] at skipped
      | ok read =>
          have := length_lt_of_readUnit unitRead
          simp only [unitRead, Except.map, Except.ok.injEq] at skipped
          subst skipped
          omega
    · split at skipped
      · simp only [Except.ok.injEq] at skipped
        subst skipped
        omega
      · simp at skipped

/-- The characters after a string whose opening quote has been read. -/
def skipText (s : List Char) : Except Failure (List Char) :=
  match s with
  | [] => .error (.atEnd .endOfString)
  | c :: rest =>
      if c = '"' then .ok rest
      else if c = '\\' then
        match _escaped : skipEscape rest with
        | .error failure => .error failure
        | .ok after => skipText after
      else if c.toNat < 32 then .error (.before .controlCharacter (c :: rest))
      else skipText rest
termination_by s.length
decreasing_by
  · have := length_lt_of_skipEscape _escaped
    simp only [List.length_cons]
    omega
  · simp

end GrammarUpgrade.Json
