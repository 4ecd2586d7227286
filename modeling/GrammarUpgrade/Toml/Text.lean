import GrammarUpgrade.Text.Characters
import GrammarUpgrade.Toml.Fault

/-!
# Strings of the TOML notation

There are four kinds of strings: basic ones in double quotes with escapes, literal
ones in single quotes without, and both over several lines in triple quotes.  A
string over several lines leaves out a line break right after its opening quotes,
and one or two quotes may stand directly before its closing quotes.
-/

namespace GrammarUpgrade.Toml

open GrammarUpgrade.Text (hexValue? consRead)

/-- Whether a character is a space or a tab. -/
def isSpace (c : Char) : Bool :=
  c = ' ' || c = '\t'

/-- Whether a character may stand in a comment or a literal string: tabs, printable
ASCII and everything beyond ASCII. -/
def isPlain (c : Char) : Bool :=
  c = '\t' || (0x20 ≤ c.toNat && c.toNat ≤ 0x7E) || 0x80 ≤ c.toNat

/-- What follows a line break, if one comes next. -/
def newline? : List Char → Option (List Char)
  | '\n' :: rest => some rest
  | '\r' :: '\n' :: rest => some rest
  | _ => none

/-- A line break is used up. -/
theorem length_lt_of_newline? {s rest : List Char} (found : newline? s = some rest) :
    rest.length < s.length := by
  unfold newline? at found
  split at found
  · simp only [Option.some.injEq] at found
    subst found
    simp
  · simp only [Option.some.injEq] at found
    subst found
    simp only [List.length_cons]
    omega
  · simp at found

/-- Exactly `count` hexadecimal digits, following a number read so far. -/
def readHex (start : List Char) : Nat → Nat → List Char → Reading Nat
  | 0, number, s => .ok (number, s)
  | count + 1, number, s =>
      match s with
      | [] => .error (.due none [] start)
      | c :: rest =>
          match hexValue? c with
          | none => .error (.due none [] start)
          | some digit => readHex start count (number * 16 + digit) rest

/-- Reading hexadecimal digits does not lengthen the text. -/
theorem length_le_of_readHex {start : List Char} {count number result : Nat}
    {s rest : List Char} (read : readHex start count number s = .ok (result, rest)) :
    rest.length ≤ s.length := by
  induction count generalizing number s with
  | zero =>
      simp only [readHex, Except.ok.injEq, Prod.mk.injEq] at read
      exact read.2 ▸ Nat.le_refl _
  | succ count ih =>
      unfold readHex at read
      split at read
      · simp at read
      · split at read
        · simp at read
        · have := ih read
          simp only [List.length_cons]
          omega

/-- What a code point of so many digits is called. -/
def hexCodeName (count : Nat) : String :=
  "unicode " ++ toString count ++ "-digit hex code"

/-- The character with a code point, which must be a scalar value. -/
def readScalar (count : Nat) (s : List Char) : Reading Char :=
  match readHex s count 0 s with
  | .error failure => .error (failure.within (hexCodeName count))
  | .ok (number, rest) =>
      if number.isValidChar then .ok (Char.ofNat number, rest)
      else .error ⟨.outOfRange, some (hexCodeName count), s⟩

/-- The characters that a backslash and one letter stand for. -/
def shortEscape? : Char → Option Char
  | 'b' => some '\x08'
  | 'f' => some '\x0c'
  | 'n' => some '\n'
  | 'r' => some '\r'
  | 't' => some '\t'
  | '\\' => some '\\'
  | '"' => some '"'
  | _ => none

/-- The characters that may follow a backslash. -/
def escapeChoices : List String :=
  ["`b`", "`f`", "`n`", "`r`", "`t`", "`u`", "`U`", "`\\`", "`\"`"]

/-- The character after a backslash.  A wrong one counts as read when it is a single
byte.  A backslash at the end of the text is no escape and is itself at fault. -/
def readEscape (s : List Char) : Reading Char :=
  match s with
  | [] => .error (.due none [] ['\\'])
  | c :: rest =>
      if c = 'u' then readScalar 4 rest
      else if c = 'U' then readScalar 8 rest
      else
        match shortEscape? c with
        | some meant => .ok (meant, rest)
        | none =>
            .error (.due (some "escape sequence") escapeChoices
              (if c.utf8Size = 1 then rest else s))

/-- An escape is used up by reading it. -/
theorem length_lt_of_readEscape {s rest : List Char} {c : Char}
    (read : readEscape s = .ok (c, rest)) : rest.length < s.length := by
  have scalar : ∀ {count : Nat} {t : List Char},
      readScalar count t = .ok (c, rest) → rest.length ≤ t.length := by
    intro count t found
    unfold readScalar at found
    split at found
    · simp at found
    · rename_i hexRead
      split at found
      · simp only [Except.ok.injEq, Prod.mk.injEq] at found
        rw [← found.2]
        exact length_le_of_readHex hexRead
      · simp at found
  unfold readEscape at read
  split at read
  · simp at read
  · simp only [List.length_cons]
    split at read
    · have := scalar read
      omega
    · split at read
      · have := scalar read
        omega
      · split at read
        · simp only [Except.ok.injEq, Prod.mk.injEq] at read
          rw [← read.2]
          omega
        · simp at read

/-- The characters of a basic string whose opening quote has been read. -/
def readBasic (s : List Char) : Reading (List Char) :=
  match s with
  | [] => .error (.due none [] [])
  | c :: rest =>
      if c = '"' then .ok ([], rest)
      else if c = '\\' then
        match _escaped : readEscape rest with
        | .error failure => .error failure
        | .ok (meant, after) => (readBasic after).map (consRead meant)
      else if isPlain c then (readBasic rest).map (consRead c)
      else .error (.due none [] s)
termination_by s.length
decreasing_by
  · have := length_lt_of_readEscape _escaped
    simp only [List.length_cons]
    omega
  · simp

/-- The characters of a literal string whose opening quote has been read. -/
def readLiteral : List Char → Reading (List Char)
  | [] => .error (.due none [] [])
  | c :: rest =>
      if c = '\'' then .ok ([], rest)
      else if isPlain c then (readLiteral rest).map (consRead c)
      else .error (.due none [] (c :: rest))

/-- What follows a run of quotes: nothing when the run does not close the string,
and otherwise the quotes that belong to it and the text after the closing ones. -/
def closeRun? (quote : Char) (s : List Char) : Option (List Char × List Char) :=
  let run := (s.takeWhile (· = quote)).length
  if run < 3 then none
  else
    let inner := min (run - 3) 2
    some (List.replicate inner quote, s.drop (inner + 3))

/-- What follows blank lines and the indentation after them. -/
def skipBlankLines : List Char → List Char
  | '\n' :: rest => skipBlankLines rest
  | '\r' :: '\n' :: rest => skipBlankLines rest
  | c :: rest => if isSpace c then skipBlankLines rest else c :: rest
  | [] => []

/-- Skipping blank lines does not lengthen the text. -/
theorem length_skipBlankLines_le (s : List Char) :
    (skipBlankLines s).length ≤ s.length := by
  fun_induction skipBlankLines s with
  | case1 rest ih =>
      simp only [List.length_cons]
      omega
  | case2 rest ih =>
      simp only [List.length_cons]
      omega
  | case3 c rest _ _ _ ih =>
      simp only [List.length_cons]
      omega
  | case4 => exact Nat.le_refl _
  | case5 => exact Nat.le_refl _

/-- What follows a backslash at the end of a line and the blank lines and
indentation after it; nothing when the backslash is not at the end of a line. -/
def joinLines? (s : List Char) : Option (List Char) :=
  (newline? (s.dropWhile isSpace)).map skipBlankLines

/-- Joining lines does not lengthen the text. -/
theorem length_le_of_joinLines? {s rest : List Char} (joined : joinLines? s = some rest) :
    rest.length ≤ s.length := by
  unfold joinLines? at joined
  obtain ⟨after, found, rfl⟩ := Option.map_eq_some_iff.mp joined
  have first := length_lt_of_newline? found
  have second := (List.dropWhile_sublist isSpace (l := s)).length_le
  have third := length_skipBlankLines_le after
  omega

/-- The characters of a basic string over several lines whose opening quotes have
been read.  Quotes at the end of the text would have to close the string. -/
def readBasicLines (s : List Char) : Reading (List Char) :=
  match s with
  | [] => .error (.due none [] [])
  | c :: rest =>
      if c = '"' then
        match closeRun? '"' s with
        | some closed => .ok closed
        | none =>
            if s.all (· = '"') then .error (.due none [] s)
            else (readBasicLines rest).map (consRead c)
      else if c = '\\' then
        match _joined : joinLines? rest with
        | some after => readBasicLines after
        | none =>
            match _escaped : readEscape rest with
            | .error failure => .error failure
            | .ok (meant, after) => (readBasicLines after).map (consRead meant)
      else
        match _broken : newline? (c :: rest) with
        | some after => (readBasicLines after).map (consRead '\n')
        | none =>
            if isPlain c then (readBasicLines rest).map (consRead c)
            else .error (.due none [] s)
termination_by s.length
decreasing_by
  · simp
  · have := length_le_of_joinLines? _joined
    simp only [List.length_cons]
    omega
  · have := length_lt_of_readEscape _escaped
    simp only [List.length_cons]
    omega
  · exact length_lt_of_newline? _broken
  · simp

/-- A fault right behind a quote inside a literal string over several lines lies in the
quote: it would have to close the string. -/
def Failure.atQuote (quote : Char) (rest : List Char) (failure : Failure) : Failure :=
  if failure.rest.length = rest.length then { failure with rest := quote :: rest }
  else failure

/-- The characters of a literal string over several lines whose opening quotes
have been read. -/
def readLiteralLines (s : List Char) : Reading (List Char) :=
  match s with
  | [] => .error (.due none [] [])
  | c :: rest =>
      if c = '\'' then
        match closeRun? '\'' s with
        | some closed => .ok closed
        | none =>
            ((readLiteralLines rest).mapError (·.atQuote c rest)).map (consRead c)
      else
        match _broken : newline? (c :: rest) with
        | some after => (readLiteralLines after).map (consRead '\n')
        | none =>
            if isPlain c then (readLiteralLines rest).map (consRead c)
            else .error (.due none [] s)
termination_by s.length
decreasing_by
  · simp
  · exact length_lt_of_newline? _broken
  · simp

/-- The text of a string, which is called `what` when it is faulty. -/
def textOf (what : String) (reading : Reading (List Char)) : Reading String :=
  (reading.mapError (·.within what)).map fun read => (String.ofList read.1, read.2)

/-- A string on one line, whose first character is a quote. -/
def readLineText (s : List Char) : Reading String :=
  match s with
  | '"' :: rest => textOf "basic string" (readBasic rest)
  | '\'' :: rest => textOf "literal string" (readLiteral rest)
  | _ => .error (.due (some "string") ["`\"`", "`'`"] s)

/-- A string of any kind, whose first character is a quote. -/
def readText (s : List Char) : Reading String :=
  match s with
  | '"' :: '"' :: '"' :: rest =>
      textOf "multiline basic string" (readBasicLines ((newline? rest).getD rest))
  | '\'' :: '\'' :: '\'' :: rest =>
      textOf "multiline literal string" (readLiteralLines ((newline? rest).getD rest))
  | _ => readLineText s

end GrammarUpgrade.Toml
