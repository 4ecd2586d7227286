import GrammarUpgrade.Toml.Numeral
import GrammarUpgrade.Toml.Table

/-!
# Reading TOML texts

A text is a sequence of lines that give a key a value or open a table.  The first
problem from the start of the text decides, whether it lies in the notation or in
a name that is used twice; between braces the notation comes first.  Keys and values
may be nested only so deep.
-/

namespace GrammarUpgrade.Toml

/-- Keys must have fewer names than this, and values fewer containers around
them. -/
def maxDepth : Nat :=
  80

/-! ## Blanks and comments -/

/-- What follows spaces and tabs. -/
def skipSpaces (s : List Char) : List Char :=
  s.dropWhile isSpace

/-- What follows the text of a comment. -/
def skipComment (s : List Char) : List Char :=
  s.dropWhile isPlain

/-- What follows a comment, if one comes next. -/
def skipComment? (s : List Char) : List Char :=
  match s with
  | '#' :: rest => skipComment rest
  | _ => s

/-- What follows the end of a line. -/
def readLineEnd (reading : Option String) (choices : List String) (s : List Char) :
    Except Failure (List Char) :=
  match s with
  | [] => .ok []
  | _ =>
      match newline? s with
      | some rest => .ok rest
      | none => .error (.due reading choices s)

/-- What follows the rest of a line after a statement. -/
def readLineRest (reading : Option String) (s : List Char) :
    Except Failure (List Char) :=
  readLineEnd reading ["newline", "`#`"] (skipComment? (skipSpaces s))

/-- What follows a line break that must come next.  Another character counts as
read. -/
def readNewline (s : List Char) : Except Failure (List Char) :=
  match newline? s with
  | some rest => .ok rest
  | none => .error (.due none [] (s.drop 1))

/-- Skip at most `count` stretches of blanks, line breaks and comments. -/
def skipBetweenUpTo : Nat → List Char → Except Failure (List Char)
  | 0, s => .ok s
  | count + 1, s =>
      match s with
      | [] => .ok []
      | c :: rest =>
          if isSpace c then skipBetweenUpTo count rest
          else if c = '#' || c = '\r' || c = '\n' then
            match readNewline (if c = '#' then skipComment rest else s) with
            | .error failure => .error failure
            | .ok after => skipBetweenUpTo count after
          else .ok s

/-- What follows blanks, line breaks and comments.  A comment must end with its line,
and a carriage return must belong to a line break. -/
def skipBetween (s : List Char) : Except Failure (List Char) :=
  skipBetweenUpTo s.length s

/-! ## Keys -/

/-- Whether the name of a key begins after blanks.  It may still turn out faulty. -/
def beginsName (s : List Char) : Bool :=
  (skipSpaces s).head?.any fun c => isBare c || c = '"' || c = '\''

/-- One name of a key. -/
def readName (s : List Char) : Reading Key :=
  let text : Reading String :=
    if s.head?.any isBare then
      .ok (String.ofList (s.takeWhile isBare), s.dropWhile isBare)
    else readLineText s
  text.map fun read => (⟨read.1, .between s read.2⟩, read.2)

/-- At most `count` names of a key, with the blanks around them.  A dot that no name
follows does not belong to the key. -/
def readNamesUpTo : Nat → List Char → Reading (List Key)
  | 0, s => .ok ([], s)
  | count + 1, s =>
      match readName (skipSpaces s) with
      | .error failure => .error failure
      | .ok (name, afterName) =>
          match skipSpaces afterName with
          | '.' :: rest =>
              if beginsName rest then
                match readNamesUpTo count rest with
                | .error failure => .error failure
                | .ok (others, last) => .ok (name :: others, last)
              else .ok ([name], '.' :: rest)
          | rest => .ok ([name], rest)

/-- A key, split into the names on the way and the last one. -/
def readKey (s : List Char) : Except Failure ((List Key × Key) × List Char) :=
  if beginsName s then
    match readNamesUpTo s.length s with
    | .error failure => .error failure
    | .ok (path, rest) =>
        match path.getLast? with
        | none => .error (.due (some "key") [] s)
        | some last =>
            if path.length < maxDepth then .ok ((path.dropLast, last), rest)
            else .error ⟨.recursionLimit, none, s⟩
  else .error (.due (some "key") [] (skipSpaces s))

/-! ## Values -/

/-- A word that stands for a value. -/
def readWord (word : String) (s : List Char) : Except Failure (List Char) :=
  if word.toList.isPrefixOf s then .ok (s.drop word.toList.length)
  else .error (.due (some "string") ["`\"`", "`'`"] s)

/-- Whether a value begins here.  It may still turn out faulty. -/
def beginsValue (s : List Char) : Bool :=
  s.head?.any ['"', '\'', '[', '\x7b', 't', 'f'].contains || beginsNumber s

/-- Read at most `count` elements of an array.  Where none begins the array must end.
An element with a faulty comment after it counts as none. -/
def readItemsUpTo (value : List Char → Reading Value) :
    Nat → List Char → Reading (List Value)
  | 0, s => .error (.due (some "array") ["`]`"] s)
  | count + 1, s =>
      match skipBetween s with
      | .error failure => .error failure
      | .ok (']' :: rest) => .ok ([], rest)
      | .ok start =>
          if !beginsValue start then .error (.due (some "array") ["`]`"] start)
          else
            match value start with
            | .error failure => .error failure
            | .ok (first, afterFirst) =>
                match skipBetween afterFirst with
                | .error _ => .error (.due (some "array") ["`]`"] start)
                | .ok (',' :: rest) =>
                    match readItemsUpTo value count rest with
                    | .error failure => .error failure
                    | .ok (others, last) => .ok (first :: others, last)
                | .ok (']' :: rest) => .ok ([first], rest)
                | .ok rest => .error (.due (some "array") ["`]`"] rest)

/-- Read at most `count` pairs between braces, from `s` on.  Where none begins they
are over, and what follows them is `stop`; a key that is too long begins none. -/
def readPairsUpTo (value : List Char → Reading Value) :
    Nat → (stop s : List Char) → Reading (List Assignment)
  | 0, stop, _ => .ok ([], stop)
  | count + 1, stop, s =>
      match beginsName s, readKey s with
      | false, _ => .ok ([], stop)
      | true, .error ⟨.recursionLimit, _, _⟩ => .ok ([], stop)
      | true, .error failure => .error failure
      | true, .ok ((way, last), '=' :: afterMark) =>
          match value (skipSpaces afterMark) with
          | .error failure => .error failure
          | .ok (read, afterValue) =>
              match skipSpaces afterValue with
              | ',' :: rest =>
                  match readPairsUpTo value count (',' :: rest) rest with
                  | .error failure => .error failure
                  | .ok (others, after) => .ok (⟨way, last, read⟩ :: others, after)
              | rest => .ok ([⟨way, last, read⟩], rest)
      | true, .ok (_, rest) => .error (.due none ["`.`", "`=`"] rest)

/-- The members between braces, whose opening one has been read.  All pairs are read
before names that are used twice are looked for. -/
def readBraces (value : List Char → Reading Value) (s : List Char) : Reading Members :=
  match readPairsUpTo value (s.length + 1) s s with
  | .error failure => .error failure
  | .ok (pairs, rest) =>
      match Members.ofAssignments pairs with
      | .error fault => .error ⟨fault, none, s⟩
      | .ok members =>
          match skipSpaces rest with
          | '\x7d' :: after => .ok (members, after)
          | after => .error (.due (some "inline table") ["`\x7d`"] after)

/-- Read one value, with fewer than `depth` containers inside. -/
def readValue (depth : Nat) (s : List Char) : Reading Value :=
  match s with
  | [] => .error (.due none [] [])
  | c :: rest =>
      if c = '"' || c = '\'' then
        (readText s).map fun read => (.string (.between s read.2) read.1, read.2)
      else if c = '[' then
        match depth with
        | 0 => .error ⟨.recursionLimit, none, s⟩
        | depth + 1 =>
            (readItemsUpTo (readValue depth) (rest.length + 1) rest).map fun read =>
              (.array (.between s read.2) read.1, read.2)
      else if c = '\x7b' then
        match depth with
        | 0 => .error ⟨.recursionLimit, none, s⟩
        | depth + 1 =>
            (readBraces (readValue depth) rest).map fun read =>
              (.table .braces (some (.between s read.2)) read.1, read.2)
      else if c = 't' then
        (readWord "true" s).map fun after => (.boolean (.between s after) true, after)
      else if c = 'f' then
        (readWord "false" s).map fun after => (.boolean (.between s after) false, after)
      else if c = '+' || c = '-' || beginsNumber s then
        match readDateTime? s with
        | .error failure => .error failure
        | .ok (some after) => .ok (.dateTime (.between s after), after)
        | .ok none =>
            (readNumber s).map fun read =>
              match read.1 with
              | .integer value => (.integer (.between s read.2) value, read.2)
              | .real value => (.real (.between s read.2) value, read.2)
      else if c = '_' then .error (.due (some "integer") ["leading digit"] s)
      else if c = '.' then .error (.due (some realName) ["leading digit"] s)
      else .error (.due (some "string") ["`\"`", "`'`"] s)

/-! ## Statements -/

/-- Read a header whose opening brackets have been read, and open its table. -/
def readHeader (draft : Draft) (repeated : Bool) (start s : List Char) :
    Reading Draft :=
  match readKey s with
  | .error failure => .error (failure.within "table header")
  | .ok ((way, last), afterKey) =>
      let closing := if repeated then "]]" else "]"
      if closing.toList.isPrefixOf afterKey then
        let afterHeader := afterKey.drop closing.toList.length
        match readLineRest (some "table header") afterHeader with
        | .error failure => .error failure
        | .ok rest =>
            let span := Span.between start afterHeader
            let opened :=
              if repeated then draft.openRepeated way last span
              else draft.openTable way last span
            match opened with
            | .error fault => .error ⟨fault, some "table header", start⟩
            | .ok next => .ok (next, rest)
      else
        .error (.due (some "table header") ["`.`", "`" ++ closing ++ "`"] afterKey)

/-- Read a key and its value, and add them to the open table. -/
def readAssignment (draft : Draft) (s : List Char) : Reading Draft :=
  match readKey s with
  | .error failure => .error failure
  | .ok ((way, last), afterKey) =>
      match afterKey with
      | '=' :: afterMark =>
          match readValue (maxDepth - 1) (skipSpaces afterMark) with
          | .error failure => .error failure
          | .ok (value, afterValue) =>
              match readLineRest none afterValue with
              | .error failure => .error failure
              | .ok rest =>
                  match draft.assign way last value with
                  | .error fault => .error ⟨fault, none, s⟩
                  | .ok next => .ok (next, rest)
      | rest => .error (.due none ["`.`", "`=`"] rest)

/-- Read one line: a blank one, a comment, a header or an assignment. -/
def readLine (draft : Draft) (s : List Char) : Reading Draft :=
  match s with
  | ['['] => .error (.due (some "table header") [] s)
  | '[' :: '[' :: rest => readHeader draft true s rest
  | '[' :: rest => readHeader draft false s rest
  | '#' :: rest =>
      (readLineEnd none [] (skipComment rest)).map fun after => (draft, after)
  | _ =>
      match newline? s with
      | some rest => .ok (draft, rest)
      | none =>
          if s.head? = some '\r' then .error (.due none [] s)
          else readAssignment draft s

/-- Read at most `count` lines. -/
def readLinesUpTo : Nat → Draft → List Char → Except Failure Draft
  | 0, _, s => .error (.due none [] s)
  | count + 1, draft, s =>
      match skipSpaces s with
      | [] => .ok draft
      | start =>
          match readLine draft start with
          | .error failure => .error failure
          | .ok (next, rest) => readLinesUpTo count next rest

/-- The members of the document that a text holds.  A byte order mark at the start
is left out. -/
def ofText (text : String) : Except Error Members :=
  let chars :=
    match text.toList with
    | '\ufeff' :: rest => rest
    | all => all
  match readLinesUpTo (chars.length + 1) .start chars with
  | .error failure => .error (failure.toError text)
  | .ok draft =>
      match draft.close with
      | .error fault => .error ⟨fault, none, none, text⟩
      | .ok members => .ok members

end GrammarUpgrade.Toml
