import GrammarUpgrade.Toml.Reader
import Mathlib.Data.List.DropRight

/-!
# The TOML notation

What a text says before any table is built: a document is its entries, and then sections
with a header and their own entries, all in the order of the text.  The relations of this
module say how a document is written, without a reader.  Each of them relates a piece to the
text from where the piece begins and to the text behind it.

Of numbers, truth values, dates and times nothing is kept; `Term.other` stands for them all.
-/

namespace GrammarUpgrade.Toml

open GrammarUpgrade.Text (hexValue?)

/-! ## What is written -/

/-- A value as it is written. -/
inductive Term where
  | string (text : String)
  /-- A number, a truth value, a date or a time. -/
  | other
  | array (items : List Term)
  | braces (pairs : List (List String × Term))

/-- A line that adds something to the document. -/
inductive Statement where
  | entry (path : List String) (term : Term)
  | header (repeated : Bool) (path : List String)

/-- A header and the entries under it. -/
structure Section where
  /-- Whether the header stands in double brackets. -/
  repeated : Bool
  path : List String
  entries : List (List String × Term)

/-- What a text says: the entries before any header and the sections. -/
structure Document where
  entries : List (List String × Term)
  sections : List Section

/-- The document that statements make up. -/
def Document.ofStatements : List Statement → Document
  | [] => ⟨[], []⟩
  | .entry path term :: others =>
      let document := ofStatements others
      { document with entries := (path, term) :: document.entries }
  | .header repeated path :: others =>
      let document := ofStatements others
      ⟨[], ⟨repeated, path, document.entries⟩ :: document.sections⟩

/-- What a section gives to a path.  In double brackets a header names many tables, so that a
path does not say which of them is meant. -/
def Section.Has (part : Section) (path : List String) (term : Term) : Prop :=
  part.repeated = false ∧ ∃ inner, (inner, term) ∈ part.entries ∧ path = part.path ++ inner

/-- The paths of a section: that of its header and those of its entries. -/
def Section.Names (part : Section) (path : List String) : Prop :=
  path = part.path ∨ ∃ inner term, (inner, term) ∈ part.entries ∧ path = part.path ++ inner

namespace Document

variable (document : Document)

/-- What is given to a path outside of braces. -/
inductive Has (path : List String) (term : Term) : Prop
  | entry (mem : (path, term) ∈ document.entries)
  | under {part : Section} (isPart : part ∈ document.sections) (has : part.Has path term)

/-- What is given to a path, also between braces. -/
inductive Gives : List String → Term → Prop
  | outside {path : List String} {term : Term} (has : document.Has path term) : Gives path term
  | inside {path inner : List String} {pairs : List (List String × Term)} {term : Term}
      (outer : Gives path (.braces pairs)) (mem : (inner, term) ∈ pairs) :
      Gives (path ++ inner) term

/-- The paths outside of braces. -/
inductive Names (path : List String) : Prop
  | entry {term : Term} (mem : (path, term) ∈ document.entries)
  | under {part : Section} (isPart : part ∈ document.sections) (names : part.Names path)

/-- All paths of a document. -/
inductive Mentions : List String → Prop
  | outside {path : List String} (names : document.Names path) : Mentions path
  | inside {path inner : List String} {pairs : List (List String × Term)} {term : Term}
      (outer : document.Gives path (.braces pairs)) (mem : (inner, term) ∈ pairs) :
      Mentions (path ++ inner)

/-- The sections with a name in double brackets, in order. -/
def sectionsOf (name : String) : List Section :=
  document.sections.filter fun part => part.repeated && part.path = [name]

end Document

/-! ## Strings -/

/-- Whether a character is a quote. -/
def isQuote (c : Char) : Bool :=
  c = '"' || c = '\''

/-- Whether a character between two quotes stands for itself. -/
def isOrdinary (quote c : Char) : Bool :=
  isPlain c && c ≠ quote && !(quote = '"' && c = '\\')

/-- The number that hexadecimal digits stand for. -/
def hexNumber? (digits : List Char) : Option Nat :=
  (digits.mapM hexValue?).map fun values => values.foldl (fun number d => number * 16 + d) 0

/-- The number of digits that the letter of an escape asks for. -/
def codeLength? : Char → Option Nat
  | 'u' => some 4
  | 'U' => some 8
  | _ => none

/-- The character that an escape stands for, its backslash having been passed. -/
inductive SpellsEscape : Char → List Char → List Char → Prop
  | short {letter c : Char} {rest : List Char} (meant : shortEscape? letter = some c) :
      SpellsEscape c (letter :: rest) rest
  | code {letter : Char} {digits rest : List Char} {number : Nat}
      (length : codeLength? letter = some digits.length)
      (hex : hexNumber? digits = some number) (valid : number.isValidChar) :
      SpellsEscape (Char.ofNat number) (letter :: (digits ++ rest)) rest

/-- The characters of a string on one line, its opening quote having been passed.  Only double
quotes admit escapes. -/
inductive SpellsLine (quote : Char) : List Char → List Char → List Char → Prop
  | close {rest : List Char} : SpellsLine quote [] (quote :: rest) rest
  | ordinary {c : Char} {chars s rest : List Char} (itself : isOrdinary quote c = true)
      (others : SpellsLine quote chars s rest) : SpellsLine quote (c :: chars) (c :: s) rest
  | escape {c : Char} {chars s t rest : List Char} (basic : quote = '"')
      (meant : SpellsEscape c s t) (others : SpellsLine quote chars t rest) :
      SpellsLine quote (c :: chars) ('\\' :: s) rest

/-- The characters of a string over several lines, its opening quotes having been passed.  Up to
two quotes before the closing ones belong to the string, as do quotes of which fewer than three
follow each other. -/
inductive SpellsLines (quote : Char) : List Char → List Char → List Char → Prop
  | close {count : Nat} {rest : List Char} (few : count ≤ 2)
      (all : count = 2 ∨ rest.head? ≠ some quote) :
      SpellsLines quote (List.replicate count quote)
        (List.replicate (count + 3) quote ++ rest) rest
  | quote {chars s rest : List Char} (inside : ¬[quote, quote] <+: s)
      (others : SpellsLines quote chars s rest) :
      SpellsLines quote (quote :: chars) (quote :: s) rest
  | ordinary {c : Char} {chars s rest : List Char} (itself : isOrdinary quote c = true)
      (others : SpellsLines quote chars s rest) :
      SpellsLines quote (c :: chars) (c :: s) rest
  | newline {chars s t rest : List Char} (broken : newline? s = some t)
      (others : SpellsLines quote chars t rest) : SpellsLines quote ('\n' :: chars) s rest
  | joined {chars s t rest : List Char} (basic : quote = '"') (joined : joinLines? s = some t)
      (others : SpellsLines quote chars t rest) : SpellsLines quote chars ('\\' :: s) rest
  | escape {c : Char} {chars s t rest : List Char} (basic : quote = '"')
      (notJoined : joinLines? s = none) (meant : SpellsEscape c s t)
      (others : SpellsLines quote chars t rest) :
      SpellsLines quote (c :: chars) ('\\' :: s) rest

/-- A string with its quotes.  A line break right after three quotes is left out. -/
inductive SpellsText : String → List Char → List Char → Prop
  | line {quote : Char} {chars s rest : List Char} (quoted : isQuote quote = true)
      (alone : ¬[quote, quote] <+: s) (spelled : SpellsLine quote chars s rest) :
      SpellsText (String.ofList chars) (quote :: s) rest
  | lines {quote : Char} {chars s rest : List Char} (quoted : isQuote quote = true)
      (spelled : SpellsLines quote chars ((newline? s).getD s) rest) :
      SpellsText (String.ofList chars) (quote :: quote :: quote :: s) rest

/-! ## Keys -/

theorem skipSpaces_skipSpaces (s : List Char) : skipSpaces (skipSpaces s) = skipSpaces s :=
  List.dropWhile_idempotent _ _

/-- One name of a key: as many bare characters as there are, or a string on one line. -/
inductive SpellsName : String → List Char → List Char → Prop
  | bare {s : List Char} (begins : s.head?.any isBare = true) :
      SpellsName (String.ofList (s.takeWhile isBare)) s (s.dropWhile isBare)
  | quoted {quote : Char} {chars s rest : List Char} (quoted : isQuote quote = true)
      (spelled : SpellsLine quote chars s rest) :
      SpellsName (String.ofList chars) (quote :: s) rest

/-- The names of a key with dots between them, and the blanks around them. -/
inductive SpellsKey : List String → List Char → List Char → Prop
  | last {name : String} {s t : List Char} (spelled : SpellsName name (skipSpaces s) t) :
      SpellsKey [name] s (skipSpaces t)
  | dotted {name : String} {path : List String} {s t u rest : List Char}
      (spelled : SpellsName name (skipSpaces s) t) (dot : skipSpaces t = '.' :: u)
      (others : SpellsKey path u rest) : SpellsKey (name :: path) s rest

/-! ## Values -/

/-- Whether a character may stand in a number, a truth value, a date or a time, or after it. -/
def isWordChar (c : Char) : Bool :=
  isBare c || ['+', '.', ':'].contains c || isSpace c

/-- Whether a number or its like may begin with a character. -/
def beginsWord (c : Char) : Bool :=
  isWordChar c && !isSpace c

/-- What stands between the items of an array: blanks, line breaks and comments. -/
inductive Gap : List Char → List Char → Prop
  | done {s : List Char} : Gap s s
  | blank {c : Char} {s rest : List Char} (isBlank : isSpace c = true) (others : Gap s rest) :
      Gap (c :: s) rest
  | line {s t rest : List Char} (broken : newline? (skipComment? s) = some t)
      (others : Gap t rest) : Gap s rest

mutual

/-- A value.  A number and its like reach as far as their characters do, so that nothing else
can hide in them. -/
inductive Spells : Term → List Char → List Char → Prop
  | string {text : String} {s rest : List Char} (spelled : SpellsText text s rest) :
      Spells (.string text) s rest
  | other {s : List Char} (begins : s.head?.any beginsWord = true) :
      Spells .other s (s.dropWhile isWordChar)
  | array {items : List Term} {s rest : List Char} (spelled : SpellsItems items s rest) :
      Spells (.array items) ('[' :: s) rest
  | braces {pairs : List (List String × Term)} {s rest : List Char}
      (spelled : SpellsPairs pairs s rest) : Spells (.braces pairs) ('\x7b' :: s) rest

/-- The items of an array to its closing bracket.  A comma may follow the last one. -/
inductive SpellsItems : List Term → List Char → List Char → Prop
  | closed {s rest : List Char} (gap : Gap s (']' :: rest)) : SpellsItems [] s rest
  | last {item : Term} {s t u rest : List Char} (gap : Gap s t) (spelled : Spells item t u)
      (gapAfter : Gap u (']' :: rest)) : SpellsItems [item] s rest
  | next {item : Term} {items : List Term} {s t u v rest : List Char} (gap : Gap s t)
      (spelled : Spells item t u) (gapAfter : Gap u (',' :: v))
      (others : SpellsItems items v rest) : SpellsItems (item :: items) s rest

/-- The pairs between braces to the closing one, on one line. -/
inductive SpellsPairs : List (List String × Term) → List Char → List Char → Prop
  | closed {s rest : List Char} (brace : skipSpaces s = '\x7d' :: rest) : SpellsPairs [] s rest
  | last {path : List String} {term : Term} {s t u rest : List Char}
      (key : SpellsKey path s ('=' :: t)) (spelled : Spells term (skipSpaces t) u)
      (brace : skipSpaces u = '\x7d' :: rest) : SpellsPairs [(path, term)] s rest
  | next {path : List String} {term : Term} {pair : List String × Term}
      {pairs : List (List String × Term)} {s t u v rest : List Char}
      (key : SpellsKey path s ('=' :: t)) (spelled : Spells term (skipSpaces t) u)
      (comma : skipSpaces u = ',' :: v) (others : SpellsPairs (pair :: pairs) v rest) :
      SpellsPairs ((path, term) :: pair :: pairs) s rest

end

/-! ## Lines -/

/-- The end of a line after blanks and perhaps a comment: a line break, or the end of the
text. -/
inductive EndsLine : List Char → List Char → Prop
  | broken {s rest : List Char} (newline : newline? (skipComment? (skipSpaces s)) = some rest) :
      EndsLine s rest
  | atEnd {s : List Char} (finished : skipComment? (skipSpaces s) = []) : EndsLine s []

/-- A statement. -/
inductive SpellsStatement : Statement → List Char → List Char → Prop
  | entry {path : List String} {term : Term} {s t rest : List Char}
      (key : SpellsKey path s ('=' :: t)) (spelled : Spells term (skipSpaces t) rest) :
      SpellsStatement (.entry path term) s rest
  | header {path : List String} {s rest : List Char} (key : SpellsKey path s (']' :: rest)) :
      SpellsStatement (.header false path) ('[' :: s) rest
  | repeated {path : List String} {s rest : List Char}
      (key : SpellsKey path s (']' :: ']' :: rest)) :
      SpellsStatement (.header true path) ('[' :: '[' :: s) rest

/-- The statements of a text, each on a line of its own, with blank lines and comments anywhere
between them. -/
inductive SpellsAll : List Statement → List Char → Prop
  | done {s : List Char} (finished : skipSpaces s = []) : SpellsAll [] s
  | blank {statements : List Statement} {s t : List Char} (present : skipSpaces s ≠ [])
      (ends : EndsLine s t) (others : SpellsAll statements t) : SpellsAll statements s
  | line {statement : Statement} {statements : List Statement} {s t u : List Char}
      (spelled : SpellsStatement statement (skipSpaces s) t) (ends : EndsLine t u)
      (others : SpellsAll statements u) : SpellsAll (statement :: statements) s

/-- The characters of a text without a byte order mark at the start. -/
def withoutMark : List Char → List Char
  | '\ufeff' :: rest => rest
  | s => s

/-- The document that a text says. -/
def Writes (document : Document) (text : String) : Prop :=
  ∃ statements, SpellsAll statements (withoutMark text.toList) ∧
    document = Document.ofStatements statements

end GrammarUpgrade.Toml
