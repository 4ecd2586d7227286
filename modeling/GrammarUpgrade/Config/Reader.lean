import GrammarUpgrade.Config.Basic
import GrammarUpgrade.Rule.Reader
import GrammarUpgrade.Toml.Reader

/-!
# Reading a configuration

The settings are `source`, `output` and `rules`; `output` is a table with the
settings `dir`, `types`, `properties` and `at_rules`, or an array of these in this
order.  Other names are refused, missing ones mean the standard, and the settings
are looked at in the order of the text.
-/

namespace GrammarUpgrade.Config

open GrammarUpgrade.Shape (Found Mismatch)
open GrammarUpgrade.Toml (Key Span Value)

/-- A setting that misses the wanted shape, and where it stands if it stands in
one place. -/
structure Misfit where
  shape : Mismatch
  span : Option Span
  deriving DecidableEq, Repr

/-- The outcome of looking at a setting. -/
abbrev Setting (α : Type) := Except Misfit α

/-- A misfit with a place, unless it has one. -/
def Misfit.placed (span : Option Span) (misfit : Misfit) : Misfit :=
  { misfit with span := misfit.span <|> span }

/-- What a value is called when it is not wanted.  A date or time counts as a
map. -/
def found : Value → Found
  | .string _ text => .string text
  | .integer _ value => .integer value
  | .real _ value => .floating value.text
  | .boolean _ value => .boolean value
  | .dateTime _ => .map
  | .array .. => .sequence
  | .table .. => .map
  | .tables .. => .sequence

/-- The misfit of a value that is not what was expected. -/
def refuse {α : Type} (expected : String) (value : Value) : Setting α :=
  .error ⟨.invalidType (found value) expected, value.span?⟩

/-- A string, called by what is expected. -/
def readString (expected : String) : Value → Setting String
  | .string _ text => .ok text
  | other => refuse expected other

/-- A path. -/
def readPath : Value → Setting String :=
  readString "path string"

/-- The name of the only member of a date or time that is looked at as a table. -/
def dateTimeName : String :=
  "$__toml_private_datetime"

/-- The members of a table, or of a date or time that is looked at as one. -/
def members? : Value → Option Toml.Members
  | .table _ _ members => some members
  | .dateTime span => some [(⟨dateTimeName, span⟩, .dateTime span)]
  | _ => none

/-- The elements of an array or of tables with headers in double brackets. -/
def elements? : Value → Option (List Value)
  | .array _ items => some items
  | .tables _ elements => some elements
  | _ => none

/-- The value of a member, misfits being placed at the value or else at its key. -/
def readMember {α : Type} (read : Value → Setting α) (key : Key) (value : Value) :
    Setting α :=
  (read value).mapError (Misfit.placed (value.span? <|> some key.span))

/-! ## Rules -/

/-- Add a member of a rule. -/
def ruleMember (draft : Rule.Draft) (entry : Key × Value) : Setting Rule.Draft :=
  if entry.1.name = "token" then do
    let token ← readMember (readString "a string") entry.1 entry.2
    return { draft with token := some token }
  else if entry.1.name = "replacement" then do
    let replacement ← readMember (readString "a string") entry.1 entry.2
    return { draft with replacement := some replacement }
  else return draft

/-- A rule: a table with its two strings, or an array of them. -/
def readRule (value : Value) : Setting Rule :=
  match members? value with
  | some members => do
      let draft ← members.foldlM ruleMember ⟨none, none⟩
      draft.finish.mapError (⟨·, value.span?⟩)
  | none =>
      match elements? value with
      | none => refuse Rule.expected value
      | some [] =>
          .error ⟨.invalidLength 0 Rule.expectedElements, value.span?⟩
      | some [first] => do
          let _ ← readString "a string" first
          .error ⟨.invalidLength 1 Rule.expectedElements, value.span?⟩
      | some (first :: second :: _) => do
          let token ← readString "a string" first
          let replacement ← readString "a string" second
          return ⟨token, replacement⟩

/-- The rules in order. -/
def readRules (value : Value) : Setting (List Rule) :=
  match elements? value with
  | none => refuse "a sequence" value
  | some elements => elements.mapM readRule

/-! ## The output -/

/-- The settings of the output. -/
def destinationNames : List String :=
  ["dir", "types", "properties", "at_rules"]

/-- Add a setting of the output. -/
def destinationMember (destination : Destination) (entry : Key × Value) :
    Setting Destination :=
  let (key, value) := entry
  if key.name = "dir" then do
    return { destination with directory := ← readMember readPath key value }
  else if key.name = "types" then do
    return { destination with types := ← readMember readPath key value }
  else if key.name = "properties" then do
    return { destination with properties := ← readMember readPath key value }
  else if key.name = "at_rules" then do
    return { destination with atRules := ← readMember readPath key value }
  else .error ⟨.unknownField key.name destinationNames, some key.span⟩

/-- The output of an array: the settings that it has room for, and the standard
for the others. -/
def destinationOfElements : List Value → Setting Destination
  | [] => .ok .standard
  | [directory] => do
      return { Destination.standard with directory := ← readPath directory }
  | [directory, types] => do
      return { Destination.standard with
        directory := ← readPath directory, types := ← readPath types }
  | [directory, types, properties] => do
      return { Destination.standard with
        directory := ← readPath directory, types := ← readPath types,
        properties := ← readPath properties }
  | directory :: types :: properties :: atRules :: _ => do
      return ⟨← readPath directory, ← readPath types, ← readPath properties, ← readPath atRules⟩

/-- Where documents go. -/
def readDestination (value : Value) : Setting Destination :=
  match members? value with
  | some members => members.foldlM destinationMember .standard
  | none =>
      match elements? value with
      | none => refuse "struct OutputPaths" value
      | some elements => destinationOfElements elements

/-! ## The whole configuration -/

/-- The names of the settings. -/
def settingNames : List String :=
  ["source", "output", "rules"]

/-- Add a setting. -/
def setting (config : Config) (entry : Key × Value) : Setting Config :=
  let (key, value) := entry
  if key.name = "source" then do
    return { config with dataset := some (← readMember readPath key value) }
  else if key.name = "output" then do
    return { config with destination := ← readMember readDestination key value }
  else if key.name = "rules" then do
    return { config with rules := ← readMember readRules key value }
  else .error ⟨.unknownField key.name settingNames, some key.span⟩

/-- The configuration of a document. -/
def ofMembers (members : Toml.Members) : Setting Config :=
  members.foldlM setting .standard

/-- The configuration that a text holds. -/
def ofText (text : String) : Except ConfigError Config :=
  match Toml.ofText text with
  | .error cause => .error (.text cause)
  | .ok members =>
      (ofMembers members).mapError fun misfit =>
        .text ⟨.mismatch misfit.shape, none, misfit.span, text⟩

end GrammarUpgrade.Config
