import GrammarUpgrade.Dataset.Basic
import GrammarUpgrade.Json.Reader
import GrammarUpgrade.Json.Skip

/-!
# Reading a dataset

A dataset is an object with the sections `types`, `properties` and `atrules`, or
an array of these in this order.  Missing sections are empty, and members with
other keys are skipped.  A name that is repeated inside a section keeps its first
place and takes its last value; a repeated section is refused.
-/

namespace GrammarUpgrade

open GrammarUpgrade.Json

/-- Read an object whose members all have values of one kind. -/
def Dictionary.read {α : Type} (value : List Char → Reading α) (s : List Char) :
    Reading (Dictionary α) :=
  readObject "a map" (fun dictionary key afterKey =>
    (readMemberValue value afterKey).map fun read =>
      (dictionary.insert key read.1, read.2)) Dictionary.empty s

namespace AtRule

/-- The members of an at-rule that have been read. -/
structure Draft where
  preludeGrammar : Option (Option String)
  descriptors : Option (Option (Dictionary String))
  extra : Dictionary Value
  deriving Inhabited

/-- Nothing read yet. -/
def Draft.start : Draft :=
  ⟨none, none, Dictionary.empty⟩

/-- The at-rule with the members read. -/
def Draft.finish (draft : Draft) : AtRule :=
  ⟨draft.preludeGrammar.join, draft.descriptors.join, draft.extra⟩

/-- The depth left to values inside an at-rule, which stands in a section of a
dataset. -/
def valueDepth : Nat :=
  maxDepth - 3

/-- Read a member of an at-rule. -/
def readMember (draft : Draft) (key : String) (afterKey : List Char) :
    Reading Draft :=
  if key = "prelude" then
    if draft.preludeGrammar.isSome then .error (repeatedKey key afterKey)
    else
      (readMemberValue (readNullable readStringValue) afterKey).map fun read =>
        ({ draft with preludeGrammar := some read.1 }, read.2)
  else if key = "descriptors" then
    if draft.descriptors.isSome then .error (repeatedKey key afterKey)
    else
      (readMemberValue (readNullable (Dictionary.read readStringValue)) afterKey).map
        fun read => ({ draft with descriptors := some read.1 }, read.2)
  else
    (readMemberValue (readValue valueDepth) afterKey).map fun read =>
      ({ draft with extra := draft.extra.insert key read.1 }, read.2)

/-- Read the entry of an at-rule. -/
def read (s : List Char) : Reading AtRule :=
  (readObject "struct AtRuleEntry" readMember Draft.start s).map fun read =>
    (read.1.finish, read.2)

end AtRule

namespace Dataset

/-- The sections of a dataset that have been read. -/
structure Draft where
  types : Option (Dictionary String)
  properties : Option (Dictionary String)
  atRules : Option (Dictionary AtRule)
  deriving Inhabited

/-- No section read yet. -/
def Draft.start : Draft :=
  ⟨none, none, none⟩

/-- The dataset with the sections read. -/
def Draft.finish (draft : Draft) : Dataset :=
  ⟨draft.types.getD .empty, draft.properties.getD .empty, draft.atRules.getD .empty⟩

/-- Read a section of grammars. -/
def readGrammars : List Char → Reading (Dictionary String) :=
  Dictionary.read readStringValue

/-- Read the section of at-rules. -/
def readAtRules : List Char → Reading (Dictionary AtRule) :=
  Dictionary.read AtRule.read

/-- Read a member of a dataset. -/
def readMember (draft : Draft) (key : String) (afterKey : List Char) :
    Reading Draft :=
  if key = "types" then
    if draft.types.isSome then .error (repeatedKey key afterKey)
    else
      (readMemberValue readGrammars afterKey).map fun read =>
        ({ draft with types := some read.1 }, read.2)
  else if key = "properties" then
    if draft.properties.isSome then .error (repeatedKey key afterKey)
    else
      (readMemberValue readGrammars afterKey).map fun read =>
        ({ draft with properties := some read.1 }, read.2)
  else if key = "atrules" then
    if draft.atRules.isSome then .error (repeatedKey key afterKey)
    else
      (readMemberValue readAtRules afterKey).map fun read =>
        ({ draft with atRules := some read.1 }, read.2)
  else
    readMemberValue (fun afterColon => (skipValue afterColon).map (draft, ·)) afterKey

/-- Read the next section of a dataset written as an array; nothing when the
array is over. -/
def readSection {α : Type} (isFirst : Bool) (reader : List Char → Reading α)
    (s : List Char) : Except Failure (Option α × List Char) :=
  match nextElement isFirst s with
  | .error failure => .error failure
  | .ok (.closed rest) => .ok (none, rest)
  | .ok (.entry rest) =>
      (reader rest).map fun read => (some read.1, read.2)

/-- Read the sections of a dataset written as an array whose opening bracket has
been read. -/
def readSections (s : List Char) : Except Failure (Draft × List Char) := do
  let (types, afterTypes) ← readSection true readGrammars s
  if types.isNone then return (Draft.start, afterTypes)
  let (properties, afterProperties) ← readSection false readGrammars afterTypes
  if properties.isNone then return (⟨types, none, none⟩, afterProperties)
  let (atRules, afterAtRules) ← readSection false readAtRules afterProperties
  if atRules.isNone then return (⟨types, properties, none⟩, afterAtRules)
  let rest ← readListEnd afterAtRules
  return (⟨types, properties, atRules⟩, rest)

/-- Read a dataset. -/
def read (s : List Char) : Reading Dataset :=
  match skipBlanks s with
  | [] => .error (.atEnd .endOfValue)
  | c :: rest =>
      if c = '[' then
        (readSections rest).map fun read => (read.1.finish, read.2)
      else
        (readObject "struct SyntaxSource" readMember Draft.start (c :: rest)).map
          fun read => (read.1.finish, read.2)

/-- The dataset that a text holds. -/
def ofText (text : String) : Except Json.Error Dataset :=
  readDocument read text

end Dataset

end GrammarUpgrade
