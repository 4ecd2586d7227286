import GrammarUpgrade.Json.Reader
import GrammarUpgrade.Json.Skip
import GrammarUpgrade.Rule.Basic

/-!
# Reading a rule

A rule is an object with the members `token` and `replacement`, or an array of
these two strings.  Members with other keys are skipped.  The rule is not
validated.
-/

namespace GrammarUpgrade.Rule

open GrammarUpgrade.Json

/-- The members of a rule that have been read. -/
structure Draft where
  token : Option String
  replacement : Option String
  deriving Inhabited

/-- What a rule is called in a complaint. -/
def expected : String :=
  "struct ReplacementRule"

/-- What a rule written as an array is called in a complaint. -/
def expectedElements : String :=
  "struct ReplacementRule with 2 elements"

/-- Read a member of a rule. -/
def readMember (draft : Draft) (key : String) (afterKey : List Char) :
    Reading Draft :=
  if key = "token" then
    if draft.token.isSome then .error (repeatedKey key afterKey)
    else
      (readMemberValue readStringValue afterKey).map fun read =>
        ({ draft with token := some read.1 }, read.2)
  else if key = "replacement" then
    if draft.replacement.isSome then .error (repeatedKey key afterKey)
    else
      (readMemberValue readStringValue afterKey).map fun read =>
        ({ draft with replacement := some read.1 }, read.2)
  else
    readMemberValue (fun afterColon => (skipValue afterColon).map (draft, ·)) afterKey

/-- The rule with the members read, the first missing one being the fault. -/
def Draft.finish (draft : Draft) : Except Shape.Mismatch Rule :=
  match draft.token, draft.replacement with
  | none, _ => .error (.missingField "token")
  | some _, none => .error (.missingField "replacement")
  | some token, some replacement => .ok ⟨token, replacement⟩

/-- Read the next string of a rule written as an array, `index` strings having
been read. -/
def readElement (index : Nat) (s : List Char) : Reading String :=
  match nextElement (index = 0) s with
  | .error failure => .error failure
  | .ok (.closed rest) =>
      .error (.before (.mismatch (.invalidLength index expectedElements)) rest)
  | .ok (.entry rest) => readStringValue rest

/-- Read a rule. -/
def read (s : List Char) : Except Failure (Rule × List Char) :=
  match skipBlanks s with
  | [] => .error (.atEnd .endOfValue)
  | c :: rest =>
      if c = '[' then do
        let (token, afterToken) ← readElement 0 rest
        let (replacement, afterReplacement) ← readElement 1 afterToken
        let last ← readListEnd afterReplacement
        return (⟨token, replacement⟩, last)
      else do
        let (draft, last) ← readObject expected readMember ⟨none, none⟩ (c :: rest)
        match draft.finish with
        | .error mismatch => .error (.before (.mismatch mismatch) last)
        | .ok rule => return (rule, last)

/-- The rule that a text holds. -/
def ofText (text : String) : Except Json.Error Rule :=
  readDocument read text

end GrammarUpgrade.Rule
