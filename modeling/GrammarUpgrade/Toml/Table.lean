import GrammarUpgrade.Toml.Fault

/-!
# Building tables

Keys with dots and headers reach into tables that are there or come about on the
way.  A dotted key may only go on through tables that exist because of what is in
them, and must end in one that dotted keys made; a header may go through any
table and into the last of several, but may name a table only once.  Nothing is
ever replaced: a name that has a value cannot be given another one.
-/

namespace GrammarUpgrade.Toml

/-- Where keys with dots are resolved. -/
inductive Setting where
  /-- A key of a document or of a table with a header. -/
  | underHeader
  /-- A key between braces. -/
  | betweenBraces
  /-- The names of a header. -/
  | inHeader
  deriving DecidableEq, Repr

namespace Setting

/-- How a table on the way comes about. -/
def passage : Setting → Origin
  | .inHeader => .passage
  | _ => .dotted

end Setting

/-- Exchange the value of a name. -/
def Members.replace (members : Members) (name : String) (value : Value) : Members :=
  members.map fun member => if member.1.name = name then (member.1, value) else member

/-- The members without a name. -/
def Members.erase (members : Members) (name : String) : Members :=
  members.filter fun member => member.1.name ≠ name

/-- The names of keys. -/
def names (path : List Key) : List String :=
  path.map Key.name

/-- Change the table that keys lead to, and the tables on the way to it with it.
`change` is given how the table came about and what is in it.  `passed` are the
names that have been followed. -/
def changeAt {α : Type} (setting : Setting)
    (change : Origin → Members → Except Fault (Members × α)) :
    (passed : List String) → Origin → Members → List Key →
      Except Fault (Members × α)
  | _, origin, members, [] => change origin members
  | passed, _, members, key :: path =>
      let through := passed ++ [key.name]
      match members.find? key.name with
      | none => do
          let (inner, result) ← changeAt setting change through setting.passage [] path
          return (members ++ [(key, .table setting.passage none inner)], result)
      | some (.table .braces span inner) =>
          if setting = .betweenBraces then .error (.duplicateKey key.name none)
          else .error (.extendsValue through (Value.table .braces span inner).typeName)
      | some (.table origin span inner) =>
          if setting ≠ .inHeader && !origin.isImplicit then
            .error (.duplicateKey key.name none)
          else do
            let (changed, result) ← changeAt setting change through origin inner path
            return (members.replace key.name (.table origin span changed), result)
      | some (.tables span elements) =>
          match elements.getLast? with
          | some (.table origin elementSpan inner) => do
              let (changed, result) ← changeAt setting change through origin inner path
              return (members.replace key.name
                (.tables span
                  (elements.dropLast ++ [.table origin elementSpan changed])), result)
          | _ => .error (.duplicateKey key.name none)
      | some other => .error (.extendsValue through other.typeName)

/-- Give a name a value.  `table` are the names of the table that is open. -/
def Members.add (members : Members) (table : Option (List String)) (key : Key)
    (value : Value) : Except Fault Members :=
  match members.find? key.name with
  | some _ => .error (.duplicateKey key.name table)
  | none => .ok (members ++ [(key, value)])

/-- Give the name at the end of a key, which is split into the names on the way
and the last one, a value. -/
def Members.assign (members : Members) (setting : Setting) (origin : Origin)
    (table : Option (List String)) (way : List Key) (last : Key) (value : Value) :
    Except Fault Members := do
  let change (reached : Origin) (inner : Members) : Except Fault (Members × Unit) :=
    if decide (reached = .dotted) = way.isEmpty then
      .error (.duplicateKey last.name none)
    else do
      return (← inner.add table last value, ())
  let (changed, _) ← changeAt setting change [] origin members way
  return changed

/-- A key, split into the names on the way and the last one, and its value. -/
structure Assignment where
  way : List Key
  last : Key
  value : Value
  deriving Repr, Inhabited

/-- The members that assignments between braces make. -/
def Members.ofAssignments (assignments : List Assignment) : Except Fault Members :=
  assignments.foldlM (fun members assignment =>
    members.assign .betweenBraces .header none assignment.way assignment.last
      assignment.value) []

/-- The table that statements add to, and what is finished. -/
structure Draft where
  root : Members
  /-- The names of the header, the last one apart; nothing before any header. -/
  header : Option (List Key × Key)
  /-- Whether the header stands in double brackets. -/
  repeated : Bool
  /-- Where the open table stands so far. -/
  span : Option Span
  members : Members
  deriving Repr, Inhabited

namespace Draft

/-- Nothing read yet. -/
def start : Draft :=
  ⟨[], none, false, none, []⟩

/-- The names of the open table. -/
def tableNames (draft : Draft) : List String :=
  match draft.header with
  | none => []
  | some (way, last) => names way ++ [last.name]

/-- Give a key of the open table a value. -/
def assign (draft : Draft) (way : List Key) (last : Key) (value : Value) :
    Except Fault Draft := do
  let members ←
    draft.members.assign .underHeader .header (some draft.tableNames) way last value
  let span :=
    match draft.span, value.span? with
    | some open_, some added => some (open_.through added)
    | _, _ => draft.span
  return { draft with members, span }

/-- Put the open table in its place. -/
def close (draft : Draft) : Except Fault Members :=
  match draft.header with
  | none => .ok draft.members
  | some (way, last) => do
      let table : Value := .table .header draft.span draft.members
      let change (_ : Origin) (inner : Members) : Except Fault (Members × Unit) :=
        if draft.repeated then
          match inner.find? last.name with
          | none => .ok (inner ++ [(last, .tables draft.span [table])], ())
          | some (.tables span elements) =>
              let whole :=
                match span, draft.span with
                | some first, some added => some (first.through added)
                | _, _ => none
              .ok (inner.replace last.name (.tables whole (elements ++ [table])), ())
          | some _ => .error (.duplicateTable last.name (names way))
        else do
          return (← inner.add (some (names way)) last table, ())
      let (root, _) ← changeAt .inHeader change [] .header draft.root way
      return root

/-- Open the table of a header.  A table that exists only on the way to others is
taken up with what is in it. -/
def openTable (draft : Draft) (way : List Key) (last : Key) (span : Span) :
    Except Fault Draft := do
  let root ← draft.close
  let change (_ : Origin) (inner : Members) : Except Fault (Members × Members) :=
    match inner.find? last.name with
    | none => .ok (inner, [])
    | some (.table .passage _ taken) => .ok (inner.erase last.name, taken)
    | some _ => .error (.duplicateTable last.name (names way))
  let (rest, members) ← changeAt .inHeader change [] .header root way
  return ⟨rest, some (way, last), false, some span, members⟩

/-- Open another table of a header in double brackets. -/
def openRepeated (draft : Draft) (way : List Key) (last : Key) (span : Span) :
    Except Fault Draft := do
  let root ← draft.close
  let change (_ : Origin) (inner : Members) : Except Fault (Members × Unit) :=
    match inner.find? last.name with
    | none => .ok (inner, ())
    | some (.tables ..) => .ok (inner, ())
    | some _ => .error (.duplicateTable last.name (names way))
  let (rest, _) ← changeAt .inHeader change [] .header root way
  return ⟨rest, some (way, last), true, some span, []⟩

end Draft

end GrammarUpgrade.Toml
