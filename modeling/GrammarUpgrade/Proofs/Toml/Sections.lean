import GrammarUpgrade.Proofs.Toml.Tables

/-!
# Sections one after the other

`Adds` says what one section does to the members: its header takes up a table that is only on
the way to others, or opens a new one, the entries are added to it, and it is put in the place
of the header.  The statements of a text are the entries before any header, and then the
sections one after the other: `exists_builds_of_follows`.
-/

namespace GrammarUpgrade.Toml

/-! ## One section -/

/-- What the header of a section finds in its place and what the whole section leaves there.
`taken` is what the table has before the entries of the section, and `filled` afterwards. -/
inductive Opens : (repeated : Bool) → (taken filled : Members) → Option Value → Value → Prop
  | fresh {filled : Members} {span : Option Span} :
      Opens false [] filled none (.table .header span filled)
  | taken {taken filled : Members} {span headerSpan : Option Span} :
      Opens false taken filled (some (.table .passage span taken))
        (.table .header headerSpan filled)
  | first {filled : Members} {span elementSpan : Option Span} :
      Opens true [] filled none (.tables span [.table .header elementSpan filled])
  | another {filled : Members} {span spanAfter elementSpan : Option Span}
      {elements : List Value} :
      Opens true [] filled (some (.tables span elements))
        (.tables spanAfter (elements ++ [.table .header elementSpan filled]))

/-- What a section does to the members of the document. -/
inductive Adds (part : Section) : Members → Members → Prop
  | of {root next taken filled : Members} {before : Option Value} {after : Value}
      (opens : Opens part.repeated taken filled before after)
      (fills : Fills taken part.entries filled)
      (puts : Puts .passage part.path before after root next) : Adds part root next

theorem Opens.leaves {repeated : Bool} {taken filled : Members} {before : Option Value}
    {after : Value} (opens : Opens repeated taken filled before after) :
    Leaves before after none := by
  cases opens with
  | fresh | taken | first | another => exact .table (by simp [Value.isWhole]) rfl

/-- Sections one after the other. -/
inductive Builds : Members → List Section → Members → Prop
  | done {root : Members} : Builds root [] root
  | step {root next final : Members} {part : Section} {others : List Section}
      (adds : Adds part root next) (behind : Builds next others final) :
      Builds root (part :: others) final

/-- What is in the place of a header when the section is over. -/
inductive Closes (filled : Members) : (repeated : Bool) → Option Value → Value → Prop
  | table {span : Option Span} : Closes filled false none (.table .header span filled)
  | first {span elementSpan : Option Span} :
      Closes filled true none (.tables span [.table .header elementSpan filled])
  | another {span spanAfter elementSpan : Option Span} {elements : List Value} :
      Closes filled true (some (.tables span elements))
        (.tables spanAfter (elements ++ [.table .header elementSpan filled]))

/-- Closing puts the open table where the header leads. -/
theorem exists_reaches_of_close {draft : Draft} {way : List Key} {last : Key} {root : Members}
    (header : draft.header = some (way, last)) (closed : draft.close = .ok root) :
    ∃ inner changed before after, Reaches .passage way draft.root root inner changed ∧
      inner.find? last.name = before ∧ Sets last.name after inner changed ∧
      Closes draft.members draft.repeated before after := by
  rw [Draft.close, header] at closed
  obtain ⟨⟨result, nothing⟩, changes, made⟩ := exists_of_bind_eq_ok closed
  cases made
  obtain ⟨reached, inner, changed, change, reaches⟩ := exists_reaches_of_changeAt changes
  split at change
  · rename_i isRepeated
    rw [isRepeated]
    split at change
    · rename_i free
      cases change
      exact ⟨inner, _, _, _, reaches, free, .append free, .first⟩
    · rename_i span elements found
      cases change
      exact ⟨inner, _, _, _, reaches, found, .replace found, .another⟩
    · cases change
  · rename_i notRepeated
    rw [Bool.not_eq_true] at notRepeated
    rw [notRepeated]
    obtain ⟨grown, add, change⟩ := exists_of_bind_eq_ok change
    cases change
    rw [Members.add] at add
    split at add
    · cases add
    · rename_i free
      cases add
      exact ⟨inner, _, _, _, reaches, free, .append free, .table⟩

/-- What a single header finds in its place: nothing, or a table that is taken up. -/
theorem exists_reaches_of_openTable {draft next : Draft} {way : List Key} {last : Key}
    {span : Span} (opened : draft.openTable way last span = .ok next) :
    ∃ root inner changed, draft.close = .ok root ∧ next.header = some (way, last) ∧
      next.repeated = false ∧ Reaches .passage way root next.root inner changed ∧
      ((inner.find? last.name = none ∧ changed = inner ∧ next.members = []) ∨
        ∃ passageSpan, inner.find? last.name = some (.table .passage passageSpan next.members) ∧
          changed = inner.erase last.name) := by
  obtain ⟨root, closed, opened⟩ := exists_of_bind_eq_ok opened
  obtain ⟨⟨rest, members⟩, changes, made⟩ := exists_of_bind_eq_ok opened
  cases made
  obtain ⟨reached, inner, changed, change, reaches⟩ := exists_reaches_of_changeAt changes
  refine ⟨root, inner, changed, closed, rfl, rfl, reaches, ?_⟩
  split at change
  · rename_i free
    cases change
    exact .inl ⟨free, rfl, rfl⟩
  · rename_i passageSpan taken found
    cases change
    exact .inr ⟨passageSpan, found, rfl⟩
  · cases change

theorem exists_reaches_of_openRepeated {draft next : Draft} {way : List Key} {last : Key}
    {span : Span} (opened : draft.openRepeated way last span = .ok next) :
    ∃ root inner, draft.close = .ok root ∧ next.header = some (way, last) ∧
      next.repeated = true ∧ next.members = [] ∧
      Reaches .passage way root next.root inner inner := by
  obtain ⟨root, closed, opened⟩ := exists_of_bind_eq_ok opened
  obtain ⟨⟨rest, nothing⟩, changes, made⟩ := exists_of_bind_eq_ok opened
  cases made
  obtain ⟨reached, inner, changed, change, reaches⟩ := exists_reaches_of_changeAt changes
  have same : changed = inner := by
    split at change
    · cases change
      rfl
    · cases change
      rfl
    · cases change
  exact ⟨root, inner, closed, rfl, rfl, rfl, same ▸ reaches⟩

/-- A draft in which entries were added to the open table. -/
structure Draft.Extends (draft next : Draft) (entries : List (List String × Term)) : Prop where
  root : next.root = draft.root
  header : next.header = draft.header
  repeated : next.repeated = draft.repeated
  fills : Fills draft.members entries next.members

/-- A header, the entries under it and the close of its table make up a section. -/
theorem exists_adds_of_takes {draft opened filled : Draft} {repeated : Bool}
    {path : List String} {entries : List (List String × Term)} {next : Members}
    (takes : Takes draft (.header repeated path) opened)
    (extended : opened.Extends filled entries) (closed : filled.close = .ok next) :
    ∃ root, draft.close = .ok root ∧ Adds ⟨repeated, path, entries⟩ root next := by
  obtain ⟨sameRoot, sameHeader, sameRepeated, fills⟩ := extended
  cases takes with
  | header takes =>
      obtain ⟨root, inner, changed, rootClosed, header, single, reaches, place⟩ :=
        exists_reaches_of_openTable takes
      obtain ⟨again, later, before, after, reachesClose, found, sets, closes⟩ :=
        exists_reaches_of_close (sameHeader.trans header) closed
      rw [sameRoot] at reachesClose
      obtain ⟨rfl, whole⟩ := reaches.trans reachesClose
      rw [sameRepeated, single] at closes
      cases closes
      rcases place with ⟨free, rfl, empty⟩ | ⟨passageSpan, taken, rfl⟩
      · rw [empty] at fills
        exact ⟨root, rootClosed, .of .fresh fills (whole.puts free sets)⟩
      · exact ⟨root, rootClosed, .of .taken fills (whole.puts taken sets.of_erase)⟩
  | repeated takes =>
      obtain ⟨root, inner, rootClosed, header, isRepeated, empty, reaches⟩ :=
        exists_reaches_of_openRepeated takes
      obtain ⟨again, later, before, after, reachesClose, found, sets, closes⟩ :=
        exists_reaches_of_close (sameHeader.trans header) closed
      rw [sameRoot] at reachesClose
      obtain ⟨rfl, whole⟩ := reaches.trans reachesClose
      rw [sameRepeated, isRepeated] at closes
      rw [empty] at fills
      cases closes with
      | first => exact ⟨root, rootClosed, .of .first fills (whole.puts found sets)⟩
      | another => exact ⟨root, rootClosed, .of .another fills (whole.puts found sets)⟩

theorem Draft.Extends.refl (draft : Draft) : draft.Extends draft [] :=
  ⟨rfl, rfl, rfl, .done⟩

/-- An entry is added to the open table. -/
theorem Draft.Extends.of_assign {draft next final : Draft} {way : List Key} {last : Key}
    {term : Term} {value : Value} {entries : List (List String × Term)}
    (means : Means term value) (assigned : draft.assign way last value = .ok next)
    (behind : next.Extends final entries) :
    draft.Extends final ((names (way ++ [last]), term) :: entries) := by
  obtain ⟨members, assign, made⟩ := exists_of_bind_eq_ok assigned
  cases made
  exact ⟨behind.root, behind.header, behind.repeated,
    .step means (puts_of_assign assign) behind.fills⟩

/-- Statements are entries of the open table, and then sections. -/
theorem exists_builds_of_follows {draft final : Draft} {statements : List Statement}
    {members : Members} (follows : Follows draft statements final)
    (closed : final.close = .ok members) :
    ∃ filled root, draft.Extends filled (Document.ofStatements statements).entries ∧
      filled.close = .ok root ∧
      Builds root (Document.ofStatements statements).sections members := by
  induction follows with
  | done => exact ⟨_, _, .refl _, closed, .done⟩
  | @step draft next final statement others takes _ ih =>
      obtain ⟨filled, root, extended, filledClosed, builds⟩ := ih closed
      cases statement with
      | entry path term =>
          cases takes with
          | entry means assigned =>
              exact ⟨filled, root, .of_assign means assigned extended, filledClosed, builds⟩
      | header repeated path =>
          obtain ⟨before, closedBefore, adds⟩ := exists_adds_of_takes takes extended filledClosed
          exact ⟨draft, before, .refl draft, closedBefore, .step adds builds⟩

end GrammarUpgrade.Toml
