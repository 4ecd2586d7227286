import GrammarUpgrade.Proofs.Toml.Sections

/-!
# Documents and the members they make

`Tracks` is what a document and its members have in common: at the top and in the tables at the
top, the values that were written as one piece and the names are those of the document, and an
array of tables has the sections of its name as elements, in their order.  It is kept by every
section, so it holds of every text that is read: `exists_writes_tracks_of_ofText`.
-/

namespace GrammarUpgrade.Toml

/-! ## Documents that grow -/

namespace Section

variable {part : Section} {name : String} {path : List String} {term : Term}

theorem Has.names (has : part.Has path term) : part.Names path := by
  obtain ⟨-, inner, mem, same⟩ := has
  exact .inr ⟨inner, term, mem, same⟩

theorem Names.isPrefix (names : part.Names path) : part.path <+: path := by
  rcases names with rfl | ⟨inner, term, -, rfl⟩
  · exact List.prefix_rfl
  · exact List.prefix_append _ _

/-- All paths of a section begin as its header does. -/
theorem Names.head?_eq (names : part.Names (name :: path)) (header : part.path ≠ []) :
    part.path.head? = some name := by
  obtain ⟨first, others, same⟩ := List.exists_cons_of_ne_nil header
  obtain ⟨rest, joined⟩ := names.isPrefix
  rw [same] at joined ⊢
  exact congrArg some (List.cons.inj joined).1

/-- What a section gives lies below its header. -/
theorem Has.length_lt (has : part.Has path term)
    (inside : ∀ entry ∈ part.entries, entry.1 ≠ []) : part.path.length < path.length := by
  obtain ⟨-, inner, mem, rfl⟩ := has
  have longer : 0 < inner.length := List.length_pos_iff.mpr (inside _ mem)
  rw [List.length_append]
  omega

end Section

namespace Document

variable {document : Document} {path other : List String} {term written : Term} {part : Section}

theorem Has.names (has : document.Has path term) : document.Names path := by
  cases has with
  | entry mem => exact .entry mem
  | under isPart has => exact .under isPart has.names

/-- The document with one more entry before any header. -/
def addEntry (document : Document) (path : List String) (term : Term) : Document :=
  { document with entries := document.entries ++ [(path, term)] }

/-- The document with one more section. -/
def addSection (document : Document) (part : Section) : Document :=
  { document with sections := document.sections ++ [part] }

theorem has_addEntry_iff : (document.addEntry path term).Has other written ↔
    document.Has other written ∨ other = path ∧ term = written := by
  constructor
  · intro has
    cases has with
    | entry mem =>
        rcases List.mem_append.mp mem with mem | mem
        · exact .inl (.entry mem)
        · cases List.mem_singleton.mp mem
          exact .inr ⟨rfl, rfl⟩
    | under isPart has => exact .inl (.under isPart has)
  · rintro (has | ⟨rfl, rfl⟩)
    · cases has with
      | entry mem => exact .entry (List.mem_append_left _ mem)
      | under isPart has => exact .under isPart has
    · exact .entry (List.mem_append_right _ (List.mem_singleton.mpr rfl))

theorem names_addEntry_iff :
    (document.addEntry path term).Names other ↔ document.Names other ∨ other = path := by
  constructor
  · intro names
    cases names with
    | entry mem =>
        rcases List.mem_append.mp mem with mem | mem
        · exact .inl (.entry mem)
        · cases List.mem_singleton.mp mem
          exact .inr rfl
    | under isPart names => exact .inl (.under isPart names)
  · rintro (names | rfl)
    · cases names with
      | entry mem => exact .entry (List.mem_append_left _ mem)
      | under isPart names => exact .under isPart names
    · exact .entry (List.mem_append_right _ (List.mem_singleton.mpr rfl))

theorem mem_sections_addSection_iff {found : Section} :
    found ∈ (document.addSection part).sections ↔ found ∈ document.sections ∨ found = part := by
  simp [addSection]

theorem has_addSection_iff : (document.addSection part).Has path term ↔
    document.Has path term ∨ part.Has path term := by
  constructor
  · intro has
    cases has with
    | entry mem => exact .inl (.entry mem)
    | under isPart has =>
        rcases mem_sections_addSection_iff.mp isPart with isPart | rfl
        · exact .inl (.under isPart has)
        · exact .inr has
  · rintro (has | has)
    · cases has with
      | entry mem => exact .entry mem
      | under isPart has => exact .under (mem_sections_addSection_iff.mpr (.inl isPart)) has
    · exact .under (mem_sections_addSection_iff.mpr (.inr rfl)) has

theorem names_addSection_iff : (document.addSection part).Names path ↔
    document.Names path ∨ part.Names path := by
  constructor
  · intro names
    cases names with
    | entry mem => exact .inl (.entry mem)
    | under isPart names =>
        rcases mem_sections_addSection_iff.mp isPart with isPart | rfl
        · exact .inl (.under isPart names)
        · exact .inr names
  · rintro (names | names)
    · cases names with
      | entry mem => exact .entry mem
      | under isPart names => exact .under (mem_sections_addSection_iff.mpr (.inl isPart)) names
    · exact .under (mem_sections_addSection_iff.mpr (.inr rfl)) names

theorem sectionsOf_addSection (name : String) : (document.addSection part).sectionsOf name =
    document.sectionsOf name ++
      if part.repeated = true ∧ part.path = [name] then [part] else [] := by
  simp [addSection, sectionsOf, List.filter_cons]

/-- Without a value of its own a name has no entry. -/
theorem filter_entries_eq_nil {name : String} (noValue : ∀ term, ¬document.Has [name] term) :
    document.entries.filter (·.1 = [name]) = [] := by
  refine List.filter_eq_nil_iff.mpr ?_
  rintro ⟨path, term⟩ mem isName
  obtain rfl : path = [name] := of_decide_eq_true isName
  exact noValue term (.entry mem)

theorem filter_entries_addEntry (name : String) :
    (document.addEntry path term).entries.filter (·.1 = [name]) =
      document.entries.filter (·.1 = [name]) ++ [(path, term)].filter (·.1 = [name]) :=
  List.filter_append ..

end Document

/-! ## What a document and its members have in common -/

/-- Another value in the last place. -/
theorem forall₂_exchange_last {α β : Type} {related : α → β → Prop} {firsts : List α}
    {seconds : List β} {second changed : β}
    (each : List.Forall₂ related firsts (seconds ++ [second]))
    (change : ∀ first, related first second → related first changed) :
    List.Forall₂ related firsts (seconds ++ [changed]) := by
  have others := List.forall₂_take_append _ _ _ each
  have last := List.forall₂_drop_append _ _ _ each
  obtain ⟨first, left, isRelated, nothing, same⟩ := List.forall₂_cons_right_iff.mp last
  rw [← List.take_append_drop seconds.length firsts, same]
  exact List.rel_append others (.cons (change first isRelated) nothing)

/-- A table that a section with double brackets made. -/
def IsElement (part : Section) (element : Value) : Prop :=
  ∃ span inner, element = .table .header span inner ∧
    Filled (fun path term => (path, term) ∈ part.entries) inner

/-- What a document says below a name is in a table. -/
def IsInside (document : Document) (name : String) (inner : Members) : Prop :=
  Filled (fun path => document.Has (name :: path)) inner ∧
    Named (fun path => document.Names (name :: path)) inner

/-- What the value of a name at the top shows of a document. -/
inductive Shows (document : Document) (name : String) : Option Value → Prop
  | absent (nameless : ∀ path, ¬document.Names (name :: path)) : Shows document name none
  | whole {value : Value} (isWhole : value.isWhole = true)
      (single : document.sectionsOf name = []) : Shows document name (some value)
  | table {origin : Origin} {span : Option Span} {inner : Members} (openable : origin ≠ .braces)
      (isInside : IsInside document name inner) :
      Shows document name (some (.table origin span inner))
  | tables {span : Option Span} {elements : List Value} (present : elements ≠ [])
      (each : List.Forall₂ IsElement (document.sectionsOf name) elements) :
      Shows document name (some (.tables span elements))

/-- What the members made of a document show of it: at the top and in the tables at the top, the
values and names of the document, and the sections of a name in double brackets. -/
structure Tracks (document : Document) (members : Members) : Prop where
  filled : Filled document.Has members
  named : Named document.Names members
  shows : ∀ name, Shows document name (members.find? name)
  /-- A single name is not given two values. -/
  once : ∀ {name term}, document.Has [name] term →
    document.entries.filter (·.1 = [name]) = [([name], term)]
  filledPaths : ∀ {path}, document.Names path → path ≠ []

/-- Two documents with the same below a name. -/
structure Agree (document other : Document) (name : String) : Prop where
  has : ∀ path term, document.Has (name :: path) term ↔ other.Has (name :: path) term
  names : ∀ path, document.Names (name :: path) ↔ other.Names (name :: path)
  sections : document.sectionsOf name = other.sectionsOf name

theorem agree_addEntry {document : Document} {path : List String} {term : Term} {name : String}
    (different : path.head? ≠ some name) :
    Agree document (document.addEntry path term) name where
  has := by
    simp only [Document.has_addEntry_iff]
    grind
  names := by
    simp only [Document.names_addEntry_iff]
    grind
  sections := rfl

theorem agree_addSection {document : Document} {part : Section} {name : String}
    (header : part.path ≠ []) (different : part.path.head? ≠ some name) :
    Agree document (document.addSection part) name where
  has path term := by
    rw [Document.has_addSection_iff, or_iff_left]
    exact fun has => different (has.names.head?_eq header)
  names path := by
    rw [Document.names_addSection_iff, or_iff_left]
    exact fun names => different (names.head?_eq header)
  sections := by
    rw [Document.sectionsOf_addSection, if_neg, List.append_nil]
    rintro ⟨-, same⟩
    exact different (same ▸ rfl)

theorem not_names_nil (path : List String) : ¬Document.Names ⟨[], []⟩ path := by
  intro names
  cases names with
  | entry mem => cases mem
  | under isPart => cases isPart

theorem tracks_nil : Tracks ⟨[], []⟩ [] where
  filled := filled_nil.congr fun _ _ => ⟨False.elim, fun has => not_names_nil _ has.names⟩
  named := named_nil.congr fun _ _ => ⟨False.elim, fun names => not_names_nil _ names⟩
  shows _ := .absent fun _ names => not_names_nil _ names
  once has := absurd has.names (not_names_nil _)
  filledPaths names := absurd names (not_names_nil _)

namespace Shows

variable {document other : Document} {name : String} {outer : Option Value} {outerAfter : Value}
  {new : Origin} {inner innerChanged : Members}

theorem congr (shown : Shows document name outer) (agree : Agree document other name) :
    Shows other name outer := by
  cases shown with
  | absent nameless => exact .absent fun path names => nameless path ((agree.names path).mpr names)
  | whole isWhole single => exact .whole isWhole (agree.sections ▸ single)
  | table openable isInside =>
      exact .table openable ⟨isInside.1.congr fun next => agree.has [next],
        isInside.2.congr fun next path => agree.names (next :: path)⟩
  | tables present each => exact .tables present (agree.sections ▸ each)

/-- Nothing is inside of a name that the document does not have. -/
theorem isInside_of_none (shown : Shows document name none) : IsInside document name [] := by
  cases shown with
  | absent nameless =>
      exact ⟨filled_nil.congr fun _ _ => ⟨False.elim, fun has => nameless _ has.names⟩,
        named_nil.congr fun _ _ => ⟨False.elim, fun names => nameless _ names⟩⟩

theorem isInside_of_table {origin : Origin} {span : Option Span}
    (shown : Shows document name (some (.table origin span inner))) (openable : origin ≠ .braces) :
    IsInside document name inner := by
  cases shown with
  | whole isWhole => exact absurd isWhole (by simp [Value.isWhole_table openable])
  | table _ isInside => exact isInside

theorem sectionsOf_of_none (shown : Shows document name none) : document.sectionsOf name = [] := by
  cases shown with
  | absent nameless =>
      refine List.filter_eq_nil_iff.mpr fun part isPart named => nameless [] ?_
      simp only [Bool.and_eq_true, decide_eq_true_eq] at named
      exact .under isPart (.inl named.2.symm)

theorem sectionsOf_of_whole {value : Value} (shown : Shows document name (some value))
    (isWhole : value.isWhole = true) : document.sectionsOf name = [] := by
  cases shown with
  | whole _ single => exact single
  | table openable => exact absurd isWhole (by simp [Value.isWhole_table openable])
  | tables => cases isWhole

theorem elements_of_tables {span : Option Span} {elements : List Value}
    (shown : Shows document name (some (.tables span elements))) :
    elements ≠ [] ∧ List.Forall₂ IsElement (document.sectionsOf name) elements := by
  cases shown with
  | whole isWhole => cases isWhole
  | tables present each => exact ⟨present, each⟩

/-- A put below a name: what is written there is new in the table of the name, and in an array
of tables nothing may be written. -/
theorem through {next : String} {path : List String} {before : Option Value} {after : Value}
    {written : Option Term} (more : List String → Prop) (shown : Shows document name outer)
    (wraps : Wraps new outer outerAfter inner innerChanged)
    (puts : Puts new (next :: path) before after inner innerChanged)
    (leaves : Leaves before after written)
    (has : ∀ last term, document.Has [name, last] term ∨
      [last] = next :: path ∧ written = some term ↔ other.Has [name, last] term)
    (names : ∀ below, document.Names (name :: below) ∨ more (name :: below) ↔
      other.Names (name :: below))
    (here : more (name :: next :: path))
    (below : ∀ longer, more longer → name :: next :: path <+: longer)
    (flat : written ≠ none → ∀ longer, more longer → longer = name :: next :: path)
    (sections : document.sectionsOf name = other.sectionsOf name)
    (quiet : written = none ∨ document.sectionsOf name = []) :
    Shows other name (some outerAfter) := by
  have table (known : IsInside document name inner) : IsInside other name innerChanged := by
    refine ⟨(known.1.puts puts leaves).congr has, ?_⟩
    have grown := known.2.puts (fun longer => more (name :: longer)) puts leaves here
      (fun longer isMore => (List.prefix_cons_inj name).mp (below _ isMore))
      fun isWritten longer isMore => (List.cons.inj (flat isWritten _ isMore)).2
    exact grown.congr fun last longer => names (last :: longer)
  cases wraps with
  | fresh openable => exact .table openable (table shown.isInside_of_none)
  | table openable => exact .table openable (table (shown.isInside_of_table openable))
  | tables =>
      obtain ⟨present, each⟩ := shown.elements_of_tables
      rcases quiet with rfl | empty
      · refine .tables (by simp) ?_
        rw [← sections]
        refine forall₂_exchange_last each fun part isElement => ?_
        obtain ⟨span, members, same, filled⟩ := isElement
        cases same
        exact ⟨_, _, rfl, (filled.puts puts leaves).congr (by simp)⟩
      · rw [empty] at each
        exact absurd (List.forall₂_nil_left_iff.mp each) present

/-- A section whose header is a single name. -/
theorem opens {repeated : Bool} {entries : List (List String × Term)} {taken filled : Members}
    {after : Value} (shown : Shows document name outer)
    (opens : Opens repeated taken filled outer after) (fills : Fills taken entries filled) :
    Shows (document.addSection ⟨repeated, [name], entries⟩) name (some after) := by
  have table {span : Option Span} (single : repeated = false)
      (known : IsInside document name taken) :
      Shows (document.addSection ⟨repeated, [name], entries⟩) name
        (some (.table .header span filled)) := by
    refine .table (by simp) ⟨(known.1.fills fills).congr fun next term => ?_,
      (known.2.fills fills).congr fun next path => ?_⟩
    · rw [Document.has_addSection_iff]
      simp [Section.Has, single]
    · rw [Document.names_addSection_iff]
      simp [Section.Names]
  cases opens with
  | fresh => exact table rfl shown.isInside_of_none
  | taken => exact table rfl (shown.isInside_of_table (by simp))
  | first =>
      refine .tables (by simp) ?_
      rw [Document.sectionsOf_addSection, shown.sectionsOf_of_none, if_pos ⟨rfl, rfl⟩]
      exact .cons ⟨_, _, rfl, (filled_nil.fills fills).congr (by simp)⟩ .nil
  | another =>
      refine .tables (by simp) ?_
      rw [Document.sectionsOf_addSection, if_pos ⟨rfl, rfl⟩]
      refine List.rel_append shown.elements_of_tables.2 (.cons ?_ .nil)
      exact ⟨_, _, rfl, (filled_nil.fills fills).congr (by simp)⟩

end Shows

namespace Tracks

variable {document : Document} {members changed : Members}

/-- Of an entry before any header the value of its first name shows. -/
theorem shows_addEntry {path : List String} {term : Term} {value : Value}
    (tracks : Tracks document members) (first : document.sections = [])
    (means : Means term value) (puts : Puts .dotted path none value members changed)
    (name : String) : Shows (document.addEntry path term) name (changed.find? name) := by
  have elsewhere (different : path.head? ≠ some name)
      (same : changed.find? name = members.find? name) :
      Shows (document.addEntry path term) name (changed.find? name) :=
    same ▸ (tracks.shows name).congr (agree_addEntry different)
  cases puts with
  | @here first _ _ _ _ _ sets =>
      by_cases same : name = first
      · subst same
        rw [sets.here]
        exact .whole means.isWhole (by simp [Document.sectionsOf, Document.addEntry, first])
      · exact elsewhere (by simp [Ne.symm same]) (sets.elsewhere name same)
  | @through first next path _ _ _ _ _ _ _ _ found wraps sets puts =>
      by_cases same : name = first
      · subst same
        rw [sets.here]
        refine (found ▸ tracks.shows name).through (· = name :: next :: path) wraps puts
          (.value means) ?_ ?_ rfl (fun _ same => same ▸ List.prefix_rfl)
          (fun _ _ same => same) rfl ?_
        · simp [Document.has_addEntry_iff]
        · exact fun below => Document.names_addEntry_iff.symm
        · simp [Document.sectionsOf, first]
      · exact elsewhere (by simp [Ne.symm same]) (sets.elsewhere name same)

/-- A name that is given a value had none before. -/
theorem once_addEntry {path : List String} {term written : Term} {value : Value} {name : String}
    (tracks : Tracks document members) (puts : Puts .dotted path none value members changed)
    (has : (document.addEntry path term).Has [name] written) :
    (document.addEntry path term).entries.filter (·.1 = [name]) = [([name], written)] := by
  rw [Document.filter_entries_addEntry]
  by_cases same : path = [name]
  · subst same
    have free (earlier : Term) : ¬document.Has [name] earlier := by
      intro given
      obtain ⟨old, found, -⟩ := tracks.filled.kept given
      simp [puts.find?_eq] at found
    rcases Document.has_addEntry_iff.mp has with given | ⟨-, rfl⟩
    · exact absurd given (free written)
    · simp [Document.filter_entries_eq_nil free]
  · rcases Document.has_addEntry_iff.mp has with given | ⟨other, -⟩
    · simp [tracks.once given, same]
    · exact absurd other.symm same

/-- An entry before any header. -/
theorem addEntry {path : List String} {term : Term} {value : Value}
    (tracks : Tracks document members) (first : document.sections = [])
    (means : Means term value) (puts : Puts .dotted path none value members changed) :
    Tracks (document.addEntry path term) changed where
  filled := (tracks.filled.puts puts (.value means)).congr fun name written => by
    rw [Document.has_addEntry_iff, Option.some.injEq]
  named := by
    have named := tracks.named.puts (· = path) puts (.value means) rfl
      (fun _ same => same ▸ List.prefix_rfl) fun _ _ same => same
    exact named.congr fun name rest => Document.names_addEntry_iff.symm
  shows := tracks.shows_addEntry first means puts
  once has := tracks.once_addEntry puts has
  filledPaths := by
    intro other names
    rcases Document.names_addEntry_iff.mp names with names | rfl
    · exact tracks.filledPaths names
    · exact puts.path_ne_nil

/-- Of a section the value of its first name shows. -/
theorem shows_addSection {repeated : Bool} {path : List String}
    {entries : List (List String × Term)} {taken filled : Members} {before : Option Value}
    {after : Value} (tracks : Tracks document members)
    (opens : Opens repeated taken filled before after) (fills : Fills taken entries filled)
    (puts : Puts .passage path before after members changed) (name : String) :
    Shows (document.addSection ⟨repeated, path, entries⟩) name (changed.find? name) := by
  have elsewhere (different : path.head? ≠ some name)
      (same : changed.find? name = members.find? name) :
      Shows (document.addSection ⟨repeated, path, entries⟩) name (changed.find? name) :=
    same ▸ (tracks.shows name).congr (agree_addSection puts.path_ne_nil different)
  cases puts with
  | @here first _ _ _ _ found sets =>
      by_cases same : name = first
      · subst same
        rw [sets.here]
        exact (found ▸ tracks.shows name).opens opens fills
      · exact elsewhere (by simp [Ne.symm same]) (sets.elsewhere name same)
  | @through first next below _ _ _ _ _ _ _ _ found wraps sets puts =>
      by_cases same : name = first
      · subst same
        rw [sets.here]
        refine (found ▸ tracks.shows name).through
          (Section.Names ⟨repeated, name :: next :: below, entries⟩) wraps puts opens.leaves
          ?_ (fun _ => Document.names_addSection_iff.symm) (.inl rfl)
          (fun _ names => names.isPrefix) (by simp) ?_ (.inl rfl)
        · intro last term
          have short :
              ¬Section.Has ⟨repeated, name :: next :: below, entries⟩ [name, last] term :=
            fun has => absurd (has.length_lt fills.path_ne_nil) (by simp)
          simp [Document.has_addSection_iff, short]
        · simp [Document.sectionsOf_addSection]
      · exact elsewhere (by simp [Ne.symm same]) (sets.elsewhere name same)

/-- A section. -/
theorem addSection {part : Section} (tracks : Tracks document members)
    (adds : Adds part members changed) : Tracks (document.addSection part) changed := by
  obtain ⟨repeated, path, entries⟩ := part
  obtain @⟨taken, filled, before, after, opens, fills, puts⟩ := adds
  have header : path ≠ [] := puts.path_ne_nil
  -- What a section gives has two names or more.
  have long (name : String) (term : Term) :
      ¬Section.Has ⟨repeated, path, entries⟩ [name] term := by
    intro has
    have short : path.length < 1 := has.length_lt fills.path_ne_nil
    have present := List.length_pos_iff.mpr header
    omega
  refine ⟨?_, ?_, tracks.shows_addSection opens fills puts, ?_, ?_⟩
  · refine (tracks.filled.puts puts opens.leaves).congr fun name term => ?_
    simp [Document.has_addSection_iff, long]
  · have named := tracks.named.puts (Section.Names ⟨repeated, path, entries⟩) puts opens.leaves
      (.inl rfl) (fun _ names => names.isPrefix) (by simp)
    exact named.congr fun name rest => Document.names_addSection_iff.symm
  · intro name term has
    rcases Document.has_addSection_iff.mp has with has | has
    · exact tracks.once has
    · exact absurd has (long _ _)
  · intro other names
    rcases Document.names_addSection_iff.mp names with names | names
    · exact tracks.filledPaths names
    · rintro rfl
      exact header (List.prefix_nil.mp names.isPrefix)

/-- The entries before any header, one after the other. -/
theorem fills {before entries : List (List String × Term)} {start final : Members}
    (tracks : Tracks ⟨before, []⟩ start) (fills : Fills start entries final) :
    Tracks ⟨before ++ entries, []⟩ final := by
  induction fills generalizing before with
  | done => rwa [List.append_nil]
  | step means puts _ ih =>
      have next := ih (tracks.addEntry rfl means puts)
      rwa [List.append_assoc] at next

/-- The sections, one after the other. -/
theorem builds {entries : List (List String × Term)} {before parts : List Section}
    {start final : Members} (tracks : Tracks ⟨entries, before⟩ start)
    (builds : Builds start parts final) : Tracks ⟨entries, before ++ parts⟩ final := by
  induction builds generalizing before with
  | done => rwa [List.append_nil]
  | step adds _ ih =>
      have next := ih (tracks.addSection adds)
      rwa [List.append_assoc] at next

/-- A single name has one value. -/
theorem unique {name : String} {first second : Term} (tracks : Tracks document members)
    (has : document.Has [name] first) (other : document.Has [name] second) : first = second := by
  have same := (tracks.once has).symm.trans (tracks.once other)
  exact (Prod.mk.inj (List.cons.inj same).1).2

end Tracks

/-- The members that a text holds are made of a document that is written in it. -/
theorem exists_writes_tracks_of_ofText {text : String} {members : Members}
    (read : ofText text = .ok members) :
    ∃ document, Writes document text ∧ Tracks document members := by
  obtain ⟨statements, final, spelled, follows, closed⟩ := exists_follows_of_ofText read
  obtain ⟨filled, root, extended, filledClosed, builds⟩ :=
    exists_builds_of_follows follows closed
  have noHeader : filled.close = .ok filled.members := by
    rw [Draft.close, extended.header]
    rfl
  obtain rfl := Except.ok.inj (noHeader.symm.trans filledClosed)
  exact ⟨_, ⟨statements, spelled, rfl⟩, (tracks_nil.fills extended.fills).builds builds⟩

end GrammarUpgrade.Toml
