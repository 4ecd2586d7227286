import GrammarUpgrade.Proofs.Toml.Reading
import Mathlib.Data.List.Nodup

/-!
# Tables that grow

Members are looked at by name.  `Puts` says what giving a value to a path does: the value at the
end of the path is exchanged, the tables on the way are changed with it, and nothing else is.
Values that were written as one piece are never exchanged, so `Filled` (the members that were
written as one piece are these) and `Named` (the names are these) are kept from one put to the
next, and say in the end what is in a table.
-/

namespace GrammarUpgrade.Toml

/-! ## Looking members up -/

namespace Members

variable {members : Members} {key : Key} {name other : String} {value : Value}

@[simp]
theorem find?_nil : find? [] name = none :=
  rfl

theorem find?_cons (key : Key) (value : Value) (members : Members) (name : String) :
    find? ((key, value) :: members) name =
      if key.name = name then some value else members.find? name := by
  by_cases same : key.name = name <;> simp [find?, same]

theorem find?_append (members : Members) (key : Key) (value : Value) (name : String) :
    find? (members ++ [(key, value)]) name =
      (members.find? name).or (if key.name = name then some value else none) := by
  induction members with
  | nil => simp [find?_cons]
  | cons member members ih =>
      rw [List.cons_append, find?_cons, ih, find?_cons]
      split <;> rfl

theorem find?_replace (members : Members) (name : String) (value : Value) (other : String) :
    find? (members.replace name value) other =
      if other = name then (members.find? name).map fun _ => value else members.find? other := by
  induction members with
  | nil => simp [replace]
  | cons member members ih =>
      obtain ⟨key, old⟩ := member
      have step : replace ((key, old) :: members) name value =
          (key, if key.name = name then value else old) :: replace members name value := by
        by_cases same : key.name = name <;> simp [replace, same]
      rw [step, find?_cons, ih, find?_cons, find?_cons]
      grind

theorem find?_erase (members : Members) (name other : String) :
    find? (members.erase name) other = if other = name then none else members.find? other := by
  induction members with
  | nil => simp [erase]
  | cons member members ih =>
      obtain ⟨key, value⟩ := member
      have step : erase ((key, value) :: members) name =
          if key.name = name then erase members name
          else (key, value) :: erase members name := by
        by_cases same : key.name = name <;> simp [erase, same]
      rw [step, find?_cons]
      split
      · rw [ih]
        grind
      · rw [find?_cons, ih]
        grind

/-- No name is there twice. -/
def Distinct (members : Members) : Prop :=
  (members.map fun member => member.1.name).Nodup

theorem find?_eq_none_iff : members.find? name = none ↔
    name ∉ members.map fun member => member.1.name := by
  induction members with
  | nil => simp
  | cons member members ih =>
      obtain ⟨key, value⟩ := member
      rw [find?_cons, List.map_cons, List.mem_cons, not_or]
      split
      · rename_i same
        simp [same]
      · rename_i different
        simp [ih, Ne.symm different]

/-- A value that is found belongs to a member. -/
theorem exists_mem_of_find? (found : members.find? name = some value) :
    ∃ key, (key, value) ∈ members ∧ key.name = name := by
  induction members with
  | nil => cases found
  | cons member members ih =>
      obtain ⟨first, old⟩ := member
      rw [find?_cons] at found
      split at found
      · rename_i same
        cases found
        exact ⟨first, List.mem_cons_self, same⟩
      · obtain ⟨key, mem, same⟩ := ih found
        exact ⟨key, List.mem_cons_of_mem _ mem, same⟩

theorem Distinct.append (distinct : members.Distinct) (free : members.find? key.name = none) :
    Distinct (members ++ [(key, value)]) := by
  rw [Distinct, List.map_append, List.nodup_append]
  refine ⟨distinct, List.nodup_singleton _, ?_⟩
  intro first mem second same
  obtain rfl := List.mem_singleton.mp same
  rintro rfl
  exact find?_eq_none_iff.mp free mem

theorem Distinct.replace (distinct : members.Distinct) : (members.replace name value).Distinct := by
  have same : (members.replace name value).map (fun member => member.1.name) =
      members.map fun member => member.1.name := by
    rw [Members.replace, List.map_map]
    refine List.map_congr_left fun member _ => ?_
    simp only [Function.comp]
    split <;> rfl
  rwa [Distinct, same]

theorem Distinct.erase (distinct : members.Distinct) : (members.erase name).Distinct :=
  List.Nodup.sublist (List.Sublist.map _ List.filter_sublist) distinct

end Members

/-! ## One value exchanged -/

/-- A name has a value afterwards, and nothing else is changed. -/
structure Sets (name : String) (value : Value) (before after : Members) : Prop where
  here : after.find? name = some value
  elsewhere : ∀ other, other ≠ name → after.find? other = before.find? other
  distinct : before.Distinct → after.Distinct

namespace Sets

variable {name : String} {value later : Value} {first second third : Members}

theorem append {key : Key} {members : Members} (free : members.find? key.name = none) :
    Sets key.name value members (members ++ [(key, value)]) where
  here := by simp [Members.find?_append, free]
  elsewhere other different := by simp [Members.find?_append, different.symm]
  distinct := fun distinct => distinct.append free

theorem replace {members : Members} {old : Value} (found : members.find? name = some old) :
    Sets name value members (members.replace name value) where
  here := by simp [Members.find?_replace, found]
  elsewhere other different := by simp [Members.find?_replace, different]
  distinct := Members.Distinct.replace

theorem trans (sets : Sets name value first second) (next : Sets name later second third) :
    Sets name later first third where
  here := next.here
  elsewhere other different :=
    (next.elsewhere other different).trans (sets.elsewhere other different)
  distinct := next.distinct ∘ sets.distinct

/-- Taking a value away first makes no difference. -/
theorem of_erase (sets : Sets name value (first.erase name) second) :
    Sets name value first second where
  here := sets.here
  elsewhere other different := by
    rw [sets.elsewhere other different, Members.find?_erase, if_neg different]
  distinct := fun distinct => sets.distinct distinct.erase

end Sets

/-! ## Following a path -/

/-- Whether a value was written as one piece: it is no table and no array of tables that keys or
headers made. -/
def Value.isWhole : Value → Bool
  | .table .braces .. => true
  | .table .. | .tables .. => false
  | _ => true

theorem Value.isWhole_table {origin : Origin} {span : Option Span} {members : Members}
    (openable : origin ≠ .braces) : (Value.table origin span members).isWhole = false := by
  cases origin with
  | braces => exact absurd rfl openable
  | header | passage | dotted => rfl

theorem Means.isWhole {term : Term} {value : Value} (means : Means term value) :
    value.isWhole = true := by
  cases means with
  | string | array | braces => rfl
  | other isOther =>
      cases value with
      | integer | real | boolean | dateTime => rfl
      | string | array | table | tables => cases isOther

/-- How the members inside of a value on the way are changed: the value is a table, or an array
of tables of which the last one is meant, or comes about as a table. -/
inductive Wraps (new : Origin) : Option Value → Value → Members → Members → Prop
  | fresh {inner : Members} (openable : new ≠ .braces) :
      Wraps new none (.table new none inner) [] inner
  | table {origin : Origin} {span : Option Span} {inner changed : Members}
      (openable : origin ≠ .braces) :
      Wraps new (some (.table origin span inner)) (.table origin span changed) inner changed
  | tables {origin : Origin} {span elementSpan : Option Span} {elements : List Value}
      {inner changed : Members} :
      Wraps new (some (.tables span (elements ++ [.table origin elementSpan inner])))
        (.tables span (elements ++ [.table origin elementSpan changed])) inner changed

/-- The value of a path is exchanged, and with it the tables on the way. -/
inductive Puts (new : Origin) :
    List String → Option Value → Value → Members → Members → Prop
  | here {name : String} {before : Option Value} {after : Value} {members changed : Members}
      (found : members.find? name = before) (sets : Sets name after members changed) :
      Puts new [name] before after members changed
  | through {name next : String} {path : List String} {before outer : Option Value}
      {after outerAfter : Value} {inner innerChanged members changed : Members}
      (found : members.find? name = outer) (wraps : Wraps new outer outerAfter inner innerChanged)
      (sets : Sets name outerAfter members changed)
      (inside : Puts new (next :: path) before after inner innerChanged) :
      Puts new (name :: next :: path) before after members changed

/-- The members that keys lead to are exchanged, and with them the tables on the way. -/
inductive Reaches (new : Origin) :
    List Key → Members → Members → Members → Members → Prop
  | here {members changed : Members} : Reaches new [] members changed members changed
  | through {key : Key} {way : List Key} {outer : Option Value} {outerAfter : Value}
      {members changed middle middleChanged inner innerChanged : Members}
      (found : members.find? key.name = outer)
      (wraps : Wraps new outer outerAfter middle middleChanged)
      (sets : Sets key.name outerAfter members changed)
      (inside : Reaches new way middle middleChanged inner innerChanged) :
      Reaches new (key :: way) members changed inner innerChanged

/-- What `changeAt` does: the change takes place where the keys lead. -/
theorem exists_reaches_of_changeAt {α : Type} {setting : Setting}
    {change : Origin → Members → Except Fault (Members × α)} {passed : List String}
    {origin : Origin} {members changed : Members} {way : List Key} {result : α}
    (made : changeAt setting change passed origin members way = .ok (changed, result)) :
    ∃ reached inner innerChanged, change reached inner = .ok (innerChanged, result) ∧
      Reaches setting.passage way members changed inner innerChanged := by
  induction way generalizing passed origin members changed with
  | nil => exact ⟨origin, members, changed, made, .here⟩
  | cons key way ih =>
      rw [changeAt.eq_def] at made
      simp only at made
      split at made
      · rename_i free
        obtain ⟨⟨inner, found⟩, changes, made⟩ := exists_of_bind_eq_ok made
        cases made
        obtain ⟨reached, deepest, deepestChanged, change, reaches⟩ := ih changes
        exact ⟨reached, deepest, deepestChanged, change,
          .through free (.fresh (by cases setting <;> simp [Setting.passage])) (.append free)
            reaches⟩
      · split at made <;> cases made
      · rename_i origin span inner notBraces found
        split at made
        · cases made
        obtain ⟨⟨innerChanged, result⟩, changes, made⟩ := exists_of_bind_eq_ok made
        cases made
        obtain ⟨reached, deepest, deepestChanged, change, reaches⟩ := ih changes
        exact ⟨reached, deepest, deepestChanged, change,
          .through found (.table notBraces) (.replace found) reaches⟩
      · rename_i span elements found
        split at made
        · rename_i origin elementSpan inner last
          obtain ⟨before, rfl⟩ := List.getLast?_eq_some_iff.mp last
          obtain ⟨⟨innerChanged, result⟩, changes, made⟩ := exists_of_bind_eq_ok made
          cases made
          obtain ⟨reached, deepest, deepestChanged, change, reaches⟩ := ih changes
          rw [List.dropLast_concat]
          exact ⟨reached, deepest, deepestChanged, change,
            .through found .tables (.replace found) reaches⟩
        · cases made
      · cases made

theorem Wraps.trans {new : Origin} {before : Option Value} {middle after : Value}
    {inner changed again last : Members}
    (wraps : Wraps new before middle inner changed)
    (next : Wraps new (some middle) after again last) :
    again = changed ∧ Wraps new before after inner last := by
  cases wraps with
  | fresh openable =>
      cases next
      exact ⟨rfl, .fresh openable⟩
  | table openable =>
      cases next
      exact ⟨rfl, .table openable⟩
  | @tables origin span elementSpan elements inner changed =>
      generalize same : Value.tables span (elements ++ [.table origin elementSpan changed]) =
        value at next
      cases next with
      | table => cases same
      | tables =>
          obtain ⟨rfl, joined⟩ := Value.tables.inj same
          obtain ⟨rfl, last⟩ := List.append_inj' joined rfl
          cases last
          exact ⟨rfl, .tables⟩

/-- A second change where the keys lead finds what the first one left. -/
theorem Reaches.trans {new : Origin} {way : List Key} {first second third inner changed again
    last : Members} (reaches : Reaches new way first second inner changed)
    (next : Reaches new way second third again last) :
    again = changed ∧ Reaches new way first third inner last := by
  induction reaches generalizing third with
  | here =>
      cases next
      exact ⟨rfl, .here⟩
  | through found wraps sets inside ih =>
      cases next with
      | through foundNext wrapsNext setsNext insideNext =>
          rw [sets.here] at foundNext
          subst foundNext
          obtain ⟨rfl, wrapped⟩ := wraps.trans wrapsNext
          obtain ⟨rfl, reached⟩ := ih insideNext
          exact ⟨rfl, .through found wrapped (sets.trans setsNext) reached⟩

/-- A value that is exchanged where the keys lead. -/
theorem Reaches.puts {new : Origin} {way : List Key} {last : Key} {before : Option Value}
    {after : Value} {members changed inner innerChanged : Members}
    (reaches : Reaches new way members changed inner innerChanged)
    (found : inner.find? last.name = before) (sets : Sets last.name after inner innerChanged) :
    Puts new (names (way ++ [last])) before after members changed := by
  induction reaches with
  | here => exact .here found sets
  | @through key way outer outerAfter members changed middle middleChanged inner innerChanged
      foundOuter wraps setsOuter inside ih =>
      have puts := ih found sets
      cases way with
      | nil => exact .through foundOuter wraps setsOuter puts
      | cons => exact .through foundOuter wraps setsOuter puts

/-- Giving a key a value puts the value where there was none. -/
theorem puts_of_assign {members changed : Members} {setting : Setting} {origin : Origin}
    {table : Option (List String)} {way : List Key} {last : Key} {value : Value}
    (made : members.assign setting origin table way last value = .ok changed) :
    Puts setting.passage (names (way ++ [last])) none value members changed := by
  rw [Members.assign] at made
  obtain ⟨⟨result, nothing⟩, changes, made⟩ := exists_of_bind_eq_ok made
  cases made
  obtain ⟨reached, inner, innerChanged, added, reaches⟩ := exists_reaches_of_changeAt changes
  split at added
  · cases added
  obtain ⟨grown, add, added⟩ := exists_of_bind_eq_ok added
  cases added
  rw [Members.add] at add
  split at add
  · cases add
  · rename_i free
    cases add
    exact reaches.puts free (.append free)

namespace Puts

variable {new : Origin} {name next : String} {path : List String} {before : Option Value}
  {after value : Value} {members changed : Members}

theorem path_ne_nil (puts : Puts new path before after members changed) : path ≠ [] := by
  cases puts <;> simp

theorem find?_eq (puts : Puts new [name] before after members changed) :
    members.find? name = before := by
  cases puts with
  | here found => exact found

/-- Only the first name of the path has another value afterwards. -/
theorem exists_sets (puts : Puts new (name :: path) before after members changed) :
    ∃ value, Sets name value members changed := by
  cases puts with
  | here _ sets => exact ⟨_, sets⟩
  | through _ _ sets => exact ⟨_, sets⟩

/-- The first of several names never has a value that was written as one piece. -/
theorem exists_sets_of_cons_cons
    (puts : Puts new (name :: next :: path) before after members changed) :
    (∀ old ∈ members.find? name, old.isWhole = false) ∧
      ∃ value, value.isWhole = false ∧ Sets name value members changed := by
  cases puts with
  | through found wraps sets =>
      rw [found]
      cases wraps with
      | fresh openable => exact ⟨by simp, _, Value.isWhole_table openable, sets⟩
      | table openable =>
          exact ⟨by simpa using Value.isWhole_table openable, _, Value.isWhole_table openable, sets⟩
      | tables => exact ⟨by simp [Value.isWhole], _, rfl, sets⟩

end Puts

/-! ## What is in a table -/

/-- Of the values in a table, those that were written as one piece are what `has` gives to their
names.  `has` may say more about longer paths. -/
structure Filled (has : List String → Term → Prop) (members : Members) : Prop where
  distinct : members.Distinct
  kept : ∀ {name term}, has [name] term →
    ∃ value, members.find? name = some value ∧ Means term value
  written : ∀ {name value}, members.find? name = some value → value.isWhole = true →
    ∃ term, has [name] term ∧ Means term value

/-- The names in a table are those that the paths begin with, and there are no longer paths
through values that were written as one piece. -/
structure Named (named : List String → Prop) (members : Members) : Prop where
  present : ∀ name, (∃ path, named (name :: path)) ↔ (members.find? name).isSome = true
  alone : ∀ {name value}, members.find? name = some value → value.isWhole = true →
    ∀ next path, ¬named (name :: next :: path)

/-- A name that a path begins with has a value. -/
theorem Named.exists_find? {named : List String → Prop} {members : Members} {name : String}
    {path : List String} (isNamed : Named named members) (names : named (name :: path)) :
    ∃ value, members.find? name = some value :=
  Option.isSome_iff_exists.mp ((isNamed.present name).mp ⟨path, names⟩)

theorem filled_nil : Filled (fun _ _ => False) [] where
  distinct := List.nodup_nil
  kept := False.elim
  written := by simp

theorem named_nil : Named (fun _ => False) [] where
  present := by simp
  alone := by simp

theorem Filled.congr {has other : List String → Term → Prop} {members : Members}
    (filled : Filled has members) (same : ∀ name term, has [name] term ↔ other [name] term) :
    Filled other members where
  distinct := filled.distinct
  kept := fun given => filled.kept ((same _ _).mpr given)
  written := fun found isWhole => by
    obtain ⟨term, given, means⟩ := filled.written found isWhole
    exact ⟨term, (same _ _).mp given, means⟩

theorem Named.congr {named other : List String → Prop} {members : Members}
    (isNamed : Named named members)
    (same : ∀ name path, named (name :: path) ↔ other (name :: path)) : Named other members where
  present := fun name => by
    rw [← isNamed.present name]
    exact exists_congr fun path => (same name path).symm
  alone := fun found isWhole next path names =>
    isNamed.alone found isWhole next path ((same _ _).mpr names)

/-- What was written where a value is put: a value where there was none, or nothing when a table
takes the place of another one. -/
inductive Leaves : Option Value → Value → Option Term → Prop
  | value {term : Term} {value : Value} (means : Means term value) : Leaves none value (some term)
  | table {before : Option Value} {after : Value} (old : ∀ value ∈ before, value.isWhole = false)
      (isTable : after.isWhole = false) : Leaves before after none

section

variable {new : Origin} {has : List String → Term → Prop} {named : List String → Prop}
  {path : List String} {before : Option Value} {after : Value} {written : Option Term}
  {members changed : Members}

/-- A name with a table keeps the other values. -/
theorem Filled.sets {name : String} {value : Value} (filled : Filled has members)
    (old : ∀ value ∈ members.find? name, value.isWhole = false) (isTable : value.isWhole = false)
    (sets : Sets name value members changed) : Filled has changed where
  distinct := sets.distinct filled.distinct
  kept := by
    intro other term given
    obtain ⟨value, found, means⟩ := filled.kept given
    have different : other ≠ name := by
      rintro rfl
      exact absurd means.isWhole (by simp [old value found])
    exact ⟨value, (sets.elsewhere other different).trans found, means⟩
  written := by
    intro other value found isWhole
    by_cases same : other = name
    · subst same
      obtain rfl := Option.some.inj (sets.here.symm.trans found)
      exact absurd isWhole (by simp [isTable])
    · exact filled.written ((sets.elsewhere other same).symm.trans found) isWhole

theorem Filled.puts (filled : Filled has members)
    (puts : Puts new path before after members changed) (leaves : Leaves before after written) :
    Filled (fun given term => has given term ∨ given = path ∧ written = some term) changed := by
  cases puts with
  | @here name _ _ _ _ found sets =>
      cases leaves with
      | @value term value means =>
          refine ⟨sets.distinct filled.distinct, ?_, ?_⟩
          · rintro other term (given | ⟨same, written⟩)
            · obtain ⟨value, foundOther, meansOther⟩ := filled.kept given
              have different : other ≠ name := by
                rintro rfl
                simp [found] at foundOther
              exact ⟨value, (sets.elsewhere other different).trans foundOther, meansOther⟩
            · cases same
              cases written
              exact ⟨after, sets.here, means⟩
          · intro other value foundOther isWhole
            by_cases same : other = name
            · subst same
              obtain rfl := Option.some.inj (sets.here.symm.trans foundOther)
              exact ⟨term, .inr ⟨rfl, rfl⟩, means⟩
            · obtain ⟨term, given, means⟩ :=
                filled.written ((sets.elsewhere other same).symm.trans foundOther) isWhole
              exact ⟨term, .inl given, means⟩
      | table old isTable =>
          exact (filled.sets (found ▸ old) isTable sets).congr (by simp)
  | through found wraps sets inside =>
      obtain ⟨old, value, isTable, sets⟩ :=
        (Puts.through found wraps sets inside).exists_sets_of_cons_cons
      exact (filled.sets old isTable sets).congr (by simp)

/-- A put adds its path, and below a table that takes its place perhaps others. -/
theorem Named.puts (more : List String → Prop) (isNamed : Named named members)
    (puts : Puts new path before after members changed) (leaves : Leaves before after written)
    (here : more path) (below : ∀ other, more other → path <+: other)
    (flat : written ≠ none → ∀ other, more other → other = path) :
    Named (fun other => named other ∨ more other) changed := by
  obtain ⟨first, others, rfl⟩ := List.exists_cons_of_ne_nil puts.path_ne_nil
  have starts {name : String} {rest : List String} (isMore : more (name :: rest)) :
      name = first := by
    obtain ⟨_, same⟩ := below _ isMore
    exact (List.cons.inj same).1.symm
  obtain ⟨value, sets⟩ := puts.exists_sets
  constructor
  · intro name
    by_cases same : name = first
    · subst same
      simp only [sets.here, Option.isSome_some, iff_true]
      exact ⟨others, .inr here⟩
    · rw [sets.elsewhere name same, ← isNamed.present name]
      refine exists_congr fun rest => or_iff_left fun isMore => same (starts isMore)
  · intro name old found isWhole next rest names
    by_cases same : name = first
    · subst same
      cases puts with
      | here free sets =>
          obtain rfl := Option.some.inj (sets.here.symm.trans found)
          cases leaves with
          | value =>
              rcases names with names | isMore
              · obtain ⟨value, taken⟩ := isNamed.exists_find? names
                cases free.symm.trans taken
              · cases flat (by simp) _ isMore
          | table _ isTable => exact absurd isWhole (by simp [isTable])
      | through free wraps sets inside =>
          obtain ⟨-, table, isTable, sets⟩ :=
            (Puts.through free wraps sets inside).exists_sets_of_cons_cons
          obtain rfl := Option.some.inj (sets.here.symm.trans found)
          exact absurd isWhole (by simp [isTable])
    · rcases names with names | isMore
      · exact isNamed.alone ((sets.elsewhere name same).symm.trans found) isWhole next rest names
      · exact same (starts isMore)

end

/-! ## Entries one after the other -/

/-- Entries that are added to a table, each as a new value. -/
inductive Fills : Members → List (List String × Term) → Members → Prop
  | done {members : Members} : Fills members [] members
  | step {members next final : Members} {path : List String} {term : Term} {value : Value}
      {others : List (List String × Term)} (means : Means term value)
      (puts : Puts .dotted path none value members next) (behind : Fills next others final) :
      Fills members ((path, term) :: others) final

section

variable {has : List String → Term → Prop} {named : List String → Prop}
  {entries : List (List String × Term)} {members final : Members}

theorem Fills.path_ne_nil (fills : Fills members entries final) :
    ∀ entry ∈ entries, entry.1 ≠ [] := by
  induction fills with
  | done => simp
  | step _ puts _ ih => exact List.forall_mem_cons.mpr ⟨puts.path_ne_nil, ih⟩

theorem Filled.fills (filled : Filled has members) (fills : Fills members entries final) :
    Filled (fun path term => has path term ∨ (path, term) ∈ entries) final := by
  induction fills generalizing has with
  | done => exact filled.congr (by simp)
  | step means puts _ ih =>
      refine (ih (filled.puts puts (.value means))).congr fun name term => ?_
      simp only [List.mem_cons, Prod.mk.injEq, Option.some.injEq, or_assoc, eq_comm (a := term)]

theorem Named.fills (isNamed : Named named members) (fills : Fills members entries final) :
    Named (fun path => named path ∨ ∃ term, (path, term) ∈ entries) final := by
  induction fills generalizing named with
  | done => exact isNamed.congr (by simp)
  | @step _ _ _ path term _ _ means puts _ ih =>
      have next := isNamed.puts (· = path) puts (.value means) rfl
        (fun _ same => same ▸ List.prefix_rfl) fun _ _ same => same
      refine (ih next).congr fun name rest => ?_
      simp [or_assoc, exists_or]

/-- What is between braces. -/
theorem fills_of_ofAssignments {pairs : List (List String × Term)}
    {assignments : List Assignment} (each : List.Forall₂ (Assigns Means) pairs assignments)
    (made : Members.ofAssignments assignments = .ok members) : Fills [] pairs members := by
  rw [Members.ofAssignments] at made
  generalize ([] : Members) = start at made ⊢
  induction each generalizing start with
  | nil =>
      cases made
      exact .done
  | cons first _ ih =>
      obtain ⟨valued⟩ := first
      obtain ⟨next, assigned, behind⟩ := exists_of_bind_eq_ok made
      exact .step valued (puts_of_assign assigned) (ih next behind)

/-- A table between braces has the pairs as its members. -/
theorem Means.filled_named_of_braces {pairs : List (List String × Term)} {origin : Origin}
    {span : Option Span} (means : Means (.braces pairs) (.table origin span members)) :
    Filled (fun path term => (path, term) ∈ pairs) members ∧
      Named (fun path => ∃ term, (path, term) ∈ pairs) members := by
  cases means with
  | braces each made =>
      have fills := fills_of_ofAssignments each made
      exact ⟨(filled_nil.fills fills).congr (by simp), (named_nil.fills fills).congr (by simp)⟩

end

end GrammarUpgrade.Toml
