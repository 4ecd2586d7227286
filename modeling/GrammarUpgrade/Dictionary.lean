/-!
# Dictionaries in insertion order

A dictionary is a list of keys with their values in which no key occurs twice.
Writing to a key that is present keeps its place and exchanges its value; a new
key goes to the end.  The view of a dictionary is its list `keys` together with
the look-up `find?`.
-/

namespace GrammarUpgrade

namespace Dictionary

/-- Write a value to a key of a list of entries, in place if the key is there
and at the end otherwise. -/
def put {α : Type} (key : String) (value : α) :
    List (String × α) → List (String × α)
  | [] => [(key, value)]
  | entry :: rest =>
      if entry.1 = key then (key, value) :: rest else entry :: put key value rest

/-- Writing to a key adds it to the end of the keys unless it is there. -/
theorem keys_put {α : Type} (key : String) (value : α)
    (entries : List (String × α)) :
    (put key value entries).map Prod.fst =
      if key ∈ entries.map Prod.fst then entries.map Prod.fst
      else entries.map Prod.fst ++ [key] := by
  induction entries with
  | nil => simp [put]
  | cons entry rest ih =>
      unfold put
      by_cases same : entry.1 = key
      · simp [same]
      · have other : key ≠ entry.1 := fun equal => same equal.symm
        simp only [same, if_false, List.map_cons, ih, List.mem_cons, other, false_or]
        split <;> simp

/-- Writing to a key keeps different keys different. -/
theorem nodup_put {α : Type} (key : String) (value : α)
    {entries : List (String × α)} (distinct : (entries.map Prod.fst).Nodup) :
    ((put key value entries).map Prod.fst).Nodup := by
  rw [keys_put]
  split
  · exact distinct
  · rename_i absent
    exact List.nodup_append.mpr
      ⟨distinct, by simp, fun other member last same => by
        simp only [List.mem_singleton] at same
        subst same
        intro equal
        exact absent (equal ▸ member)⟩

/-- The keys of changed entries are those whose values were kept. -/
theorem map_fst_filterMap {α β : Type} (change : α → Option β)
    (entries : List (String × α)) :
    (entries.filterMap fun entry => (change entry.2).map (entry.1, ·)).map Prod.fst =
      (entries.filter fun entry => (change entry.2).isSome).map Prod.fst := by
  induction entries with
  | nil => rfl
  | cons entry rest ih => cases changed : change entry.2 <;> simp [changed, ih]

end Dictionary

/-- A finite map from strings that remembers the order of its keys. -/
structure Dictionary (α : Type) where
  entries : List (String × α)
  distinct : (entries.map Prod.fst).Nodup

namespace Dictionary

variable {α β : Type}

/-- The dictionary without entries. -/
def empty : Dictionary α :=
  ⟨[], by simp⟩

instance : Inhabited (Dictionary α) := ⟨empty⟩

/-- The keys in order. -/
def keys (dictionary : Dictionary α) : List String :=
  dictionary.entries.map Prod.fst

/-- The number of entries. -/
def size (dictionary : Dictionary α) : Nat :=
  dictionary.entries.length

/-- Whether there are no entries. -/
def isEmpty (dictionary : Dictionary α) : Bool :=
  dictionary.entries.isEmpty

/-- The value of a key. -/
def find? (dictionary : Dictionary α) (key : String) : Option α :=
  dictionary.entries.lookup key

/-- Write a value to a key. -/
def insert (dictionary : Dictionary α) (key : String) (value : α) : Dictionary α :=
  ⟨put key value dictionary.entries, nodup_put key value dictionary.distinct⟩

/-- Write entries to a dictionary one after the other. -/
def insertAll (dictionary : Dictionary α) (entries : List (String × α)) :
    Dictionary α :=
  entries.foldl (fun result entry => result.insert entry.1 entry.2) dictionary

/-- Make a dictionary from entries of which later ones win. -/
def ofList (entries : List (String × α)) : Dictionary α :=
  empty.insertAll entries

/-- Write the entries of the second dictionary over those of the first. -/
def overlay (below above : Dictionary α) : Dictionary α :=
  below.insertAll above.entries

/-- Keep the entries to whose values `change` assigns a new value. -/
def filterMap (change : α → Option β) (dictionary : Dictionary α) : Dictionary β where
  entries := dictionary.entries.filterMap fun entry =>
    (change entry.2).map (entry.1, ·)
  distinct := by
    rw [map_fst_filterMap]
    exact List.Sublist.nodup (List.filter_sublist.map _) dictionary.distinct

/-- The keys of a changed dictionary are those whose values were kept, in
their old order. -/
theorem keys_filterMap (change : α → Option β) (dictionary : Dictionary α) :
    (dictionary.filterMap change).keys =
      (dictionary.entries.filter fun entry => (change entry.2).isSome).map Prod.fst :=
  map_fst_filterMap change dictionary.entries

/-- The keys after a write. -/
theorem keys_insert (dictionary : Dictionary α) (key : String) (value : α) :
    (dictionary.insert key value).keys =
      if key ∈ dictionary.keys then dictionary.keys else dictionary.keys ++ [key] :=
  keys_put key value dictionary.entries

end Dictionary

end GrammarUpgrade
