import GrammarUpgrade.Dictionary

/-!
# Overlaying changed entries

Writing changed entries over the dictionary that they were taken from changes values in
place: no key moves, gets lost or comes twice.  The main statement, `overlay_filterMap`,
gives the result as the pointwise change of the dictionary.
-/

namespace GrammarUpgrade.Dictionary

variable {α β : Type}

/-- A dictionary is its list of entries. -/
theorem eq_of_entries_eq {first second : Dictionary α}
    (same : first.entries = second.entries) : first = second := by
  cases first
  cases second
  cases same
  rfl

/-- Change every value and keep the keys. -/
def mapValues (change : α → β) (dictionary : Dictionary α) : Dictionary β where
  entries := dictionary.entries.map fun entry => (entry.1, change entry.2)
  distinct := by
    rw [List.map_map]
    exact dictionary.distinct

@[simp]
theorem entries_mapValues (change : α → β) (dictionary : Dictionary α) :
    (dictionary.mapValues change).entries =
      dictionary.entries.map fun entry => (entry.1, change entry.2) :=
  rfl

@[simp]
theorem keys_mapValues (change : α → β) (dictionary : Dictionary α) :
    (dictionary.mapValues change).keys = dictionary.keys := by
  simp [keys, Function.comp_def]

/-- A change that is decided by a test filters the entries and maps what is left. -/
theorem entries_filterMap_of_eq_ite {change : α → Option β} {kept : α → Bool}
    {changed : α → β}
    (decided : ∀ value, change value = if kept value then some (changed value) else none)
    (dictionary : Dictionary α) :
    (dictionary.filterMap change).entries =
      (dictionary.entries.filter fun entry => kept entry.2).map
        fun entry => (entry.1, changed entry.2) := by
  simp only [filterMap]
  induction dictionary.entries with
  | nil => rfl
  | cons entry rest ih =>
      rw [List.filterMap_cons, List.filter_cons, decided]
      cases kept entry.2 with
      | false => exact ih
      | true => exact congrArg ((entry.1, changed entry.2) :: ·) ih

/-- Write entries to a list of entries one after the other. -/
def putAll (entries above : List (String × α)) : List (String × α) :=
  above.foldl (fun result entry => put entry.1 entry.2 result) entries

theorem entries_insertAll (dictionary : Dictionary α) (above : List (String × α)) :
    (dictionary.insertAll above).entries = putAll dictionary.entries above := by
  rw [insertAll, putAll]
  induction above generalizing dictionary with
  | nil => rfl
  | cons entry rest ih => exact ih (dictionary.insert entry.1 entry.2)

/-- An entry stays in front when only other keys are written. -/
theorem putAll_cons_of_not_mem {key : String} {above : List (String × α)}
    (absent : key ∉ above.map Prod.fst) (value : α) (rest : List (String × α)) :
    putAll ((key, value) :: rest) above = (key, value) :: putAll rest above := by
  induction above generalizing rest with
  | nil => rfl
  | cons written above ih =>
      rw [List.map_cons, List.mem_cons, not_or] at absent
      have behind : put written.1 written.2 ((key, value) :: rest) =
          (key, value) :: put written.1 written.2 rest := if_neg absent.1
      rw [putAll, List.foldl_cons, behind]
      exact ih absent.2 _

/-- Entries with different keys are written to nothing as they are. -/
theorem putAll_nil {entries : List (String × α)}
    (distinct : (entries.map Prod.fst).Nodup) : putAll [] entries = entries := by
  induction entries with
  | nil => rfl
  | cons entry rest ih =>
      rw [List.map_cons, List.nodup_cons] at distinct
      exact (putAll_cons_of_not_mem distinct.1 entry.2 []).trans
        (congrArg _ (ih distinct.2))

/-- A dictionary is made of its own entries. -/
theorem insertAll_empty (dictionary : Dictionary α) :
    empty.insertAll dictionary.entries = dictionary := by
  apply eq_of_entries_eq
  rw [entries_insertAll]
  exact putAll_nil dictionary.distinct

/-- Changed entries written over their own list change the values in place. -/
theorem putAll_filterMap (change : α → Option α) {entries : List (String × α)}
    (distinct : (entries.map Prod.fst).Nodup) :
    putAll entries
        (entries.filterMap fun entry => (change entry.2).map (entry.1, ·)) =
      entries.map fun entry => (entry.1, (change entry.2).getD entry.2) := by
  induction entries with
  | nil => rfl
  | cons entry rest ih =>
      obtain ⟨key, old⟩ := entry
      rw [List.map_cons, List.nodup_cons] at distinct
      obtain ⟨fresh, distinct⟩ := distinct
      have absent : key ∉ (rest.filterMap fun entry =>
          (change entry.2).map (entry.1, ·)).map Prod.fst := by
        rw [map_fst_filterMap]
        intro member
        exact fresh ((List.filter_sublist.map Prod.fst).subset member)
      rw [List.filterMap_cons, List.map_cons]
      cases change old with
      | none =>
          rw [Option.map_none, putAll_cons_of_not_mem absent, ih distinct]
          rfl
      | some value =>
          have inPlace : put key value ((key, old) :: rest) = (key, value) :: rest :=
            if_pos rfl
          rw [Option.map_some, putAll, List.foldl_cons, inPlace]
          exact (putAll_cons_of_not_mem absent value rest).trans
            (congrArg _ (ih distinct))

/-- Overlaying a dictionary with its changed entries changes its values in place. -/
theorem overlay_filterMap (change : α → Option α) (dictionary : Dictionary α) :
    dictionary.overlay (dictionary.filterMap change) =
      dictionary.mapValues fun value => (change value).getD value := by
  apply eq_of_entries_eq
  rw [overlay, entries_insertAll]
  exact putAll_filterMap change dictionary.distinct

end GrammarUpgrade.Dictionary
