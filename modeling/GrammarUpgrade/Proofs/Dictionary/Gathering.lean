import GrammarUpgrade.Proofs.Dictionary.Overlay
import Mathlib.Data.List.Induction

/-!
# Dictionaries of repeated keys

A dictionary made of entries with repeated keys has each key once, where it comes first, with
the value that comes last.  The main statement, `gathers_iff`, is that there is no other
dictionary like this.
-/

namespace GrammarUpgrade.Dictionary

variable {α : Type} {dictionary other : Dictionary α} {entries : List (String × α)}

/-- The keys of entries in the order in which they come first, each with the value that comes
last. -/
structure Gathers (entries : List (String × α)) (dictionary : Dictionary α) : Prop where
  keys : dictionary.keys = (entries.map Prod.fst).eraseDups
  find? : ∀ key, dictionary.find? key = entries.reverse.lookup key

/-! ## Look-ups -/

theorem lookup_cons_eq_ite (name : String) (entry : String × α) (rest : List (String × α)) :
    (entry :: rest).lookup name = if name = entry.1 then some entry.2 else rest.lookup name := by
  rw [List.lookup_cons]
  by_cases same : name = entry.1
  · simp [same]
  · simp [same, beq_false_of_ne same]

theorem lookup_of_not_mem {key : String} (absent : key ∉ entries.map Prod.fst) :
    entries.lookup key = none := by
  rw [List.lookup_eq_none_iff]
  intro entry member
  rw [bne_iff_ne]
  rintro rfl
  exact absent (List.mem_map_of_mem member)

theorem lookup_eq_some_of_mem (distinct : (entries.map Prod.fst).Nodup) {entry : String × α}
    (member : entry ∈ entries) : entries.lookup entry.1 = some entry.2 := by
  induction entries with
  | nil => cases member
  | cons first rest ih =>
      rw [List.map_cons, List.nodup_cons] at distinct
      obtain ⟨fresh, distinct⟩ := distinct
      rw [lookup_cons_eq_ite]
      rcases List.mem_cons.mp member with rfl | later
      · rw [if_pos rfl]
      · have different : entry.1 ≠ first.1 := by
          intro same
          exact fresh (same ▸ List.mem_map_of_mem later)
        rw [if_neg different]
        exact ih distinct later

theorem mem_of_lookup_eq_some {key : String} {value : α}
    (found : entries.lookup key = some value) : (key, value) ∈ entries := by
  induction entries with
  | nil => cases found
  | cons first rest ih =>
      rw [lookup_cons_eq_ite] at found
      split at found
      · rename_i same
        cases found
        exact same ▸ List.mem_cons_self
      · exact List.mem_cons_of_mem first (ih found)

theorem lookup_put (key : String) (value : α) (entries : List (String × α)) (name : String) :
    (put key value entries).lookup name =
      if name = key then some value else entries.lookup name := by
  induction entries with
  | nil => rw [put, lookup_cons_eq_ite]
  | cons entry rest ih =>
      rw [put]
      split
      · rename_i here
        rw [lookup_cons_eq_ite, lookup_cons_eq_ite, here]
        split <;> rfl
      · rename_i elsewhere
        rw [lookup_cons_eq_ite, lookup_cons_eq_ite, ih]
        grind

theorem find?_insert (dictionary : Dictionary α) (key : String) (value : α) (name : String) :
    (dictionary.insert key value).find? name =
      if name = key then some value else dictionary.find? name :=
  lookup_put key value dictionary.entries name

theorem find?_eq_some_of_mem {entry : String × α} (member : entry ∈ dictionary.entries) :
    dictionary.find? entry.1 = some entry.2 :=
  lookup_eq_some_of_mem dictionary.distinct member

/-- Entries with different keys are known by their keys and the values of these. -/
theorem eq_of_lookup_eq {others : List (String × α)}
    (keys : entries.map Prod.fst = others.map Prod.fst)
    (distinct : (entries.map Prod.fst).Nodup)
    (values : ∀ key, entries.lookup key = others.lookup key) : entries = others := by
  induction entries generalizing others with
  | nil => exact (List.map_eq_nil_iff.mp keys.symm).symm
  | cons entry rest ih =>
      cases others with
      | nil => cases keys
      | cons entry' rest' =>
          obtain ⟨key, value⟩ := entry
          obtain ⟨key', value'⟩ := entry'
          simp only [List.map_cons, List.cons.injEq] at keys
          obtain ⟨rfl, keys⟩ := keys
          rw [List.map_cons, List.nodup_cons] at distinct
          obtain ⟨fresh, distinct⟩ := distinct
          obtain rfl : value = value' := by simpa using values key
          refine congrArg _ (ih keys distinct fun name => ?_)
          by_cases same : name = key
          · subst same
            rw [lookup_of_not_mem fresh, lookup_of_not_mem (keys ▸ fresh)]
          · simpa [lookup_cons_eq_ite, same] using values name

theorem eq_of_keys_eq (keys : dictionary.keys = other.keys)
    (values : ∀ key, dictionary.find? key = other.find? key) : dictionary = other :=
  eq_of_entries_eq (eq_of_lookup_eq keys dictionary.distinct values)

/-! ## Gathered entries -/

theorem eraseDups_append_singleton (keys : List String) (key : String) :
    (keys ++ [key]).eraseDups =
      if key ∈ keys then keys.eraseDups else keys.eraseDups ++ [key] := by
  rw [List.eraseDups_append]
  by_cases present : key ∈ keys <;> simp [List.removeAll, List.eraseDups_cons, present]

theorem gathers_ofList (entries : List (String × α)) : Gathers entries (ofList entries) := by
  induction entries using List.reverseRecOn with
  | nil => exact ⟨rfl, fun _ => rfl⟩
  | append_singleton entries entry ih =>
      have added : ofList (entries ++ [entry]) =
          (ofList entries).insert entry.1 entry.2 := List.foldl_append
      constructor
      · rw [added, keys_insert, ih.keys, List.map_append, List.map_singleton,
          eraseDups_append_singleton]
        simp only [List.mem_eraseDups]
      · intro key
        rw [added, find?_insert, ih.find?, List.reverse_append, List.reverse_singleton,
          List.singleton_append, lookup_cons_eq_ite]

/-- Entries are gathered by one dictionary. -/
theorem gathers_iff : Gathers entries dictionary ↔ dictionary = ofList entries := by
  constructor
  · intro gathers
    have gathered := gathers_ofList entries
    exact eq_of_keys_eq (gathers.keys.trans gathered.keys.symm) fun key =>
      (gathers.find? key).trans (gathered.find? key).symm
  · rintro rfl
    exact gathers_ofList entries

theorem Gathers.mem_of_mem (gathers : Gathers entries dictionary) {entry : String × α}
    (member : entry ∈ dictionary.entries) : entry ∈ entries := by
  have found := find?_eq_some_of_mem member
  rw [gathers.find?] at found
  exact List.mem_reverse.mp (mem_of_lookup_eq_some found)

/-- A dictionary is gathered from its own entries. -/
theorem gathers_entries (dictionary : Dictionary α) : Gathers dictionary.entries dictionary :=
  gathers_iff.mpr (insertAll_empty dictionary).symm

theorem Gathers.foldl_put (gathers : Gathers entries dictionary) :
    entries.foldl (fun result entry => put entry.1 entry.2 result) [] = dictionary.entries := by
  rw [gathers_iff.mp gathers]
  exact (entries_insertAll empty entries).symm

end GrammarUpgrade.Dictionary
