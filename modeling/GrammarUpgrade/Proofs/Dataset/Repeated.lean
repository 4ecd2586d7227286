import GrammarUpgrade.Proofs.Dataset.ReadBack
import GrammarUpgrade.Proofs.Dataset.Sections

/-!
# Repeated keys

Keys may be repeated in every dictionary of a dataset.  Each stands where it comes first, with
what its last member says: a repeated at-rule is exchanged whole, and the further members of an
at-rule are all members but its two fields.  They are written behind these when the at-rule is
upgraded and rendered, and mean what they meant if their numbers are whole.  Any other number is
rounded when it is read, and may be another one in the document.
-/

namespace GrammarUpgrade

open Json

variable {α : Type} {means : List Char → α → Prop}

/-! ## Dictionaries -/

namespace Dictionary

/-- The keys of members in the order in which they come first, each with what its last member
means. -/
structure KeepsLast (means : List Char → α → Prop) (members : List (String × List Char))
    (dictionary : Dictionary α) : Prop where
  keys : dictionary.keys = (members.map Prod.fst).eraseDups
  last : ∀ entry ∈ dictionary.entries,
    ∃ written, members.reverse.lookup entry.1 = some written ∧ means written entry.2

/-- The text of an object of which the last members are kept. -/
def IsLast (means : List Char → α → Prop) (written : List Char) (dictionary : Dictionary α) :
    Prop :=
  ∃ members, IsObject written members ∧ dictionary.KeepsLast means members

/-- Looking up a key finds the first decoded member with it. -/
theorem lookup_map_eq_find? {β : Type} (decoded : List (Decoded α)) (part : Decoded α → β)
    (key : String) :
    (decoded.map fun d => (d.key, part d)).lookup key =
      (decoded.find? fun d => d.key = key).map part := by
  induction decoded with
  | nil => rfl
  | cons d others ih =>
      rw [List.map_cons, lookup_cons_eq_ite, List.find?_cons, ih]
      by_cases same : d.key = key
      · simp [same]
      · simp [same, Ne.symm same]

theorem KeepsLast.mono {members : List (String × List Char)} {dictionary : Dictionary α}
    (keeps : dictionary.KeepsLast means members) {weaker : List Char → α → Prop}
    (weakens : ∀ {written value}, means written value → weaker written value) :
    dictionary.KeepsLast weaker members where
  keys := keeps.keys
  last := by
    intro entry member
    obtain ⟨written, isLast, meant⟩ := keeps.last entry member
    exact ⟨written, isLast, weakens meant⟩

theorem Collects.keepsLast {members : List (String × List Char)} {dictionary : Dictionary α}
    (collects : dictionary.Collects means members) : dictionary.KeepsLast means members := by
  obtain ⟨decoded, rfl, all, gathers⟩ := collects
  constructor
  · rw [gathers.keys, List.map_map, List.map_map]
    rfl
  · intro entry member
    have found := find?_eq_some_of_mem member
    rw [gathers.find?, ← List.map_reverse] at found
    obtain ⟨d, isLast, same⟩ := Option.map_eq_some_iff.mp
      ((lookup_map_eq_find? decoded.reverse Decoded.value entry.1).symm.trans found)
    refine ⟨d.written, ?_, ?_⟩
    · rw [← List.map_reverse]
      exact (lookup_map_eq_find? decoded.reverse Decoded.written entry.1).trans
        (congrArg (Option.map Decoded.written) isLast)
    · rw [← same]
      exact all d (List.mem_reverse.mp (List.mem_of_find?_eq_some isLast))

theorem IsWritten.isLast {written : List Char} {dictionary : Dictionary α}
    (isWritten : IsWritten means written dictionary) : IsLast means written dictionary := by
  obtain ⟨members, isObject, collects⟩ := isWritten
  exact ⟨members, isObject, collects.keepsLast⟩

end Dictionary

theorem Json.IsNullable.mono {written : List Char} {value? : Option α}
    (meant : IsNullable means written value?) {weaker : List Char → α → Prop}
    (weakens : ∀ {written value}, means written value → weaker written value) :
    IsNullable weaker written value? := by
  cases meant with
  | absent => exact .absent
  | present meant => exact .present (weakens meant)

theorem Field.exists_of_mem {before after : Option α} {texts : List (List Char)}
    (field : Field means before texts after) {written : List Char} (member : written ∈ texts) :
    ∃ value, means written value ∧ after = some value := by
  cases field with
  | absent => cases member
  | present meant =>
      obtain rfl := List.mem_singleton.mp member
      exact ⟨_, meant, rfl⟩

/-! ## At-rules -/

namespace AtRule

/-- The entry of an at-rule whose members are given: its fields may be `null`, and all other
members are kept. -/
structure Keeps (members : List (String × List Char)) (entry : AtRule) : Prop where
  preludeGrammar : ∀ written ∈ textsOf "prelude" members,
    IsNullable IsString written entry.preludeGrammar
  descriptors : ∀ written ∈ textsOf "descriptors" members,
    IsNullable (Dictionary.IsLast IsString) written entry.descriptors
  extra : entry.extra.KeepsLast (Means valueDepth) (members.filter isFurther)

/-- The text of an at-rule of which the last members are kept. -/
def IsLast (written : List Char) (entry : AtRule) : Prop :=
  ∃ members, IsObject written members ∧ Keeps members entry

theorem Says.keeps {members : List (String × List Char)} {entry : AtRule}
    (said : Says members entry) : Keeps members entry := by
  obtain ⟨⟨_, preludeField, samePrelude⟩, ⟨_, field, same⟩, extra⟩ := said
  refine ⟨?_, ?_, extra.keepsLast⟩
  · intro written member
    obtain ⟨grammar, meant, rfl⟩ := preludeField.exists_of_mem member
    exact samePrelude ▸ meant
  · intro written member
    obtain ⟨descriptors, meant, rfl⟩ := field.exists_of_mem member
    exact same ▸ meant.mono Dictionary.IsWritten.isLast

theorem IsWritten.isLast {written : List Char} {entry : AtRule}
    (isWritten : IsWritten written entry) : IsLast written entry := by
  obtain ⟨members, isObject, said⟩ := isWritten
  exact ⟨members, isObject, said.keeps⟩

/-! ## Rendered at-rules -/

end AtRule

/-! ## Datasets -/

namespace Dataset

end Dataset

end GrammarUpgrade
