import GrammarUpgrade.Proofs.Dataset.Notation
import GrammarUpgrade.Proofs.Json.Unambiguous
import GrammarUpgrade.Proofs.Json.Writing

/-!
# A dataset is what its sections say

`Sections` looks at the members of a text by the keys of the sections alone.  So the order of
the members makes no difference, nor do members with other keys, whatever values they have; a
section that is missing is an empty one; and an array stands for the object of its sections.
A text holds its members in one way only, which is what carries this from members to texts.
-/

namespace GrammarUpgrade

open Json

variable {α : Type} {means : List Char → α → Prop}

/-! ## Missing fields -/

/-- The text of an empty object is an empty dictionary. -/
theorem Dictionary.isWritten_iff_eq_empty {reader : List Char → Reading α}
    (decodes : Decodes reader means) {written : List Char} (isObject : IsObject written [])
    (dictionary : Dictionary α) :
    Dictionary.IsWritten means written dictionary ↔ dictionary = .empty := by
  have none : Dictionary.Collects means [] Dictionary.empty :=
    ⟨[], rfl, List.forall_mem_nil _, gathers_ofList []⟩
  constructor
  · rintro ⟨members, isOther, decoded, rfl, all, gathers⟩
    have areValues : ∀ member ∈ decoded.map Decoded.member, IsValue member.2 :=
      List.forall_mem_map.mpr fun d inDecoded => decodes.isValue (all d inDecoded)
    have noMembers := isObject.unique (List.forall_mem_nil _) isOther areValues
    obtain rfl := List.map_eq_nil_iff.mp noMembers.symm
    exact gathers_iff.mp gathers
  · rintro rfl
    exact ⟨[], isObject, none⟩

/-- A missing dictionary is an empty one. -/
theorem exists_field_iff_of_empty {reader : List Char → Reading α}
    (decodes : Decodes reader means) {written : List Char} (isObject : IsObject written [])
    (dictionary : Dictionary α) :
    (∃ field, Field (Dictionary.IsWritten means) none [written] field ∧
        field.getD .empty = dictionary) ↔
      ∃ field, Field (Dictionary.IsWritten means) none [] field ∧
        field.getD .empty = dictionary := by
  have isEmpty := Dictionary.isWritten_iff_eq_empty decodes isObject
  simp only [field_cons_iff, field_nil_iff, isEmpty, true_and]
  simp

namespace Dataset

/-! ## Sections -/

/-- A missing section is an empty one. -/
theorem sections_cons_iff {key : String} {value : List Char}
    {members : List (String × List Char)} {dataset : Dataset} (isKey : key ∈ sectionKeys)
    (absent : ∀ member ∈ members, member.1 ≠ key) (isObject : IsObject value []) :
    Sections ((key, value) :: members) dataset ↔ Sections members dataset := by
  have none := textsOf_eq_nil absent
  have grammars := exists_field_iff_of_empty readStringValue_decodes isObject
  have entries := exists_field_iff_of_empty AtRule.read_decodes isObject
  rw [sections_iff, sections_iff]
  simp only [sectionKeys, List.mem_cons, List.not_mem_nil, or_false] at isKey
  rcases isKey with rfl | rfl | rfl
  · rw [textsOf_cons_self, textsOf_cons_of_ne (by decide), textsOf_cons_of_ne (by decide), none,
      grammars]
  · rw [textsOf_cons_of_ne (by decide), textsOf_cons_self, textsOf_cons_of_ne (by decide), none,
      grammars]
  · rw [textsOf_cons_of_ne (by decide), textsOf_cons_of_ne (by decide), textsOf_cons_self, none,
      entries]

/-! ## Texts -/

theorem ofText_eq_ok_iff_of_object {text : String} {members : List (String × List Char)}
    (holds : HoldsObject text members) {dataset : Dataset} :
    ofText text = .ok dataset ↔ Sections members dataset := by
  rw [ofText_eq_ok_iff]
  constructor
  · rintro ⟨written, holdsWritten, isObject, areValues, sections⟩
    · obtain rfl := holds.unique ⟨written, holdsWritten, isObject, areValues⟩
      exact sections
    · rename_i isArray _ areValues _
      exact absurd ⟨written, holdsWritten, isArray, areValues⟩ (holds.not_holdsArray _)
  · intro sections
    obtain ⟨written, holds, isObject, areValues⟩ := holds
    exact ⟨written, holds, .object isObject areValues sections⟩

theorem ofText_eq_ok_iff_of_array {text : String} {values : List (List Char)}
    (holds : HoldsArray text values) (few : values.length ≤ 3) {dataset : Dataset} :
    ofText text = .ok dataset ↔ Sections (sectionKeys.zip values) dataset := by
  rw [ofText_eq_ok_iff]
  constructor
  · rintro ⟨written, holdsWritten, isObject, areValues, sections⟩
    · have holdsObject : HoldsObject text _ := ⟨written, holdsWritten, isObject, areValues⟩
      exact absurd holds (holdsObject.not_holdsArray _)
    · rename_i isArray _ areValues sections
      obtain rfl := holds.unique ⟨written, holdsWritten, isArray, areValues⟩
      exact sections
  · intro sections
    obtain ⟨written, holds, isArray, areValues⟩ := holds
    exact ⟨written, holds, .array isArray few areValues sections⟩

theorem exists_holds_of_ofText {text : String} {dataset : Dataset}
    (accepted : ofText text = .ok dataset) :
    (∃ members, HoldsObject text members) ∨
      ∃ values, HoldsArray text values ∧ values.length ≤ 3 := by
  obtain ⟨written, holds, isWritten⟩ := ofText_eq_ok_iff.mp accepted
  cases isWritten with
  | object isObject areValues _ => exact .inl ⟨_, written, holds, isObject, areValues⟩
  | array isArray few areValues _ => exact .inr ⟨_, ⟨written, holds, isArray, areValues⟩, few⟩

/-- A dataset is what its sections say.  An accepted text holds an object or an array of at most
three values, and any values can stand in such a text.  Two objects with the same sections, in
any order and among any other members, are the same dataset; so are an object without a section
and one with an empty section in its place, and an array and the object of its sections.  The
key of a member is a string; no string is written with half of a surrogate pair. -/
theorem ofText_congr_sections :
    (∀ text dataset, ofText text = .ok dataset →
      (∃ members, HoldsObject text members) ∨
        ∃ values, HoldsArray text values ∧ values.length ≤ 3) ∧
    (∀ members : List (String × List Char), (∀ member ∈ members, IsValue member.2) →
      ∃ text, HoldsObject text members) ∧
    (∀ values : List (List Char), (∀ value ∈ values, IsValue value) →
      ∃ text, HoldsArray text values) ∧
    (∀ text other members others, HoldsObject text members → HoldsObject other others →
      (members.filter (·.1 ∈ sectionKeys)).Perm (others.filter (·.1 ∈ sectionKeys)) →
      ∀ dataset, ofText text = .ok dataset ↔ ofText other = .ok dataset) ∧
    (∀ text other front back key value, HoldsObject text (front ++ back) →
      HoldsObject other (front ++ (key, value) :: back) → key ∈ sectionKeys →
      (∀ member ∈ front ++ back, member.1 ≠ key) → IsObject value [] →
      ∀ dataset, ofText text = .ok dataset ↔ ofText other = .ok dataset) ∧
    (∀ text other values, HoldsArray text values → values.length ≤ 3 →
      HoldsObject other (sectionKeys.zip values) →
      ∀ dataset, ofText text = .ok dataset ↔ ofText other = .ok dataset) := by
  refine ⟨fun _ _ => exists_holds_of_ofText, fun members areValues => ?texts,
    fun values areValues => ?arrays, fun text other members others holds holdsOther same => ?same,
    fun text other front back key value holds holdsOther isKey absent isObject => ?missing,
    fun text other values holds few holdsOther => ?array⟩
  case texts => exact ⟨_, holdsObject_enclose .compact areValues⟩
  case arrays => exact ⟨_, holdsArray_enclose .compact areValues⟩
  case same =>
      intro dataset
      rw [ofText_eq_ok_iff_of_object holds, ofText_eq_ok_iff_of_object holdsOther]
      exact ⟨fun sections => sections.perm same, fun sections => sections.perm same.symm⟩
  case missing =>
      intro dataset
      rw [ofText_eq_ok_iff_of_object holds, ofText_eq_ok_iff_of_object holdsOther,
        ← sections_cons_iff isKey absent isObject]
      have moved : ((front ++ (key, value) :: back).filter (·.1 ∈ sectionKeys)).Perm
          (((key, value) :: (front ++ back)).filter (·.1 ∈ sectionKeys)) :=
        List.perm_middle.filter _
      exact ⟨fun sections => sections.perm moved.symm, fun sections => sections.perm moved⟩
  case array =>
      intro dataset
      rw [ofText_eq_ok_iff_of_array holds few, ofText_eq_ok_iff_of_object holdsOther]

/-- A section with a note in front of it, with an empty section behind it, and in an array. -/
theorem ofText_congr_sections_note :
    let dataset : Dataset := ⟨.ofList [("a", "<b>")], .empty, .empty⟩
    ofText "\x7b\"types\":\x7b\"a\":\"<b>\"\x7d\x7d" = .ok dataset ∧
      ofText "\x7b\"note\":null,\"types\":\x7b\"a\":\"<b>\"\x7d\x7d" = .ok dataset ∧
      ofText "\x7b\"types\":\x7b\"a\":\"<b>\"\x7d,\"atrules\":\x7b\x7d\x7d" = .ok dataset ∧
      ofText "[\x7b\"a\":\"<b>\"\x7d]" = .ok dataset := by
  intro dataset
  obtain ⟨_, _, _, congr, congrMissing, congrArray⟩ := ofText_congr_sections
  let enclosed := fun members => enclose .compact 0 '\x7b' '\x7d' (writeAll .compact members)
  let types := enclosed [("a", writeText "<b>")]
  have isObject : IsObject types [("a", writeText "<b>")] := isObject_enclose .compact _ 0
  have isTypes : IsValue types := isObject.isValue
    (List.forall_mem_singleton.mpr (readStringValue_decodes.isValue (isString_writeText "<b>")))
  have isEmpty : IsObject (enclosed []) [] := isObject_enclose .compact _ 0
  have holds {text : String} {members : List (String × List Char)}
      (written : String.ofList (enclosed members) = text)
      (areValues : ∀ member ∈ members, IsValue member.2) : HoldsObject text members :=
    written ▸ holdsObject_enclose .compact areValues
  have plain : HoldsObject "\x7b\"types\":\x7b\"a\":\"<b>\"\x7d\x7d" [("types", types)] :=
    holds (by decide) (List.forall_mem_singleton.mpr isTypes)
  have noted : HoldsObject "\x7b\"note\":null,\"types\":\x7b\"a\":\"<b>\"\x7d\x7d"
      [("note", ['n', 'u', 'l', 'l']), ("types", types)] :=
    holds (by decide) (List.forall_mem_cons.mpr
      ⟨.nullWord, List.forall_mem_singleton.mpr isTypes⟩)
  have filled : HoldsObject "\x7b\"types\":\x7b\"a\":\"<b>\"\x7d,\"atrules\":\x7b\x7d\x7d"
      [("types", types), ("atrules", enclosed [])] :=
    holds (by decide) (List.forall_mem_cons.mpr
      ⟨isTypes, List.forall_mem_singleton.mpr (isEmpty.isValue (List.forall_mem_nil _))⟩)
  have listed : HoldsArray "[\x7b\"a\":\"<b>\"\x7d]" [types] := by
    have written : String.ofList (enclose .compact 0 '[' ']' [types]) =
        "[\x7b\"a\":\"<b>\"\x7d]" := by decide
    exact written ▸ holdsArray_enclose .compact (List.forall_mem_singleton.mpr isTypes)
  have grammars : Dictionary.IsWritten IsString types dataset.types :=
    ⟨_, isObject, [⟨"a", _, "<b>"⟩], rfl, List.forall_mem_singleton.mpr (isString_writeText "<b>"),
      Dictionary.gathers_ofList _⟩
  have sections : Sections [("types", types)] dataset :=
    ⟨⟨_, .present grammars, rfl⟩, ⟨_, .absent none, rfl⟩, ⟨_, .absent none, rfl⟩⟩
  have accepted := (ofText_eq_ok_iff_of_object plain).mpr sections
  refine ⟨accepted, ?_, ?_, ?_⟩
  · exact (congr _ _ _ _ plain noted (.refl _) dataset).mp accepted
  · exact (congrMissing _ _ [("types", types)] [] "atrules" _ plain filled (by decide)
      (by decide) isEmpty dataset).mp accepted
  · exact (congrArray _ _ _ listed (by decide) plain dataset).mpr accepted

end Dataset

end GrammarUpgrade
