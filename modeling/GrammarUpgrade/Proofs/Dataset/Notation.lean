import GrammarUpgrade.Proofs.Dataset.Fields

/-!
# Datasets are decoded

A dataset is read as what its sections say, wherever these stand in an object, or in their
order in an array.  `IsWritten` is the notation of datasets, and `ofText_eq_ok_iff` says that
a text is accepted as a dataset exactly when it holds the notation of it.
-/

namespace GrammarUpgrade.Dataset

open Json

/-! ## Sections -/

/-- What a member says about a dataset. -/
def Draft.Takes (draft : Draft) (key : String) (written : List Char) (next : Draft) : Prop :=
  if key = "types" then
    draft.types = none ∧ ∃ types, Dictionary.IsWritten IsString written types ∧
      { draft with types := some types } = next
  else if key = "properties" then
    draft.properties = none ∧ ∃ properties, Dictionary.IsWritten IsString written properties ∧
      { draft with properties := some properties } = next
  else if key = "atrules" then
    draft.atRules = none ∧ ∃ atRules, Dictionary.IsWritten AtRule.IsWritten written atRules ∧
      { draft with atRules := some atRules } = next
  else
    IsValue written ∧ draft = next

theorem readGrammars_decodes : Decodes readGrammars (Dictionary.IsWritten IsString) :=
  Dictionary.read_decodes readStringValue_decodes

theorem readAtRules_decodes : Decodes readAtRules (Dictionary.IsWritten AtRule.IsWritten) :=
  Dictionary.read_decodes AtRule.read_decodes

theorem readMember_decodes : DecodesMembers readMember Draft.Takes where
  exists_reader draft key := by
    by_cases isTypes : key = "types"
    · obtain ⟨once, decodesOnce, same⟩ := exists_reader_field readGrammars_decodes draft.types
        key fun types => { draft with types := some types }
      refine ⟨once, decodesOnce.congr fun _ _ => by rw [Draft.Takes, if_pos isTypes], ?_⟩
      intro afterKey read
      rw [← same, readMember, if_pos isTypes]
    by_cases isProperties : key = "properties"
    · obtain ⟨once, decodesOnce, same⟩ := exists_reader_field readGrammars_decodes
        draft.properties key fun properties => { draft with properties := some properties }
      refine ⟨once, decodesOnce.congr fun _ _ => ?_, ?_⟩
      · rw [Draft.Takes, if_neg isTypes, if_pos isProperties]
      · intro afterKey read
        rw [← same, readMember, if_neg isTypes, if_pos isProperties]
    by_cases isAtRules : key = "atrules"
    · obtain ⟨once, decodesOnce, same⟩ := exists_reader_field readAtRules_decodes
        draft.atRules key fun atRules => { draft with atRules := some atRules }
      refine ⟨once, decodesOnce.congr fun _ _ => ?_, ?_⟩
      · rw [Draft.Takes, if_neg isTypes, if_neg isProperties, if_pos isAtRules]
      · intro afterKey read
        rw [← same, readMember, if_neg isTypes, if_neg isProperties, if_pos isAtRules]
    · refine ⟨_, (skipValue_decodes draft).congr fun _ _ => ?_, ?_⟩
      · rw [Draft.Takes, if_neg isTypes, if_neg isProperties, if_neg isAtRules]
      · intro afterKey read
        rw [readMember, if_neg isTypes, if_neg isProperties, if_neg isAtRules]

/-- The sections that have been read before some members and after them. -/
structure Draft.Fields (start : Draft) (members : List (String × List Char)) (last : Draft) :
    Prop where
  types : Field (Dictionary.IsWritten IsString) start.types (textsOf "types" members) last.types
  properties : Field (Dictionary.IsWritten IsString) start.properties
    (textsOf "properties" members) last.properties
  atRules : Field (Dictionary.IsWritten AtRule.IsWritten) start.atRules
    (textsOf "atrules" members) last.atRules

theorem Draft.fields_nil_iff {start last : Draft} : start.Fields [] last ↔ start = last := by
  constructor
  · rintro ⟨types, properties, atRules⟩
    cases start
    cases last
    obtain rfl := field_nil_iff.mp types
    obtain rfl := field_nil_iff.mp properties
    obtain rfl := field_nil_iff.mp atRules
    rfl
  · rintro rfl
    exact ⟨.absent _, .absent _, .absent _⟩

theorem Draft.fields_iff {start last : Draft} {members : List (String × List Char)} :
    start.Fields members last ↔
      Field (Dictionary.IsWritten IsString) start.types (textsOf "types" members) last.types ∧
      Field (Dictionary.IsWritten IsString) start.properties (textsOf "properties" members)
        last.properties ∧
      Field (Dictionary.IsWritten AtRule.IsWritten) start.atRules (textsOf "atrules" members)
        last.atRules :=
  ⟨fun fields => ⟨fields.types, fields.properties, fields.atRules⟩,
    fun fields => ⟨fields.1, fields.2.1, fields.2.2⟩⟩

/-- One more member fills a section that has not been read, or is skipped. -/
theorem Draft.fields_cons_iff {start last : Draft} {key : String} {written : List Char}
    {members : List (String × List Char)} :
    IsValue written ∧ start.Fields ((key, written) :: members) last ↔
      ∃ next, start.Takes key written next ∧ next.Fields members last := by
  simp only [fields_iff]
  by_cases isTypes : key = "types"
  · subst isTypes
    have notProperties : "types" ≠ "properties" := by decide
    have notAtRules : "types" ≠ "atrules" := by decide
    rw [textsOf_cons_self, textsOf_cons_of_ne notProperties, textsOf_cons_of_ne notAtRules,
      field_cons_iff]
    constructor
    · rintro ⟨-, ⟨unread, value, meant, field⟩, others⟩
      exact ⟨_, ⟨unread, value, meant, rfl⟩, field, others⟩
    · rintro ⟨_, ⟨unread, value, meant, rfl⟩, field, others⟩
      exact ⟨readGrammars_decodes.isValue meant, ⟨unread, value, meant, field⟩, others⟩
  by_cases isProperties : key = "properties"
  · subst isProperties
    have notAtRules : "properties" ≠ "atrules" := by decide
    rw [textsOf_cons_of_ne isTypes, textsOf_cons_self, textsOf_cons_of_ne notAtRules,
      field_cons_iff]
    constructor
    · rintro ⟨-, types, ⟨unread, value, meant, field⟩, atRules⟩
      exact ⟨_, ⟨unread, value, meant, rfl⟩, types, field, atRules⟩
    · rintro ⟨_, ⟨unread, value, meant, rfl⟩, types, field, atRules⟩
      exact ⟨readGrammars_decodes.isValue meant, types, ⟨unread, value, meant, field⟩, atRules⟩
  by_cases isAtRules : key = "atrules"
  · subst isAtRules
    rw [textsOf_cons_of_ne isTypes, textsOf_cons_of_ne isProperties, textsOf_cons_self,
      field_cons_iff]
    constructor
    · rintro ⟨-, types, properties, unread, value, meant, field⟩
      exact ⟨_, ⟨unread, value, meant, rfl⟩, types, properties, field⟩
    · rintro ⟨_, ⟨unread, value, meant, rfl⟩, types, properties, field⟩
      exact ⟨readAtRules_decodes.isValue meant, types, properties, unread, value, meant, field⟩
  · simp only [textsOf_cons_of_ne isTypes, textsOf_cons_of_ne isProperties,
      textsOf_cons_of_ne isAtRules, Takes, if_neg isTypes, if_neg isProperties,
      if_neg isAtRules]
    constructor
    · rintro ⟨isValue, fields⟩
      exact ⟨_, ⟨isValue, rfl⟩, fields⟩
    · rintro ⟨_, ⟨isValue, rfl⟩, fields⟩
      exact ⟨isValue, fields⟩

/-- What the members of a dataset lead to. -/
theorem leads_iff {start last : Draft} {members : List (String × List Char)} :
    Leads Draft.Takes start members last ↔
      (∀ member ∈ members, IsValue member.2) ∧ start.Fields members last := by
  induction members generalizing start with
  | nil => simp [leads_nil_iff, Draft.fields_nil_iff]
  | cons member members ih =>
      obtain ⟨key, written⟩ := member
      simp only [leads_cons_iff, ih, List.forall_mem_cons]
      constructor
      · rintro ⟨next, takes, others, fields⟩
        obtain ⟨isValue, fields⟩ := Draft.fields_cons_iff.mpr ⟨next, takes, fields⟩
        exact ⟨⟨isValue, others⟩, fields⟩
      · rintro ⟨⟨isValue, others⟩, fields⟩
        obtain ⟨next, takes, fields⟩ := Draft.fields_cons_iff.mp ⟨isValue, fields⟩
        exact ⟨next, takes, others, fields⟩

/-! ## Arrays -/

/-- The keys of the sections in the order in which an array has them. -/
def sectionKeys : List String :=
  ["types", "properties", "atrules"]

section Arrays

variable {α : Type} {reader : List Char → Reading α} {means : List Char → α → Prop}
  {isFirst : Bool} {s rest after : List Char} {values : List (List Char)}

/-- The array is over, or there is a section. -/
theorem readSection_cases (decodes : Decodes reader means) {value? : Option α}
    (read : readSection isFirst reader s = .ok (value?, after)) :
    (value? = none ∧ Entries ']' (· = ·) isFirst s [] after) ∨
    ∃ written value, means written value ∧ value? = some value ∧
      ∀ {values rest}, Entries ']' (· = ·) false after values rest →
        Entries ']' (· = ·) isFirst s (written :: values) rest := by
  rw [readSection] at read
  split at read
  · cases read
  · rename_i closed
    cases read
    exact .inl ⟨rfl, Entries.nil_iff.mpr (nextElement_eq_closed_iff.mp closed)⟩
  · rename_i found
    obtain ⟨⟨value, left⟩, readValue, same⟩ := of_map_eq_ok read
    cases same
    obtain ⟨before, written, blank, meant, rfl⟩ := decodes.of_read readValue
    exact .inr ⟨written, value, meant, rfl, entries_of_nextElement found blank⟩

theorem readSection_nil (entries : Entries ']' (· = ·) isFirst s [] rest) :
    readSection isFirst reader s = .ok (none, rest) := by
  rw [readSection, nextElement_eq_closed_iff.mpr (Entries.nil_iff.mp entries)]

theorem readSection_cons (decodes : Decodes reader means) {written : List Char} {value : α}
    (meant : means written value)
    (entries : Entries ']' (· = ·) isFirst s (written :: values) rest) :
    ∃ t, readSection isFirst reader s = .ok (some value, t) ∧
      Entries ']' (· = ·) false t values rest := by
  obtain ⟨t, found, behind⟩ := nextElement_of_entries entries (decodes.isValue meant).starts
  have read := (decodes.readsBack meant).followed (behind.delimited (by decide))
  refine ⟨t, ?_, behind⟩
  rw [readSection, found]
  simp only [read]
  rfl

theorem readListEnd_eq_ok_iff :
    readListEnd s = .ok rest ↔ ∃ blanks, Blank blanks ∧ s = blanks ++ ']' :: rest := by
  constructor
  · intro read
    rw [readListEnd] at read
    split at read
    · cases read
    rename_i next
    obtain ⟨-, blanks, blank, rfl⟩ := exists_blanks_of_eq_cons next
    split at read
    · rename_i bracket
      cases read
      exact ⟨blanks, blank, bracket ▸ rfl⟩
    · grind
  · rintro ⟨blanks, blank, rfl⟩
    have own : isBlank ']' = false := by decide
    rw [readListEnd, skipBlanks_append blank, skipBlanks_cons own]
    rfl

end Arrays

/-- What is read of an array is what its sections say. -/
theorem of_readSections {s rest : List Char} {draft : Draft}
    (read : readSections s = .ok (draft, rest)) :
    ∃ values, Entries ']' (· = ·) true s values rest ∧ values.length ≤ 3 ∧
      Leads Draft.Takes Draft.start (sectionKeys.zip values) draft := by
  simp only [readSections, bind, Except.bind] at read
  split at read
  · cases read
  rename_i found readTypes
  obtain ⟨types?, afterTypes⟩ := found
  rcases readSection_cases readGrammars_decodes readTypes with
    ⟨rfl, entries⟩ | ⟨writtenTypes, types, meantTypes, rfl, withTypes⟩
  · cases read
    exact ⟨[], entries, by simp, .nil _⟩
  rw [if_neg (by simp)] at read
  split at read
  · cases read
  rename_i found readProperties
  obtain ⟨properties?, afterProperties⟩ := found
  rcases readSection_cases readGrammars_decodes readProperties with
    ⟨rfl, entries⟩ | ⟨writtenProperties, properties, meantProperties, rfl, withProperties⟩
  · cases read
    exact ⟨[writtenTypes], withTypes entries, by simp,
      .cons ⟨rfl, types, meantTypes, rfl⟩ (.nil _)⟩
  rw [if_neg (by simp)] at read
  split at read
  · cases read
  rename_i found readAtRules
  obtain ⟨atRules?, afterAtRules⟩ := found
  rcases readSection_cases readAtRules_decodes readAtRules with
    ⟨rfl, entries⟩ | ⟨writtenAtRules, atRules, meantAtRules, rfl, withAtRules⟩
  · cases read
    exact ⟨[writtenTypes, writtenProperties], withTypes (withProperties entries), by simp,
      .cons ⟨rfl, types, meantTypes, rfl⟩
        (.cons ⟨rfl, properties, meantProperties, rfl⟩ (.nil _))⟩
  rw [if_neg (by simp)] at read
  split at read
  · cases read
  rename_i ended
  cases read
  exact ⟨[writtenTypes, writtenProperties, writtenAtRules],
    withTypes (withProperties (withAtRules
      (Entries.nil_iff.mpr (readListEnd_eq_ok_iff.mp ended)))), by simp,
    .cons ⟨rfl, types, meantTypes, rfl⟩ (.cons ⟨rfl, properties, meantProperties, rfl⟩
      (.cons ⟨rfl, atRules, meantAtRules, rfl⟩ (.nil _)))⟩

/-- The sections of an array are read back. -/
theorem readSections_of_entries {s rest : List Char} {draft : Draft} {values : List (List Char)}
    (entries : Entries ']' (· = ·) true s values rest) (few : values.length ≤ 3)
    (leads : Leads Draft.Takes Draft.start (sectionKeys.zip values) draft) :
    readSections s = .ok (draft, rest) := by
  cases values with
  | nil =>
      cases leads
      simp only [readSections, bind, Except.bind, readSection_nil entries]
      rfl
  | cons writtenTypes values =>
      obtain ⟨_, ⟨_, types, meantTypes, rfl⟩, leads⟩ := leads_cons_iff.mp leads
      obtain ⟨afterTypes, readTypes, entries⟩ :=
        readSection_cons readGrammars_decodes meantTypes entries
      simp only [readSections, bind, Except.bind, readTypes]
      cases values with
      | nil =>
          cases leads
          rw [readSection_nil entries]
          rfl
      | cons writtenProperties values =>
          obtain ⟨_, ⟨_, properties, meantProperties, rfl⟩, leads⟩ := leads_cons_iff.mp leads
          obtain ⟨afterProperties, readProperties, entries⟩ :=
            readSection_cons readGrammars_decodes meantProperties entries
          simp only [readProperties]
          cases values with
          | nil =>
              cases leads
              rw [readSection_nil entries]
              rfl
          | cons writtenAtRules values =>
              obtain ⟨_, ⟨_, atRules, meantAtRules, rfl⟩, leads⟩ := leads_cons_iff.mp leads
              obtain ⟨afterAtRules, readAtRules, entries⟩ :=
                readSection_cons readAtRules_decodes meantAtRules entries
              have noMore : values.length = 0 := by
                simp only [List.length_cons] at few
                omega
              obtain rfl := List.length_eq_zero_iff.mp noMore
              cases leads
              have ended : readListEnd afterAtRules = .ok rest :=
                readListEnd_eq_ok_iff.mpr (Entries.nil_iff.mp entries)
              simp only [readAtRules, ended]
              rfl

/-! ## Datasets -/

/-- The dataset whose sections are among the given members. -/
structure Sections (members : List (String × List Char)) (dataset : Dataset) : Prop where
  types : ∃ field, Field (Dictionary.IsWritten IsString) none (textsOf "types" members) field ∧
    field.getD .empty = dataset.types
  properties : ∃ field,
    Field (Dictionary.IsWritten IsString) none (textsOf "properties" members) field ∧
      field.getD .empty = dataset.properties
  atRules : ∃ field,
    Field (Dictionary.IsWritten AtRule.IsWritten) none (textsOf "atrules" members) field ∧
      field.getD .empty = dataset.atRules

/-- The text of a dataset: an object with the sections and any other members, or an array of
at most three sections. -/
inductive IsWritten : List Char → Dataset → Prop
  | object {written : List Char} {members : List (String × List Char)} {dataset : Dataset}
      (isObject : IsObject written members) (areValues : ∀ member ∈ members, IsValue member.2)
      (sections : Sections members dataset) : IsWritten written dataset
  | array {written : List Char} {values : List (List Char)} {dataset : Dataset}
      (isArray : IsArray written values) (few : values.length ≤ 3)
      (areValues : ∀ value ∈ values, IsValue value)
      (sections : Sections (sectionKeys.zip values) dataset) : IsWritten written dataset

theorem sections_iff {members : List (String × List Char)} {dataset : Dataset} :
    Sections members dataset ↔
      (∃ field, Field (Dictionary.IsWritten IsString) none (textsOf "types" members) field ∧
        field.getD .empty = dataset.types) ∧
      (∃ field, Field (Dictionary.IsWritten IsString) none (textsOf "properties" members)
        field ∧ field.getD .empty = dataset.properties) ∧
      ∃ field, Field (Dictionary.IsWritten AtRule.IsWritten) none (textsOf "atrules" members)
        field ∧ field.getD .empty = dataset.atRules :=
  ⟨fun sections => ⟨sections.types, sections.properties, sections.atRules⟩,
    fun sections => ⟨sections.1, sections.2.1, sections.2.2⟩⟩

/-- The members whose keys are those of sections say everything about a dataset, in any
order. -/
theorem Sections.perm {members others : List (String × List Char)} {dataset : Dataset}
    (sections : Sections members dataset)
    (perm : (members.filter (·.1 ∈ sectionKeys)).Perm (others.filter (·.1 ∈ sectionKeys))) :
    Sections others dataset := by
  have texts {key : String} (isKey : key ∈ sectionKeys) :
      (textsOf key members).Perm (textsOf key others) := by
    have kept := textsOf_perm perm key
    rwa [textsOf_filter (fun _ => decide_eq_true isKey),
      textsOf_filter (fun _ => decide_eq_true isKey)] at kept
  obtain ⟨⟨types, typesField, sameTypes⟩, ⟨properties, propertiesField, sameProperties⟩,
    ⟨atRules, atRulesField, sameAtRules⟩⟩ := sections
  exact ⟨⟨types, typesField.perm (texts (by decide)), sameTypes⟩,
    ⟨properties, propertiesField.perm (texts (by decide)), sameProperties⟩,
    ⟨atRules, atRulesField.perm (texts (by decide)), sameAtRules⟩⟩

theorem exists_fields_iff {members : List (String × List Char)} {dataset : Dataset} :
    (∃ draft, Draft.start.Fields members draft ∧ draft.finish = dataset) ↔
      Sections members dataset := by
  constructor
  · rintro ⟨draft, fields, rfl⟩
    exact ⟨⟨_, fields.types, rfl⟩, ⟨_, fields.properties, rfl⟩, ⟨_, fields.atRules, rfl⟩⟩
  · rintro ⟨⟨types, typesField, sameTypes⟩, ⟨properties, propertiesField, sameProperties⟩,
      ⟨atRules, atRulesField, sameAtRules⟩⟩
    refine ⟨⟨types, properties, atRules⟩, ⟨typesField, propertiesField, atRulesField⟩, ?_⟩
    rw [Draft.finish, sameTypes, sameProperties, sameAtRules]

theorem read_congr {s t : List Char} (same : skipBlanks s = skipBlanks t) : read s = read t := by
  rw [Dataset.read, Dataset.read, same]

theorem object_decodes : Decodes (readObject "struct SyntaxSource" readMember Draft.start)
    fun written draft => ∃ members, IsObject written members ∧
      Leads Draft.Takes Draft.start members draft :=
  readMember_decodes.object "struct SyntaxSource" Draft.start

/-- The sections of an object are read back. -/
theorem object_readsBack {written : List Char} {members : List (String × List Char)}
    {dataset : Dataset} (isObject : IsObject written members)
    (areValues : ∀ member ∈ members, IsValue member.2) (sections : Sections members dataset) :
    ReadsBack read written dataset := by
  obtain ⟨draft, fields, rfl⟩ := exists_fields_iff.mpr sections
  have reads := object_decodes.readsBack ⟨_, isObject, leads_iff.mpr ⟨areValues, fields⟩⟩
  obtain ⟨inside, rfl, _⟩ := isObject
  refine .of_skips read_congr ?_
  intro rest delimited
  have own : isBlank '\x7b' = false := by decide
  have notArray : '\x7b' ≠ '[' := by decide
  have read := reads.followed delimited
  rw [List.cons_append] at read ⊢
  simp only [Dataset.read, skipBlanks_cons own, if_neg notArray, read]
  rfl

/-- The sections of an array are read back. -/
theorem array_readsBack {written : List Char} {values : List (List Char)} {dataset : Dataset}
    (isArray : IsArray written values) (few : values.length ≤ 3)
    (areValues : ∀ value ∈ values, IsValue value)
    (sections : Sections (sectionKeys.zip values) dataset) :
    ReadsBack read written dataset := by
  obtain ⟨draft, fields, rfl⟩ := exists_fields_iff.mpr sections
  obtain ⟨inside, rfl, entries⟩ := isArray
  refine .of_skips read_congr ?_
  intro rest _
  have own : isBlank '[' = false := by decide
  have memberValues : ∀ member ∈ sectionKeys.zip values, IsValue member.2 :=
    fun member inZip => areValues member.2 (List.of_mem_zip inZip).2
  have reads := readSections_of_entries (entries.append rest) few
    (leads_iff.mpr ⟨memberValues, fields⟩)
  simp only [List.cons_append, Dataset.read, skipBlanks_cons own, if_true, reads]
  rfl

/-- What is read of a dataset is what its text says. -/
theorem exists_isWritten_of_read {s rest : List Char} {dataset : Dataset}
    (read : Dataset.read s = .ok (dataset, rest)) :
    ∃ before written, Blank before ∧ IsWritten written dataset ∧
      s = before ++ (written ++ rest) := by
  rw [Dataset.read] at read
  split at read
  · cases read
  rename_i c later next
  obtain ⟨notBlank, blanks, blank, rfl⟩ := exists_blanks_of_eq_cons next
  split at read
  · subst c
    obtain ⟨⟨draft, left⟩, readAll, same⟩ := of_map_eq_ok read
    cases same
    obtain ⟨values, entries, few, leads⟩ := of_readSections readAll
    obtain ⟨inside, inner, rfl⟩ := entries.exists_inside
    obtain ⟨areValues, fields⟩ := leads_iff.mp leads
    have values_eq : (sectionKeys.zip values).map Prod.snd = values := List.map_snd_zip few
    have areValues : ∀ value ∈ values, IsValue value := by
      rw [← values_eq]
      exact List.forall_mem_map.mpr areValues
    exact ⟨blanks, _, blank, .array ⟨inside, rfl, inner⟩ few areValues
      (exists_fields_iff.mp ⟨draft, fields, rfl⟩), rfl⟩
  · obtain ⟨⟨draft, left⟩, readAll, same⟩ := of_map_eq_ok read
    cases same
    obtain ⟨before, written, blankBefore, ⟨members, isObject, leads⟩, text⟩ :=
      object_decodes.of_read readAll
    obtain ⟨areValues, fields⟩ := leads_iff.mp leads
    refine ⟨blanks ++ before, written, List.forall_mem_append.mpr ⟨blank, blankBefore⟩,
      .object isObject areValues (exists_fields_iff.mp ⟨draft, fields, rfl⟩), ?_⟩
    rw [text, List.append_assoc]

/-- A dataset is read as what its sections say. -/
theorem read_decodes : Decodes read IsWritten where
  isValue isWritten := by
    cases isWritten with
    | object isObject areValues _ => exact isObject.isValue areValues
    | array isArray _ areValues _ => exact isArray.isValue areValues
  readsBack isWritten := by
    cases isWritten with
    | object isObject areValues sections => exact object_readsBack isObject areValues sections
    | array isArray few areValues sections => exact array_readsBack isArray few areValues sections
  of_read := exists_isWritten_of_read

/-- A text is accepted as a dataset exactly when it holds the notation of it. -/
theorem ofText_eq_ok_iff {text : String} {dataset : Dataset} :
    ofText text = .ok dataset ↔ ∃ written, Holds text written ∧ IsWritten written dataset :=
  read_decodes.readDocument_eq_ok_iff

end GrammarUpgrade.Dataset
