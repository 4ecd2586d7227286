import GrammarUpgrade.Dataset.Reader
import GrammarUpgrade.Proofs.Json.Meaning

/-!
# Dictionaries and at-rules are decoded

The text of a dictionary may repeat keys.  A field of a structure may be written at most once,
and where it is written makes no difference; what an at-rule says beside its fields is
gathered like a dictionary.
-/

namespace GrammarUpgrade

open Json

variable {α β σ : Type}

/-! ## Dictionaries -/

/-- A dictionary of the values of members. -/
def Dictionary.Collects (means : List Char → α → Prop) (members : List (String × List Char))
    (dictionary : Dictionary α) : Prop :=
  ∃ decoded : List (Decoded α), decoded.map Decoded.member = members ∧
    (∀ d ∈ decoded, means d.written d.value) ∧ dictionary.Gathers (decoded.map Decoded.entry)

/-- The text of an object whose values are of one kind. -/
def Dictionary.IsWritten (means : List Char → α → Prop) (written : List Char)
    (dictionary : Dictionary α) : Prop :=
  ∃ members, IsObject written members ∧ dictionary.Collects means members

/-- What a dictionary has is the value of a member. -/
theorem Dictionary.Collects.exists_of_mem {means : List Char → α → Prop}
    {members : List (String × List Char)} {dictionary : Dictionary α}
    (collects : dictionary.Collects means members) {entry : String × α}
    (inDictionary : entry ∈ dictionary.entries) :
    ∃ written, (entry.1, written) ∈ members ∧ means written entry.2 := by
  obtain ⟨decoded, rfl, all, gathers⟩ := collects
  obtain ⟨d, inDecoded, rfl⟩ := List.mem_map.mp (gathers.mem_of_mem inDictionary)
  exact ⟨d.written, List.mem_map_of_mem inDecoded, all d inDecoded⟩

section Readers

variable {reader : List Char → Reading α} {means : List Char → α → Prop}

/-- A reader of members that makes something of a value. -/
theorem exists_reader_value (decodes : Decodes reader means) (change : α → σ) :
    ∃ changed, Decodes changed (fun written next =>
        ∃ value, means written value ∧ change value = next) ∧
      ∀ {afterKey read},
        (readMemberValue reader afterKey).map (fun read => (change read.1, read.2)) = .ok read ↔
          readMemberValue changed afterKey = .ok read := by
  refine ⟨_, decodes.map change, ?_⟩
  intro afterKey read
  rw [readMemberValue, readMemberValue]
  cases readColon afterKey <;> rfl

theorem Dictionary.read_decodes (decodes : Decodes reader means) :
    Decodes (Dictionary.read reader) (Dictionary.IsWritten means) := by
  have members : DecodesMembers
      (fun (dictionary : Dictionary α) key afterKey =>
        (readMemberValue reader afterKey).map fun read =>
          (dictionary.insert key read.1, read.2))
      fun dictionary key written next =>
        ∃ value, means written value ∧ dictionary.insert key value = next := by
    exact ⟨fun dictionary key => exists_reader_value decodes (dictionary.insert key)⟩
  refine (members.object "a map" Dictionary.empty).congr fun written dictionary => ?_
  refine exists_congr fun members => and_congr_right fun _ => ?_
  rw [leads_iff_foldl Dictionary.insert]
  refine exists_congr fun decoded => and_congr_right fun _ => and_congr_right fun _ => ?_
  rw [gathers_iff, eq_comm]
  rfl

/-! ## Fields -/

/-- A field that may be written once: its value before some members, their texts, and its value
after them. -/
inductive Field (means : List Char → α → Prop) :
    Option α → List (List Char) → Option α → Prop
  | absent (before : Option α) : Field means before [] before
  | present {written : List Char} {value : α} (meant : means written value) :
      Field means none [written] (some value)

theorem field_nil_iff {before after : Option α} : Field means before [] after ↔ before = after := by
  constructor
  · rintro ⟨⟩
    rfl
  · rintro rfl
    exact .absent _

theorem field_cons_iff {before after : Option α} {written : List Char}
    {texts : List (List Char)} :
    Field means before (written :: texts) after ↔
      before = none ∧ ∃ value, means written value ∧ Field means (some value) texts after := by
  constructor
  · rintro ⟨⟩
    exact ⟨rfl, _, ‹_›, .absent _⟩
  · rintro ⟨rfl, value, meant, ⟨⟩⟩
    exact .present meant

/-- A field depends on the texts of its members, in any order. -/
theorem Field.perm {before after : Option α} {texts others : List (List Char)}
    (field : Field means before texts after) (perm : texts.Perm others) :
    Field means before others after := by
  cases field with
  | absent =>
      obtain rfl := List.nil_perm.mp perm
      exact .absent _
  | present meant =>
      obtain rfl := List.singleton_perm.mp perm
      exact .present meant

/-- The texts of the members with a key. -/
def textsOf (key : String) (members : List (String × List Char)) : List (List Char) :=
  (members.filter fun member => member.1 = key).map Prod.snd

theorem textsOf_cons_self (key : String) (written : List Char)
    (members : List (String × List Char)) :
    textsOf key ((key, written) :: members) = written :: textsOf key members := by
  simp [textsOf]

theorem textsOf_cons_of_ne {key other : String} (different : other ≠ key) (written : List Char)
    (members : List (String × List Char)) :
    textsOf key ((other, written) :: members) = textsOf key members := by
  simp [textsOf, different]

theorem textsOf_filter {key : String} {good : String × List Char → Bool}
    (kept : ∀ written, good (key, written) = true) (members : List (String × List Char)) :
    textsOf key (members.filter good) = textsOf key members := by
  rw [textsOf, textsOf, List.filter_filter]
  congr 1
  apply List.filter_congr
  rintro ⟨other, written⟩ -
  by_cases same : other = key
  · simp [same, kept]
  · simp [same]

theorem textsOf_perm {members others : List (String × List Char)} (perm : members.Perm others)
    (key : String) : (textsOf key members).Perm (textsOf key others) :=
  (perm.filter _).map _

theorem textsOf_eq_nil {key : String} {members : List (String × List Char)}
    (absent : ∀ member ∈ members, member.1 ≠ key) : textsOf key members = [] := by
  rw [textsOf, List.map_eq_nil_iff, List.filter_eq_nil_iff]
  intro member inMembers same
  exact absent member inMembers (of_decide_eq_true same)

/-- A reader of the member of a field refuses the member when the field has been read. -/
theorem exists_reader_field (decodes : Decodes reader means) (field : Option β) (key : String)
    (change : α → σ) :
    ∃ once, Decodes once (fun written next =>
        field = none ∧ ∃ value, means written value ∧ change value = next) ∧
      ∀ {afterKey read},
        (if field.isSome then .error (repeatedKey key afterKey)
          else (readMemberValue reader afterKey).map fun read => (change read.1, read.2)) =
            Except.ok read ↔ readMemberValue once afterKey = .ok read := by
  cases field with
  | none =>
      obtain ⟨changed, decodesChanged, same⟩ := exists_reader_value decodes change
      exact ⟨changed, decodesChanged.congr fun _ _ => by simp, same⟩
  | some value =>
      refine ⟨_, (Decodes.refused (.atEnd .endOfValue)).congr fun _ _ => by simp, ?_⟩
      intro afterKey read
      constructor
      · intro never
        cases never
      · intro reads
        rw [readMemberValue] at reads
        split at reads <;> cases reads

end Readers

/-! ## At-rules -/

namespace AtRule

/-- What a member says about an at-rule. -/
def Draft.Takes (draft : Draft) (key : String) (written : List Char) (next : Draft) : Prop :=
  if key = "prelude" then
    draft.preludeGrammar = none ∧ ∃ grammar, IsNullable IsString written grammar ∧
      { draft with preludeGrammar := some grammar } = next
  else if key = "descriptors" then
    draft.descriptors = none ∧ ∃ descriptors,
      IsNullable (Dictionary.IsWritten IsString) written descriptors ∧
      { draft with descriptors := some descriptors } = next
  else
    ∃ value, Means valueDepth written value ∧
      { draft with extra := draft.extra.insert key value } = next

theorem readMember_decodes : DecodesMembers readMember Draft.Takes where
  exists_reader draft key := by
    by_cases isPrelude : key = "prelude"
    · have decodes : Decodes (readNullable readStringValue) (IsNullable IsString) :=
        readStringValue_decodes.nullable (by rintro _ _ ⟨_, rfl, _⟩ ⟨⟩)
      obtain ⟨once, decodesOnce, same⟩ := exists_reader_field decodes draft.preludeGrammar key
        fun grammar => { draft with preludeGrammar := some grammar }
      refine ⟨once, decodesOnce.congr fun _ _ => by rw [Draft.Takes, if_pos isPrelude], ?_⟩
      intro afterKey read
      rw [← same, readMember, if_pos isPrelude]
    by_cases isDescriptors : key = "descriptors"
    · have decodes : Decodes (readNullable (Dictionary.read readStringValue))
          (IsNullable (Dictionary.IsWritten IsString)) :=
        (Dictionary.read_decodes readStringValue_decodes).nullable
          (by rintro _ _ ⟨_, ⟨_, rfl, _⟩, _⟩ ⟨⟩)
      obtain ⟨once, decodesOnce, same⟩ := exists_reader_field decodes draft.descriptors key
        fun descriptors => { draft with descriptors := some descriptors }
      refine ⟨once, decodesOnce.congr fun _ _ => ?_, ?_⟩
      · rw [Draft.Takes, if_neg isPrelude, if_pos isDescriptors]
      · intro afterKey read
        rw [← same, readMember, if_neg isPrelude, if_pos isDescriptors]
    · obtain ⟨changed, decodesChanged, same⟩ := exists_reader_value
        (readValue_decodes valueDepth)
        fun value => { draft with extra := draft.extra.insert key value }
      refine ⟨changed, decodesChanged.congr fun _ _ => ?_, ?_⟩
      · rw [Draft.Takes, if_neg isPrelude, if_neg isDescriptors]
      · intro afterKey read
        rw [← same, readMember, if_neg isPrelude, if_neg isDescriptors]

/-- Whether a member is none of the fields of an at-rule. -/
def isFurther (member : String × List Char) : Bool :=
  member.1 ≠ "prelude" && member.1 ≠ "descriptors"

/-- The entry of an at-rule whose members are given: its fields are written at most once, and
may be `null`; all other members are gathered. -/
structure Says (members : List (String × List Char)) (entry : AtRule) : Prop where
  preludeGrammar : ∃ field,
    Field (IsNullable IsString) none (textsOf "prelude" members) field ∧
      field.join = entry.preludeGrammar
  descriptors : ∃ field,
    Field (IsNullable (Dictionary.IsWritten IsString)) none (textsOf "descriptors" members)
      field ∧ field.join = entry.descriptors
  extra : Dictionary.Collects (Means valueDepth) (members.filter isFurther) entry.extra

/-- The text of an at-rule. -/
def IsWritten (written : List Char) (entry : AtRule) : Prop :=
  ∃ members, IsObject written members ∧ Says members entry

/-- What the members of an at-rule lead to. -/
theorem leads_iff {start last : Draft} {members : List (String × List Char)} :
    Leads Draft.Takes start members last ↔
      Field (IsNullable IsString) start.preludeGrammar (textsOf "prelude" members)
        last.preludeGrammar ∧
      Field (IsNullable (Dictionary.IsWritten IsString)) start.descriptors
        (textsOf "descriptors" members) last.descriptors ∧
      ∃ decoded : List (Decoded Value), decoded.map Decoded.member = members.filter isFurther ∧
        (∀ d ∈ decoded, Means valueDepth d.written d.value) ∧
        start.extra.insertAll (decoded.map Decoded.entry) = last.extra := by
  induction members generalizing start with
  | nil =>
      rw [leads_nil_iff]
      constructor
      · rintro rfl
        exact ⟨.absent _, .absent _, [], rfl, List.forall_mem_nil _, rfl⟩
      · rintro ⟨preludeSame, descriptorsSame, decoded, none, -, extraSame⟩
        obtain rfl := List.map_eq_nil_iff.mp none
        cases start
        cases last
        obtain rfl := field_nil_iff.mp preludeSame
        obtain rfl := field_nil_iff.mp descriptorsSame
        cases extraSame
        rfl
  | cons member members ih =>
      obtain ⟨key, written⟩ := member
      simp only [leads_cons_iff, ih]
      by_cases isPrelude : key = "prelude"
      · subst isPrelude
        have other : "prelude" ≠ "descriptors" := by decide
        have named : isFurther ("prelude", written) = false := rfl
        rw [textsOf_cons_self, textsOf_cons_of_ne other, field_cons_iff,
          List.filter_cons_of_neg (by simp [named])]
        constructor
        · rintro ⟨_, ⟨unread, grammar, meant, rfl⟩, field, others⟩
          exact ⟨⟨unread, grammar, meant, field⟩, others⟩
        · rintro ⟨⟨unread, grammar, meant, field⟩, others⟩
          exact ⟨_, ⟨unread, grammar, meant, rfl⟩, field, others⟩
      by_cases isDescriptors : key = "descriptors"
      · subst isDescriptors
        have named : isFurther ("descriptors", written) = false := rfl
        rw [textsOf_cons_of_ne isPrelude, textsOf_cons_self, field_cons_iff,
          List.filter_cons_of_neg (by simp [named])]
        constructor
        · rintro ⟨_, ⟨unread, descriptors, meant, rfl⟩, preludeField, field, others⟩
          exact ⟨preludeField, ⟨unread, descriptors, meant, field⟩, others⟩
        · rintro ⟨preludeField, ⟨unread, descriptors, meant, field⟩, others⟩
          exact ⟨_, ⟨unread, descriptors, meant, rfl⟩, preludeField, field, others⟩
      · have unnamed : isFurther (key, written) = true := by
          simp [isFurther, isPrelude, isDescriptors]
        rw [textsOf_cons_of_ne isPrelude, textsOf_cons_of_ne isDescriptors,
          List.filter_cons_of_pos unnamed]
        simp only [Draft.Takes, if_neg isPrelude, if_neg isDescriptors]
        constructor
        · rintro ⟨_, ⟨value, meant, rfl⟩, preludeField, field, decoded, same, all, gathered⟩
          exact ⟨preludeField, field, ⟨key, written, value⟩ :: decoded,
            congrArg ((key, written) :: ·) same, List.forall_mem_cons.mpr ⟨meant, all⟩, gathered⟩
        · rintro ⟨preludeField, field, decoded, same, all, gathered⟩
          cases decoded with
          | nil => cases same
          | cons d decoded =>
              obtain ⟨⟨⟩, sameOthers⟩ := List.cons.inj same
              obtain ⟨meant, others⟩ := List.forall_mem_cons.mp all
              exact ⟨_, ⟨d.value, meant, rfl⟩, preludeField, field, decoded, sameOthers, others,
                gathered⟩

theorem exists_leads_iff {members : List (String × List Char)} {entry : AtRule} :
    (∃ draft, Leads Draft.Takes Draft.start members draft ∧ draft.finish = entry) ↔
      Says members entry := by
  constructor
  · rintro ⟨draft, leads, rfl⟩
    obtain ⟨preludeField, field, decoded, same, all, gathered⟩ := leads_iff.mp leads
    exact ⟨⟨_, preludeField, rfl⟩, ⟨_, field, rfl⟩, decoded, same, all,
      Dictionary.gathers_iff.mpr gathered.symm⟩
  · rintro ⟨⟨grammar, preludeField, preludeSame⟩, ⟨descriptors, field, descriptorsSame⟩,
      decoded, same, all, gathers⟩
    refine ⟨⟨grammar, descriptors, entry.extra⟩, leads_iff.mpr ⟨preludeField, field, decoded,
      same, all, (Dictionary.gathers_iff.mp gathers).symm⟩, ?_⟩
    rw [Draft.finish, preludeSame, descriptorsSame]

/-- An at-rule is read as what its members say. -/
theorem read_decodes : Decodes read IsWritten := by
  refine ((readMember_decodes.object "struct AtRuleEntry" Draft.start).map Draft.finish).congr ?_
  intro written entry
  simp only [IsWritten, ← exists_leads_iff]
  constructor
  · rintro ⟨draft, ⟨members, isObject, leads⟩, same⟩
    exact ⟨members, isObject, draft, leads, same⟩
  · rintro ⟨members, isObject, draft, leads, same⟩
    exact ⟨draft, ⟨members, isObject, leads⟩, same⟩

end AtRule

end GrammarUpgrade
