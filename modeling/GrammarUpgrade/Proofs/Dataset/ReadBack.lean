import GrammarUpgrade.Generation
import GrammarUpgrade.Proofs.Dataset.Accepted
import GrammarUpgrade.Proofs.Json.Writing

/-!
# Documents are read back

The three documents of a dataset, put together as the sections of one object, are a text
of this very dataset.  The main statement, `ofText_bundle`, says so for every dataset that
was read from a text and upgraded any number of times.
-/

namespace GrammarUpgrade

open Json

variable {layout : Layout}

/-! ## Dictionaries -/

theorem Dictionary.collects_write {α : Type} {means : List Char → α → Prop}
    (write : α → List Char) {dictionary : Dictionary α}
    (written : ∀ entry ∈ dictionary.entries, means (write entry.2) entry.2) :
    dictionary.Collects means (dictionary.entries.map fun entry => (entry.1, write entry.2)) := by
  refine ⟨decodedAs write dictionary.entries, map_member_decodedAs _ _,
    List.forall_mem_map.mpr written, ?_⟩
  rw [map_entry_decodedAs]
  exact gathers_entries dictionary

variable (blank : layout.IsBlank)

include blank

theorem Dictionary.toValue_isWritten (grammars : Dictionary String) (depth : Nat) :
    IsWritten IsString (grammars.toValue.write layout depth) grammars := by
  have isObject := isObject_write blank
    (grammars.entries.map fun entry => (entry.1, .string entry.2)) depth
  rw [List.map_map] at isObject
  have collects : grammars.Collects IsString _ :=
    collects_write writeText fun entry _ => isString_writeText entry.2
  exact ⟨_, isObject, collects⟩

namespace AtRule

/-- The prelude of an at-rule as a value. -/
def preludeValue (entry : AtRule) : Value :=
  (entry.preludeGrammar.map Value.string).getD .null

/-- The descriptors of an at-rule as a value. -/
def descriptorsValue (entry : AtRule) : Value :=
  (entry.descriptors.map Dictionary.toValue).getD .null

/-- The members of an at-rule as an object. -/
def members (entry : AtRule) : List (String × Value) :=
  ("prelude", entry.preludeValue) :: ("descriptors", entry.descriptorsValue) ::
    entry.extra.entries

omit blank in
theorem preludeValue_isWritten (entry : AtRule) (depth : Nat) :
    IsNullable IsString (entry.preludeValue.write layout depth) entry.preludeGrammar := by
  rw [preludeValue]
  cases entry.preludeGrammar with
  | none => exact .absent
  | some grammar => exact .present (isString_writeText grammar)

theorem descriptorsValue_isWritten (entry : AtRule) (depth : Nat) :
    IsNullable (Dictionary.IsWritten IsString) (entry.descriptorsValue.write layout depth)
      entry.descriptors := by
  rw [descriptorsValue]
  cases entry.descriptors with
  | none => exact .absent
  | some grammars => exact .present (grammars.toValue_isWritten blank depth)

/-- The members of an at-rule say what it is. -/
theorem says_members {entry : AtRule} (isExtra : IsExtra entry.extra)
    (whole : ∀ member ∈ entry.extra.entries, member.2.Whole) (depth : Nat) :
    Says (entry.members.map fun member => (member.1, member.2.write layout depth)) entry := by
  have absent {key : String} (named : key = "prelude" ∨ key = "descriptors") :
      textsOf key (entry.extra.entries.map fun member =>
        (member.1, member.2.write layout depth)) = [] := by
    refine textsOf_eq_nil (List.forall_mem_map.mpr fun member inExtra => ?_)
    obtain ⟨notPrelude, notDescriptors, -⟩ := isExtra member inExtra
    rcases named with rfl | rfl
    · exact notPrelude
    · exact notDescriptors
  have further : (entry.extra.entries.map fun member =>
      (member.1, member.2.write layout depth)).filter isFurther =
        entry.extra.entries.map fun member => (member.1, member.2.write layout depth) := by
    refine List.filter_eq_self.mpr (List.forall_mem_map.mpr fun member inExtra => ?_)
    obtain ⟨notPrelude, notDescriptors, -⟩ := isExtra member inExtra
    simp [isFurther, notPrelude, notDescriptors]
  have other : "prelude" ≠ "descriptors" := by decide
  simp only [members, List.map_cons]
  constructor
  · refine ⟨some entry.preludeGrammar, ?_, rfl⟩
    rw [textsOf_cons_self, textsOf_cons_of_ne other.symm, absent (.inl rfl)]
    exact .present (entry.preludeValue_isWritten depth)
  · refine ⟨some entry.descriptors, ?_, rfl⟩
    rw [textsOf_cons_of_ne other, textsOf_cons_self, absent (.inr rfl)]
    exact .present (entry.descriptorsValue_isWritten blank depth)
  · rw [List.filter_cons_of_neg (by simp [isFurther]),
      List.filter_cons_of_neg (by simp [isFurther]), further]
    exact Dictionary.collects_write _ fun member inExtra =>
      (whole member inExtra).means blank (isExtra member inExtra).2.2 depth

theorem toValue_isWritten {entry : AtRule} (isExtra : IsExtra entry.extra)
    (whole : ∀ member ∈ entry.extra.entries, member.2.Whole) (depth : Nat) :
    IsWritten (entry.toValue.write layout depth) entry :=
  ⟨_, isObject_write blank entry.members depth, says_members blank isExtra whole (depth + 1)⟩

end AtRule

/-! ## Datasets -/

omit blank

/-- The key of a document among the sections of a dataset. -/
def Document.sectionKey : Document → String
  | .types => "types"
  | .properties => "properties"
  | .atRules => "atrules"

namespace Dataset

/-- The documents of a dataset as the members of one object, in some order and layout. -/
def bundle (layout : Layout) (order : List Document) (dataset : Dataset) : String :=
  String.ofList (enclose layout 0 '\x7b' '\x7d' (order.map fun document =>
    writeMember layout document.sectionKey (dataset.render document).toList))

/-- All numbers beside the grammars of at-rules are whole. -/
abbrev Whole (dataset : Dataset) : Prop :=
  dataset.AllExtra fun extra => ∀ member ∈ extra.entries, member.2.Whole

/-- The value of a document. -/
def content (dataset : Dataset) : Document → Value
  | .types => dataset.types.toValue
  | .properties => dataset.properties.toValue
  | .atRules => AtRule.sectionValue dataset.atRules

theorem render_eq_documentText (dataset : Dataset) (document : Document) :
    dataset.render document = (dataset.content document).documentText := by
  cases document <;> rfl

theorem sectionValue_isWritten {dataset : Dataset} (readable : dataset.Readable)
    (whole : dataset.Whole) (blank : layout.IsBlank) (depth : Nat) :
    Dictionary.IsWritten AtRule.IsWritten
      ((AtRule.sectionValue dataset.atRules).write layout depth) dataset.atRules := by
  have isObject := isObject_write blank
    (dataset.atRules.entries.map fun entry => (entry.1, entry.2.toValue)) depth
  rw [List.map_map] at isObject
  have collects : dataset.atRules.Collects AtRule.IsWritten _ :=
    Dictionary.collects_write (fun entry : AtRule => entry.toValue.write layout (depth + 1))
      fun entry member => entry.2.toValue_isWritten blank (readable entry member)
        (whole entry member) (depth + 1)
  exact ⟨_, isObject, collects⟩

/-- A document as a member of an object. -/
def documentMember (dataset : Dataset) (document : Document) : String × List Char :=
  (document.sectionKey, (dataset.content document).write .indented 0)

/-- The documents of a dataset are its sections. -/
theorem sections_documents {dataset : Dataset} (readable : dataset.Readable)
    (whole : dataset.Whole) {order : List Document} (complete : order.Perm Document.all) :
    Sections (order.map dataset.documentMember) dataset := by
  have types := dataset.types.toValue_isWritten .indented 0
  have properties := dataset.properties.toValue_isWritten .indented 0
  have atRules := sectionValue_isWritten readable whole .indented 0
  have sections : Sections (Document.all.map dataset.documentMember) dataset :=
    ⟨⟨_, .present types, rfl⟩, ⟨_, .present properties, rfl⟩, ⟨_, .present atRules, rfl⟩⟩
  exact sections.perm ((complete.symm.map _).filter _)

theorem content_isValue {dataset : Dataset} (readable : dataset.Readable)
    (whole : dataset.Whole) (document : Document) :
    IsValue ((dataset.content document).write .indented 0) := by
  cases document with
  | types => exact readGrammars_decodes.isValue (dataset.types.toValue_isWritten .indented 0)
  | properties =>
      exact readGrammars_decodes.isValue (dataset.properties.toValue_isWritten .indented 0)
  | atRules =>
      exact readAtRules_decodes.isValue (sectionValue_isWritten readable whole .indented 0)

/-- A document ends with a line break, which stands behind its member. -/
theorem padded_documentMember (blank : layout.IsBlank) (dataset : Dataset) (document : Document) :
    Padded (fun written document => IsMember SpellsKey written (dataset.documentMember document))
      (writeMember layout document.sectionKey (dataset.render document).toList) document := by
  refine ⟨_, ['\n'], isMember_writeMember blank _ _, List.forall_mem_singleton.mpr (by decide), ?_⟩
  simp [render_eq_documentText, Value.documentText, writeMember]

/-- The documents of a dataset are read back. -/
theorem ofText_bundle_of_readable {dataset : Dataset} (readable : dataset.Readable)
    (whole : dataset.Whole) (blank : layout.IsBlank)
    {order : List Document} (complete : order.Perm Document.all) :
    ofText (dataset.bundle layout order) = .ok dataset := by
  obtain ⟨inside, opens, entries⟩ := exists_enclose_entries blank
    (fun document _ => padded_documentMember blank dataset document) 0 '\x7b'
  have isObject : IsObject ('\x7b' :: inside) (order.map dataset.documentMember) :=
    ⟨inside, rfl, entries.map id⟩
  have areValues : ∀ member ∈ order.map dataset.documentMember, IsValue member.2 :=
    List.forall_mem_map.mpr fun document _ => content_isValue readable whole document
  rw [ofText_eq_ok_iff, bundle, opens]
  exact ⟨_, holds_ofList _,
    .object isObject areValues (sections_documents readable whole complete)⟩

/-- The documents of a dataset that was read from a text and upgraded any number of times
are together a text of this very dataset, if all its numbers are whole. -/
theorem ofText_bundle {text : String} {dataset : Dataset}
    (accepted : ofText text = .ok dataset) (passes : List RuleSet)
    (whole : (dataset.upgradeAll passes).Whole) {layout : Layout} (blank : layout.IsBlank)
    {order : List Document} (complete : order.Perm Document.all) :
    ofText ((dataset.upgradeAll passes).bundle layout order) =
      .ok (dataset.upgradeAll passes) :=
  ofText_bundle_of_readable ((readable_of_ofText accepted).upgradeAll passes) whole blank
    complete

/-- An at-rule with a further member in which values are nested. -/
theorem ofText_bundle_page :
    let status : Value := .array
      [.string "\"draft\"\n", .number (.integer (-1) (by decide)), .object [("since", .null)]]
    let page : AtRule := ⟨none, some (.ofList [("size", "<length>\x7b1,2\x7d")]),
      .ofList [("status", status)]⟩
    let dataset : Dataset := ⟨.empty, .empty, .ofList [("page", page)]⟩
    let upgraded := dataset.upgradeAll [.tailwind, .inlined]
    ofText (dataset.bundle .compact Document.all) = .ok dataset ∧
      ofText (upgraded.bundle .indented [.atRules, .types, .properties]) = .ok upgraded := by
  intro status page dataset upgraded
  have fits : status.Fits AtRule.valueDepth := by
    simp [status, Value.Fits, AtRule.valueDepth, maxDepth]
  have statusWhole : status.Whole := by
    refine .array (List.forall_mem_cons.mpr ⟨.string _, List.forall_mem_cons.mpr
      ⟨.integer _ _, List.forall_mem_singleton.mpr (.object ?_)⟩⟩)
    exact List.forall_mem_singleton.mpr .null
  have readable : dataset.Readable := List.forall_mem_singleton.mpr
    (List.forall_mem_singleton.mpr ⟨by decide, by decide, fits⟩)
  have whole : dataset.Whole := List.forall_mem_singleton.mpr
    (List.forall_mem_singleton.mpr statusWhole)
  have accepted := ofText_bundle_of_readable readable whole .compact
    (.refl Document.all)
  exact ⟨accepted, ofText_bundle accepted [.tailwind, .inlined] (whole.upgradeAll _)
    .indented (by decide)⟩

end Dataset

end GrammarUpgrade
