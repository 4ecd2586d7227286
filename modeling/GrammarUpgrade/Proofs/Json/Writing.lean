import GrammarUpgrade.Json.Printer
import GrammarUpgrade.Proofs.Json.Meaning

/-!
# What is written is in the notation

Containers are written in the notation of their entries, in every layout whose blanks are
blanks.  So a value that is nested no deeper than is allowed is written as a text that means
this value, if its numbers are whole.
-/

namespace GrammarUpgrade.Json

open GrammarUpgrade.Decimal (digitsOf)

variable {ε : Type} {layout : Layout}

/-! ## Layouts -/

/-- The blanks of a layout are blanks. -/
structure Layout.IsBlank (layout : Layout) : Prop where
  lineBreak : ∀ depth, Blank (layout.lineBreak depth)
  afterColon : Blank layout.afterColon

namespace Layout.IsBlank

theorem indented : Layout.indented.IsBlank where
  lineBreak depth := by
    intro c member
    rcases List.mem_cons.mp member with rfl | member
    · decide
    · obtain ⟨_, rfl⟩ := List.mem_replicate.mp member
      decide
  afterColon := List.forall_mem_singleton.mpr (by decide)

theorem compact : Layout.compact.IsBlank where
  lineBreak _ := List.forall_mem_nil _
  afterColon := List.forall_mem_nil _

end Layout.IsBlank

/-- Written entries after the first, the closing bracket, and what follows it. -/
def following (layout : Layout) (depth : Nat) (closing : Char)
    (entries : List (List Char)) (rest : List Char) : List Char :=
  entries.flatMap (fun entry => ',' :: layout.lineBreak (depth + 1) ++ entry) ++
    (layout.lineBreak depth ++ closing :: rest)

theorem following_nil {depth : Nat} {closing : Char} {rest : List Char} :
    following layout depth closing [] rest = layout.lineBreak depth ++ closing :: rest :=
  rfl

theorem following_cons {depth : Nat} {closing : Char} {written rest : List Char}
    {entries : List (List Char)} :
    following layout depth closing (written :: entries) rest =
      ',' :: (layout.lineBreak (depth + 1) ++
        (written ++ following layout depth closing entries rest)) := by
  simp [following]

theorem enclose_cons (depth : Nat) (opening closing : Char) (written : List Char)
    (entries : List (List Char)) :
    enclose layout depth opening closing (written :: entries) =
      opening :: (layout.lineBreak (depth + 1) ++
        (written ++ following layout depth closing entries [])) := by
  simp [enclose, following]

/-! ## Strings and numbers -/

/-- A written key. -/
theorem spellsKey_flatMap_escapeChar (key : String) :
    SpellsKey (key.toList.flatMap escapeChar) key := by
  obtain ⟨content, spells, same⟩ := readText_eq_ok_iff.mp (readText_flatMap_escapeChar key [])
  rwa [List.append_cancel_right same]

theorem isString_writeText (text : String) : IsString (writeText text) text :=
  ⟨_, rfl, spellsKey_flatMap_escapeChar text⟩

/-- A written whole number. -/
theorem means_integer {allowed : Nat} (value : Int)
    (fits : -0x8000000000000000 ≤ value ∧ value < 0x10000000000000000) :
    Means allowed (Number.integer value fits).text (.number (.integer value fits)) := by
  have small : value.natAbs < 0x10000000000000000 := by omega
  by_cases negative : value < 0
  · have signed : value = if true then -(value.natAbs : Int) else value.natAbs := by
      simp only [if_true]
      omega
    rw [Number.text, if_pos negative]
    exact .negative (spellsNumeral_digitsOf true _) rfl
      (value?_digitsOf small signed fits (by omega))
  · have signed : value = if false then -(value.natAbs : Int) else value.natAbs := by
      simp only [Bool.false_eq_true, if_false]
      omega
    rw [Number.text, if_neg negative]
    exact .number (spellsNumeral_digitsOf false _) rfl
      (value?_digitsOf small signed fits (by simp))

/-! ## Entries -/

/-- A written entry, and blanks. -/
def Padded (entry : List Char → ε → Prop) (padded : List Char) (e : ε) : Prop :=
  ∃ written after, entry written e ∧ Blank after ∧ padded = written ++ after

/-- Written members. -/
def writeAll (layout : Layout) (members : List (String × List Char)) : List (List Char) :=
  members.map fun member => writeMember layout member.1 member.2

theorem writeItems_eq_map (layout : Layout) (depth : Nat) (items : List Value) :
    writeItems layout depth items = items.map (Value.write layout (depth + 1)) := by
  induction items with
  | nil => rfl
  | cons item rest ih => exact congrArg _ ih

theorem writeMembers_eq_writeAll (layout : Layout) (depth : Nat)
    (members : List (String × Value)) :
    writeMembers layout depth members =
      writeAll layout
        (members.map fun member => (member.1, member.2.write layout (depth + 1))) := by
  induction members with
  | nil => rfl
  | cons member rest ih => exact congrArg _ ih

/-- Entries as they are written. -/
def decodedAs {α : Type} (write : α → List Char) (entries : List (String × α)) :
    List (Decoded α) :=
  entries.map fun entry => ⟨entry.1, write entry.2, entry.2⟩

theorem map_member_decodedAs {α : Type} (write : α → List Char) (entries : List (String × α)) :
    (decodedAs write entries).map Decoded.member =
      entries.map fun entry => (entry.1, write entry.2) := by
  simp [decodedAs, Decoded.member]

theorem map_entry_decodedAs {α : Type} (write : α → List Char) (entries : List (String × α)) :
    (decodedAs write entries).map Decoded.entry = entries := by
  simp [decodedAs, Function.comp_def, Decoded.entry]

/-! ## Containers -/

variable (blank : layout.IsBlank)

include blank

section Entries

variable {closing : Char} {entry : List Char → ε → Prop} {write : ε → List Char}
  {entries : List ε}

/-- The entries after the first. -/
theorem entries_following (written : ∀ e ∈ entries, Padded entry (write e) e) (depth : Nat)
    (rest : List Char) :
    Entries closing entry false (following layout depth closing (entries.map write) rest)
      entries rest := by
  induction entries with
  | nil =>
      rw [List.map_nil, following_nil]
      exact .closed (blank.lineBreak depth)
  | cons e others ih =>
      obtain ⟨⟨text, after, isEntry, blankAfter, padded⟩, writtenOthers⟩ :=
        List.forall_mem_cons.mp written
      rw [List.map_cons, following_cons, padded, List.append_assoc]
      exact .next (List.forall_mem_nil _) (blank.lineBreak (depth + 1)) isEntry
        ((ih writtenOthers).blank_append blankAfter)

/-- All entries of a container. -/
theorem exists_enclose_entries (written : ∀ e ∈ entries, Padded entry (write e) e)
    (depth : Nat) (opening : Char) :
    ∃ inside, enclose layout depth opening closing (entries.map write) = opening :: inside ∧
      Entries closing entry true inside entries [] := by
  cases entries with
  | nil => exact ⟨[closing], rfl, .closed (List.forall_mem_nil _)⟩
  | cons e others =>
      obtain ⟨⟨text, after, isEntry, blankAfter, padded⟩, writtenOthers⟩ :=
        List.forall_mem_cons.mp written
      have behind : Entries closing entry false _ others [] :=
        entries_following blank writtenOthers depth []
      refine ⟨_, ?_, .first (blank.lineBreak (depth + 1)) isEntry
        (behind.blank_append blankAfter)⟩
      rw [List.map_cons, enclose_cons, padded, List.append_assoc]

end Entries

theorem isArray_enclose (values : List (List Char)) (depth : Nat) :
    IsArray (enclose layout depth '[' ']' values) values := by
  have written : ∀ value ∈ values, Padded (· = ·) (id value) value :=
    fun value _ => ⟨value, [], rfl, List.forall_mem_nil _, (List.append_nil value).symm⟩
  obtain ⟨inside, opens, entries⟩ := exists_enclose_entries blank written depth '['
  rw [List.map_id] at opens
  exact ⟨inside, opens, entries⟩

theorem isMember_writeMember (key : String) (value : List Char) :
    IsMember SpellsKey (writeMember layout key value) (key, value) := by
  have written : writeMember layout key value = '"' :: (key.toList.flatMap escapeChar ++
      '"' :: ([] ++ ':' :: (layout.afterColon ++ value))) := by
    simp [writeMember, writeText]
  rw [written]
  exact .of (spellsKey_flatMap_escapeChar key) (List.forall_mem_nil _) blank.afterColon

theorem isObject_enclose (members : List (String × List Char)) (depth : Nat) :
    IsObject (enclose layout depth '\x7b' '\x7d' (writeAll layout members)) members := by
  have written : ∀ member ∈ members,
      Padded (IsMember SpellsKey) (writeMember layout member.1 member.2) member :=
    fun member _ => ⟨_, [], isMember_writeMember blank member.1 member.2,
      List.forall_mem_nil _, (List.append_nil _).symm⟩
  obtain ⟨inside, opens, entries⟩ := exists_enclose_entries blank written depth '\x7b'
  exact ⟨inside, opens, entries⟩

/-- A written object. -/
theorem isObject_write (members : List (String × Value)) (depth : Nat) :
    IsObject ((Value.object members).write layout depth)
      (members.map fun member => (member.1, member.2.write layout (depth + 1))) := by
  rw [Value.write, writeMembers_eq_writeAll]
  exact isObject_enclose blank _ depth

theorem isArray_write (items : List Value) (depth : Nat) :
    IsArray ((Value.array items).write layout depth)
      (items.map (Value.write layout (depth + 1))) := by
  rw [Value.write, writeItems_eq_map]
  exact isArray_enclose blank _ depth

theorem means_array {allowed depth : Nat} {items : List Value}
    (means : ∀ item ∈ items, Means allowed (item.write layout (depth + 1)) item) :
    Means (allowed + 1) ((Value.array items).write layout depth) (.array items) := by
  let entries := items.map fun item => (item.write layout (depth + 1), item)
  have texts : entries.map Prod.fst = items.map (Value.write layout (depth + 1)) := by
    simp [entries]
  have values : entries.map Prod.snd = items := by
    simp [entries, Function.comp_def]
  have isArray := isArray_write blank items depth
  rw [← texts] at isArray
  have meansAll : Means (allowed + 1) _ (.array (entries.map Prod.snd)) :=
    .array isArray (List.forall_mem_map.mpr means)
  rwa [values] at meansAll

theorem means_object {allowed depth : Nat} {members : List (String × Value)}
    (distinct : (members.map Prod.fst).Nodup)
    (means : ∀ member ∈ members, Means allowed (member.2.write layout (depth + 1)) member.2) :
    Means (allowed + 1) ((Value.object members).write layout depth) (.object members) := by
  let dictionary : Dictionary Value := ⟨members, distinct⟩
  have isObject := isObject_write blank members depth
  rw [← map_member_decodedAs] at isObject
  have gathers := dictionary.gathers_entries
  rw [← map_entry_decodedAs (Value.write layout (depth + 1)) dictionary.entries] at gathers
  have meansAll : Means (allowed + 1) _ (.object dictionary.entries) :=
    .object isObject (List.forall_mem_map.mpr means) gathers
  exact meansAll

/-! ## Values -/

/-- All numbers are whole. -/
inductive Value.Whole : Value → Prop
  | null : Whole .null
  | boolean (value : Bool) : Whole (.boolean value)
  | integer (value : Int)
      (fits : -0x8000000000000000 ≤ value ∧ value < 0x10000000000000000) :
      Whole (.number (.integer value fits))
  | string (value : String) : Whole (.string value)
  | array {items : List Value} (whole : ∀ item ∈ items, Whole item) : Whole (.array items)
  | object {members : List (String × Value)} (whole : ∀ member ∈ members, Whole member.2) :
      Whole (.object members)

/-- A value that is nested no deeper than is allowed is written as a text that means it. -/
theorem Value.Whole.means {value : Value} (whole : value.Whole) {allowed : Nat}
    (fits : value.Fits allowed) (depth : Nat) :
    Means allowed (value.write layout depth) value := by
  -- Inside a container one level less is allowed and one more is indented.
  induction whole generalizing allowed depth with
  | null => exact .null
  | boolean value =>
      cases value with
      | false => exact .no
      | true => exact .yes
  | integer value bounds => exact means_integer value bounds
  | string text => exact .string (isString_writeText text)
  | array whole ih =>
      cases allowed with
      | zero => exact fits.elim
      | succ allowed =>
          exact means_array blank fun item member => ih item member (fits item member) _
  | object whole ih =>
      cases allowed with
      | zero => exact fits.elim
      | succ allowed =>
          obtain ⟨distinct, fits⟩ := fits
          exact means_object blank distinct fun member inMembers =>
            ih member inMembers (fits member inMembers) _

/-! ## Texts -/

omit blank in
theorem holds_ofList (written : List Char) : Holds (String.ofList written) written :=
  ⟨[], [], List.forall_mem_nil _, List.forall_mem_nil _, by simp⟩

theorem holdsArray_enclose {values : List (List Char)}
    (areValues : ∀ value ∈ values, IsValue value) :
    HoldsArray (String.ofList (enclose layout 0 '[' ']' values)) values :=
  ⟨_, holds_ofList _, isArray_enclose blank values 0, areValues⟩

theorem holdsObject_enclose {members : List (String × List Char)}
    (areValues : ∀ member ∈ members, IsValue member.2) :
    HoldsObject (String.ofList (enclose layout 0 '\x7b' '\x7d' (writeAll layout members)))
      members :=
  ⟨_, holds_ofList _, isObject_enclose blank members 0, areValues⟩

omit blank

end GrammarUpgrade.Json
