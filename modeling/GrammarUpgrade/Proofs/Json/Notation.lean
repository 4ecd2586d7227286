import GrammarUpgrade.Json.Skip
import GrammarUpgrade.Proofs.Json.Numeral
import GrammarUpgrade.Proofs.Json.Spelling

/-!
# The notation

`IsValue` says which texts are values, without a reader: what the pieces are, where blanks
may stand, and that containers may be nested to any depth.  `IsArray` and `IsObject` take a
container apart into the texts of its values, each of a member with its key.
-/

namespace GrammarUpgrade.Json

variable {ε δ κ : Type}

/-! ## Entries of containers -/

/-- The entries of a container that are still to come, its closing bracket, and what follows it.
Before them stands the opening bracket or another entry; `entry` says what an entry looks
like. -/
inductive Entries (closing : Char) (entry : List Char → ε → Prop) :
    Bool → List Char → List ε → List Char → Prop
  | closed {isFirst : Bool} {blanks rest : List Char} (blank : Blank blanks) :
      Entries closing entry isFirst (blanks ++ closing :: rest) [] rest
  | first {before written s rest : List Char} {e : ε} {others : List ε} (blank : Blank before)
      (isEntry : entry written e) (behind : Entries closing entry false s others rest) :
      Entries closing entry true (before ++ (written ++ s)) (e :: others) rest
  | next {after before written s rest : List Char} {e : ε} {others : List ε}
      (blankAfter : Blank after) (blank : Blank before) (isEntry : entry written e)
      (behind : Entries closing entry false s others rest) :
      Entries closing entry false (after ++ ',' :: (before ++ (written ++ s))) (e :: others) rest

/-- A member of an object: its key in quotes, a colon and the text of its value. -/
inductive IsMember (spells : List Char → κ → Prop) : List Char → κ × List Char → Prop
  | of {content blanks before value : List Char} {key : κ} (spelled : spells content key)
      (blankColon : Blank blanks) (blankValue : Blank before) :
      IsMember spells ('"' :: (content ++ '"' :: (blanks ++ ':' :: (before ++ value))))
        (key, value)

namespace Entries

variable {closing : Char} {entry : List Char → ε → Prop} {isFirst : Bool} {s rest : List Char}
  {entries : List ε}

theorem nil_iff : Entries closing entry isFirst s [] rest ↔
    ∃ blanks, Blank blanks ∧ s = blanks ++ closing :: rest := by
  constructor
  · rintro ⟨blank⟩
    exact ⟨_, blank, rfl⟩
  · rintro ⟨blanks, blank, rfl⟩
    exact .closed blank

theorem append (written : Entries closing entry isFirst s entries rest) (more : List Char) :
    Entries closing entry isFirst (s ++ more) entries (rest ++ more) := by
  induction written with
  | closed blank =>
      rw [List.append_assoc]
      exact .closed blank
  | first blank isEntry _ ih =>
      simp only [List.append_assoc]
      exact .first blank isEntry ih
  | next blankAfter blank isEntry _ ih =>
      simp only [List.append_assoc, List.cons_append]
      exact .next blankAfter blank isEntry ih

/-- What follows a container can be cut off. -/
theorem exists_inside (written : Entries closing entry isFirst s entries rest) :
    ∃ inside, Entries closing entry isFirst inside entries [] ∧ s = inside ++ rest := by
  induction written with
  | closed blank => exact ⟨_, .closed blank, by simp⟩
  | first blank isEntry _ ih =>
      obtain ⟨inside, behind, rfl⟩ := ih
      exact ⟨_, .first blank isEntry behind, by simp⟩
  | next blankAfter blank isEntry _ ih =>
      obtain ⟨inside, behind, rfl⟩ := ih
      exact ⟨_, .next blankAfter blank isEntry behind, by simp⟩

/-- Blanks in front make no difference. -/
theorem blank_append {blanks : List Char} (blank : Blank blanks)
    (written : Entries closing entry isFirst s entries rest) :
    Entries closing entry isFirst (blanks ++ s) entries rest := by
  have both {others : List Char} (blankOthers : Blank others) : Blank (blanks ++ others) :=
    List.forall_mem_append.mpr ⟨blank, blankOthers⟩
  cases written with
  | closed blankOthers =>
      rw [← List.append_assoc]
      exact .closed (both blankOthers)
  | first blankOthers isEntry behind =>
      rw [← List.append_assoc]
      exact .first (both blankOthers) isEntry behind
  | next blankOthers blankBefore isEntry behind =>
      rw [← List.append_assoc]
      exact .next (both blankOthers) blankBefore isEntry behind

theorem map {other : List Char → δ → Prop} {change : ε → δ}
    (changes : ∀ {written e}, entry written e → other written (change e))
    (written : Entries closing entry isFirst s entries rest) :
    Entries closing other isFirst s (entries.map change) rest := by
  induction written with
  | closed blank => exact .closed blank
  | first blank isEntry _ ih => exact .first blank (changes isEntry) ih
  | next blankAfter blank isEntry _ ih => exact .next blankAfter blank (changes isEntry) ih

/-- What is known of all entries is known of each where it is written. -/
theorem attach {good : ε → Prop} (written : Entries closing entry isFirst s entries rest)
    (all : ∀ e ∈ entries, good e) :
    Entries closing (fun written e => entry written e ∧ good e) isFirst s entries rest := by
  induction written with
  | closed blank => exact .closed blank
  | first blank isEntry _ ih =>
      obtain ⟨here, others⟩ := List.forall_mem_cons.mp all
      exact .first blank ⟨isEntry, here⟩ (ih others)
  | next blankAfter blank isEntry _ ih =>
      obtain ⟨here, others⟩ := List.forall_mem_cons.mp all
      exact .next blankAfter blank ⟨isEntry, here⟩ (ih others)

/-- An entry is followed by blanks, a comma or the closing bracket. -/
theorem delimited (behind : Entries closing entry false s entries rest)
    (closes : endsPiece closing = true) : Delimited s := by
  cases behind with
  | closed blank => exact .blank_append blank (delimited_cons closes rest)
  | next blankAfter => exact .blank_append blankAfter (delimited_cons (by decide) _)

/-- A container has more characters than entries. -/
theorem length_lt (written : Entries closing entry isFirst s entries rest)
    (filled : ∀ {written e}, entry written e → written ≠ []) : entries.length < s.length := by
  induction written with
  | closed =>
      simp only [List.length_nil, List.length_append, List.length_cons]
      omega
  | first _ isEntry _ ih | next _ _ isEntry _ ih =>
      have some := List.length_pos_iff.mpr (filled isEntry)
      simp only [List.length_append, List.length_cons]
      omega

end Entries

/-! ## Values -/

namespace Frame

/-- The bracket that opens a container. -/
def opening : Frame → Char
  | .list => '['
  | .object => '\x7b'

/-- What stands around a value that is an entry of a container.  The key of a member may be any
string of the notation. -/
def Wraps : Frame → List Char → List Char → Prop
  | .list, written, value => written = value
  | .object, written, value =>
      IsMember (fun content () => IsText content) written ((), value)

end Frame

/-- The texts that are values. -/
inductive IsValue : List Char → Prop
  | nullWord : IsValue ['n', 'u', 'l', 'l']
  | trueWord : IsValue ['t', 'r', 'u', 'e']
  | falseWord : IsValue ['f', 'a', 'l', 's', 'e']
  | number {written : List Char} {numeral : Numeral}
      (spells : SpellsNumeral written numeral) : IsValue written
  | negative {written : List Char} {numeral : Numeral}
      (spells : SpellsNumeral written numeral) : IsValue ('-' :: written)
  | string {content : List Char} (isText : IsText content) :
      IsValue ('"' :: (content ++ ['"']))
  | container {frame : Frame} {inside : List Char} {values : List (List Char)}
      (entries : Entries frame.bracket frame.Wraps true inside values [])
      (isValue : ∀ value ∈ values, IsValue value) : IsValue (frame.opening :: inside)

theorem SpellsNumeral.exists_digit {written : List Char} {numeral : Numeral}
    (spells : SpellsNumeral written numeral) :
    ∃ c tail, written = c :: tail ∧ Decimal.isDigit c = true := by
  obtain ⟨⟨⟨filled, allDigits⟩, _⟩, _, _⟩ := spells
  obtain ⟨c, others, rfl⟩ := List.exists_cons_of_ne_nil filled
  exact ⟨c, _, rfl, allDigits c List.mem_cons_self⟩

/-- A value begins with a character of its own. -/
theorem IsValue.starts {value : List Char} (isValue : IsValue value) : Starts value := by
  cases isValue with
  | nullWord => exact ⟨'n', _, rfl, by decide⟩
  | trueWord => exact ⟨'t', _, rfl, by decide⟩
  | falseWord => exact ⟨'f', _, rfl, by decide⟩
  | number spells =>
      obtain ⟨c, tail, rfl, digit⟩ := spells.exists_digit
      exact ⟨c, tail, rfl, (begins_number (by simp [digit])).1⟩
  | negative spells => exact ⟨'-', _, rfl, by decide⟩
  | string isText => exact ⟨'"', _, rfl, by decide⟩
  | @container frame => exact ⟨frame.opening, _, rfl, by cases frame <;> decide⟩

/-! ## Arrays and objects -/

/-- The text of an array of values. -/
def IsArray (text : List Char) (values : List (List Char)) : Prop :=
  ∃ inside, text = '[' :: inside ∧ Entries ']' (· = ·) true inside values []

/-- What stands between the quotes of a key. -/
def SpellsKey (content : List Char) (key : String) : Prop :=
  Spells content key.toList

/-- The text of an object with these members. -/
def IsObject (text : List Char) (members : List (String × List Char)) : Prop :=
  ∃ inside, text = '\x7b' :: inside ∧
    Entries '\x7d' (IsMember SpellsKey) true inside members []

theorem IsMember.exists_quoted {spells : List Char → κ → Prop} {written : List Char}
    {member : κ × List Char} (isMember : IsMember spells written member) :
    ∃ inside, written = '"' :: inside := by
  cases isMember
  exact ⟨_, rfl⟩

theorem IsMember.wraps {written : List Char} {member : String × List Char}
    (isMember : IsMember SpellsKey written member) : Frame.object.Wraps written member.2 := by
  cases isMember with
  | of spelled blankColon blankValue => exact .of spelled.isText blankColon blankValue

theorem IsArray.isValue {text : List Char} {values : List (List Char)}
    (isArray : IsArray text values) (isValue : ∀ value ∈ values, IsValue value) :
    IsValue text := by
  obtain ⟨inside, rfl, entries⟩ := isArray
  have wrapped : Entries Frame.list.bracket Frame.list.Wraps true inside values [] := entries
  exact .container wrapped isValue

theorem IsObject.isValue {text : List Char} {members : List (String × List Char)}
    (isObject : IsObject text members) (isValue : ∀ member ∈ members, IsValue member.2) :
    IsValue text := by
  obtain ⟨inside, rfl, entries⟩ := isObject
  have values :
      Entries Frame.object.bracket Frame.object.Wraps true inside (members.map Prod.snd) [] :=
    entries.map IsMember.wraps
  exact .container values (List.forall_mem_map.mpr isValue)

/-! ## Texts -/

/-- A text that holds one value with blanks around it. -/
def Holds (text : String) (written : List Char) : Prop :=
  ∃ before after, Blank before ∧ Blank after ∧ text.toList = before ++ (written ++ after)

/-- A text that holds an object with these members. -/
def HoldsObject (text : String) (members : List (String × List Char)) : Prop :=
  ∃ written, Holds text written ∧ IsObject written members ∧
    ∀ member ∈ members, IsValue member.2

/-- A text that holds an array of these values. -/
def HoldsArray (text : String) (values : List (List Char)) : Prop :=
  ∃ written, Holds text written ∧ IsArray written values ∧ ∀ value ∈ values, IsValue value

end GrammarUpgrade.Json
