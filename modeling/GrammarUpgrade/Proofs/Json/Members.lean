import GrammarUpgrade.Proofs.Json.Decoding

/-!
# Objects are decoded

A reader of members that reads exactly what each member says reads objects exactly: what an
object is read as is what its members lead to, one after the other.  There is a lemma about
one more member in each direction, from which the whole object follows by induction.
-/

namespace GrammarUpgrade.Json

variable {α σ : Type}

/-! ## The next member -/

theorem nextMember_congr {s t : List Char} (same : skipBlanks s = skipBlanks t)
    (isFirst : Bool) : nextMember isFirst s = nextMember isFirst t := by
  rw [nextMember, nextMember, same]

theorem nextMember_first (inside : List Char) :
    nextMember true ('"' :: inside) = .ok (.entry inside) := by
  have quote : isBlank '"' = false := by decide
  rw [nextMember, skipBlanks_cons quote]
  rfl

theorem nextMember_other {breaks : List Char} (blank : Blank breaks) (inside : List Char) :
    nextMember false (',' :: (breaks ++ '"' :: inside)) = .ok (.entry inside) := by
  have comma : isBlank ',' = false := by decide
  have quote : isBlank '"' = false := by decide
  rw [nextMember, skipBlanks_cons comma]
  simp [skipBlanks_append blank, skipBlanks_cons quote]

theorem nextMember_closed (isFirst : Bool) (rest : List Char) :
    nextMember isFirst ('\x7d' :: rest) = .ok (.closed rest) := by
  have bracket : isBlank '\x7d' = false := by decide
  rw [nextMember, skipBlanks_cons bracket]
  rfl

/-! ## Members -/

/-- Texts of values, each with its key, that lead from a state to a state. -/
inductive Leads (takes : σ → String → List Char → σ → Prop) :
    σ → List (String × List Char) → σ → Prop
  | nil (state : σ) : Leads takes state [] state
  | cons {state next last : σ} {key : String} {written : List Char}
      {others : List (String × List Char)} (first : takes state key written next)
      (rest : Leads takes next others last) :
      Leads takes state ((key, written) :: others) last

theorem leads_nil_iff {takes : σ → String → List Char → σ → Prop} {state last : σ} :
    Leads takes state [] last ↔ state = last := by
  constructor
  · rintro ⟨⟩
    rfl
  · rintro rfl
    exact .nil _

theorem leads_cons_iff {takes : σ → String → List Char → σ → Prop} {state last : σ}
    {member : String × List Char} {others : List (String × List Char)} :
    Leads takes state (member :: others) last ↔
      ∃ next, takes state member.1 member.2 next ∧ Leads takes next others last := by
  constructor
  · rintro ⟨⟩
    exact ⟨_, ‹_›, ‹_›⟩
  · rintro ⟨next, first, rest⟩
    exact .cons first rest

/-- A reader of members chooses a reader of a value by the state and the key. -/
structure DecodesMembers (member : σ → String → List Char → Reading σ)
    (takes : σ → String → List Char → σ → Prop) : Prop where
  exists_reader : ∀ state key, ∃ reader, Decodes reader (takes state key) ∧
    ∀ {afterKey read}, member state key afterKey = .ok read ↔
      readMemberValue reader afterKey = .ok read

section Members

variable {member : σ → String → List Char → Reading σ}
  {takes : σ → String → List Char → σ → Prop} {state next last : σ} {s t rest : List Char}

theorem nextMember_eq_closed_iff {isFirst : Bool} :
    nextMember isFirst s = .ok (.closed rest) ↔
      ∃ blanks, Blank blanks ∧ s = blanks ++ '\x7d' :: rest := by
  constructor
  · intro closed
    rw [nextMember] at closed
    split at closed
    · cases closed
    rename_i next
    obtain ⟨-, blanks, blank, rfl⟩ := exists_blanks_of_eq_cons next
    split at closed
    · rename_i bracket
      cases closed
      exact ⟨blanks, blank, bracket ▸ rfl⟩
    · grind
  · rintro ⟨blanks, blank, rfl⟩
    exact (nextMember_congr (skipBlanks_append blank _) isFirst).trans
      (nextMember_closed isFirst rest)

theorem of_nextMember_first (entry : nextMember true s = .ok (.entry rest)) :
    ∃ blanks, Blank blanks ∧ s = blanks ++ '"' :: rest := by
  rw [nextMember] at entry
  split at entry
  · cases entry
  rename_i next
  obtain ⟨-, blanks, blank, rfl⟩ := exists_blanks_of_eq_cons next
  refine ⟨blanks, blank, ?_⟩
  grind

theorem of_nextMember_other (entry : nextMember false s = .ok (.entry rest)) :
    ∃ after before, Blank after ∧ Blank before ∧ s = after ++ ',' :: (before ++ '"' :: rest) := by
  rw [nextMember] at entry
  split at entry
  · cases entry
  rename_i later next
  obtain ⟨-, after, blankAfter, rfl⟩ := exists_blanks_of_eq_cons next
  split at entry
  · cases entry
  rw [if_neg (by decide)] at entry
  split at entry
  · rename_i comma
    split at entry
    · cases entry
    rename_i inside nextKey
    obtain ⟨-, before, blankBefore, rfl⟩ := exists_blanks_of_eq_cons nextKey
    refine ⟨after, before, blankAfter, blankBefore, ?_⟩
    grind
  · cases entry

section Entries

variable {entry : List Char → String × List Char → Prop} {first : String × List Char}
  {members : List (String × List Char)} {isFirst : Bool}

/-- Where a member is found there is an entry. -/
theorem entries_of_nextMember {inside written : List Char}
    (found : nextMember isFirst s = .ok (.entry inside)) (text : '"' :: inside = written ++ t)
    (isEntry : entry written first) (behind : Entries '\x7d' entry false t members rest) :
    Entries '\x7d' entry isFirst s (first :: members) rest := by
  cases isFirst with
  | true =>
      obtain ⟨before, blank, rfl⟩ := of_nextMember_first found
      rw [text]
      exact .first blank isEntry behind
  | false =>
      obtain ⟨after, before, blankAfter, blank, rfl⟩ := of_nextMember_other found
      rw [text]
      exact .next blankAfter blank isEntry behind

/-- Where there is an entry a member is found. -/
theorem nextMember_of_entries
    (entries : Entries '\x7d' (IsMember SpellsKey) isFirst s (first :: members) rest) :
    ∃ inside written t, nextMember isFirst s = .ok (.entry inside) ∧
      '"' :: inside = written ++ t ∧ IsMember SpellsKey written first ∧
      Entries '\x7d' (IsMember SpellsKey) false t members rest := by
  cases entries with
  | @first before _ t _ _ _ blank isMember behind =>
      obtain ⟨inside, rfl⟩ := isMember.exists_quoted
      have found := nextMember_first (inside ++ t)
      rw [← nextMember_congr (skipBlanks_append blank _)] at found
      exact ⟨_, _, t, found, rfl, isMember, behind⟩
  | @next after before _ t _ _ _ blankAfter blank isMember behind =>
      obtain ⟨inside, rfl⟩ := isMember.exists_quoted
      have found := nextMember_other blank (inside ++ t)
      rw [← nextMember_congr (skipBlanks_append blankAfter _)] at found
      exact ⟨_, _, t, found, rfl, isMember, behind⟩

end Entries

namespace DecodesMembers

variable (decodes : DecodesMembers member takes)

include decodes

theorem of_member {key : String} {afterKey : List Char}
    (read : member state key afterKey = .ok (next, rest)) :
    ∃ blanks before value, Blank blanks ∧ Blank before ∧ takes state key value next ∧
      afterKey = blanks ++ ':' :: (before ++ (value ++ rest)) := by
  obtain ⟨reader, decodesValue, same⟩ := decodes.exists_reader state key
  rw [same, readMemberValue] at read
  split at read
  · cases read
  rename_i afterColon colon
  obtain ⟨blanks, blank, rfl⟩ := readColon_eq_ok_iff.mp colon
  obtain ⟨before, value, blankBefore, takes, rfl⟩ := decodesValue.of_read read
  exact ⟨blanks, before, value, blank, blankBefore, takes, rfl⟩

theorem member_append {key : String} {blanks before value : List Char} (blank : Blank blanks)
    (blankBefore : Blank before) (takes : takes state key value next)
    (delimited : Delimited rest) :
    member state key (blanks ++ ':' :: (before ++ (value ++ rest))) = .ok (next, rest) := by
  obtain ⟨reader, decodesValue, same⟩ := decodes.exists_reader state key
  have colon : readColon (blanks ++ ':' :: (before ++ (value ++ rest))) =
      .ok (before ++ (value ++ rest)) := readColon_eq_ok_iff.mpr ⟨blanks, blank, rfl⟩
  rw [same, readMemberValue, colon]
  exact (decodesValue.readsBack takes).read blankBefore delimited

/-- A member that has been read is written where its key begins. -/
theorem of_readText_member {key : String} {inside afterKey : List Char}
    (readKey : readText inside = .ok (key, afterKey))
    (read : member state key afterKey = .ok (next, rest)) :
    ∃ written value, IsMember SpellsKey written (key, value) ∧ takes state key value next ∧
      '"' :: inside = written ++ rest := by
  obtain ⟨content, spells, rfl⟩ := readText_eq_ok_iff.mp readKey
  obtain ⟨blanks, before, value, blank, blankBefore, takes, rfl⟩ := decodes.of_member read
  exact ⟨_, value, .of spells blank blankBefore, takes, by simp⟩

/-- The object ends, or there is one more member. -/
theorem readMembersUpTo_succ_cases {count : Nat} {isFirst : Bool}
    (read : readMembersUpTo member (count + 1) isFirst state s = .ok (last, rest)) :
    (nextMember isFirst s = .ok (.closed rest) ∧ state = last) ∨
    ∃ inside written t key value next, nextMember isFirst s = .ok (.entry inside) ∧
      '"' :: inside = written ++ t ∧ IsMember SpellsKey written (key, value) ∧
      takes state key value next ∧
      readMembersUpTo member count false next t = .ok (last, rest) := by
  rw [readMembersUpTo] at read
  split at read
  · cases read
  · rename_i closed
    cases read
    exact .inl ⟨closed, rfl⟩
  rename_i inside entry
  split at read
  · cases read
  rename_i key afterKey readKey
  split at read
  · cases read
  rename_i next t readMember
  obtain ⟨written, value, isMember, takes, text⟩ :=
    decodes.of_readText_member readKey readMember
  exact .inr ⟨inside, written, t, key, value, next, entry, text, isMember, takes, read⟩

/-- What is read of an object is written there. -/
theorem of_readMembersUpTo {count : Nat} {isFirst : Bool}
    (read : readMembersUpTo member count isFirst state s = .ok (last, rest)) :
    ∃ members, Entries '\x7d' (IsMember SpellsKey) isFirst s members rest ∧
      Leads takes state members last := by
  induction count generalizing isFirst state s with
  | zero => cases read
  | succ count ih =>
      rcases decodes.readMembersUpTo_succ_cases read with ⟨closed, rfl⟩ |
        ⟨inside, written, t, key, value, next, found, text, isMember, takes, readOthers⟩
      · exact ⟨[], Entries.nil_iff.mpr (nextMember_eq_closed_iff.mp closed), .nil _⟩
      · obtain ⟨members, behind, leads⟩ := ih readOthers
        exact ⟨_, entries_of_nextMember found text isMember behind, .cons takes leads⟩

theorem isValue {members : List (String × List Char)}
    (leads : Leads takes state members last) : ∀ member ∈ members, IsValue member.2 := by
  induction leads with
  | nil => exact List.forall_mem_nil _
  | @cons state _ _ key _ _ takes _ ih =>
      obtain ⟨reader, decodesValue, _⟩ := decodes.exists_reader state key
      exact List.forall_mem_cons.mpr ⟨decodesValue.isValue takes, ih⟩

/-- One more member is read back. -/
theorem readMembersUpTo_member {key : String} {written value inside : List Char}
    {isFirst : Bool} (isMember : IsMember SpellsKey written (key, value))
    (takes : takes state key value next) (delimited : Delimited t)
    (text : '"' :: inside = written ++ t)
    (entry : nextMember isFirst s = .ok (.entry inside)) {count : Nat}
    (others : readMembersUpTo member count false next t = .ok (last, rest)) :
    readMembersUpTo member (count + 1) isFirst state s = .ok (last, rest) := by
  cases isMember with
  | @of content blanks before _ _ spells blank blankBefore =>
      have read := decodes.member_append blank blankBefore takes delimited
      have readKey := readText_append spells (blanks ++ ':' :: (before ++ (value ++ t)))
      obtain rfl : inside = content ++ '"' :: (blanks ++ ':' :: (before ++ (value ++ t))) := by
        simpa using text
      rw [readMembersUpTo, entry]
      simp only [readKey, read, others]

/-- The members of an object are read back. -/
theorem readMembersUpTo_of_entries {isFirst : Bool} {members : List (String × List Char)}
    (entries : Entries '\x7d' (IsMember SpellsKey) isFirst s members rest)
    (leads : Leads takes state members last) {count : Nat} (enough : members.length < count) :
    readMembersUpTo member count isFirst state s = .ok (last, rest) := by
  induction leads generalizing isFirst s count with
  | nil =>
      obtain ⟨more, rfl⟩ := Nat.exists_eq_add_one.mpr enough
      rw [readMembersUpTo, nextMember_eq_closed_iff.mpr (Entries.nil_iff.mp entries)]
  | cons takes _ ih =>
      obtain ⟨more, rfl⟩ := Nat.exists_eq_add_one.mpr (Nat.zero_lt_of_lt enough)
      obtain ⟨inside, written, t, found, text, isMember, behind⟩ := nextMember_of_entries entries
      exact decodes.readMembersUpTo_member isMember takes (behind.delimited (by decide)) text
        found (ih behind (Nat.lt_of_succ_lt_succ enough))

theorem readMembers_of_entries {members : List (String × List Char)}
    (entries : Entries '\x7d' (IsMember SpellsKey) true s members rest)
    (leads : Leads takes state members last) :
    readMembers member state s = .ok (last, rest) := by
  refine decodes.readMembersUpTo_of_entries entries leads (entries.length_lt ?_)
  rintro written _ isMember rfl
  obtain ⟨_, none⟩ := isMember.exists_quoted
  cases none

end DecodesMembers

/-- An object is read as what its members lead to. -/
theorem DecodesMembers.object (decodes : DecodesMembers member takes) (expected : String)
    (start : σ) :
    Decodes (readObject expected member start) fun written last =>
      ∃ members, IsObject written members ∧ Leads takes start members last where
  isValue := by
    rintro written last ⟨members, isObject, leads⟩
    exact isObject.isValue (decodes.isValue leads)
  readsBack := by
    rintro written last ⟨members, ⟨inside, rfl, entries⟩, leads⟩
    refine .of_skips (fun same => by rw [readObject, readObject, same]) ?_
    intro rest _
    have own : isBlank '\x7b' = false := by decide
    rw [List.cons_append, readObject, skipBlanks_cons own]
    exact decodes.readMembers_of_entries (entries.append rest) leads
  of_read := by
    intro s last rest read
    rw [readObject] at read
    split at read
    · cases read
    rename_i c later next
    obtain ⟨-, blanks, blank, rfl⟩ := exists_blanks_of_eq_cons next
    split at read
    · rename_i bracket
      subst bracket
      obtain ⟨members, entries, leads⟩ := decodes.of_readMembersUpTo read
      obtain ⟨inside, inner, rfl⟩ := entries.exists_inside
      exact ⟨blanks, _, blank, ⟨members, ⟨inside, rfl, inner⟩, leads⟩, rfl⟩
    · cases read

end Members

/-! ## Entries that have been read -/

/-- A member whose value has been read. -/
structure Decoded (α : Type) where
  key : String
  /-- The text of the value. -/
  written : List Char
  value : α

namespace Decoded

/-- The member as it is written. -/
def member (decoded : Decoded α) : String × List Char :=
  (decoded.key, decoded.written)

/-- The key and the value that has been read. -/
def entry (decoded : Decoded α) : String × α :=
  (decoded.key, decoded.value)

end Decoded

/-- Members whose values are added to a state one after the other. -/
theorem leads_iff_foldl {means : List Char → α → Prop} (add : σ → String → α → σ)
    {start last : σ} {members : List (String × List Char)} :
    Leads (fun state key written next => ∃ value, means written value ∧
        add state key value = next) start members last ↔
      ∃ decoded : List (Decoded α), decoded.map Decoded.member = members ∧
        (∀ d ∈ decoded, means d.written d.value) ∧
        (decoded.map Decoded.entry).foldl (fun state e => add state e.1 e.2) start = last := by
  constructor
  · intro leads
    induction leads with
    | nil state => exact ⟨[], rfl, List.forall_mem_nil _, rfl⟩
    | @cons _ _ _ key written _ takes _ ih =>
        obtain ⟨value, meant, rfl⟩ := takes
        obtain ⟨decoded, rfl, all, folded⟩ := ih
        exact ⟨⟨key, written, value⟩ :: decoded, rfl, List.forall_mem_cons.mpr ⟨meant, all⟩,
          folded⟩
  · rintro ⟨decoded, rfl, all, rfl⟩
    induction decoded generalizing start with
    | nil => exact .nil _
    | cons d decoded ih =>
        obtain ⟨meant, others⟩ := List.forall_mem_cons.mp all
        exact .cons ⟨d.value, meant, rfl⟩ (ih others)

end GrammarUpgrade.Json
