import GrammarUpgrade.Proofs.Json.Skipping

/-!
# The notation is unambiguous

What a text begins with is one value and no other, so a container has one list of entries.
-/

namespace GrammarUpgrade.Json

variable {ε : Type} {s t rest left : List Char}

/-- What a text begins with is one value and no other. -/
theorem IsValue.unique {value other : List Char} (isValue : IsValue value)
    (isOther : IsValue other) (ends : Ends value rest) (otherEnds : Ends other t)
    (same : value ++ rest = other ++ t) : value = other ∧ rest = t := by
  have skipped := skipValue_append (List.forall_mem_nil _) isValue ends
  have skippedOther := skipValue_append (List.forall_mem_nil _) isOther otherEnds
  rw [same, skippedOther] at skipped
  cases skipped
  exact ⟨List.append_cancel_right same, rfl⟩

/-- Entries that a text begins with at most one of. -/
structure Unambiguous (entry : List Char → ε → Prop) : Prop where
  starts : ∀ {written e}, entry written e → Starts written
  unique : ∀ {written other e e' s t}, entry written e → entry other e' → Delimited s →
    Delimited t → written ++ s = other ++ t → e = e' ∧ s = t

section Containers

variable {frame : Frame} {entry : List Char → ε → Prop} {entries others : List ε}

/-- Blanks do not hide what comes next. -/
theorem eq_of_blank_append {blanks spaces : List Char} {c d : Char} (blank : Blank blanks)
    (blankSpaces : Blank spaces) (notBlank : isBlank c = false) (notBlankOther : isBlank d = false)
    (same : blanks ++ c :: s = spaces ++ d :: t) : c = d ∧ s = t := by
  have skipped := congrArg skipBlanks same
  rw [skipBlanks_append blank, skipBlanks_append blankSpaces, skipBlanks_cons notBlank,
    skipBlanks_cons notBlankOther] at skipped
  exact List.cons.inj skipped

theorem eq_of_blank_append_starts {blanks spaces written other : List Char}
    (blank : Blank blanks) (blankSpaces : Blank spaces) (starts : Starts written)
    (otherStarts : Starts other) (same : blanks ++ (written ++ s) = spaces ++ (other ++ t)) :
    written ++ s = other ++ t := by
  obtain ⟨c, tail, rfl, own⟩ := starts
  obtain ⟨d, otherTail, rfl, otherOwn⟩ := otherStarts
  obtain ⟨rfl, behind⟩ := eq_of_blank_append blank blankSpaces
    (endsPiece_eq_false_iff.mp own).1 (endsPiece_eq_false_iff.mp otherOwn).1 same
  exact congrArg (c :: ·) behind

/-- No entry begins with what closes a container. -/
theorem not_closed_of_starts {blanks before written : List Char} (blank : Blank blanks)
    (blankBefore : Blank before) (starts : Starts written) :
    blanks ++ frame.bracket :: rest ≠ before ++ (written ++ s) := by
  obtain ⟨c, tail, rfl, own⟩ := starts
  intro same
  obtain ⟨rfl, -⟩ := eq_of_blank_append blank blankBefore (isBlank_bracket frame)
    (endsPiece_eq_false_iff.mp own).1 same
  exact Bool.false_ne_true (own.symm.trans (endsPiece_bracket frame))

/-- No comma closes a container. -/
theorem not_closed_of_comma {blanks after : List Char} (blank : Blank blanks)
    (blankAfter : Blank after) : blanks ++ frame.bracket :: rest ≠ after ++ ',' :: s := by
  intro same
  exact bracket_ne_comma frame
    (eq_of_blank_append blank blankAfter (isBlank_bracket frame) (by decide) same).1

/-- A text has one list of entries. -/
theorem Entries.unique (unambiguous : Unambiguous entry) {isFirst : Bool}
    (written : Entries frame.bracket entry isFirst s entries rest)
    (other : Entries frame.bracket entry isFirst t others left) (same : s = t) :
    entries = others ∧ rest = left := by
  have comma : isBlank ',' = false := by decide
  have closes := endsPiece_bracket frame
  have entry_unique {written written' s t left left' : List Char} {e e' : ε} {es es' : List ε}
      (isEntry : entry written e) (isOther : entry written' e')
      (behind : Entries frame.bracket entry false s es left)
      (behindOther : Entries frame.bracket entry false t es' left')
      (same : written ++ s = written' ++ t) : e = e' ∧ s = t :=
    unambiguous.unique isEntry isOther (behind.delimited closes) (behindOther.delimited closes)
      same
  induction written generalizing t others with
  | closed blank =>
      cases other with
      | closed blankOther =>
          exact ⟨rfl, (eq_of_blank_append blank blankOther (isBlank_bracket frame)
            (isBlank_bracket frame) same).2⟩
      | first blankOther isOther _ =>
          exact absurd same (not_closed_of_starts blank blankOther (unambiguous.starts isOther))
      | next blankOther _ _ _ => exact absurd same (not_closed_of_comma blank blankOther)
  | first blank isEntry behind ih =>
      cases other with
      | closed blankOther =>
          exact absurd same.symm
            (not_closed_of_starts blankOther blank (unambiguous.starts isEntry))
      | first blankOther isOther behindOther =>
          obtain ⟨rfl, rfl⟩ := entry_unique isEntry isOther behind behindOther
            (eq_of_blank_append_starts blank blankOther (unambiguous.starts isEntry)
              (unambiguous.starts isOther) same)
          obtain ⟨rfl, rfl⟩ := ih behindOther rfl
          exact ⟨rfl, rfl⟩
  | next blankAfter blank isEntry behind ih =>
      cases other with
      | closed blankOther => exact absurd same.symm (not_closed_of_comma blankOther blankAfter)
      | next blankAfterOther blankOther isOther behindOther =>
          have entered := (eq_of_blank_append blankAfter blankAfterOther comma comma same).2
          obtain ⟨rfl, rfl⟩ := entry_unique isEntry isOther behind behindOther
            (eq_of_blank_append_starts blank blankOther (unambiguous.starts isEntry)
              (unambiguous.starts isOther) entered)
          obtain ⟨rfl, rfl⟩ := ih behindOther rfl
          exact ⟨rfl, rfl⟩

end Containers

/-! ## Arrays and objects -/

theorem Delimited.ends (delimited : Delimited s) (value : List Char) : Ends value s :=
  fun _ _ _ => delimited

theorem unambiguous_value :
    Unambiguous fun written value : List Char => written = value ∧ IsValue value where
  starts := by
    rintro written _ ⟨rfl, isValue⟩
    exact isValue.starts
  unique := by
    rintro written other _ _ s t ⟨rfl, isValue⟩ ⟨rfl, isOther⟩ delimited delimitedOther same
    exact isValue.unique isOther (delimited.ends _) (delimitedOther.ends _) same

theorem SpellsKey.unique {content other : List Char} {key otherKey : String}
    (spells : SpellsKey content key) (spellsOther : SpellsKey other otherKey)
    (same : content ++ '"' :: s = other ++ '"' :: t) : key = otherKey ∧ s = t := by
  have read : readText (content ++ '"' :: s) = .ok (key, s) :=
    readText_eq_ok_iff.mpr ⟨content, spells, rfl⟩
  have readOther : readText (other ++ '"' :: t) = .ok (otherKey, t) :=
    readText_eq_ok_iff.mpr ⟨other, spellsOther, rfl⟩
  rw [same, readOther] at read
  cases read
  exact ⟨rfl, rfl⟩

theorem unambiguous_member :
    Unambiguous fun written (member : String × List Char) =>
      IsMember SpellsKey written member ∧ IsValue member.2 where
  starts := by
    rintro written member ⟨isMember, -⟩
    obtain ⟨inside, rfl⟩ := isMember.exists_quoted
    exact ⟨'"', inside, rfl, by decide⟩
  unique := by
    rintro written other member member' s t ⟨isMember, isValue⟩ ⟨isOther, otherIsValue⟩
      delimited delimitedOther same
    have colon : isBlank ':' = false := by decide
    cases isMember with
    | of spells blankColon blankValue =>
        cases isOther with
        | of spellsOther blankColonOther blankValueOther =>
            simp only [List.cons_append, List.append_assoc, List.cons.injEq, true_and] at same
            obtain ⟨rfl, behindKey⟩ := spells.unique spellsOther same
            have behindColon :=
              (eq_of_blank_append blankColon blankColonOther colon colon behindKey).2
            have values := eq_of_blank_append_starts blankValue blankValueOther isValue.starts
              otherIsValue.starts behindColon
            obtain ⟨rfl, rfl⟩ := isValue.unique otherIsValue (delimited.ends _)
              (delimitedOther.ends _) values
            exact ⟨rfl, rfl⟩

theorem IsArray.unique {text : List Char} {values others : List (List Char)}
    (isArray : IsArray text values) (areValues : ∀ value ∈ values, IsValue value)
    (isOther : IsArray text others) (otherAreValues : ∀ value ∈ others, IsValue value) :
    values = others := by
  obtain ⟨inside, rfl, entries⟩ := isArray
  obtain ⟨inside', same, otherEntries⟩ := isOther
  have first : Entries Frame.list.bracket _ true inside values [] := entries.attach areValues
  have second : Entries Frame.list.bracket _ true inside' others [] :=
    otherEntries.attach otherAreValues
  exact (first.unique unambiguous_value second (List.cons.inj same).2).1

theorem IsObject.unique {text : List Char} {members others : List (String × List Char)}
    (isObject : IsObject text members) (areValues : ∀ member ∈ members, IsValue member.2)
    (isOther : IsObject text others) (otherAreValues : ∀ member ∈ others, IsValue member.2) :
    members = others := by
  obtain ⟨inside, rfl, entries⟩ := isObject
  obtain ⟨inside', same, otherEntries⟩ := isOther
  have first : Entries Frame.object.bracket _ true inside members [] := entries.attach areValues
  have second : Entries Frame.object.bracket _ true inside' others [] :=
    otherEntries.attach otherAreValues
  exact (first.unique unambiguous_member second (List.cons.inj same).2).1

/-! ## Texts -/

/-- A text holds one value. -/
theorem Holds.unique {text : String} {written other : List Char} (holds : Holds text written)
    (isValue : IsValue written) (holdsOther : Holds text other) (isOther : IsValue other) :
    written = other := by
  obtain ⟨before, after, blank, blankAfter, same⟩ := holds
  obtain ⟨spaces, behind, blankOther, blankBehind, sameOther⟩ := holdsOther
  have values : written ++ after = other ++ behind :=
    eq_of_blank_append_starts blank blankOther isValue.starts isOther.starts
      (same.symm.trans sameOther)
  have ends {blanks value : List Char} (blank : Blank blanks) : Ends value blanks := by
    have delimited : Delimited (blanks ++ []) := .blank_append blank delimited_nil
    rw [List.append_nil] at delimited
    exact delimited.ends value
  exact (isValue.unique isOther (ends blankAfter) (ends blankBehind) values).1

theorem HoldsObject.unique {text : String} {members others : List (String × List Char)}
    (holds : HoldsObject text members) (holdsOther : HoldsObject text others) :
    members = others := by
  obtain ⟨written, holds, isObject, areValues⟩ := holds
  obtain ⟨other, holdsOther, isOther, otherAreValues⟩ := holdsOther
  obtain rfl := holds.unique (isObject.isValue areValues) holdsOther
    (isOther.isValue otherAreValues)
  exact isObject.unique areValues isOther otherAreValues

theorem HoldsArray.unique {text : String} {values others : List (List Char)}
    (holds : HoldsArray text values) (holdsOther : HoldsArray text others) : values = others := by
  obtain ⟨written, holds, isArray, areValues⟩ := holds
  obtain ⟨other, holdsOther, isOther, otherAreValues⟩ := holdsOther
  obtain rfl := holds.unique (isArray.isValue areValues) holdsOther
    (isOther.isValue otherAreValues)
  exact isArray.unique areValues isOther otherAreValues

theorem HoldsObject.not_holdsArray {text : String} {members : List (String × List Char)}
    (holds : HoldsObject text members) (values : List (List Char)) :
    ¬HoldsArray text values := by
  rintro ⟨other, holdsOther, isArray, areValues⟩
  obtain ⟨written, holds, isObject, memberValues⟩ := holds
  obtain rfl := holds.unique (isObject.isValue memberValues) holdsOther
    (isArray.isValue areValues)
  obtain ⟨inside, rfl, -⟩ := isObject
  obtain ⟨_, ⟨⟩, -⟩ := isArray

end GrammarUpgrade.Json
