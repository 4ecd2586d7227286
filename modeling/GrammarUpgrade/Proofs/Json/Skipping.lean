import GrammarUpgrade.Proofs.Json.Notation

/-!
# Skipped values

Skipping takes exactly one value off a text, however deep it is nested.  The containers that
are open when a value is over are a list of frames; `Remains` is what such a list still
demands of the text.  One step goes from a value to the next one, `resumeUpTo`.
-/

namespace GrammarUpgrade.Json

open GrammarUpgrade.Decimal (isDigit)

variable {frame : Frame} {frames : List Frame} {s rest : List Char}

/-! ## Steps -/

/-- What skipping does behind a value or an opening bracket. -/
def resumeUpTo (count : Nat) (frames : List Frame) (afterEntry : Bool) (s : List Char) :
    Except Failure (List Char) :=
  match leaveContainers frames afterEntry s with
  | .error failure => .error failure
  | .ok ([], rest) => .ok rest
  | .ok (frame :: outer, rest) =>
      match skipKey frame rest with
      | .error failure => .error failure
      | .ok afterKey => skipUpTo count (frame :: outer) afterKey

theorem skipUpTo_succ (count : Nat) (frames : List Frame) (s : List Char) :
    skipUpTo (count + 1) frames s =
      match skipScalar s with
      | .error failure => .error failure
      | .ok (opened, afterScalar) =>
          resumeUpTo count (opened.toList ++ frames) opened.isNone afterScalar :=
  rfl

theorem resumeUpTo_nil (count : Nat) (afterEntry : Bool) :
    resumeUpTo count [] afterEntry s = .ok s :=
  rfl

theorem bracket_ne_comma (frame : Frame) : frame.bracket ≠ ',' := by
  cases frame <;> decide

theorem isBlank_bracket (frame : Frame) : isBlank frame.bracket = false := by
  cases frame <;> decide

theorem endsPiece_bracket (frame : Frame) : endsPiece frame.bracket = true := by
  cases frame <;> decide

/-- A container ends. -/
theorem resumeUpTo_closed {blanks : List Char} (blank : Blank blanks) (count : Nat)
    (afterEntry : Bool) :
    resumeUpTo count (frame :: frames) afterEntry (blanks ++ frame.bracket :: s) =
      resumeUpTo count frames true s := by
  rw [resumeUpTo, resumeUpTo, leaveContainers, skipBlanks_append blank,
    skipBlanks_cons (isBlank_bracket frame)]
  simp [bracket_ne_comma]

/-- Another entry follows. -/
theorem resumeUpTo_next {after : List Char} (blank : Blank after) {count : Nat}
    {afterKey : List Char} (key : skipKey frame s = .ok afterKey) :
    resumeUpTo count (frame :: frames) true (after ++ ',' :: s) =
      skipUpTo count (frame :: frames) afterKey := by
  have comma : isBlank ',' = false := by decide
  rw [resumeUpTo, leaveContainers, skipBlanks_append blank, skipBlanks_cons comma]
  simp [key]

/-- A container has a first entry. -/
theorem resumeUpTo_first {before : List Char} (blank : Blank before) (starts : Starts s)
    {count : Nat} {afterKey : List Char} (key : skipKey frame s = .ok afterKey) :
    resumeUpTo count (frame :: frames) false (before ++ s) =
      skipUpTo count (frame :: frames) afterKey := by
  obtain ⟨c, tail, rfl, own⟩ := starts
  obtain ⟨notBlank, _, notList, notObject⟩ := endsPiece_eq_false_iff.mp own
  have opens : c ≠ frame.bracket := by
    cases frame
    · exact notList
    · exact notObject
  rw [resumeUpTo, leaveContainers, skipBlanks_append blank, skipBlanks_cons notBlank]
  simp [opens, key]

/-! ## A value is skipped -/

/-- Skipping goes on behind a value and stops in the end; the length of the text is enough
fuel. -/
def Resumes (frames : List Frame) (afterEntry : Bool) (s rest : List Char) : Prop :=
  ∀ count, s.length < count → resumeUpTo count frames afterEntry s = .ok rest

/-- Skipping a value inside open containers stops in the end. -/
def Skips (frames : List Frame) (s rest : List Char) : Prop :=
  ∀ count, s.length < count → skipUpTo count frames s = .ok rest

theorem Skips.of_skipScalar {opened : Option Frame} {after : List Char}
    (scalar : skipScalar s = .ok (opened, after)) (shorter : after.length < s.length)
    (resumes : Resumes (opened.toList ++ frames) opened.isNone after rest) :
    Skips frames s rest := by
  intro count enough
  obtain ⟨more, rfl⟩ := Nat.exists_eq_add_one.mpr (Nat.zero_lt_of_lt enough)
  rw [skipUpTo_succ, scalar]
  exact resumes more (by omega)

/-- What stands around a value in a container is skipped as a key. -/
theorem skipKey_of_wraps {written value before : List Char} (blank : Blank before)
    (wraps : frame.Wraps written value) (s : List Char) :
    ∃ blanks, Blank blanks ∧
      skipKey frame (before ++ (written ++ s)) = .ok (blanks ++ (value ++ s)) ∧
      (blanks ++ (value ++ s)).length ≤ (before ++ (written ++ s)).length := by
  cases frame with
  | list =>
      obtain rfl : written = value := wraps
      exact ⟨before, blank, rfl, Nat.le_refl _⟩
  | object =>
      cases wraps with
      | @of content blanks spaces _ _ isText blankColon blankValue =>
          have quote : isBlank '"' = false := by decide
          have colon : readColon (blanks ++ ':' :: (spaces ++ (value ++ s))) =
              .ok (spaces ++ (value ++ s)) := readColon_eq_ok_iff.mpr ⟨blanks, blankColon, rfl⟩
          have text : skipText (content ++ '"' :: (blanks ++ ':' :: (spaces ++ (value ++ s)))) =
              .ok (blanks ++ ':' :: (spaces ++ (value ++ s))) :=
            skipText_eq_ok_iff.mpr ⟨content, isText, rfl⟩
          refine ⟨spaces, blankValue, ?_, ?_⟩
          · rw [skipKey, skipBlanks_append blank]
            simp [skipBlanks_cons quote, text, Except.bind, colon]
          · simp only [List.length_append, List.length_cons]
            omega

theorem Frame.Wraps.starts {written value : List Char} (wraps : frame.Wraps written value)
    (isValue : IsValue value) : Starts written := by
  cases frame with
  | list =>
      obtain rfl : written = value := wraps
      exact isValue.starts
  | object =>
      cases wraps with
      | of => exact ⟨'"', _, rfl, by decide⟩

theorem Starts.append {written : List Char} (starts : Starts written) (s : List Char) :
    Starts (written ++ s) := by
  obtain ⟨c, tail, rfl, own⟩ := starts
  exact ⟨c, tail ++ s, rfl, own⟩

/-- What follows a value cannot be taken for a part of it; only numbers need a delimiter. -/
def Ends (value s : List Char) : Prop :=
  ∀ c ∈ value.head?, (c = '-' || isDigit c) = true → Delimited s

/-- A value is skipped wherever it stands. -/
def IsSkipped (value : List Char) : Prop :=
  ∀ {frames before s rest}, Blank before → Ends value s → Resumes frames true s rest →
    Skips frames (before ++ (value ++ s)) rest

/-- Skipping goes through all entries of a container. -/
theorem resumes_of_entries {isFirst : Bool} {t : List Char} {values : List (List Char)}
    (entries : Entries frame.bracket frame.Wraps isFirst t values s)
    (isValue : ∀ value ∈ values, IsValue value) (skipped : ∀ value ∈ values, IsSkipped value)
    (resumes : Resumes frames true s rest) : Resumes (frame :: frames) (!isFirst) t rest := by
  induction entries with
  | closed blank =>
      intro count enough
      rw [resumeUpTo_closed blank]
      simp only [List.length_append, List.length_cons] at enough
      exact resumes count (by omega)
  | @first before written t _ value others blank wraps behind ih =>
      obtain ⟨firstIsValue, othersAreValues⟩ := List.forall_mem_cons.mp isValue
      obtain ⟨skippedFirst, skippedOthers⟩ := List.forall_mem_cons.mp skipped
      obtain ⟨blanks, blankKey, key, noLonger⟩ :=
        skipKey_of_wraps (List.forall_mem_nil _) wraps t
      have delimited := behind.delimited (endsPiece_bracket frame)
      intro count enough
      refine (resumeUpTo_first blank ((wraps.starts firstIsValue).append t) key).trans ?_
      refine skippedFirst blankKey (fun _ _ _ => delimited)
        (ih othersAreValues skippedOthers resumes) count ?_
      simp only [List.nil_append, List.length_append] at noLonger enough ⊢
      omega
  | @next after before written t _ value others blankAfter blank wraps behind ih =>
      obtain ⟨_, othersAreValues⟩ := List.forall_mem_cons.mp isValue
      obtain ⟨skippedFirst, skippedOthers⟩ := List.forall_mem_cons.mp skipped
      obtain ⟨blanks, blankKey, key, noLonger⟩ := skipKey_of_wraps blank wraps t
      have delimited := behind.delimited (endsPiece_bracket frame)
      intro count enough
      refine (resumeUpTo_next blankAfter key).trans ?_
      rw [List.length_append, List.length_cons] at enough
      exact skippedFirst blankKey (fun _ _ _ => delimited)
        (ih othersAreValues skippedOthers resumes) count (by omega)

theorem skipNumber_append {written : List Char} {numeral : Numeral}
    (spells : SpellsNumeral written numeral) (delimited : Delimited s) :
    skipNumber (written ++ s) = .ok s := by
  -- The sign has been read and makes no difference to the digits.
  obtain ⟨isWhole, spellsFraction, spellsExponent⟩ := spells
  have unsigned : SpellsNumeral _ ⟨false, _, _, _⟩ :=
    .parts isWhole spellsFraction spellsExponent
  rw [skipNumber, readNumeral_append unsigned delimited]
  rfl

theorem skipScalar_append {before : List Char} (blank : Blank before) (s : List Char) :
    skipScalar (before ++ s) = skipScalar s := by
  rw [skipScalar, skipScalar, skipBlanks_append blank]

theorem skipScalar_cons {c : Char} (own : endsPiece c = false) :
    skipScalar (c :: s) =
      if c = 'n' then (readWord "ull".toList s).map (none, ·)
      else if c = 't' then (readWord "rue".toList s).map (none, ·)
      else if c = 'f' then (readWord "alse".toList s).map (none, ·)
      else if c = '-' then (skipNumber s).map (none, ·)
      else if isDigit c then (skipNumber (c :: s)).map (none, ·)
      else if c = '"' then (skipText s).map (none, ·)
      else if c = '[' then .ok (some .list, s)
      else if c = '\x7b' then .ok (some .object, s)
      else .error (.peeked .expectedValue (c :: s)) := by
  rw [skipScalar, skipBlanks_cons (endsPiece_eq_false_iff.mp own).1]

/-- A value without parts is skipped in one step. -/
theorem isSkipped_of_skipScalar {c : Char} {value : List Char}
    (scalar : ∀ {s}, Ends (c :: value) s → skipScalar (c :: (value ++ s)) = .ok (none, s)) :
    IsSkipped (c :: value) := by
  intro frames before s rest blank ends resumes
  have skipped : skipScalar (before ++ (c :: value ++ s)) = .ok (none, s) :=
    (skipScalar_append blank _).trans (scalar ends)
  refine .of_skipScalar skipped ?_ resumes
  simp only [List.length_append, List.length_cons]
  omega

/-- Every value is skipped. -/
theorem IsValue.isSkipped {value : List Char} (isValue : IsValue value) : IsSkipped value := by
  induction isValue with
  | nullWord | trueWord | falseWord => exact isSkipped_of_skipScalar fun _ => rfl
  | number spells =>
      obtain ⟨c, tail, rfl, digit⟩ := spells.exists_digit
      refine isSkipped_of_skipScalar fun ends => ?_
      have begins : (c = '-' || isDigit c) = true := by simp [digit]
      obtain ⟨own, notNull, notTrue, notFalse⟩ := begins_number begins
      have notMinus : c ≠ '-' := by
        rintro rfl
        cases digit
      have skipped := skipNumber_append spells (ends c rfl begins)
      rw [List.cons_append] at skipped
      simp only [skipScalar_cons own, notNull, notTrue, notFalse, notMinus, digit, if_false,
        if_true, skipped]
      rfl
  | negative spells =>
      refine isSkipped_of_skipScalar fun ends => ?_
      have skipped := skipNumber_append spells (ends '-' rfl rfl)
      rw [skipScalar_cons (by decide), if_neg (by decide), if_neg (by decide),
        if_neg (by decide), if_pos rfl, skipped]
      rfl
  | @string content isText =>
      refine isSkipped_of_skipScalar fun {s} _ => ?_
      have skipped : skipText (content ++ '"' :: s) = .ok s :=
        skipText_eq_ok_iff.mpr ⟨content, isText, rfl⟩
      have own : endsPiece '"' = false := by decide
      have notDigit : isDigit '"' = false := by decide
      simp [skipScalar_cons own, notDigit, skipped, Except.map]
  | @container frame inside values entries isValue skipped =>
      intro frames before s rest blank _ resumes
      have opens : skipScalar (before ++ (frame.opening :: inside ++ s)) =
          .ok (some frame, inside ++ s) := by
        rw [skipScalar_append blank, List.cons_append]
        cases frame <;> rfl
      refine .of_skipScalar opens ?_ ?_
      · simp only [List.length_append, List.length_cons]
        omega
      · exact resumes_of_entries (entries.append s) isValue skipped resumes

theorem skipValue_append {before value : List Char} (blank : Blank before)
    (isValue : IsValue value) (ends : Ends value rest) :
    skipValue (before ++ (value ++ rest)) = .ok rest := by
  have resumes : Resumes [] true rest rest := fun count _ => resumeUpTo_nil count true
  exact isValue.isSkipped blank ends resumes _ (Nat.lt_succ_self _)

/-! ## Only values are skipped -/

/-- What a list of open containers, the innermost first, still demands of the text behind an
entry. -/
inductive Remains : List Frame → List Char → List Char → Prop
  | nil (rest : List Char) : Remains [] rest rest
  | cons {frame : Frame} {outer : List Frame} {t s rest : List Char}
      {values : List (List Char)} (behind : Entries frame.bracket frame.Wraps false t values s)
      (isValue : ∀ value ∈ values, IsValue value) (remains : Remains outer s rest) :
      Remains (frame :: outer) t rest

/-- What a skipped text begins with: a value, and what the open containers demand. -/
def SkipsValue (frames : List Frame) (s rest : List Char) : Prop :=
  ∃ before value t, Blank before ∧ IsValue value ∧ s = before ++ (value ++ t) ∧
    Remains frames t rest

theorem of_skipKey {afterKey before value t : List Char}
    (key : skipKey frame s = .ok afterKey) (blank : Blank before)
    (text : afterKey = before ++ (value ++ t)) :
    ∃ blanks written, Blank blanks ∧ frame.Wraps written value ∧
      s = blanks ++ (written ++ t) := by
  cases frame with
  | list =>
      cases key
      exact ⟨before, value, blank, rfl, text⟩
  | object =>
      rw [skipKey] at key
      split at key
      · cases key
      rename_i c inside next
      obtain ⟨-, blanks, blankKey, rfl⟩ := exists_blanks_of_eq_cons next
      split at key
      · rename_i quote
        subst quote
        cases skipped : skipText inside with
        | error failure =>
            rw [skipped] at key
            cases key
        | ok afterQuote =>
            rw [skipped] at key
            obtain ⟨content, isText, rfl⟩ := skipText_eq_ok_iff.mp skipped
            obtain ⟨spaces, blankColon, rfl⟩ := readColon_eq_ok_iff.mp key
            subst text
            exact ⟨blanks, _, blankKey, .of isText blankColon blank, by simp⟩
      · cases key

/-- Behind an entry the container ends or another entry follows. -/
theorem resumeUpTo_entry_cases {count : Nat}
    (resumed : resumeUpTo count (frame :: frames) true s = .ok rest) :
    (∃ blanks later, Blank blanks ∧ s = blanks ++ frame.bracket :: later ∧
      resumeUpTo count frames true later = .ok rest) ∨
    ∃ blanks later afterKey, Blank blanks ∧ s = blanks ++ ',' :: later ∧
      skipKey frame later = .ok afterKey ∧
      skipUpTo count (frame :: frames) afterKey = .ok rest := by
  cases next : skipBlanks s with
  | nil => simp [resumeUpTo, leaveContainers, next] at resumed
  | cons c later =>
      obtain ⟨-, blanks, blank, rfl⟩ := exists_blanks_of_eq_cons next
      by_cases closes : c = frame.bracket
      · subst closes
        rw [resumeUpTo_closed blank] at resumed
        exact .inl ⟨blanks, later, blank, rfl, resumed⟩
      rw [resumeUpTo, leaveContainers, next] at resumed
      by_cases comma : c = ','
      · subst comma
        simp only [decide_true, Bool.and_self, if_true] at resumed
        split at resumed
        · cases resumed
        rename_i afterKey key
        exact .inr ⟨blanks, later, afterKey, blank, rfl, key, resumed⟩
      · simp [comma, closes] at resumed

/-- Behind its opening bracket a container ends or has an entry. -/
theorem resumeUpTo_opened_cases {count : Nat}
    (resumed : resumeUpTo count (frame :: frames) false s = .ok rest) :
    (∃ blanks later, Blank blanks ∧ s = blanks ++ frame.bracket :: later ∧
      resumeUpTo count frames true later = .ok rest) ∨
    ∃ blanks later afterKey, Blank blanks ∧ s = blanks ++ later ∧
      skipKey frame later = .ok afterKey ∧
      skipUpTo count (frame :: frames) afterKey = .ok rest := by
  cases next : skipBlanks s with
  | nil => simp [resumeUpTo, leaveContainers, next] at resumed
  | cons c later =>
      obtain ⟨-, blanks, blank, rfl⟩ := exists_blanks_of_eq_cons next
      by_cases closes : c = frame.bracket
      · subst closes
        rw [resumeUpTo_closed blank] at resumed
        exact .inl ⟨blanks, later, blank, rfl, resumed⟩
      · rw [resumeUpTo, leaveContainers, next] at resumed
        simp only [Bool.and_false, Bool.false_eq_true, closes, if_false] at resumed
        split at resumed
        · cases resumed
        rename_i afterKey key
        exact .inr ⟨blanks, c :: later, afterKey, blank, rfl, key, resumed⟩

/-- Behind a value come the other entries of the open containers. -/
theorem of_resumeUpTo {count : Nat}
    (skips : ∀ {frames s}, skipUpTo count frames s = .ok rest → SkipsValue frames s rest)
    (resumed : resumeUpTo count frames true s = .ok rest) : Remains frames s rest := by
  induction frames generalizing s with
  | nil =>
      cases resumed
      exact .nil _
  | cons frame outer ih =>
      rcases resumeUpTo_entry_cases resumed with
        ⟨blanks, later, blank, rfl, closed⟩ | ⟨blanks, later, afterKey, blank, rfl, key, skipped⟩
      · exact .cons (.closed blank) (List.forall_mem_nil _) (ih closed)
      · obtain ⟨before, value, t, blankBefore, isValue, text, remains⟩ := skips skipped
        obtain ⟨spaces, written, blankKey, wraps, rfl⟩ := of_skipKey key blankBefore text
        cases remains with
        | cons behind areValues remains =>
            exact .cons (.next blank blankKey wraps behind)
              (List.forall_mem_cons.mpr ⟨isValue, areValues⟩) remains

/-- Behind an opening bracket comes the rest of the container, and then what the containers
around it demand. -/
theorem of_resumeUpTo_opened {count : Nat}
    (skips : ∀ {frames s}, skipUpTo count frames s = .ok rest → SkipsValue frames s rest)
    (resumed : resumeUpTo count (frame :: frames) false s = .ok rest) :
    ∃ inside t, IsValue (frame.opening :: inside) ∧ s = inside ++ t ∧ Remains frames t rest := by
  rcases resumeUpTo_opened_cases resumed with
    ⟨blanks, later, blank, rfl, closed⟩ | ⟨blanks, later, afterKey, blank, rfl, key, skipped⟩
  · exact ⟨_, later, .container (.closed blank) (List.forall_mem_nil _), by simp,
      of_resumeUpTo skips closed⟩
  · obtain ⟨before, value, t, blankBefore, isValue, text, remains⟩ := skips skipped
    obtain ⟨spaces, written, blankKey, wraps, rfl⟩ := of_skipKey key blankBefore text
    cases remains with
    | cons behind areValues remains =>
        have entries := (Entries.first blankKey wraps behind).blank_append blank
        obtain ⟨inside, inner, same⟩ := entries.exists_inside
        exact ⟨inside, _, .container inner (List.forall_mem_cons.mpr ⟨isValue, areValues⟩),
          same, remains⟩

theorem of_skipNumber (skipped : skipNumber s = .ok rest) :
    ∃ numeral written, SpellsNumeral written numeral ∧ s = written ++ rest := by
  obtain ⟨⟨numeral, left⟩, read, same⟩ := of_map_eq_ok skipped
  cases same
  obtain ⟨-, written, spells, text⟩ := of_readNumeral read
  exact ⟨numeral, written, spells, text⟩

/-- What a single step of skipping takes: a value without parts or an opening bracket. -/
def Takes (opened : Option Frame) (s after : List Char) : Prop :=
  match opened with
  | none => ∃ value, IsValue value ∧ s = value ++ after
  | some frame => s = frame.opening :: after

theorem takes_of_map {result : Except Failure (List Char)} {opened : Option Frame}
    {after : List Char} (scalar : result.map (none, ·) = .ok (opened, after))
    (takes : result = .ok after → ∃ value, IsValue value ∧ s = value ++ after) :
    Takes opened s after := by
  obtain ⟨left, taken, same⟩ := of_map_eq_ok scalar
  cases same
  exact takes taken

theorem of_skipScalar {opened : Option Frame} {after : List Char}
    (scalar : skipScalar s = .ok (opened, after)) :
    ∃ before t, Blank before ∧ s = before ++ t ∧ Takes opened t after := by
  rw [skipScalar] at scalar
  split at scalar
  · cases scalar
  rename_i c later next
  obtain ⟨-, blanks, blank, rfl⟩ := exists_blanks_of_eq_cons next
  refine ⟨blanks, c :: later, blank, rfl, ?_⟩
  -- Null, the two truth values, numbers and strings come first, then the brackets.
  split at scalar
  · subst c
    exact takes_of_map scalar fun word => ⟨_, .nullWord, by rw [readWord_eq_ok_iff.mp word]; rfl⟩
  split at scalar
  · subst c
    exact takes_of_map scalar fun word => ⟨_, .trueWord, by rw [readWord_eq_ok_iff.mp word]; rfl⟩
  split at scalar
  · subst c
    exact takes_of_map scalar fun word => ⟨_, .falseWord, by rw [readWord_eq_ok_iff.mp word]; rfl⟩
  split at scalar
  · subst c
    refine takes_of_map scalar fun skipped => ?_
    obtain ⟨numeral, written, spells, rfl⟩ := of_skipNumber skipped
    exact ⟨_, .negative spells, rfl⟩
  split at scalar
  · refine takes_of_map scalar fun skipped => ?_
    obtain ⟨numeral, written, spells, text⟩ := of_skipNumber skipped
    exact ⟨_, .number spells, text⟩
  split at scalar
  · subst c
    refine takes_of_map scalar fun skipped => ?_
    obtain ⟨content, isText, rfl⟩ := skipText_eq_ok_iff.mp skipped
    exact ⟨_, .string isText, by simp⟩
  split at scalar
  · subst c
    cases scalar
    rfl
  split at scalar
  · subst c
    cases scalar
    rfl
  · cases scalar

/-- Only a value is skipped. -/
theorem of_skipUpTo {count : Nat} (skipped : skipUpTo count frames s = .ok rest) :
    SkipsValue frames s rest := by
  induction count generalizing frames s with
  | zero => cases skipped
  | succ count ih =>
      rw [skipUpTo_succ] at skipped
      split at skipped
      · cases skipped
      rename_i opened after scalar
      obtain ⟨before, t, blank, rfl, takes⟩ := of_skipScalar scalar
      cases opened with
      | none =>
          obtain ⟨value, isValue, rfl⟩ := takes
          exact ⟨before, value, after, blank, isValue, rfl, of_resumeUpTo ih skipped⟩
      | some frame =>
          obtain rfl : t = frame.opening :: after := takes
          obtain ⟨inside, t, isValue, rfl, remains⟩ := of_resumeUpTo_opened ih skipped
          exact ⟨before, _, t, blank, isValue, rfl, remains⟩

/-- Skipping takes exactly one value. -/
theorem of_skipValue (skipped : skipValue s = .ok rest) :
    ∃ before value, Blank before ∧ IsValue value ∧ s = before ++ (value ++ rest) := by
  obtain ⟨before, value, t, blank, isValue, text, remains⟩ := of_skipUpTo skipped
  cases remains
  exact ⟨before, value, blank, isValue, text⟩

end GrammarUpgrade.Json
