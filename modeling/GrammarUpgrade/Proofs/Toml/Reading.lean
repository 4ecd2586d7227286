import GrammarUpgrade.Proofs.Toml.Words
import Mathlib.Data.List.Forall2

/-!
# Texts that are read

A text that is read is written in the notation: there are statements that it spells, and the
draft of the document takes up one after the other.  `exists_follows_of_ofText` is the main
statement; `Means` is what a written value has to do with the one that is kept.
-/

namespace GrammarUpgrade.Toml

open GrammarUpgrade.Json (of_map_eq_ok)

/-! ## Meanings -/

/-- Whether a value is a number, a truth value, a date or a time. -/
def Value.isOther : Value → Bool
  | .integer .. | .real .. | .boolean .. | .dateTime .. => true
  | _ => false

/-- A pair between braces and the assignment that is made of it. -/
inductive Assigns (means : Term → Value → Prop) : List String × Term → Assignment → Prop
  | of {way : List Key} {last : Key} {term : Term} {value : Value} (valued : means term value) :
      Assigns means (names (way ++ [last]), term) ⟨way, last, value⟩

/-- A value as it is written and as it is kept.  The pairs between braces are added one by
one. -/
inductive Means : Term → Value → Prop
  | string {text : String} {span : Span} : Means (.string text) (.string span text)
  | other {value : Value} (isOther : value.isOther = true) : Means .other value
  | array {items : List Term} {span : Span} {values : List Value}
      (each : List.Forall₂ Means items values) : Means (.array items) (.array span values)
  | braces {pairs : List (List String × Term)} {assignments : List Assignment}
      {span : Option Span} {members : Members}
      (each : List.Forall₂ (Assigns Means) pairs assignments)
      (made : Members.ofAssignments assignments = .ok members) :
      Means (.braces pairs) (.table .braces span members)

/-- What a statement does to a draft. -/
inductive Takes : Draft → Statement → Draft → Prop
  | entry {draft next : Draft} {way : List Key} {last : Key} {term : Term} {value : Value}
      (means : Means term value) (assigned : draft.assign way last value = .ok next) :
      Takes draft (.entry (names (way ++ [last])) term) next
  | header {draft next : Draft} {way : List Key} {last : Key} {span : Span}
      (opened : draft.openTable way last span = .ok next) :
      Takes draft (.header false (names (way ++ [last]))) next
  | repeated {draft next : Draft} {way : List Key} {last : Key} {span : Span}
      (opened : draft.openRepeated way last span = .ok next) :
      Takes draft (.header true (names (way ++ [last]))) next

/-- Statements one after the other. -/
inductive Follows : Draft → List Statement → Draft → Prop
  | done {draft : Draft} : Follows draft [] draft
  | step {draft next final : Draft} {statement : Statement} {others : List Statement}
      (takes : Takes draft statement next) (behind : Follows next others final) :
      Follows draft (statement :: others) final

/-! ## Blanks and comments -/

/-- What comes next after blanks is not part of a number or its like. -/
def Ended (s : List Char) : Prop :=
  ∀ c ∈ (skipSpaces s).head?, isWordChar c = false

theorem skipSpaces_cons {c : Char} (isBlank : isSpace c = true) (s : List Char) :
    skipSpaces (c :: s) = skipSpaces s :=
  List.dropWhile_cons_of_pos isBlank

theorem skipSpaces_of_not_isSpace {c : Char} (notBlank : isSpace c = false) (s : List Char) :
    skipSpaces (c :: s) = c :: s :=
  List.dropWhile_cons_of_neg (by simp [notBlank])

theorem ended_of_skipSpaces_eq {c : Char} {s rest : List Char} (next : skipSpaces s = c :: rest)
    (notWord : isWordChar c = false) : Ended s := by
  intro d mem
  rw [next] at mem
  exact Option.some.inj mem ▸ notWord

/-- A line break or a comment comes next. -/
theorem exists_cons_of_newline? {s rest : List Char}
    (broken : newline? (skipComment? s) = some rest) :
    ∃ c after, s = c :: after ∧ isSpace c = false ∧ isWordChar c = false := by
  cases s with
  | nil => cases broken
  | cons c after =>
      refine ⟨c, after, rfl, ?_⟩
      by_cases comment : c = '#'
      · subst comment
        decide
      · have same : skipComment? (c :: after) = c :: after := by
          rw [skipComment?]
          simpa using comment
        rw [same, newline?.eq_def] at broken
        split at broken
        · rename_i first
          obtain rfl := (List.cons.inj first).1
          decide
        · rename_i first
          obtain rfl := (List.cons.inj first).1
          decide
        · cases broken

namespace Gap

variable {c : Char} {s t rest : List Char}

theorem of_skipSpaces (gap : Gap (skipSpaces s) t) : Gap s t := by
  induction s with
  | nil => exact gap
  | cons c s ih =>
      by_cases isBlank : isSpace c = true
      · rw [skipSpaces_cons isBlank] at gap
        exact .blank isBlank (ih gap)
      · rwa [skipSpaces_of_not_isSpace (by simpa using isBlank)] at gap

/-- A gap begins with its blanks, and then something follows that no number contains. -/
theorem behind_blanks (gap : Gap s (c :: rest)) (notWord : isWordChar c = false) :
    Gap (skipSpaces s) (c :: rest) ∧ Ended s := by
  have notBlank : isSpace c = false := by
    simp only [isWordChar, Bool.or_eq_false_iff] at notWord
    exact notWord.2
  generalize behind : c :: rest = t at gap
  induction gap with
  | done =>
      subst behind
      have same := skipSpaces_of_not_isSpace notBlank rest
      refine ⟨?_, ended_of_skipSpaces_eq same notWord⟩
      rw [same]
      exact .done
  | blank isBlank _ ih =>
      obtain ⟨gap, ended⟩ := ih behind
      rw [Ended, skipSpaces_cons isBlank]
      exact ⟨gap, ended⟩
  | line broken others _ =>
      obtain ⟨d, after, rfl, notBlank, notWord⟩ := exists_cons_of_newline? broken
      have same := skipSpaces_of_not_isSpace notBlank after
      refine ⟨?_, ended_of_skipSpaces_eq same notWord⟩
      rw [same]
      exact .line broken others

/-- Only what follows the blanks matters. -/
theorem of_skipSpaces_eq (gap : Gap s (c :: rest)) (notWord : isWordChar c = false)
    (same : skipSpaces t = skipSpaces s) : Gap t (c :: rest) :=
  .of_skipSpaces (same ▸ (gap.behind_blanks notWord).1)

end Gap

/-- A line break is read as it is, and after a comment. -/
theorem newline?_skipComment?_of_readNewline {c : Char} {after rest : List Char}
    (read : readNewline (if c = '#' then skipComment after else c :: after) = .ok rest) :
    newline? (skipComment? (c :: after)) = some rest := by
  have same : (if c = '#' then skipComment after else c :: after) = skipComment? (c :: after) := by
    split
    · rename_i comment
      rw [comment, skipComment?]
    · rename_i noComment
      rw [skipComment?]
      simpa using noComment
  rw [same, readNewline] at read
  split at read
  · cases read
    assumption
  · cases read

theorem gap_of_skipBetweenUpTo {count : Nat} {s rest : List Char}
    (read : skipBetweenUpTo count s = .ok rest) : Gap s rest := by
  induction count generalizing s with
  | zero =>
      cases read
      exact .done
  | succ count ih =>
      rw [skipBetweenUpTo.eq_def] at read
      simp only at read
      split at read
      · cases read
        exact .done
      rename_i c after
      split at read
      · rename_i isBlank
        exact .blank isBlank (ih read)
      split at read
      · split at read
        · cases read
        · rename_i left broken
          exact .line (newline?_skipComment?_of_readNewline broken) (ih read)
      · cases read
        exact .done

/-! ## Values -/

/-- What a value that is read is written as.  Blanks after a number or its like count as
written with it. -/
def IsRead (s rest : List Char) (value : Value) : Prop :=
  ∃ term t, Spells term s t ∧ skipSpaces t = skipSpaces rest ∧ Means term value

theorem IsRead.of_spells {term : Term} {s rest : List Char} {value : Value}
    (spelled : Spells term s rest) (means : Means term value) : IsRead s rest value :=
  ⟨term, rest, spelled, rfl, means⟩

theorem IsRead.other {s rest : List Char} {value : Value}
    (begins : s.head?.any beginsWord = true) (uses : Uses s rest) (ended : Ended rest)
    (isOther : value.isOther = true) : IsRead s rest value :=
  ⟨.other, _, .other begins, by rw [uses.dropWhile_isWordChar ended, skipSpaces_skipSpaces],
    .other isOther⟩

/-- A reader of values finds what is written. -/
def Finds (reader : List Char → Reading Value) : Prop :=
  ∀ ⦃s value rest⦄, reader s = .ok (value, rest) → Ended rest → IsRead s rest value

section

variable {reader : List Char → Reading Value} {count : Nat} {s rest : List Char}

theorem exists_spellsItems_of_readItemsUpTo (finds : Finds reader) {values : List Value}
    (read : readItemsUpTo reader count s = .ok (values, rest)) :
    ∃ items, SpellsItems items s rest ∧ List.Forall₂ Means items values := by
  induction count generalizing s values with
  | zero => cases read
  | succ count ih =>
      rw [readItemsUpTo] at read
      split at read
      · cases read
      · rename_i gap
        cases read
        exact ⟨[], .closed (gap_of_skipBetweenUpTo gap), .nil⟩
      rename_i start _ gap
      have before := gap_of_skipBetweenUpTo gap
      split at read
      · cases read
      split at read
      · cases read
      rename_i first afterFirst readFirst
      split at read
      · cases read
      · rename_i afterComma gapAfter
        have after := gap_of_skipBetweenUpTo gapAfter
        split at read
        · cases read
        rename_i others last readOthers
        cases read
        obtain ⟨item, t, spelled, same, means⟩ :=
          finds readFirst (after.behind_blanks (by decide)).2
        obtain ⟨items, spelledOthers, each⟩ := ih readOthers
        exact ⟨item :: items, .next before spelled (after.of_skipSpaces_eq (by decide) same)
          spelledOthers, .cons means each⟩
      · rename_i gapAfter
        have after := gap_of_skipBetweenUpTo gapAfter
        cases read
        obtain ⟨item, t, spelled, same, means⟩ :=
          finds readFirst (after.behind_blanks (by decide)).2
        exact ⟨[item], .last before spelled (after.of_skipSpaces_eq (by decide) same),
          .cons means .nil⟩
      · cases read

/-- Pairs that are read up to the closing brace; there may be none. -/
theorem exists_spellsPairs_of_readPairsUpTo (finds : Finds reader)
    {assignments : List Assignment} {stop left : List Char}
    (read : readPairsUpTo reader count stop s = .ok (assignments, left))
    (closes : skipSpaces left = '\x7d' :: rest) :
    (assignments = [] ∧ left = stop) ∨
      ∃ pair pairs, SpellsPairs (pair :: pairs) s rest ∧
        List.Forall₂ (Assigns Means) (pair :: pairs) assignments := by
  induction count generalizing stop s assignments with
  | zero =>
      cases read
      exact .inl ⟨rfl, rfl⟩
  | succ count ih =>
      rw [readPairsUpTo.eq_def] at read
      simp only at read
      split at read
      · cases read
        exact .inl ⟨rfl, rfl⟩
      · cases read
        exact .inl ⟨rfl, rfl⟩
      · cases read
      · rename_i way last afterMark _ readKey
        refine .inr ?_
        have key := spellsKey_of_readKey readKey
        split at read
        · cases read
        rename_i value afterValue readValue
        split at read
        · rename_i afterComma comma
          split at read
          · cases read
          rename_i others after readOthers
          cases read
          obtain ⟨term, t, spelled, same, means⟩ :=
            finds readValue (ended_of_skipSpaces_eq comma (by decide))
          rcases ih readOthers with ⟨-, rfl⟩ | ⟨pair, pairs, spelledOthers, each⟩
          · cases closes
          · exact ⟨_, pair :: pairs, .next key spelled (same.trans comma) spelledOthers,
              .cons (.of means) each⟩
        · cases read
          rw [skipSpaces_skipSpaces] at closes
          obtain ⟨term, t, spelled, same, means⟩ :=
            finds readValue (ended_of_skipSpaces_eq closes (by decide))
          exact ⟨_, [], .last key spelled (same.trans closes), .cons (.of means) .nil⟩
      · cases read

theorem exists_spellsPairs_of_readBraces (finds : Finds reader) {members : Members}
    (read : readBraces reader s = .ok (members, rest)) :
    ∃ pairs assignments, SpellsPairs pairs s rest ∧ List.Forall₂ (Assigns Means) pairs assignments ∧
      Members.ofAssignments assignments = .ok members := by
  rw [readBraces] at read
  split at read
  · cases read
  rename_i assignments left readPairs
  split at read
  · cases read
  rename_i found made
  split at read
  · rename_i brace
    cases read
    rcases exists_spellsPairs_of_readPairsUpTo finds readPairs brace with
      ⟨rfl, rfl⟩ | ⟨pair, pairs, spelled, each⟩
    · exact ⟨[], [], .closed brace, .nil, made⟩
    · exact ⟨_, _, spelled, each, made⟩
  · cases read

end

/-- A number begins with a character of its own. -/
theorem beginsWord_of_beginsNumber {s : List Char} (begins : beginsNumber s = true) :
    s.head?.any beginsWord = true := by
  cases s with
  | nil => cases begins
  | cons c rest =>
      simp only [beginsNumber, beginsUnsigned] at begins
      split at begins
      · rename_i sign
        simp only [Bool.or_eq_true, decide_eq_true_eq] at sign
        rcases sign with rfl | rfl <;> rfl
      · simp only [Bool.or_eq_true, List.isPrefixOf_iff_prefix] at begins
        rcases begins with (digit | infinite) | noNumber
        · exact beginsWord_of_isDigit digit
        · obtain ⟨others, same⟩ := infinite
          cases same
          rfl
        · obtain ⟨others, same⟩ := noNumber
          cases same
          rfl

theorem beginsWord_of_numeral {c : Char} {after : List Char}
    (numeral : (c = '+' || c = '-' || beginsNumber (c :: after)) = true) :
    (c :: after).head?.any beginsWord = true := by
  simp only [Bool.or_eq_true, decide_eq_true_eq] at numeral
  rcases numeral with (rfl | rfl) | begins
  · rfl
  · rfl
  · exact beginsWord_of_beginsNumber begins

/-- One value, when those inside of it are found. -/
theorem isRead_of_readValue {depth : Nat} {s rest : List Char} {value : Value}
    (inside : ∀ less, depth = less + 1 → Finds (readValue less))
    (read : readValue depth s = .ok (value, rest)) (ended : Ended rest) :
    IsRead s rest value := by
  rw [readValue.eq_def] at read
  split at read
  · cases read
  rename_i c after
  split at read
  · obtain ⟨⟨text, left⟩, readText, made⟩ := of_map_eq_ok read
    cases made
    exact .of_spells (.string (spellsText_of_readText readText)) .string
  split at read
  · rename_i bracket
    cases depth with
    | zero => cases read
    | succ depth =>
        obtain ⟨⟨values, left⟩, readItems, made⟩ := of_map_eq_ok read
        cases made
        obtain ⟨items, spelled, each⟩ :=
          exists_spellsItems_of_readItemsUpTo (inside depth rfl) readItems
        exact bracket ▸ .of_spells (.array spelled) (.array each)
  split at read
  · rename_i brace
    cases depth with
    | zero => cases read
    | succ depth =>
        obtain ⟨⟨members, left⟩, readMembers, made⟩ := of_map_eq_ok read
        cases made
        obtain ⟨pairs, assignments, spelled, each, made⟩ :=
          exists_spellsPairs_of_readBraces (inside depth rfl) readMembers
        exact brace ▸ .of_spells (.braces spelled) (.braces each made)
  split at read
  · rename_i letter
    obtain ⟨left, readWord, made⟩ := of_map_eq_ok read
    cases made
    subst letter
    exact .other rfl (uses_of_readWord (by decide) readWord) ended rfl
  split at read
  · rename_i letter
    obtain ⟨left, readWord, made⟩ := of_map_eq_ok read
    cases made
    subst letter
    exact .other rfl (uses_of_readWord (by decide) readWord) ended rfl
  split at read
  · rename_i numeral
    have begins := beginsWord_of_numeral numeral
    split at read
    · cases read
    · rename_i readDate
      cases read
      exact .other begins (uses_of_readDateTime? readDate) ended rfl
    · obtain ⟨⟨number, left⟩, readNumber, made⟩ := of_map_eq_ok read
      have uses := uses_of_readNumber readNumber
      cases number with
      | integer =>
          cases made
          exact .other begins uses ended rfl
      | real =>
          cases made
          exact .other begins uses ended rfl
  split at read
  · cases read
  split at read <;> cases read

/-- A value that is read is written where it begins. -/
theorem finds_readValue (depth : Nat) : Finds (readValue depth) := by
  induction depth with
  | zero => exact fun _ _ _ => isRead_of_readValue (fun _ same => by cases same)
  | succ depth ih => exact fun _ _ _ => isRead_of_readValue (fun _ same => by cases same; exact ih)

/-! ## Lines -/

theorem EndsLine.of_skipSpaces_eq {s t rest : List Char} (ends : EndsLine s rest)
    (same : skipSpaces t = skipSpaces s) : EndsLine t rest := by
  cases ends with
  | broken newline => exact .broken (same ▸ newline)
  | atEnd finished => exact .atEnd (same ▸ finished)

theorem of_readLineEnd {reading : Option String} {choices : List String} {s rest : List Char}
    (read : readLineEnd reading choices s = .ok rest) :
    newline? s = some rest ∨ s = [] ∧ rest = [] := by
  rw [readLineEnd.eq_def] at read
  split at read
  · cases read
    exact .inr ⟨rfl, rfl⟩
  · split at read
    · cases read
      exact .inl ‹_›
    · cases read

/-- The end of a line has nothing in it that a number or its like contains. -/
theorem endsLine_of_readLineRest {reading : Option String} {s rest : List Char}
    (read : readLineRest reading s = .ok rest) : EndsLine s rest ∧ Ended s := by
  rcases of_readLineEnd read with broken | ⟨finished, rfl⟩
  · obtain ⟨c, after, next, -, notWord⟩ := exists_cons_of_newline? broken
    exact ⟨.broken broken, ended_of_skipSpaces_eq next notWord⟩
  · refine ⟨.atEnd finished, ?_⟩
    intro c mem
    obtain ⟨after, next⟩ := List.head?_eq_some_iff.mp mem
    by_cases comment : c = '#'
    · subst comment
      rfl
    · rw [next, skipComment?] at finished
      · cases finished
      · simpa using comment

theorem takes_of_readAssignment {draft next : Draft} {s rest : List Char}
    (read : readAssignment draft s = .ok (next, rest)) :
    ∃ statement t, SpellsStatement statement s t ∧ EndsLine t rest ∧
      Takes draft statement next := by
  rw [readAssignment] at read
  split at read
  · cases read
  rename_i way last afterKey readKey
  split at read
  · rename_i afterMark
    split at read
    · cases read
    rename_i value afterValue readValue
    split at read
    · cases read
    rename_i left ends
    split at read
    · cases read
    rename_i assigned
    cases read
    obtain ⟨ends, ended⟩ := endsLine_of_readLineRest ends
    obtain ⟨term, t, spelled, same, means⟩ := finds_readValue _ readValue ended
    exact ⟨_, t, .entry (spellsKey_of_readKey readKey) spelled, ends.of_skipSpaces_eq same,
      .entry means assigned⟩
  · cases read

/-- The brackets that a header opens with are not part of what is read. -/
theorem takes_of_readHeader {draft next : Draft} {repeated : Bool} {start s rest : List Char}
    (read : readHeader draft repeated start s = .ok (next, rest)) :
    ∃ path t, SpellsKey path s ((if repeated then [']', ']'] else [']']) ++ t) ∧
      EndsLine t rest ∧ Takes draft (.header repeated path) next := by
  rw [readHeader] at read
  split at read
  · cases read
  rename_i way last afterKey readKey
  have key := spellsKey_of_readKey readKey
  by_cases closes : (if repeated then "]]" else "]").toList.isPrefixOf afterKey = true
  · simp only [closes, if_true] at read
    obtain ⟨t, rfl⟩ := List.isPrefixOf_iff_prefix.mp closes
    rw [List.drop_left] at read
    split at read
    · cases read
    rename_i left ends
    split at read
    · cases read
    rename_i opened
    cases read
    refine ⟨names (way ++ [last]), t, ?_, (endsLine_of_readLineRest ends).1, ?_⟩
    · cases repeated <;> exact key
    · cases repeated with
      | false => exact .header opened
      | true => exact .repeated opened
  · simp only [closes, if_false, Bool.false_eq_true, reduceCtorEq] at read

/-- A line that is read is blank or a statement that the draft takes up. -/
theorem takes_of_readLine {draft next : Draft} {s rest : List Char}
    (stripped : skipSpaces s = s) (read : readLine draft s = .ok (next, rest)) :
    (EndsLine s rest ∧ next = draft) ∨
      ∃ statement t, SpellsStatement statement s t ∧ EndsLine t rest ∧
        Takes draft statement next := by
  rw [readLine.eq_def] at read
  split at read
  · cases read
  · obtain ⟨path, t, key, ends, takes⟩ := takes_of_readHeader read
    exact .inr ⟨_, t, .repeated key, ends, takes⟩
  · obtain ⟨path, t, key, ends, takes⟩ := takes_of_readHeader read
    exact .inr ⟨_, t, .header key, ends, takes⟩
  · rename_i after
    obtain ⟨left, ends, made⟩ := of_map_eq_ok read
    cases made
    refine .inl ⟨?_, rfl⟩
    rcases of_readLineEnd ends with broken | ⟨finished, rfl⟩
    · exact .broken (by rw [stripped]; exact broken)
    · exact .atEnd (by rw [stripped]; exact finished)
  · rename_i noComment
    split at read
    · rename_i left broken
      cases read
      have same : skipComment? s = s := by
        rw [skipComment?]
        exact noComment
      exact .inl ⟨.broken (by rw [stripped, same]; exact broken), rfl⟩
    split at read
    · cases read
    · exact .inr (takes_of_readAssignment read)

theorem exists_follows_of_readLinesUpTo {count : Nat} {draft final : Draft} {s : List Char}
    (read : readLinesUpTo count draft s = .ok final) :
    ∃ statements, SpellsAll statements s ∧ Follows draft statements final := by
  induction count generalizing draft s with
  | zero => cases read
  | succ count ih =>
      rw [readLinesUpTo] at read
      split at read
      · rename_i finished
        cases read
        exact ⟨[], .done finished, .done⟩
      rename_i present
      split at read
      · cases read
      rename_i next rest readFirst
      obtain ⟨statements, spelled, follows⟩ := ih read
      rcases takes_of_readLine (skipSpaces_skipSpaces s) readFirst with
        ⟨ends, rfl⟩ | ⟨statement, t, spelledFirst, ends, takes⟩
      · exact ⟨statements, .blank present
          (ends.of_skipSpaces_eq (skipSpaces_skipSpaces s).symm) spelled, follows⟩
      · exact ⟨statement :: statements, .line spelledFirst ends spelled, .step takes follows⟩

/-- A text that is read is written in the notation, and its statements make up the members. -/
theorem exists_follows_of_ofText {text : String} {members : Members}
    (read : ofText text = .ok members) :
    ∃ statements final, SpellsAll statements (withoutMark text.toList) ∧
      Follows .start statements final ∧ final.close = .ok members := by
  rw [ofText] at read
  simp only at read
  split at read
  · cases read
  rename_i final readLines
  split at read
  · cases read
  rename_i closed
  cases read
  obtain ⟨statements, spelled, follows⟩ := exists_follows_of_readLinesUpTo readLines
  exact ⟨statements, final, spelled, follows, closed⟩

end GrammarUpgrade.Toml
