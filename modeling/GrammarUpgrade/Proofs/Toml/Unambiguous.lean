import GrammarUpgrade.Proofs.Toml.Notation

/-!
# The TOML notation is unambiguous

What a text begins with is one string, one key, one value or one statement, so a text is written
for one document: `Writes.unique`.  Where a relation alone would leave open how far a piece
reaches, what follows it decides: no dot follows a key, and neither a blank nor a line break nor
a comment follows a gap.
-/

namespace GrammarUpgrade.Toml

variable {s t rest left : List Char}

/-! ## Strings -/

theorem codeLength?_of_shortEscape? {letter c : Char} (meant : shortEscape? letter = some c) :
    codeLength? letter = none := by
  rw [shortEscape?.eq_def] at meant
  split at meant <;> simp_all [codeLength?]

theorem SpellsEscape.unique {c d : Char} (spelled : SpellsEscape c s rest)
    (again : SpellsEscape d t left) (same : s = t) : c = d ∧ rest = left := by
  cases spelled with
  | short meant =>
      cases again with
      | short meantAgain =>
          obtain ⟨rfl, rfl⟩ := List.cons.inj same
          cases meant.symm.trans meantAgain
          exact ⟨rfl, rfl⟩
      | code length =>
          obtain ⟨rfl, -⟩ := List.cons.inj same
          cases length.symm.trans (codeLength?_of_shortEscape? meant)
  | code length hex =>
      cases again with
      | short meant =>
          obtain ⟨rfl, -⟩ := List.cons.inj same
          cases length.symm.trans (codeLength?_of_shortEscape? meant)
      | code lengthAgain hexAgain =>
          obtain ⟨rfl, joined⟩ := List.cons.inj same
          have lengths := Option.some.inj (length.symm.trans lengthAgain)
          obtain ⟨rfl, rfl⟩ := List.append_inj joined lengths
          cases hex.symm.trans hexAgain
          exact ⟨rfl, rfl⟩

theorem isOrdinary_quote (quote : Char) : isOrdinary quote quote = false := by
  simp [isOrdinary]

theorem isOrdinary_backslash : isOrdinary '"' '\\' = false := by
  decide

theorem SpellsLine.unique {quote : Char} {chars others : List Char}
    (spelled : SpellsLine quote chars s rest) (again : SpellsLine quote others t left)
    (same : s = t) : chars = others ∧ rest = left := by
  induction spelled generalizing t others with
  | close =>
      cases again with
      | close => exact ⟨rfl, (List.cons.inj same).2⟩
      | ordinary itself =>
          rw [← (List.cons.inj same).1, isOrdinary_quote] at itself
          cases itself
      | escape basic =>
          cases basic.symm.trans (List.cons.inj same).1
  | ordinary itself _ ih =>
      cases again with
      | close =>
          rw [(List.cons.inj same).1, isOrdinary_quote] at itself
          cases itself
      | ordinary _ behind =>
          obtain ⟨rfl, tails⟩ := List.cons.inj same
          obtain ⟨rfl, rfl⟩ := ih behind tails
          exact ⟨rfl, rfl⟩
      | escape basic =>
          rw [(List.cons.inj same).1, basic, isOrdinary_backslash] at itself
          cases itself
  | escape basic meant _ ih =>
      cases again with
      | close => cases basic.symm.trans (List.cons.inj same).1.symm
      | ordinary itself =>
          rw [← (List.cons.inj same).1, basic, isOrdinary_backslash] at itself
          cases itself
      | escape _ meantAgain behind =>
          obtain ⟨rfl, rfl⟩ := meant.unique meantAgain (List.cons.inj same).2
          obtain ⟨rfl, rfl⟩ := ih behind rfl
          exact ⟨rfl, rfl⟩

theorem newline?_cons_of_isPlain {c : Char} (plain : isPlain c = true) (s : List Char) :
    newline? (c :: s) = none := by
  rw [newline?.eq_def]
  split
  · rename_i same
    cases same
    cases plain
  · rename_i same
    cases same
    cases plain
  · rfl

theorem isPlain_of_isOrdinary {quote c : Char} (itself : isOrdinary quote c = true) :
    isPlain c = true := by
  simp only [isOrdinary, Bool.and_eq_true] at itself
  exact itself.1.1

theorem isQuote_iff {quote : Char} : isQuote quote = true ↔ quote = '"' ∨ quote = '\'' := by
  simp [isQuote]

theorem isPlain_of_isQuote {quote : Char} (quoted : isQuote quote = true) :
    isPlain quote = true := by
  rcases isQuote_iff.mp quoted with rfl | rfl <;> rfl

/-- Of the quotes that end a string as many belong to it as can. -/
theorem le_of_replicate_append {quote : Char} {few more : Nat}
    (closed : few = 2 ∨ rest.head? ≠ some quote) (bounded : more ≤ 2)
    (same : List.replicate (few + 3) quote ++ rest = List.replicate (more + 3) quote ++ left) :
    more ≤ few := by
  refine Nat.le_of_not_lt fun longer => ?_
  obtain ⟨extra, rfl⟩ := Nat.exists_eq_add_of_lt longer
  have split : List.replicate (few + extra + 1 + 3) quote =
      List.replicate (few + 3) quote ++ List.replicate (extra + 1) quote := by
    rw [List.replicate_append_replicate]
    congr 1
    omega
  rw [split, List.append_assoc] at same
  have behind : rest = List.replicate (extra + 1) quote ++ left := List.append_cancel_left same
  rcases closed with rfl | ended
  · omega
  · exact ended (by rw [behind]; rfl)

theorem SpellsLines.unique {quote : Char} {chars others : List Char}
    (quoted : isQuote quote = true) (spelled : SpellsLines quote chars s rest)
    (again : SpellsLines quote others t left) (same : s = t) :
    chars = others ∧ rest = left := by
  -- What comes next is three quotes, fewer of them, a backslash, a line break or none of these.
  have noBreak := newline?_cons_of_isPlain (isPlain_of_isQuote quoted)
  have noBreakAtBackslash := newline?_cons_of_isPlain (c := '\\') rfl
  have noBreakAtOrdinary {c : Char} (itself : isOrdinary quote c = true) :=
    newline?_cons_of_isPlain (isPlain_of_isOrdinary itself)
  have notOrdinary := isOrdinary_quote quote
  have notBackslash := isOrdinary_backslash
  induction spelled generalizing t others with
  | close few all =>
      cases again with
      | close fewAgain allAgain =>
          obtain rfl := Nat.le_antisymm (le_of_replicate_append allAgain few same.symm)
            (le_of_replicate_append all fewAgain same)
          exact ⟨rfl, List.append_cancel_left same⟩
      | quote | ordinary | newline | joined | escape => grind [List.prefix_iff_eq_append]
  | quote inside _ ih =>
      cases again with
      | quote _ behind =>
          obtain ⟨rfl, rfl⟩ := ih behind (List.cons.inj same).2
          exact ⟨rfl, rfl⟩
      | close | ordinary | newline | joined | escape => grind [List.prefix_iff_eq_append]
  | ordinary itself _ ih =>
      cases again with
      | ordinary _ behind =>
          obtain ⟨rfl, tails⟩ := List.cons.inj same
          obtain ⟨rfl, rfl⟩ := ih behind tails
          exact ⟨rfl, rfl⟩
      | close | quote | newline | joined | escape => grind
  | newline broken _ ih =>
      cases again with
      | newline brokenAgain behind =>
          cases broken.symm.trans (same ▸ brokenAgain)
          obtain ⟨rfl, rfl⟩ := ih behind rfl
          exact ⟨rfl, rfl⟩
      | close | quote | ordinary | joined | escape => grind
  | joined basic joined _ ih =>
      cases again with
      | joined _ joinedAgain behind =>
          obtain ⟨-, rfl⟩ := List.cons.inj same
          cases joined.symm.trans joinedAgain
          exact ih behind rfl
      | close | quote | ordinary | newline | escape => grind
  | escape basic notJoined meant _ ih =>
      cases again with
      | escape _ _ meantAgain behind =>
          obtain ⟨rfl, rfl⟩ := meant.unique meantAgain (List.cons.inj same).2
          obtain ⟨rfl, rfl⟩ := ih behind rfl
          exact ⟨rfl, rfl⟩
      | close | quote | ordinary | newline | joined => grind

theorem SpellsText.unique {text other : String} (spelled : SpellsText text s rest)
    (again : SpellsText other t left) (same : s = t) : text = other ∧ rest = left := by
  cases spelled with
  | line _ alone spelled =>
      cases again with
      | line _ _ again =>
          obtain ⟨rfl, behind⟩ := List.cons.inj same
          obtain ⟨rfl, rfl⟩ := spelled.unique again behind
          exact ⟨rfl, rfl⟩
      | @lines _ _ behind =>
          obtain ⟨rfl, rfl⟩ := List.cons.inj same
          exact absurd ⟨behind, rfl⟩ alone
  | @lines _ _ behind _ quoted spelled =>
      cases again with
      | line _ alone =>
          obtain ⟨rfl, rfl⟩ := List.cons.inj same
          exact absurd ⟨behind, rfl⟩ alone
      | lines _ again =>
          obtain ⟨rfl, behindQuotes⟩ := List.cons.inj same
          obtain rfl := (List.cons.inj (List.cons.inj behindQuotes).2).2
          obtain ⟨rfl, rfl⟩ := spelled.unique quoted again rfl
          exact ⟨rfl, rfl⟩

/-! ## Keys -/

theorem isBare_of_isQuote {quote : Char} (quoted : isQuote quote = true) :
    isBare quote = false := by
  rcases isQuote_iff.mp quoted with rfl | rfl <;> rfl

theorem SpellsName.unique {name other : String} (spelled : SpellsName name s rest)
    (again : SpellsName other t left) (same : s = t) : name = other ∧ rest = left := by
  cases spelled with
  | bare begins =>
      cases again with
      | bare =>
          subst same
          exact ⟨rfl, rfl⟩
      | quoted quoted =>
          subst same
          cases (isBare_of_isQuote quoted).symm.trans begins
  | quoted quoted spelled =>
      cases again with
      | bare begins =>
          subst same
          cases (isBare_of_isQuote quoted).symm.trans begins
      | quoted _ again =>
          obtain ⟨rfl, behind⟩ := List.cons.inj same
          obtain ⟨rfl, rfl⟩ := spelled.unique again behind
          exact ⟨rfl, rfl⟩

/-- A key reaches as far as its dots do. -/
theorem SpellsKey.unique {path other : List String} (spelled : SpellsKey path s rest)
    (again : SpellsKey other t left) (noDot : rest.head? ≠ some '.')
    (noDotAgain : left.head? ≠ some '.') (same : s = t) : path = other ∧ rest = left := by
  induction spelled generalizing t other with
  | last spelled =>
      cases again with
      | last again =>
          obtain ⟨rfl, rfl⟩ := spelled.unique again (same ▸ rfl)
          exact ⟨rfl, rfl⟩
      | dotted again dot =>
          obtain ⟨rfl, rfl⟩ := spelled.unique again (same ▸ rfl)
          exact absurd (by rw [dot]; rfl) noDot
  | dotted spelled dot _ ih =>
      cases again with
      | last again =>
          obtain ⟨rfl, rfl⟩ := spelled.unique again (same ▸ rfl)
          exact absurd (by rw [dot]; rfl) noDotAgain
      | dotted again dotAgain behind =>
          obtain ⟨rfl, rfl⟩ := spelled.unique again (same ▸ rfl)
          cases dot.symm.trans dotAgain
          obtain ⟨rfl, rfl⟩ := ih behind noDot rfl
          exact ⟨rfl, rfl⟩

/-- Whether a key may begin with a character. -/
def opensKey (c : Char) : Bool :=
  isBare c || isQuote c

theorem SpellsKey.exists_skipSpaces_eq {path : List String} (spelled : SpellsKey path s rest) :
    ∃ c after, skipSpaces s = c :: after ∧ opensKey c = true := by
  have named {name : String} {t : List Char} (begins : SpellsName name (skipSpaces s) t) :
      ∃ c after, skipSpaces s = c :: after ∧ opensKey c = true := by
    generalize skipSpaces s = stripped at begins
    cases begins with
    | bare begins =>
        obtain ⟨c, first, bare⟩ := (Option.any_eq_true _ _).mp begins
        obtain ⟨after, rfl⟩ := List.head?_eq_some_iff.mp first
        exact ⟨c, after, rfl, by simp [opensKey, bare]⟩
    | quoted quoted => exact ⟨_, _, rfl, by simp [opensKey, quoted]⟩
  cases spelled with
  | last spelled => exact named spelled
  | dotted spelled => exact named spelled

/-- No key begins with another character. -/
theorem SpellsKey.opensKey_of_skipSpaces_eq {path : List String} {c : Char} {after : List Char}
    (spelled : SpellsKey path s rest) (begins : skipSpaces s = c :: after) :
    opensKey c = true := by
  obtain ⟨d, behind, begins', opens⟩ := spelled.exists_skipSpaces_eq
  cases begins.symm.trans begins'
  exact opens

/-! ## Gaps -/

/-- A text that begins with neither a blank nor a line break nor a comment. -/
def Solid (s : List Char) : Prop :=
  ∃ c after, s = c :: after ∧ isSpace c = false ∧ c ≠ '#' ∧ newline? s = none

/-- The characters that nothing solid begins with. -/
def looseChars : List Char :=
  [' ', '\t', '#', '\n', '\r']

theorem solid_cons {c : Char} (notLoose : c ∉ looseChars) : Solid (c :: s) := by
  simp only [looseChars, List.mem_cons, List.not_mem_nil, or_false, not_or] at notLoose
  refine ⟨c, s, rfl, by simp [isSpace, notLoose], notLoose.2.2.1, ?_⟩
  rw [newline?.eq_def]
  split <;> simp_all

theorem solid_of_accepts {accepts : Char → Bool} {c : Char}
    (loose : looseChars.all (!accepts ·) = true) (accepted : accepts c = true) :
    Solid (c :: s) := by
  refine solid_cons fun isLoose => ?_
  have refused := List.all_eq_true.mp loose c isLoose
  simp [accepted] at refused

namespace Solid

theorem skipComment?_eq (solid : Solid s) : skipComment? s = s := by
  obtain ⟨c, after, rfl, -, noComment, -⟩ := solid
  rw [skipComment?]
  simpa using noComment

theorem newline?_eq (solid : Solid s) : newline? s = none := by
  obtain ⟨_, _, _, _, _, noBreak⟩ := solid
  exact noBreak

theorem ne_nil (solid : Solid s) : s ≠ [] := by
  obtain ⟨_, _, rfl, -⟩ := solid
  simp

/-- A line does not end before something solid. -/
theorem not_endsLine (solid : Solid (skipSpaces s)) : ¬EndsLine s rest := by
  rintro (broken | finished)
  · rw [solid.skipComment?_eq, solid.newline?_eq] at broken
    cases broken
  · rw [solid.skipComment?_eq] at finished
    exact solid.ne_nil finished

end Solid

/-- No gap comes before something solid. -/
theorem Gap.eq_of_solid (gap : Gap s rest) (solid : Solid s) : rest = s := by
  cases gap with
  | done => rfl
  | blank isBlank =>
      obtain ⟨_, _, begins, noSpace, -⟩ := solid
      cases begins
      cases noSpace.symm.trans isBlank
  | line broken =>
      rw [solid.skipComment?_eq, solid.newline?_eq] at broken
      cases broken

theorem newline?_skipComment?_of_isSpace {c : Char} (isBlank : isSpace c = true) :
    newline? (skipComment? (c :: s)) = none := by
  simp only [isSpace, Bool.or_eq_true, decide_eq_true_eq] at isBlank
  rcases isBlank with rfl | rfl <;> rfl

/-- A gap reaches as far as it can. -/
theorem Gap.unique (gap : Gap s rest) (again : Gap t left) (solid : Solid rest)
    (solidAgain : Solid left) (same : s = t) : rest = left := by
  induction gap generalizing t with
  | done => exact ((same ▸ again).eq_of_solid solid).symm
  | blank isBlank behind ih =>
      cases again with
      | done => exact (Gap.blank isBlank behind).eq_of_solid (same ▸ solidAgain) |>.trans same
      | blank _ behindAgain => exact ih behindAgain solid (List.cons.inj same).2
      | line broken =>
          subst same
          cases (newline?_skipComment?_of_isSpace isBlank).symm.trans broken
  | line broken behind ih =>
      cases again with
      | done => exact (Gap.line broken behind).eq_of_solid (same ▸ solidAgain) |>.trans same
      | blank isBlank =>
          subst same
          cases (newline?_skipComment?_of_isSpace isBlank).symm.trans broken
      | line brokenAgain behindAgain =>
          subst same
          cases broken.symm.trans brokenAgain
          exact ih behindAgain solid rfl

/-! ## Values -/

/-- Whether a value may begin with a character. -/
def opensValue (c : Char) : Bool :=
  isQuote c || beginsWord c || c = '[' || c = '\x7b'

theorem SpellsText.exists_cons {text : String} (spelled : SpellsText text s rest) :
    ∃ quote after, s = quote :: after ∧ isQuote quote = true := by
  cases spelled with
  | line quoted => exact ⟨_, _, rfl, quoted⟩
  | lines quoted => exact ⟨_, _, rfl, quoted⟩

theorem Spells.exists_cons {term : Term} (spelled : Spells term s rest) :
    ∃ c after, s = c :: after ∧ opensValue c = true := by
  cases spelled with
  | string spelled =>
      obtain ⟨quote, after, rfl, quoted⟩ := spelled.exists_cons
      exact ⟨quote, after, rfl, by simp [opensValue, quoted]⟩
  | other begins =>
      obtain ⟨c, first, word⟩ := (Option.any_eq_true _ _).mp begins
      obtain ⟨after, rfl⟩ := List.head?_eq_some_iff.mp first
      exact ⟨c, after, rfl, by simp [opensValue, word]⟩
  | array => exact ⟨_, _, rfl, rfl⟩
  | braces => exact ⟨_, _, rfl, rfl⟩

theorem Spells.solid {term : Term} (spelled : Spells term s rest) : Solid s := by
  obtain ⟨c, after, rfl, begins⟩ := spelled.exists_cons
  exact solid_of_accepts (by decide) begins

theorem not_spellsText {text : String} {c : Char} (noQuote : isQuote c = false) :
    ¬SpellsText text (c :: s) rest := by
  intro spelled
  obtain ⟨quote, after, same, quoted⟩ := spelled.exists_cons
  cases same
  cases noQuote.symm.trans quoted

theorem SpellsText.not_beginsWord {text : String} (spelled : SpellsText text s rest) :
    s.head?.any beginsWord = false := by
  obtain ⟨quote, after, rfl, quoted⟩ := spelled.exists_cons
  rcases isQuote_iff.mp quoted with rfl | rfl <;> rfl

theorem solid_bracket : Solid (']' :: s) :=
  solid_cons (by decide)

theorem solid_comma : Solid (',' :: s) :=
  solid_cons (by decide)

theorem not_spells_bracket {term : Term} : ¬Spells term (']' :: s) rest := by
  intro spelled
  obtain ⟨c, after, same, begins⟩ := spelled.exists_cons
  cases same
  cases begins

theorem skipSpaces_ne_of_spellsKey {path : List String} {after : List Char}
    (spelled : SpellsKey path s rest) : skipSpaces s ≠ '\x7d' :: after := by
  intro begins
  cases spelled.opensKey_of_skipSpaces_eq begins

mutual

/-- A text begins with one value. -/
theorem Spells.unique {term written : Term} {s t rest left : List Char}
    (spelled : Spells term s rest) (again : Spells written t left) (same : s = t) :
    term = written ∧ rest = left := by
  cases spelled with
  | string spelled =>
      cases again with
      | string again =>
          obtain ⟨rfl, rfl⟩ := spelled.unique again same
          exact ⟨rfl, rfl⟩
      | other begins => cases spelled.not_beginsWord.symm.trans (same ▸ begins)
      | array => exact absurd (same ▸ spelled) (not_spellsText rfl)
      | braces => exact absurd (same ▸ spelled) (not_spellsText rfl)
  | other begins =>
      cases again with
      | string again => cases again.not_beginsWord.symm.trans (same ▸ begins)
      | other =>
          subst same
          exact ⟨rfl, rfl⟩
      | array | braces =>
          subst same
          cases begins
  | array spelled =>
      cases again with
      | string again => exact absurd (same ▸ again) (not_spellsText rfl)
      | other begins =>
          subst same
          cases begins
      | array again =>
          obtain ⟨rfl, rfl⟩ := spelled.unique again (List.cons.inj same).2
          exact ⟨rfl, rfl⟩
      | braces => cases same
  | braces spelled =>
      cases again with
      | string again => exact absurd (same ▸ again) (not_spellsText rfl)
      | other begins =>
          subst same
          cases begins
      | array => cases same
      | braces again =>
          obtain ⟨rfl, rfl⟩ := spelled.unique again (List.cons.inj same).2
          exact ⟨rfl, rfl⟩

theorem SpellsItems.unique {items others : List Term} {s t rest left : List Char}
    (spelled : SpellsItems items s rest) (again : SpellsItems others t left) (same : s = t) :
    items = others ∧ rest = left := by
  cases spelled with
  | closed gap =>
      cases again with
      | closed gapAgain =>
          cases gap.unique gapAgain solid_bracket solid_bracket same
          exact ⟨rfl, rfl⟩
      | last gapAgain again =>
          obtain rfl := gap.unique gapAgain solid_bracket again.solid same
          exact absurd again not_spells_bracket
      | next gapAgain again =>
          obtain rfl := gap.unique gapAgain solid_bracket again.solid same
          exact absurd again not_spells_bracket
  | last gap spelled gapAfter =>
      cases again with
      | closed gapAgain =>
          obtain rfl := gap.unique gapAgain spelled.solid solid_bracket same
          exact absurd spelled not_spells_bracket
      | last gapAgain again gapAfterAgain =>
          obtain ⟨rfl, rfl⟩ :=
            spelled.unique again (gap.unique gapAgain spelled.solid again.solid same)
          cases gapAfter.unique gapAfterAgain solid_bracket solid_bracket rfl
          exact ⟨rfl, rfl⟩
      | next gapAgain again gapAfterAgain =>
          obtain ⟨rfl, rfl⟩ :=
            spelled.unique again (gap.unique gapAgain spelled.solid again.solid same)
          cases gapAfter.unique gapAfterAgain solid_bracket solid_comma rfl
  | next gap spelled gapAfter behind =>
      cases again with
      | closed gapAgain =>
          obtain rfl := gap.unique gapAgain spelled.solid solid_bracket same
          exact absurd spelled not_spells_bracket
      | last gapAgain again gapAfterAgain =>
          obtain ⟨rfl, rfl⟩ :=
            spelled.unique again (gap.unique gapAgain spelled.solid again.solid same)
          cases gapAfter.unique gapAfterAgain solid_comma solid_bracket rfl
      | next gapAgain again gapAfterAgain behindAgain =>
          obtain ⟨rfl, rfl⟩ :=
            spelled.unique again (gap.unique gapAgain spelled.solid again.solid same)
          cases gapAfter.unique gapAfterAgain solid_comma solid_comma rfl
          obtain ⟨rfl, rfl⟩ := behind.unique behindAgain rfl
          exact ⟨rfl, rfl⟩

theorem SpellsPairs.unique {pairs others : List (List String × Term)}
    {s t rest left : List Char} (spelled : SpellsPairs pairs s rest)
    (again : SpellsPairs others t left) (same : s = t) : pairs = others ∧ rest = left := by
  cases spelled with
  | closed brace =>
      cases again with
      | closed braceAgain =>
          cases brace.symm.trans (same ▸ braceAgain)
          exact ⟨rfl, rfl⟩
      | last key => exact absurd (same ▸ brace) (skipSpaces_ne_of_spellsKey key)
      | next key => exact absurd (same ▸ brace) (skipSpaces_ne_of_spellsKey key)
  | last key spelled brace =>
      cases again with
      | closed braceAgain => exact absurd (same ▸ braceAgain) (skipSpaces_ne_of_spellsKey key)
      | last keyAgain again braceAgain =>
          obtain ⟨rfl, behindKey⟩ := key.unique keyAgain (by simp) (by simp) same
          obtain ⟨rfl, rfl⟩ := spelled.unique again (by rw [(List.cons.inj behindKey).2])
          cases brace.symm.trans braceAgain
          exact ⟨rfl, rfl⟩
      | next keyAgain again comma =>
          obtain ⟨rfl, behindKey⟩ := key.unique keyAgain (by simp) (by simp) same
          obtain ⟨rfl, rfl⟩ := spelled.unique again (by rw [(List.cons.inj behindKey).2])
          cases brace.symm.trans comma
  | next key spelled comma behind =>
      cases again with
      | closed braceAgain => exact absurd (same ▸ braceAgain) (skipSpaces_ne_of_spellsKey key)
      | last keyAgain again brace =>
          obtain ⟨rfl, behindKey⟩ := key.unique keyAgain (by simp) (by simp) same
          obtain ⟨rfl, rfl⟩ := spelled.unique again (by rw [(List.cons.inj behindKey).2])
          cases comma.symm.trans brace
      | next keyAgain again commaAgain behindAgain =>
          obtain ⟨rfl, behindKey⟩ := key.unique keyAgain (by simp) (by simp) same
          obtain ⟨rfl, rfl⟩ := spelled.unique again (by rw [(List.cons.inj behindKey).2])
          cases comma.symm.trans commaAgain
          obtain ⟨others, rfl⟩ := behind.unique behindAgain rfl
          cases others
          exact ⟨rfl, rfl⟩

end

/-! ## Lines -/

theorem EndsLine.unique (ends : EndsLine s rest) (again : EndsLine s left) : rest = left := by
  cases ends with
  | broken newline =>
      cases again with
      | broken newlineAgain => exact Option.some.inj (newline.symm.trans newlineAgain)
      | atEnd finished =>
          rw [finished] at newline
          cases newline
  | atEnd finished =>
      cases again with
      | broken newline =>
          rw [finished] at newline
          cases newline
      | atEnd => rfl

theorem not_spellsKey_bracket {path : List String} : ¬SpellsKey path ('[' :: s) rest := by
  intro spelled
  cases spelled.opensKey_of_skipSpaces_eq rfl

theorem SpellsStatement.unique {statement other : Statement}
    (spelled : SpellsStatement statement s rest) (again : SpellsStatement other t left)
    (same : s = t) : statement = other ∧ rest = left := by
  cases spelled with
  | entry key spelled =>
      cases again with
      | entry keyAgain again =>
          obtain ⟨rfl, behindKey⟩ := key.unique keyAgain (by simp) (by simp) same
          obtain ⟨rfl, rfl⟩ := spelled.unique again (by rw [(List.cons.inj behindKey).2])
          exact ⟨rfl, rfl⟩
      | header | repeated =>
          subst same
          exact absurd key not_spellsKey_bracket
  | header key =>
      cases again with
      | entry keyAgain =>
          subst same
          exact absurd keyAgain not_spellsKey_bracket
      | header keyAgain =>
          obtain ⟨rfl, behindKey⟩ :=
            key.unique keyAgain (by simp) (by simp) (List.cons.inj same).2
          cases behindKey
          exact ⟨rfl, rfl⟩
      | repeated =>
          obtain rfl := (List.cons.inj same).2
          exact absurd key not_spellsKey_bracket
  | repeated key =>
      cases again with
      | entry keyAgain =>
          subst same
          exact absurd keyAgain not_spellsKey_bracket
      | header keyAgain =>
          obtain rfl := (List.cons.inj same).2
          exact absurd keyAgain not_spellsKey_bracket
      | repeated keyAgain =>
          obtain ⟨rfl, behindKey⟩ :=
            key.unique keyAgain (by simp) (by simp) (List.cons.inj (List.cons.inj same).2).2
          cases behindKey
          exact ⟨rfl, rfl⟩

/-- A statement is no blank line. -/
theorem SpellsStatement.solid {statement : Statement}
    (spelled : SpellsStatement statement s rest) : Solid (skipSpaces s) := by
  cases spelled with
  | entry key =>
      obtain ⟨c, after, begins, opens⟩ := key.exists_skipSpaces_eq
      exact begins ▸ solid_of_accepts (by decide) opens
  | header => exact solid_cons (by decide)
  | repeated => exact solid_cons (by decide)

theorem SpellsStatement.solid_of_skipSpaces {statement : Statement}
    (spelled : SpellsStatement statement (skipSpaces s) rest) : Solid (skipSpaces s) := by
  have solid := spelled.solid
  rwa [skipSpaces_skipSpaces] at solid

theorem SpellsAll.unique {statements others : List Statement} (spelled : SpellsAll statements s)
    (again : SpellsAll others s) : statements = others := by
  induction spelled generalizing others with
  | done finished =>
      cases again with
      | done => rfl
      | blank present => exact absurd finished present
      | line spelled => exact absurd finished spelled.solid_of_skipSpaces.ne_nil
  | blank present ends _ ih =>
      cases again with
      | done finished => exact absurd finished present
      | blank _ endsAgain behind => exact ih (ends.unique endsAgain ▸ behind)
      | line spelled => exact absurd ends spelled.solid_of_skipSpaces.not_endsLine
  | line spelled ends _ ih =>
      cases again with
      | done finished => exact absurd finished spelled.solid_of_skipSpaces.ne_nil
      | blank _ endsAgain => exact absurd endsAgain spelled.solid_of_skipSpaces.not_endsLine
      | line spelledAgain endsAgain behind =>
          obtain ⟨rfl, rfl⟩ := spelled.unique spelledAgain rfl
          obtain rfl := ends.unique endsAgain
          rw [ih behind]

/-- A text is written for one document. -/
theorem Writes.unique {text : String} {document other : Document} (writes : Writes document text)
    (again : Writes other text) : document = other := by
  obtain ⟨statements, spelled, rfl⟩ := writes
  obtain ⟨others, spelledAgain, rfl⟩ := again
  rw [spelled.unique spelledAgain]

end GrammarUpgrade.Toml
