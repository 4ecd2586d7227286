import GrammarUpgrade.Grammar.Token

/-!
# Reading a grammar piece by piece

Many questions about a grammar are answered by giving a meaning to every body of a
placeholder and to every character outside of placeholders, and by putting these
meanings together from left to right: the result is the `expansion` of the grammar.
What decides whether a character belongs to a placeholder is only the order of the
angle brackets around it.  The main statement, `expansion_append`, says that two
grammars written one after the other are read separately unless the first ends in
an open bracket that the second closes.
-/

namespace GrammarUpgrade.Grammar

variable {β : Type}

/-! ## Angle brackets -/

/-- The angle brackets among some characters, in order. -/
def brackets (chars : List Char) : List Char :=
  chars.filter isBracket

/-- No character is an angle bracket. -/
def BracketFree (chars : List Char) : Prop :=
  ∀ c ∈ chars, isBracket c = false

@[simp]
theorem brackets_nil : brackets [] = [] :=
  rfl

@[simp]
theorem brackets_append (left right : List Char) :
    brackets (left ++ right) = brackets left ++ brackets right :=
  List.filter_append left right

theorem brackets_cons_of_isBracket {c : Char} (bracket : isBracket c = true)
    (chars : List Char) : brackets (c :: chars) = c :: brackets chars :=
  List.filter_cons_of_pos bracket

theorem brackets_cons_of_not_isBracket {c : Char} (other : isBracket c = false)
    (chars : List Char) : brackets (c :: chars) = brackets chars :=
  List.filter_cons_of_neg (by simp [other])

theorem bracketFree_iff_brackets_eq_nil {chars : List Char} :
    BracketFree chars ↔ brackets chars = [] := by
  simp [BracketFree, brackets, List.filter_eq_nil_iff]

theorem BracketFree.not_mem {chars : List Char} (free : BracketFree chars) {c : Char}
    (bracket : isBracket c = true) : c ∉ chars := by
  intro member
  rw [free c member] at bracket
  contradiction

@[simp]
theorem brackets_bracketed {body : List Char} (free : BracketFree body) :
    brackets (bracketed body) = ['<', '>'] := by
  rw [bracketed, brackets_append, brackets_cons_of_isBracket (by decide),
    bracketFree_iff_brackets_eq_nil.mp free]
  rfl

/-- Two bodies in front of a closing bracket are the same body. -/
theorem BracketFree.eq_of_append_close_eq {first second firstRest secondRest : List Char}
    (firstFree : BracketFree first) (secondFree : BracketFree second)
    (same : first ++ '>' :: firstRest = second ++ '>' :: secondRest) :
    first = second ∧ firstRest = secondRest := by
  induction first generalizing second with
  | nil =>
      cases second with
      | nil => simpa using same
      | cons c second =>
          obtain ⟨rfl, _⟩ := List.cons.inj same
          exact absurd List.mem_cons_self (secondFree.not_mem (by decide))
  | cons c first ih =>
      cases second with
      | nil =>
          obtain ⟨rfl, _⟩ := List.cons.inj same
          exact absurd List.mem_cons_self (firstFree.not_mem (by decide))
      | cons d second =>
          obtain ⟨rfl, sameRest⟩ := List.cons.inj same
          have bodies := ih (fun c member => firstFree c (List.mem_cons_of_mem _ member))
            (fun c member => secondFree c (List.mem_cons_of_mem _ member)) sameRest
          exact ⟨congrArg _ bodies.1, bodies.2⟩

/-! ## When a placeholder closes -/

/-- A placeholder closes exactly at the first bracket after its `<`. -/
theorem closing?_eq_some_iff {afterOpen body rest : List Char} :
    closing? afterOpen = some (body, rest) ↔
      BracketFree body ∧ afterOpen = body ++ '>' :: rest := by
  constructor
  · intro closed
    refine ⟨?_, eq_append_of_closing? closed⟩
    unfold closing? at closed
    split at closed
    · obtain ⟨rfl, rfl⟩ := Prod.mk.inj (Option.some.inj closed)
      intro c member
      simpa using List.all_takeWhile (p := (!isBracket ·)) (l := afterOpen) |>
        List.all_eq_true.mp |> (· c member)
    · contradiction
  · rintro ⟨free, rfl⟩
    have copied : ∀ c ∈ body, (!isBracket c) = true := fun c member => by
      simp [free c member]
    have dropped : (body ++ '>' :: rest).dropWhile (!isBracket ·) = '>' :: rest := by
      rw [List.dropWhile_append_of_pos copied]
      rfl
    have taken : (body ++ '>' :: rest).takeWhile (!isBracket ·) = body := by
      rw [List.takeWhile_append_of_pos copied]
      exact List.append_nil body
    simp [closing?, dropped, taken]

/-- The first bracket is preceded by characters that are none. -/
theorem head?_brackets_eq_some_iff {chars : List Char} {bracket : Char} :
    (brackets chars).head? = some bracket ↔
      isBracket bracket = true ∧
        ∃ front rest, BracketFree front ∧ chars = front ++ bracket :: rest := by
  simp only [brackets, List.head?_filter, List.find?_eq_some_iff_append, BracketFree,
    Bool.not_eq_true', and_comm]

/-- Nothing closes when the first bracket is another `<` or there is none. -/
theorem closing?_eq_none_iff {afterOpen : List Char} :
    closing? afterOpen = none ↔ (brackets afterOpen).head? ≠ some '>' := by
  constructor
  · intro unclosed first
    obtain ⟨_, body, rest, free, rfl⟩ := head?_brackets_eq_some_iff.mp first
    rw [closing?_eq_some_iff.mpr ⟨free, rfl⟩] at unclosed
    contradiction
  · intro first
    cases closed : closing? afterOpen with
    | none => rfl
    | some parts =>
        obtain ⟨free, rfl⟩ := closing?_eq_some_iff.mp closed
        exact absurd
          (head?_brackets_eq_some_iff.mpr ⟨by decide, _, _, free, rfl⟩) first

/-- A character that opens no placeholder in front of `rest`. -/
def Loose (c : Char) (rest : List Char) : Prop :=
  c = '<' → (brackets rest).head? ≠ some '>'

/-- A grammar is empty, or it starts with a placeholder, or with a character that
opens none. -/
@[elab_as_elim]
theorem pieceInduction {motive : List Char → Prop} (nil : motive [])
    (placeholder : ∀ body rest, BracketFree body → motive rest →
      motive (bracketed body ++ rest))
    (loose : ∀ c rest, Loose c rest → motive rest → motive (c :: rest))
    (grammar : List Char) : motive grammar := by
  fun_induction lexChars grammar with
  | case1 => exact nil
  | case2 rest body after closed ih =>
      obtain ⟨free, rfl⟩ := closing?_eq_some_iff.mp closed
      simpa [bracketed] using placeholder body after free ih
  | case3 rest unclosed ih =>
      exact loose '<' rest (fun _ => closing?_eq_none_iff.mp unclosed) ih
  | case4 c rest notOpen ih =>
      exact loose c rest (fun opened => absurd opened notOpen) ih

/-- A placeholder in front is the first piece. -/
theorem lexChars_bracketed_append {body : List Char} (free : BracketFree body)
    (rest : List Char) :
    lexChars (bracketed body ++ rest) = .placeholder body :: lexChars rest := by
  have closed : closing? (body ++ '>' :: rest) = some (body, rest) :=
    closing?_eq_some_iff.mpr ⟨free, rfl⟩
  have written : bracketed body ++ rest = '<' :: (body ++ '>' :: rest) := by
    simp [bracketed]
  rw [written, lexChars, if_pos rfl]
  split
  · rename_i found after found_eq
    rw [closed] at found_eq
    obtain ⟨rfl, rfl⟩ := Prod.mk.inj (Option.some.inj found_eq)
    rfl
  · rename_i unclosed
    rw [closed] at unclosed
    contradiction

/-- A character in front that opens no placeholder is text. -/
theorem lexChars_cons_of_loose {c : Char} {rest : List Char} (loose : Loose c rest) :
    lexChars (c :: rest) = prependText c (lexChars rest) := by
  rw [lexChars]
  split
  · rename_i opened
    subst opened
    have unclosed := closing?_eq_none_iff.mpr (loose rfl)
    split
    · rename_i closed
      rw [unclosed] at closed
      contradiction
    · rfl
  · rfl

/-! ## The expansion -/

/-- What a piece comes to when bodies of placeholders and characters of text have
the given meanings. -/
def Token.expansion (ofBody : List Char → List β) (ofChar : Char → List β) :
    Token → List β
  | .placeholder body => ofBody body
  | .text chars => chars.flatMap ofChar

/-- The meanings of the pieces of a grammar, one after the other. -/
def expansion (ofBody : List Char → List β) (ofChar : Char → List β)
    (grammar : List Char) : List β :=
  (lexChars grammar).flatMap (Token.expansion ofBody ofChar)

section Expansion

variable (ofBody : List Char → List β) (ofChar : Char → List β)

@[simp]
theorem expansion_nil : expansion ofBody ofChar [] = [] := by
  simp [expansion, lexChars]

/-- A placeholder in front contributes the meaning of its body. -/
theorem expansion_bracketed_append {body : List Char} (free : BracketFree body)
    (rest : List Char) :
    expansion ofBody ofChar (bracketed body ++ rest) =
      ofBody body ++ expansion ofBody ofChar rest := by
  rw [expansion, lexChars_bracketed_append free, List.flatMap_cons]
  rfl

/-- A placeholder alone comes to the meaning of its body. -/
theorem expansion_bracketed {body : List Char} (free : BracketFree body) :
    expansion ofBody ofChar (bracketed body) = ofBody body := by
  simpa using expansion_bracketed_append ofBody ofChar free []

/-- A character in front that opens no placeholder contributes its own meaning. -/
theorem expansion_cons_of_loose {c : Char} {rest : List Char} (loose : Loose c rest) :
    expansion ofBody ofChar (c :: rest) = ofChar c ++ expansion ofBody ofChar rest := by
  rw [expansion, lexChars_cons_of_loose loose]
  unfold prependText
  split
  · rename_i chars pieces lexed
    simp [expansion, lexed, Token.expansion]
  · simp [expansion, Token.expansion]

/-- Only the meaning of bodies without brackets counts. -/
theorem expansion_congr {ofBody other : List Char → List β}
    (agree : ∀ body, BracketFree body → ofBody body = other body)
    (ofChar : Char → List β) : expansion ofBody ofChar = expansion other ofChar := by
  funext grammar
  induction grammar using pieceInduction with
  | nil => simp
  | placeholder body rest free ih =>
      rw [expansion_bracketed_append _ _ free, expansion_bracketed_append _ _ free,
        agree body free, ih]
  | loose c rest loose ih =>
      rw [expansion_cons_of_loose _ _ loose, expansion_cons_of_loose _ _ loose, ih]

/-! ## Grammars written one after the other -/

/-- No placeholder opened in the first text is closed in the second. -/
def Apart (left right : List Char) : Prop :=
  (brackets left).getLast? = some '<' → (brackets right).head? ≠ some '>'

theorem Apart.of_append_left {front left right : List Char}
    (apart : Apart (front ++ left) right) : Apart left right := by
  intro opened
  apply apart
  rw [brackets_append, List.getLast?_append, opened]
  rfl

/-- A loose character stays loose when something is written apart behind it. -/
theorem Loose.append {c : Char} {rest right : List Char} (loose : Loose c rest)
    (apart : Apart (c :: rest) right) : Loose c (rest ++ right) := by
  rintro rfl
  rw [brackets_append]
  cases found : brackets rest with
  | nil =>
      apply apart
      rw [brackets_cons_of_isBracket (by decide), found]
      rfl
  | cons bracket others =>
      have first := loose rfl
      rw [found] at first
      exact first

/-- Grammars written apart from one another are read separately. -/
theorem expansion_append {left right : List Char} (apart : Apart left right) :
    expansion ofBody ofChar (left ++ right) =
      expansion ofBody ofChar left ++ expansion ofBody ofChar right := by
  induction left using pieceInduction with
  | nil => simp
  | placeholder body rest free ih =>
      rw [List.append_assoc, expansion_bracketed_append _ _ free,
        expansion_bracketed_append _ _ free, ih apart.of_append_left,
        List.append_assoc]
  | loose c rest loose ih =>
      have whole : Apart ([c] ++ rest) right := apart
      rw [List.cons_append, expansion_cons_of_loose _ _ (loose.append apart),
        expansion_cons_of_loose _ _ loose, ih whole.of_append_left,
        List.append_assoc]

/-- A placeholder is read as such wherever it stands. -/
theorem expansion_append_bracketed_append {body : List Char} (free : BracketFree body)
    (left right : List Char) :
    expansion ofBody ofChar (left ++ bracketed body ++ right) =
      expansion ofBody ofChar left ++ ofBody body ++ expansion ofBody ofChar right := by
  have apart : Apart left (bracketed body ++ right) := by
    intro _
    simp [free]
  rw [List.append_assoc, expansion_append _ _ apart,
    expansion_bracketed_append _ _ free, List.append_assoc]

end Expansion

end GrammarUpgrade.Grammar
