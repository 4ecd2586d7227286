import GrammarUpgrade.Proofs.Grammar.Placeholders
import Mathlib.Data.List.Chain

/-!
# The pieces of a grammar are determined

What the pieces of a grammar are can be said without reading it from left to right: the
pieces put together give the grammar, a placeholder has no bracket in its body, a text is
not empty and holds no placeholder, and no two texts stand side by side.  The main
statement, `isSplit_iff_eq_lex`, says that exactly one list of pieces is like this, and
that the placeholders in it are the blocks of the grammar that are written like one, each
at its place.
-/

namespace GrammarUpgrade.Grammar

variable {pieces before after : List Token} {grammar chars rest left body right : List Char}
  {c : Char}

/-- No block of the characters is written like a placeholder. -/
def HoldsNone (chars : List Char) : Prop :=
  ∀ token, IsPlaceholder token → ¬ token <:+: chars

namespace Token

/-- Whether a piece is text. -/
def isText : Token → Bool
  | .placeholder _ => false
  | .text _ => true

/-- A placeholder has no bracket in its body; a text is not empty and holds no
placeholder. -/
def WellFormed : Token → Prop
  | .placeholder body => BracketFree body
  | .text chars => chars ≠ [] ∧ HoldsNone chars

end Token

/-- No two texts stand side by side. -/
def Separated (pieces : List Token) : Prop :=
  pieces.IsChain fun piece next => piece.isText = true → next.isText = false

/-- Pieces into which a grammar can be split. -/
structure IsSplit (grammar : List Char) (pieces : List Token) : Prop where
  flatten_eq : flatten pieces = grammar
  wellFormed : ∀ piece ∈ pieces, piece.WellFormed
  separated : Separated pieces

/-! ## Pieces one after the other -/

theorem flatten_append (before after : List Token) :
    flatten (before ++ after) = flatten before ++ flatten after := by
  simp [flatten]

theorem flatten_cons (piece : Token) (pieces : List Token) :
    flatten (piece :: pieces) = piece.chars ++ flatten pieces :=
  rfl

/-- Any pieces may stand on the two sides of a placeholder. -/
theorem separated_append_placeholder_cons :
    Separated (before ++ .placeholder body :: after) ↔
      Separated before ∧ Separated after := by
  rw [Separated, List.isChain_append, List.isChain_cons]
  constructor
  · rintro ⟨first, ⟨_, second⟩, _⟩
    exact ⟨first, second⟩
  · rintro ⟨first, second⟩
    refine ⟨first, ⟨?_, second⟩, ?_⟩
    · intro next _ isText
      cases isText
    · rintro last _ next isNext _
      obtain rfl := Option.some.inj isNext
      rfl

/-- What stands on the two sides of a placeholder is split as well. -/
theorem isSplit_append_placeholder_cons :
    IsSplit grammar (before ++ .placeholder body :: after) ↔
      BracketFree body ∧ IsSplit (flatten before) before ∧ IsSplit (flatten after) after ∧
        grammar = flatten before ++ bracketed body ++ flatten after := by
  have joined : flatten (before ++ .placeholder body :: after) =
      flatten before ++ bracketed body ++ flatten after := by
    rw [flatten_append, flatten_cons, List.append_assoc]
    rfl
  constructor
  · rintro ⟨rfl, wellFormed, separated⟩
    rw [List.forall_mem_append, List.forall_mem_cons] at wellFormed
    obtain ⟨wellBefore, free, wellAfter⟩ := wellFormed
    obtain ⟨apartBefore, apartAfter⟩ := separated_append_placeholder_cons.mp separated
    exact ⟨free, ⟨rfl, wellBefore, apartBefore⟩, ⟨rfl, wellAfter, apartAfter⟩, joined⟩
  · rintro ⟨free, ⟨_, wellBefore, apartBefore⟩, ⟨_, wellAfter, apartAfter⟩, rfl⟩
    refine ⟨joined, ?_, separated_append_placeholder_cons.mpr ⟨apartBefore, apartAfter⟩⟩
    rw [List.forall_mem_append, List.forall_mem_cons]
    exact ⟨wellBefore, free, wellAfter⟩

theorem isSplit_nil : IsSplit [] [] :=
  ⟨rfl, List.forall_mem_nil _, .nil⟩

/-- A placeholder may stand in front of any pieces. -/
theorem isSplit_placeholder_cons :
    IsSplit grammar (.placeholder body :: pieces) ↔
      BracketFree body ∧ IsSplit (flatten pieces) pieces ∧
        grammar = bracketed body ++ flatten pieces := by
  have alone := @isSplit_append_placeholder_cons [] pieces grammar body
  rw [List.nil_append] at alone
  exact alone.trans (and_congr_right fun _ => and_iff_right isSplit_nil)

/-- A text may stand in front of nothing and of a placeholder. -/
theorem isSplit_text_cons :
    IsSplit grammar (.text chars :: pieces) ↔
      (chars ≠ [] ∧ HoldsNone chars) ∧ (∀ first ∈ pieces.head?, first.isText = false) ∧
        IsSplit (flatten pieces) pieces ∧ grammar = chars ++ flatten pieces := by
  have separated_cons : Separated (.text chars :: pieces) ↔
      (∀ first ∈ pieces.head?, first.isText = false) ∧ Separated pieces := by
    rw [Separated, List.isChain_cons]
    simp [Separated, Token.isText]
  constructor
  · rintro ⟨rfl, wellFormed, separated⟩
    rw [List.forall_mem_cons] at wellFormed
    obtain ⟨noText, separated⟩ := separated_cons.mp separated
    exact ⟨wellFormed.1, noText, ⟨rfl, wellFormed.2, separated⟩, rfl⟩
  · rintro ⟨formed, noText, ⟨_, wellFormed, separated⟩, rfl⟩
    exact ⟨rfl, List.forall_mem_cons.mpr ⟨formed, wellFormed⟩,
      separated_cons.mpr ⟨noText, separated⟩⟩

/-! ## The pieces that are read -/

/-- A placeholder in a text that a loose character has joined would start with it. -/
theorem HoldsNone.cons (holdsNone : HoldsNone chars) (loose : Loose c rest)
    (starts : chars <+: rest) : HoldsNone (c :: chars) := by
  intro token shaped occurs
  rcases List.infix_cons_iff.mp occurs with isPrefix | inside
  · exact loose.not_isPrefix shaped (isPrefix.trans (List.cons_prefix_cons.mpr ⟨rfl, starts⟩))
  · exact holdsNone token shaped inside

theorem holdsNone_nil : HoldsNone [] :=
  fun _ shaped occurs => shaped.ne_nil (List.infix_nil.mp occurs)

/-- A loose character starts or continues a text. -/
theorem IsSplit.prependText (split : IsSplit rest pieces) (loose : Loose c rest) :
    IsSplit (c :: rest) (prependText c pieces) := by
  have filled (chars : List Char) : c :: chars ≠ [] := List.cons_ne_nil c chars
  unfold Grammar.prependText
  split
  · rename_i chars others
    obtain ⟨⟨_, holdsNone⟩, noText, splitOthers, rfl⟩ := isSplit_text_cons.mp split
    exact isSplit_text_cons.mpr
      ⟨⟨filled _, holdsNone.cons loose (List.prefix_append _ _)⟩, noText, splitOthers, rfl⟩
  · rename_i startsNoText
    have noText : ∀ first ∈ pieces.head?, first.isText = false := by
      rintro (_ | chars) isFirst
      · rfl
      · obtain ⟨others, rfl⟩ := List.head?_eq_some_iff.mp isFirst
        exact absurd rfl (startsNoText chars others)
    obtain rfl := split.flatten_eq
    exact isSplit_text_cons.mpr
      ⟨⟨filled _, holdsNone_nil.cons loose List.nil_prefix⟩, noText, split, rfl⟩

/-- The pieces that are read from a grammar split it. -/
theorem isSplit_lexChars (grammar : List Char) : IsSplit grammar (lexChars grammar) := by
  induction grammar using pieceInduction with
  | nil =>
      rw [lexChars]
      exact isSplit_nil
  | placeholder body rest free ih =>
      rw [lexChars_bracketed_append free, isSplit_placeholder_cons, flatten_lexChars]
      exact ⟨free, ih, rfl⟩
  | loose c rest loose ih =>
      rw [lexChars_cons_of_loose loose]
      exact ih.prependText loose

/-! ## There are no others -/

/-- In front of what does not start by closing a bracket, text is loose. -/
theorem HoldsNone.loose (holdsNone : HoldsNone (c :: chars))
    (unclosed : (brackets rest).head? ≠ some '>') : Loose c (chars ++ rest) := by
  rintro rfl closes
  rw [brackets_append] at closes
  cases found : brackets chars with
  | nil =>
      rw [found] at closes
      exact unclosed closes
  | cons bracket others =>
      rw [found, List.cons_append, List.head?_cons] at closes
      have first : (brackets chars).head? = some '>' := by rw [found, List.head?_cons, closes]
      obtain ⟨_, body, tail, free, rfl⟩ := head?_brackets_eq_some_iff.mp first
      exact holdsNone _ ⟨body, free, rfl⟩ ⟨[], tail, by simp [bracketed]⟩

/-- Text that holds no placeholder is read as one piece in front of no other text. -/
theorem lexChars_text_append (filled : chars ≠ []) (holdsNone : HoldsNone chars)
    (unclosed : (brackets rest).head? ≠ some '>')
    (noText : ∀ first ∈ (lexChars rest).head?, first.isText = false) :
    lexChars (chars ++ rest) = .text chars :: lexChars rest := by
  induction chars with
  | nil => exact absurd rfl filled
  | cons c chars ih =>
      rw [List.cons_append, lexChars_cons_of_loose (holdsNone.loose unclosed)]
      cases chars with
      | nil =>
          rw [List.nil_append, prependText.eq_def]
          split
          · rename_i first others read
            rw [read] at noText
            exact absurd (noText _ rfl) (by simp [Token.isText])
          · rfl
      | cons next chars =>
          rw [ih (List.cons_ne_nil _ _) fun token shaped occurs =>
            holdsNone token shaped (List.infix_cons occurs)]
          rfl

/-- Pieces start with a text or, if there are any, with a `<`. -/
theorem IsSplit.unclosed (split : IsSplit grammar pieces)
    (noText : ∀ first ∈ pieces.head?, first.isText = false) :
    (brackets grammar).head? ≠ some '>' := by
  cases pieces with
  | nil =>
      obtain rfl := split.flatten_eq
      simp [flatten]
  | cons first others =>
      cases first with
      | placeholder body =>
          obtain ⟨free, _, rfl⟩ := isSplit_placeholder_cons.mp split
          simp [free]
      | text chars => exact absurd (noText _ rfl) (by simp [Token.isText])

/-- Pieces into which a grammar can be split are the ones that are read from it. -/
theorem IsSplit.eq_lexChars (split : IsSplit grammar pieces) : pieces = lexChars grammar := by
  induction pieces generalizing grammar with
  | nil =>
      obtain rfl := split.flatten_eq
      rw [flatten, List.map_nil, List.flatten_nil, lexChars]
  | cons piece others ih =>
      cases piece with
      | placeholder body =>
          obtain ⟨free, splitOthers, rfl⟩ := isSplit_placeholder_cons.mp split
          rw [lexChars_bracketed_append free, ← ih splitOthers]
      | text chars =>
          obtain ⟨⟨filled, holdsNone⟩, noText, splitOthers, rfl⟩ := isSplit_text_cons.mp split
          have read := ih splitOthers
          rw [lexChars_text_append filled holdsNone (splitOthers.unclosed noText)
            (read ▸ noText), ← read]

/-- A placeholder is a piece of its own wherever it stands. -/
theorem lexChars_append_bracketed_append (free : BracketFree body) (left right : List Char) :
    lexChars (left ++ bracketed body ++ right) =
      lexChars left ++ .placeholder body :: lexChars right := by
  refine (IsSplit.eq_lexChars ?_).symm
  rw [isSplit_append_placeholder_cons]
  simp only [flatten_lexChars, isSplit_lexChars, free, and_self]

/-- The pieces of a grammar are the only ones into which it can be split.  Each block of
the grammar that is written like a placeholder is exactly one of them, at the place of the
block, and nothing else is a placeholder among them. -/
theorem isSplit_iff_eq_lex (grammar : String) :
    (∀ pieces, IsSplit grammar.toList pieces ↔ pieces = lex grammar) ∧
      ∀ left body right,
        (BracketFree body ∧ grammar.toList = left ++ bracketed body ++ right) ↔
          ∃! around : List Token × List Token,
            lex grammar = around.1 ++ .placeholder body :: around.2 ∧
              flatten around.1 = left ∧ flatten around.2 = right := by
  constructor
  · intro pieces
    constructor
    · exact IsSplit.eq_lexChars
    · rintro rfl
      exact isSplit_lexChars _
  · intro left body right
    constructor
    · rintro ⟨free, written⟩
      refine ⟨(lexChars left, lexChars right), ⟨?_, flatten_lexChars _, flatten_lexChars _⟩, ?_⟩
      · rw [lex, written, lexChars_append_bracketed_append free]
      · rintro ⟨before, after⟩ ⟨read, rfl, rfl⟩
        have split := isSplit_lexChars grammar.toList
        rw [← lex, read, isSplit_append_placeholder_cons] at split
        exact Prod.ext split.2.1.eq_lexChars split.2.2.1.eq_lexChars
    · rintro ⟨⟨before, after⟩, ⟨read, rfl, rfl⟩, _⟩
      have split := isSplit_lexChars grammar.toList
      rw [← lex, read, isSplit_append_placeholder_cons] at split
      exact ⟨split.1, split.2.2.2⟩

end GrammarUpgrade.Grammar
