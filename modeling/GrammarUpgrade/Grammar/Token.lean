/-!
# Pieces of a value-definition grammar

A grammar string is split into placeholders such as `<color>` or
`<length [0,∞]>` and the text between them; nothing else of the notation is
interpreted.  A placeholder is a `<`, characters that are no angle bracket, and a
`>`.  Every other bracket is text.  The main statement, `flatten_lexChars`, says
that the pieces put together again give the grammar.
-/

namespace GrammarUpgrade.Grammar

/-- A piece of a grammar string. -/
inductive Token where
  /-- What stands between the angle brackets of a placeholder. -/
  | placeholder (body : List Char)
  /-- Keywords, combinators, multipliers, white space and stray brackets. -/
  | text (chars : List Char)
  deriving DecidableEq, Repr, Inhabited

/-- Whether a character is an angle bracket. -/
def isBracket (c : Char) : Bool :=
  c = '<' || c = '>'

/-- The characters of a placeholder with the given body. -/
def bracketed (body : List Char) : List Char :=
  '<' :: body ++ ['>']

namespace Token

/-- The characters a piece was read from. -/
def chars : Token → List Char
  | .placeholder body => bracketed body
  | .text chars => chars

/-- The source text of a piece. -/
def source (token : Token) : String :=
  String.ofList token.chars

/-- Whether a piece is the placeholder written as `pattern`. -/
def isPlaceholder (pattern : List Char) : Token → Bool
  | .placeholder body => bracketed body = pattern
  | .text _ => false

end Token

/-- The body of the placeholder whose `<` has just been read, and what follows
its `>`; nothing if another `<` or the end comes first. -/
def closing? (afterOpen : List Char) : Option (List Char × List Char) :=
  match afterOpen.dropWhile (!isBracket ·) with
  | '>' :: rest => some (afterOpen.takeWhile (!isBracket ·), rest)
  | _ => none

/-- A closed placeholder is its body, the closing bracket and the rest. -/
theorem eq_append_of_closing? {afterOpen body rest : List Char}
    (closed : closing? afterOpen = some (body, rest)) :
    afterOpen = body ++ '>' :: rest := by
  unfold closing? at closed
  split at closed
  · rename_i tail dropped
    simp only [Option.some.injEq, Prod.mk.injEq] at closed
    obtain ⟨rfl, rfl⟩ := closed
    rw [← dropped, List.takeWhile_append_dropWhile]
  · simp at closed

/-- What follows a closed placeholder is shorter than what follows its `<`. -/
theorem length_lt_of_closing? {afterOpen body rest : List Char}
    (closed : closing? afterOpen = some (body, rest)) :
    rest.length < afterOpen.length := by
  rw [eq_append_of_closing? closed]
  simp only [List.length_append, List.length_cons]
  omega

/-- Put a character in front of a list of pieces: it extends a leading text and
otherwise starts a text of its own. -/
def prependText (c : Char) : List Token → List Token
  | .text chars :: tokens => .text (c :: chars) :: tokens
  | tokens => .text [c] :: tokens

/-- Split the characters of a grammar into pieces. -/
def lexChars : List Char → List Token
  | [] => []
  | c :: rest =>
      if c = '<' then
        match _closed : closing? rest with
        | some (body, after) => .placeholder body :: lexChars after
        | none => prependText c (lexChars rest)
      else
        prependText c (lexChars rest)
termination_by grammar => grammar.length
decreasing_by
  all_goals simp only [List.length_cons]
  · have := length_lt_of_closing? _closed
    omega
  · omega
  · omega

/-- Split a grammar string into pieces. -/
def lex (grammar : String) : List Token :=
  lexChars grammar.toList

/-- The characters of a list of pieces, one after the other. -/
def flatten (tokens : List Token) : List Char :=
  (tokens.map Token.chars).flatten

/-- Prepending a character prepends it to the characters of the pieces. -/
@[simp]
theorem flatten_prependText (c : Char) (tokens : List Token) :
    flatten (prependText c tokens) = c :: flatten tokens := by
  unfold prependText
  split <;> simp [flatten, Token.chars]

/-- No character of a grammar is lost, added or moved. -/
@[simp]
theorem flatten_lexChars (grammar : List Char) :
    flatten (lexChars grammar) = grammar := by
  fun_induction lexChars grammar with
  | case1 => rfl
  | case2 rest body after closed ih =>
      rw [eq_append_of_closing? closed]
      simp only [flatten, List.map_cons, List.flatten_cons] at ih ⊢
      simp [ih, Token.chars, bracketed]
  | case3 rest closed ih => simp [ih]
  | case4 c rest notOpen ih => simp [ih]

end GrammarUpgrade.Grammar
