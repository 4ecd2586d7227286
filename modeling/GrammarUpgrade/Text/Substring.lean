/-!
# Substrings

Two operations on the characters of a text: whether a pattern occurs in it, and
the replacement of every occurrence of a pattern from left to right.  The main
statement, `occursIn_iff`, says that the first decides the library's relation
`<:+:` between a list and the lists that contain it as a block.
-/

namespace GrammarUpgrade.Text

/-- A pattern occurs in a text when the text starts with it or its tail
contains it; the empty pattern occurs everywhere. -/
def occursIn (pattern : List Char) : List Char → Bool
  | [] => pattern.isEmpty
  | c :: rest => pattern.isPrefixOf (c :: rest) || occursIn pattern rest

/-- `occursIn` decides whether the pattern is a contiguous block of the text. -/
theorem occursIn_iff {pattern text : List Char} :
    occursIn pattern text = true ↔ pattern <:+: text := by
  induction text with
  | nil => cases pattern <;> simp [occursIn]
  | cons c rest ih =>
      simp [occursIn, ih, List.infix_cons_iff]

/-- Replacement of every occurrence of a pattern, the occurrences being found
from left to right without overlap.  `covered` counts the characters that still
belong to the occurrence found last; inserted text is never scanned. -/
def replaceAllFrom (pattern replacement : List Char) (covered : Nat) :
    List Char → List Char
  | [] => []
  | c :: rest =>
      match covered with
      | n + 1 => replaceAllFrom pattern replacement n rest
      | 0 =>
          if pattern.isPrefixOf (c :: rest) then
            replacement ++
              replaceAllFrom pattern replacement (pattern.length - 1) rest
          else
            c :: replaceAllFrom pattern replacement 0 rest

/-- Replace every occurrence of a non-empty pattern, from left to right. -/
def replaceAll (pattern replacement text : List Char) : List Char :=
  replaceAllFrom pattern replacement 0 text

end GrammarUpgrade.Text
