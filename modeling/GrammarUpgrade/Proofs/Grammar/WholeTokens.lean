import GrammarUpgrade.Proofs.Grammar.Substitution

/-!
# Whole placeholders against substrings

A token is searched and replaced among the pieces of a grammar, and any text whatsoever
can be given as the token.  The main statement, `replace?_eq_some_iff_replaced`, says what
this comes to without speaking of pieces: only a text that is written like a placeholder is
ever found, it is found wherever it stands in the grammar, and replacing it is replacing
its occurrences from left to right.
-/

namespace GrammarUpgrade.Grammar

variable {grammar token replacement : String}

/-- The search among the pieces does without the search in the text before it. -/
theorem any_isPlaceholder_lex (grammar token : String) :
    (lex grammar).any (·.isPlaceholder token.toList) = mentions grammar token := by
  rw [Bool.eq_iff_iff, any_isPlaceholder_iff, mentions_iff_mem_placeholders]

/-- There is something to replace when the token is mentioned, and nothing is lost on the
way to the text that `replace` gives. -/
theorem replace?_eq_some_iff {result : String} :
    replace? grammar token replacement = some result ↔
      mentions grammar token = true ∧ replace grammar token replacement = result := by
  cases mentioned : mentions grammar token with
  | false => simp [replace?, mentioned]
  | true => simp [replace, replace?, mentioned]

/-- Replacing a token that is written like a placeholder is the reading from left to
right. -/
theorem replaced_replace (shaped : IsPlaceholder token.toList)
    (grammar replacement : String) :
    Text.Replaced token.toList replacement.toList grammar.toList
      (replace grammar token replacement).toList := by
  rw [toList_replace]
  exact replaced_substitute shaped grammar.toList

/-- Such a token is replaced like any other substring. -/
theorem toList_replace_eq_replaceAll (shaped : IsPlaceholder token.toList)
    (grammar replacement : String) :
    (replace grammar token replacement).toList =
      Text.replaceAll token.toList replacement.toList grammar.toList :=
  ((Text.replaced_iff shaped.ne_nil).mp
    (replaced_replace shaped grammar replacement)).symm

/-- A grammar mentions exactly the tokens that are written like a placeholder and occur in
it, and the test whether the token occurs at all never changes the answer of the search
among the pieces.  Nothing is replaced when the token is not mentioned; otherwise the
result is the one reading of the grammar from left to right that exchanges the occurrences
of the token and does not read what it has inserted. -/
theorem replace?_eq_some_iff_replaced (grammar token : String) :
    (mentions grammar token = true ↔
        (∃ body, BracketFree body ∧ bracketed body = token.toList) ∧
          token.toList <:+: grammar.toList) ∧
      (lex grammar).any (·.isPlaceholder token.toList) = mentions grammar token ∧
      ∀ replacement : String,
        (replace? grammar token replacement = none ↔ mentions grammar token = false) ∧
          ∀ result : String, replace? grammar token replacement = some result ↔
            mentions grammar token = true ∧
              Text.Replaced token.toList replacement.toList grammar.toList
                result.toList := by
  refine ⟨mentions_iff, any_isPlaceholder_lex grammar token, fun replacement => ⟨?_, ?_⟩⟩
  · cases mentioned : mentions grammar token <;> simp [replace?, mentioned]
  · intro result
    rw [replace?_eq_some_iff]
    refine and_congr_right fun mentioned => ?_
    have shaped : IsPlaceholder token.toList := (mentions_iff.mp mentioned).1
    constructor
    · rintro rfl
      exact replaced_replace shaped grammar replacement
    · intro replaced
      apply String.toList_injective
      rw [toList_replace_eq_replaceAll shaped]
      exact (Text.replaced_iff shaped.ne_nil).mp replaced

/-- What is inserted may spell the token once more with what follows it. -/
example : replace? "<<a>a>" "<a>" "<" = some "<<a>" := by
  decide +kernel

end GrammarUpgrade.Grammar
