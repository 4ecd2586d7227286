import GrammarUpgrade.Proofs.Json.ReadBack
import GrammarUpgrade.Proofs.Toml.Notation
import Mathlib.Data.List.TakeWhile

/-!
# Strings and keys that are read

What the readers of strings and keys find is written in the text that they use up: the main
statements are `spellsText_of_readText` and `spellsKey_of_readKey`.
-/

namespace GrammarUpgrade.Toml

open GrammarUpgrade.Json (of_map_eq_ok)
open GrammarUpgrade.Text (hexValue? consRead)

/-! ## Outcomes -/

section

variable {α β δ ε : Type}

theorem of_mapError_eq_ok {result : Except ε α} {change : ε → δ} {value : α}
    (mapped : result.mapError change = .ok value) : result = .ok value := by
  cases result with
  | error failure => cases mapped
  | ok found =>
      cases mapped
      rfl

theorem exists_of_bind_eq_ok {result : Except ε α} {next : α → Except ε β} {value : β}
    (bound : (result >>= next) = .ok value) :
    ∃ found, result = .ok found ∧ next found = .ok value := by
  cases result with
  | error failure => cases bound
  | ok found => exact ⟨found, rfl, bound⟩

/-- A character in front of what was read. -/
theorem of_map_consRead_eq_ok {result : Reading (List Char)} {c : Char}
    {chars rest : List Char} (mapped : result.map (consRead c) = .ok (chars, rest)) :
    ∃ others, result = .ok (others, rest) ∧ chars = c :: others := by
  obtain ⟨⟨others, left⟩, read, made⟩ := of_map_eq_ok mapped
  cases made
  exact ⟨others, read, rfl⟩

end

/-! ## Escapes -/

theorem exists_digits_of_readHex {start s rest : List Char} {count number result : Nat}
    (read : readHex start count number s = .ok (result, rest)) :
    ∃ digits values, s = digits ++ rest ∧ digits.length = count ∧
      digits.mapM hexValue? = some values ∧
      values.foldl (fun number d => number * 16 + d) number = result := by
  induction count generalizing number s with
  | zero =>
      cases read
      exact ⟨[], [], rfl, rfl, rfl, rfl⟩
  | succ count ih =>
      rw [readHex.eq_def] at read
      simp only at read
      split at read
      · cases read
      · split at read
        · cases read
        · rename_i c others _ digit isDigit
          obtain ⟨digits, values, rfl, length, hex, same⟩ := ih read
          refine ⟨c :: digits, digit :: values, rfl, by simp [length], ?_, same⟩
          simp [isDigit, hex]

theorem spellsEscape_of_readScalar {letter c : Char} {count : Nat} {s rest : List Char}
    (asked : codeLength? letter = some count) (read : readScalar count s = .ok (c, rest)) :
    SpellsEscape c (letter :: s) rest := by
  rw [readScalar] at read
  split at read
  · cases read
  · rename_i number after readDigits
    obtain ⟨digits, values, rfl, rfl, hex, rfl⟩ := exists_digits_of_readHex readDigits
    split at read
    · rename_i valid
      cases read
      exact .code asked (by simp [hexNumber?, hex]) valid
    · cases read

theorem spellsEscape_of_readEscape {c : Char} {s rest : List Char}
    (read : readEscape s = .ok (c, rest)) : SpellsEscape c s rest := by
  rw [readEscape.eq_def] at read
  split at read
  · cases read
  rename_i letter after
  split at read
  · rename_i isLetter
    subst isLetter
    exact spellsEscape_of_readScalar rfl read
  split at read
  · rename_i isLetter
    subst isLetter
    exact spellsEscape_of_readScalar rfl read
  split at read
  · rename_i meant
    cases read
    exact .short meant
  · cases read

/-! ## What is left behind a piece -/

theorem SpellsEscape.suffix {c : Char} {s rest : List Char} (spells : SpellsEscape c s rest) :
    rest <:+ s := by
  cases spells with
  | short => exact List.suffix_cons _ _
  | code => exact (List.suffix_append _ _).trans (List.suffix_cons _ _)

theorem SpellsLine.suffix {quote : Char} {chars s rest : List Char}
    (spells : SpellsLine quote chars s rest) : rest <:+ s := by
  induction spells with
  | close => exact List.suffix_cons _ _
  | ordinary _ _ ih => exact ih.trans (List.suffix_cons _ _)
  | escape _ meant _ ih => exact ih.trans (meant.suffix.trans (List.suffix_cons _ _))

theorem SpellsName.suffix {name : String} {s rest : List Char}
    (spells : SpellsName name s rest) : rest <:+ s := by
  cases spells with
  | bare => exact List.dropWhile_suffix _
  | quoted _ spelled => exact spelled.suffix.trans (List.suffix_cons _ _)

/-! ## Strings on one line -/

theorem isOrdinary_of_ne {quote c : Char} (plain : isPlain c = true) (notQuote : c ≠ quote)
    (notBackslash : c ≠ '\\') : isOrdinary quote c = true := by
  simp [isOrdinary, plain, notQuote, notBackslash]

theorem isOrdinary_of_literal {c : Char} (plain : isPlain c = true) (notQuote : c ≠ '\'') :
    isOrdinary '\'' c = true := by
  simp [isOrdinary, plain, notQuote]

theorem spellsLine_of_readBasic {s chars rest : List Char}
    (read : readBasic s = .ok (chars, rest)) : SpellsLine '"' chars s rest := by
  fun_induction readBasic s generalizing chars with
  | case1 => cases read
  | case2 =>
      cases read
      exact .close
  | case3 => cases read
  | case4 s meant after readMeant _ ih =>
      obtain ⟨others, readOthers, rfl⟩ := of_map_consRead_eq_ok read
      exact .escape rfl (spellsEscape_of_readEscape readMeant) (ih readOthers)
  | case5 c s notQuote notBackslash plain ih =>
      obtain ⟨others, readOthers, rfl⟩ := of_map_consRead_eq_ok read
      exact .ordinary (isOrdinary_of_ne plain notQuote notBackslash) (ih readOthers)
  | case6 => cases read

theorem spellsLine_of_readLiteral {s chars rest : List Char}
    (read : readLiteral s = .ok (chars, rest)) : SpellsLine '\'' chars s rest := by
  fun_induction readLiteral s generalizing chars with
  | case1 => cases read
  | case2 =>
      cases read
      exact .close
  | case3 c s notQuote plain ih =>
      obtain ⟨others, readOthers, rfl⟩ := of_map_consRead_eq_ok read
      exact .ordinary (isOrdinary_of_literal plain notQuote) (ih readOthers)
  | case4 => cases read

/-! ## Strings over several lines -/

/-- The run of quotes that a text begins with, as a list of them and what follows. -/
theorem exists_run (quote : Char) (s : List Char) :
    ∃ rest, s = List.replicate (s.takeWhile (· = quote)).length quote ++ rest ∧
      rest.head? ≠ some quote := by
  refine ⟨s.dropWhile (· = quote), ?_, ?_⟩
  · have all : s.takeWhile (· = quote) =
        List.replicate (s.takeWhile (· = quote)).length quote :=
      List.eq_replicate_iff.mpr ⟨rfl, fun c mem => by simpa using List.mem_takeWhile_imp mem⟩
    rw [← all, List.takeWhile_append_dropWhile]
  · intro same
    have fails := List.head?_dropWhile_not (· = quote) s
    simp [same] at fails

theorem spellsLines_of_closeRun? {quote : Char} {s chars rest : List Char}
    (closes : closeRun? quote s = some (chars, rest)) : SpellsLines quote chars s rest := by
  obtain ⟨after, run, stops⟩ := exists_run quote s
  simp only [closeRun?] at closes
  split at closes
  · cases closes
  · rename_i long
    generalize (s.takeWhile (· = quote)).length = length at run closes long
    obtain ⟨rfl, rfl⟩ := Prod.mk.inj (Option.some.inj closes)
    have split : length = min (length - 3) 2 + 3 + (length - (min (length - 3) 2 + 3)) := by
      omega
    have parts : s = List.replicate (min (length - 3) 2 + 3) quote ++
        (List.replicate (length - (min (length - 3) 2 + 3)) quote ++ after) := by
      rw [← List.append_assoc, List.replicate_append_replicate, ← split]
      exact run
    rw [parts, List.drop_left' (by simp)]
    refine .close (Nat.min_le_right _ _) ?_
    by_cases all : length ≤ 5
    · refine .inr ?_
      have none_left : length - (min (length - 3) 2 + 3) = 0 := by omega
      simpa [none_left] using stops
    · exact .inl (by omega)

/-- A run that does not close the string is short. -/
theorem not_isPrefix_of_closeRun?_eq_none {quote : Char} {s : List Char}
    (open_ : closeRun? quote (quote :: s) = none) : ¬[quote, quote] <+: s := by
  rintro ⟨rest, rfl⟩
  simp [closeRun?] at open_

theorem spellsLines_of_readBasicLines {s chars rest : List Char}
    (read : readBasicLines s = .ok (chars, rest)) : SpellsLines '"' chars s rest := by
  fun_induction readBasicLines s generalizing chars with
  | case1 => cases read
  | case2 s closed closes =>
      simp only [closes, Except.ok.injEq] at read
      exact spellsLines_of_closeRun? (read ▸ closes)
  | case3 s open_ all => simp only [open_, all, if_true, reduceCtorEq] at read
  | case4 s open_ others ih =>
      simp only [open_, others] at read
      obtain ⟨others, readOthers, rfl⟩ := of_map_consRead_eq_ok read
      exact .quote (not_isPrefix_of_closeRun?_eq_none open_) (ih readOthers)
  | case5 s after joined _ ih => exact .joined rfl joined (ih read)
  | case6 => cases read
  | case7 s notJoined meant after readMeant _ ih =>
      obtain ⟨others, readOthers, rfl⟩ := of_map_consRead_eq_ok read
      exact .escape rfl notJoined (spellsEscape_of_readEscape readMeant) (ih readOthers)
  | case8 c s notQuote notBackslash after broken ih =>
      obtain ⟨others, readOthers, rfl⟩ := of_map_consRead_eq_ok read
      exact .newline broken (ih readOthers)
  | case9 c s notQuote notBackslash _ plain ih =>
      obtain ⟨others, readOthers, rfl⟩ := of_map_consRead_eq_ok read
      exact .ordinary (isOrdinary_of_ne plain notQuote notBackslash) (ih readOthers)
  | case10 => cases read

theorem spellsLines_of_readLiteralLines {s chars rest : List Char}
    (read : readLiteralLines s = .ok (chars, rest)) : SpellsLines '\'' chars s rest := by
  fun_induction readLiteralLines s generalizing chars with
  | case1 => cases read
  | case2 s closed closes =>
      simp only [closes, Except.ok.injEq] at read
      exact spellsLines_of_closeRun? (read ▸ closes)
  | case3 s open_ ih =>
      simp only [open_] at read
      obtain ⟨others, readOthers, rfl⟩ := of_map_consRead_eq_ok read
      exact .quote (not_isPrefix_of_closeRun?_eq_none open_) (ih (of_mapError_eq_ok readOthers))
  | case4 c s notQuote after broken ih =>
      obtain ⟨others, readOthers, rfl⟩ := of_map_consRead_eq_ok read
      exact .newline broken (ih readOthers)
  | case5 c s notQuote _ plain ih =>
      obtain ⟨others, readOthers, rfl⟩ := of_map_consRead_eq_ok read
      exact .ordinary (isOrdinary_of_literal plain notQuote) (ih readOthers)
  | case6 => cases read

/-! ## Strings with their quotes -/

theorem of_textOf_eq_ok {what text : String} {reading : Reading (List Char)}
    {rest : List Char} (read : textOf what reading = .ok (text, rest)) :
    ∃ chars, reading = .ok (chars, rest) ∧ text = String.ofList chars := by
  obtain ⟨⟨chars, left⟩, found, made⟩ := of_map_eq_ok read
  cases made
  exact ⟨chars, of_mapError_eq_ok found, rfl⟩

theorem exists_spellsLine_of_readLineText {text : String} {s rest : List Char}
    (read : readLineText s = .ok (text, rest)) :
    ∃ quote after chars, s = quote :: after ∧ isQuote quote = true ∧
      SpellsLine quote chars after rest ∧ text = String.ofList chars := by
  rw [readLineText.eq_def] at read
  split at read
  · obtain ⟨chars, readChars, rfl⟩ := of_textOf_eq_ok read
    exact ⟨_, _, chars, rfl, rfl, spellsLine_of_readBasic readChars, rfl⟩
  · obtain ⟨chars, readChars, rfl⟩ := of_textOf_eq_ok read
    exact ⟨_, _, chars, rfl, rfl, spellsLine_of_readLiteral readChars, rfl⟩
  · cases read

/-- A string that is read is written where it begins. -/
theorem spellsText_of_readText {text : String} {s rest : List Char}
    (read : readText s = .ok (text, rest)) : SpellsText text s rest := by
  rw [readText.eq_def] at read
  split at read
  · obtain ⟨chars, readChars, rfl⟩ := of_textOf_eq_ok read
    exact .lines rfl (spellsLines_of_readBasicLines readChars)
  · obtain ⟨chars, readChars, rfl⟩ := of_textOf_eq_ok read
    exact .lines rfl (spellsLines_of_readLiteralLines readChars)
  · rename_i notBasic notLiteral
    obtain ⟨quote, after, chars, rfl, quoted, spelled, rfl⟩ :=
      exists_spellsLine_of_readLineText read
    refine .line quoted ?_ spelled
    rintro ⟨others, rfl⟩
    rcases Bool.or_eq_true_iff.mp quoted with basic | literal
    · exact notBasic others (by simp [of_decide_eq_true basic])
    · exact notLiteral others (by simp [of_decide_eq_true literal])

/-! ## Keys -/

theorem spellsName_of_readName {key : Key} {s rest : List Char}
    (read : readName s = .ok (key, rest)) : SpellsName key.name s rest := by
  simp only [readName] at read
  split at read
  · rename_i begins
    cases read
    exact .bare begins
  · obtain ⟨⟨text, left⟩, readText, made⟩ := of_map_eq_ok read
    cases made
    obtain ⟨quote, after, chars, rfl, quoted, spelled, rfl⟩ :=
      exists_spellsLine_of_readLineText readText
    exact .quoted quoted spelled

/-- At most so many names are as many as there are when the text is no longer than that. -/
theorem spellsKey_of_readNamesUpTo {count : Nat} {path : List Key} {s rest : List Char}
    (read : readNamesUpTo count s = .ok (path, rest)) (begins : beginsName s = true)
    (enough : s.length ≤ count) : SpellsKey (names path) s rest := by
  induction count generalizing path s with
  | zero =>
      obtain rfl := List.length_eq_zero_iff.mp (Nat.le_zero.mp enough)
      cases begins
  | succ count ih =>
      rw [readNamesUpTo] at read
      split at read
      · cases read
      rename_i name afterName readFirst
      have first := spellsName_of_readName readFirst
      split at read
      · rename_i afterDot dot
        split at read
        · rename_i beginsOther
          split at read
          · cases read
          rename_i others last readOthers
          cases read
          have suffix : '.' :: afterDot <:+ s :=
            dot ▸ (List.dropWhile_suffix _).trans
              (first.suffix.trans (List.dropWhile_suffix _))
          have shorter := suffix.length_le
          rw [List.length_cons] at shorter
          exact .dotted first dot (ih readOthers beginsOther (by omega))
        · cases read
          rw [← dot]
          exact .last first
      · cases read
        exact .last first

/-- A key that is read is written where it begins. -/
theorem spellsKey_of_readKey {way : List Key} {last : Key} {s rest : List Char}
    (read : readKey s = .ok ((way, last), rest)) :
    SpellsKey (names (way ++ [last])) s rest := by
  rw [readKey] at read
  split at read
  · rename_i begins
    split at read
    · cases read
    rename_i path after readPath
    split at read
    · cases read
    rename_i final isLast
    split at read
    · obtain ⟨before, rfl⟩ := List.getLast?_eq_some_iff.mp isLast
      cases read
      rw [List.dropLast_concat]
      exact spellsKey_of_readNamesUpTo readPath begins (Nat.le_refl _)
    · cases read
  · cases read

end GrammarUpgrade.Toml
