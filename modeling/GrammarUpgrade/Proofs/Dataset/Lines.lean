import GrammarUpgrade.Dataset.Printer
import GrammarUpgrade.Proofs.Json.Unambiguous
import GrammarUpgrade.Proofs.Json.Writing
import Mathlib.Tactic.SplitIfs

/-!
# Documents by lines

Line breaks inside of keys and grammars are escaped, so that the line breaks of a document are
those of its layout.  A dictionary of grammars has a line for each entry between two lines for
its brackets, and two documents with the same keys differ exactly in the lines of those entries
that differ; the main statement is `documentLines_entries`.
-/

namespace GrammarUpgrade

namespace Json

/-! ## Line breaks are escaped -/

theorem hexDigit_ne_newline : ∀ digit < 16, hexDigit digit ≠ '\n' := by
  decide

theorem newline_not_mem_escapeChar (c : Char) : '\n' ∉ escapeChar c := by
  unfold escapeChar
  split_ifs with _ _ _ _ notNewline _ _ control
  any_goals decide
  · have high := hexDigit_ne_newline (c.toNat / 16) (by omega)
    have low := hexDigit_ne_newline (c.toNat % 16) (by omega)
    simp [high.symm, low.symm]
  · simpa using Ne.symm notNewline

theorem newline_not_mem_writeText (text : String) : '\n' ∉ writeText text := by
  simp [writeText, newline_not_mem_escapeChar]

/-- Different strings are written differently. -/
theorem writeText_inj {first second : String} :
    writeText first = writeText second ↔ first = second := by
  constructor
  · intro same
    exact ((spellsKey_flatMap_escapeChar first).unique (spellsKey_flatMap_escapeChar second)
      (List.cons.inj same).2).1
  · exact congrArg writeText

end Json

open Json

/-! ## Lines -/

/-- The lines of the document of a dictionary, and what stands behind the last line break. -/
def Dictionary.documentLines (grammars : Dictionary String) : List (List Char) :=
  grammars.toValue.documentText.toList.splitOn '\n'

/-- The line of an entry, which has a comma unless the entry is the last. -/
def entryLine (entry : String × String) (isLast : Bool) : List Char :=
  "  ".toList ++ writeText entry.1 ++ ": ".toList ++ writeText entry.2 ++
    if isLast then [] else [',']

/-- The lines of entries. -/
def entryLines (entries : List (String × String)) : List (List Char) :=
  entries.mapIdx fun i entry => entryLine entry (i + 1 = entries.length)

theorem newline_not_mem_entryLine (entry : String × String) (isLast : Bool) :
    '\n' ∉ entryLine entry isLast := by
  cases isLast <;> simp [entryLine, newline_not_mem_writeText]

theorem entryLine_inj {key grammar other : String} {isLast : Bool} :
    entryLine (key, grammar) isLast = entryLine (key, other) isLast ↔ grammar = other := by
  simp [entryLine, writeText_inj]

theorem entryLines_cons_cons (first next : String × String) (others : List (String × String)) :
    entryLines (first :: next :: others) =
      entryLine first false :: entryLines (next :: others) := by
  simp [entryLines, List.mapIdx_cons]

theorem length_entryLines (entries : List (String × String)) :
    (entryLines entries).length = entries.length := by
  rw [entryLines, List.length_mapIdx]

theorem getElem?_entryLines (entries : List (String × String)) (i : Nat) :
    (entryLines entries)[i]? =
      entries[i]?.map fun entry => entryLine entry (i + 1 = entries.length) := by
  rw [entryLines, List.getElem?_mapIdx]

/-! ## Documents -/

/-- What a document has from the line of an entry on. -/
def textFrom (first : String × String) (others : List (String × String)) : List Char :=
  "  ".toList ++ writeMember .indented first.1 (writeText first.2) ++
    following .indented 0 '\x7d'
      (writeAll .indented (others.map fun entry => (entry.1, writeText entry.2))) ['\n']

theorem textFrom_nil (first : String × String) :
    textFrom first [] = entryLine first true ++ '\n' :: ['\x7d', '\n'] := by
  simp [textFrom, writeAll, following_nil, entryLine, writeMember, Layout.indented]

theorem textFrom_cons (first next : String × String) (others : List (String × String)) :
    textFrom first (next :: others) = entryLine first false ++ '\n' :: textFrom next others := by
  simp [textFrom, writeAll, following_cons, entryLine, writeMember, Layout.indented]

theorem splitOn_textFrom (first : String × String) (others : List (String × String)) :
    (textFrom first others).splitOn '\n' = entryLines (first :: others) ++ [['\x7d'], []] := by
  induction others generalizing first with
  | nil =>
      rw [textFrom_nil,
        List.splitOn_append_cons_self_of_not_mem (newline_not_mem_entryLine first true)]
      rfl
  | cons next others ih =>
      rw [textFrom_cons, entryLines_cons_cons, List.cons_append, ← ih next,
        List.splitOn_append_cons_self_of_not_mem (newline_not_mem_entryLine first false)]

namespace Dictionary

theorem toList_documentText {grammars : Dictionary String} {first : String × String}
    {others : List (String × String)} (entries : grammars.entries = first :: others) :
    grammars.toValue.documentText.toList = ['\x7b'] ++ '\n' :: textFrom first others := by
  have members : grammars.toValue.write .indented 0 = enclose .indented 0 '\x7b' '\x7d'
      (writeAll .indented (grammars.entries.map fun entry => (entry.1, writeText entry.2))) := by
    rw [toValue, Value.write, writeMembers_eq_writeAll, List.map_map]
    rfl
  rw [Value.documentText, String.toList_ofList, members, entries]
  simp [writeAll, enclose_cons, textFrom, following, Layout.indented]

/-- A document has a line for each entry between the lines of its brackets. -/
theorem documentLines_of_filled {grammars : Dictionary String} (filled : grammars.entries ≠ []) :
    grammars.documentLines = ['\x7b'] :: (entryLines grammars.entries ++ [['\x7d'], []]) := by
  obtain ⟨first, others, entries⟩ := List.exists_cons_of_ne_nil filled
  rw [documentLines, toList_documentText entries,
    List.splitOn_append_cons_self_of_not_mem (by decide), splitOn_textFrom, entries]

/-- What stands behind equally many lines makes no difference. -/
theorem getElem?_append_ne_iff {lines others : List (List Char)}
    (same : lines.length = others.length) {rest : List (List Char)} {i : Nat} :
    (lines ++ rest)[i]? ≠ (others ++ rest)[i]? ↔ lines[i]? ≠ others[i]? := by
  rw [List.getElem?_append, List.getElem?_append, same]
  split
  · rfl
  · rename_i behind
    have few : lines.length ≤ i := by omega
    have fewOthers : others.length ≤ i := by omega
    simp [few, fewOthers]

section SameKeys

variable {grammars others : Dictionary String} (same : others.keys = grammars.keys)

include same

theorem length_entries_of_keys_eq : others.entries.length = grammars.entries.length := by
  simpa [keys] using congrArg List.length same

/-- What two dictionaries with the same keys have at the same place. -/
theorem getElem?_of_keys_eq (i : Nat) :
    (grammars.entries[i]? = none ∧ others.entries[i]? = none) ∨
      ∃ key grammar other, grammars.entries[i]? = some (key, grammar) ∧
        others.entries[i]? = some (key, other) := by
  have keys : others.entries[i]?.map Prod.fst = grammars.entries[i]?.map Prod.fst := by
    simpa [Dictionary.keys] using congrArg (·[i]?) same
  cases here : grammars.entries[i]? with
  | none =>
      rw [here, Option.map_none, Option.map_eq_none_iff] at keys
      exact .inl ⟨rfl, keys⟩
  | some entry =>
      rw [here, Option.map_some, Option.map_eq_some_iff] at keys
      obtain ⟨⟨key, other⟩, there, rfl⟩ := keys
      exact .inr ⟨entry.1, entry.2, other, rfl, there⟩

/-- The lines of entries differ where the grammars do. -/
theorem getElem?_entryLines_ne_iff (i : Nat) :
    (entryLines grammars.entries)[i]? ≠ (entryLines others.entries)[i]? ↔
      ∃ key grammar other, grammars.entries[i]? = some (key, grammar) ∧
        others.entries[i]? = some (key, other) ∧ grammar ≠ other := by
  rw [getElem?_entryLines, getElem?_entryLines, length_entries_of_keys_eq same]
  rcases getElem?_of_keys_eq same i with ⟨absent, absentOther⟩ | ⟨key, grammar, other, here, there⟩
  · simp [absent, absentOther]
  · simp [here, there, entryLine_inj]

end SameKeys

/-- A document of grammars has a line for each entry between the lines of its brackets, and
ends with a line break.  Two documents with the same keys in the same order differ exactly in
the lines of the entries whose grammars differ. -/
theorem documentLines_entries (grammars : Dictionary String) (filled : grammars.entries ≠ []) :
    grammars.documentLines = ['\x7b'] :: (entryLines grammars.entries ++ [['\x7d'], []]) ∧
    ∀ others : Dictionary String, others.keys = grammars.keys → ∀ i,
      grammars.documentLines[i]? ≠ others.documentLines[i]? ↔
        ∃ j, i = j + 1 ∧ ∃ key grammar other, grammars.entries[j]? = some (key, grammar) ∧
          others.entries[j]? = some (key, other) ∧ grammar ≠ other := by
  refine ⟨documentLines_of_filled filled, fun others same i => ?_⟩
  have sameLength := length_entries_of_keys_eq same
  have filledOthers : others.entries ≠ [] := by
    rintro empty
    rw [empty] at sameLength
    exact filled (List.length_eq_zero_iff.mp sameLength.symm)
  rw [documentLines_of_filled filled, documentLines_of_filled filledOthers]
  cases i with
  | zero => simp
  | succ j =>
      have lines : (entryLines grammars.entries).length = (entryLines others.entries).length := by
        rw [length_entryLines, length_entryLines, sameLength]
      rw [List.getElem?_cons_succ, List.getElem?_cons_succ, getElem?_append_ne_iff lines,
        getElem?_entryLines_ne_iff same]
      constructor
      · exact fun differ => ⟨j, rfl, differ⟩
      · rintro ⟨_, ⟨⟩, differ⟩
        exact differ

/-- A key and a grammar with line breaks of their own, and the line that another grammar
changes. -/
theorem documentLines_broken :
    let grammars : Dictionary String := .ofList [("a\nb", "<x>\n"), ("c", "\"<y>\"")]
    let others : Dictionary String := .ofList [("a\nb", "<x>\n"), ("c", "<y>")]
    grammars.documentLines =
        ["\x7b".toList, "  \"a\\nb\": \"<x>\\n\",".toList,
          "  \"c\": \"\\\"<y>\\\"\"".toList, "\x7d".toList, []] ∧
      grammars.documentLines[1]? = others.documentLines[1]? ∧
      grammars.documentLines[2]? ≠ others.documentLines[2]? := by
  intro grammars others
  obtain ⟨lines, differ⟩ := documentLines_entries grammars (by decide)
  refine ⟨lines.trans (by decide), ?_, ?_⟩
  · by_contra changed
    obtain ⟨_, ⟨⟩, _, _, _, here, there, different⟩ := (differ others rfl 1).mp changed
    cases here
    cases there
    exact different rfl
  · exact (differ others rfl 2).mpr ⟨1, rfl, "c", "\"<y>\"", "<y>", rfl, rfl, by decide⟩

end Dictionary

end GrammarUpgrade
