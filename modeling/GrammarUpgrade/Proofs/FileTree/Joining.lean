import GrammarUpgrade.Proofs.FileTree.Creating

/-!
# Names in directories

A path may be spelled with slashes at its end and with dots, but where it is followed by the
name of a file, that name is looked up in the directory to which the path leads.  The main
statement is `writable_join`.
-/

namespace GrammarUpgrade

namespace Path

variable {directory name : String}

/-! ## Splitting at slashes -/

theorem splitSlashes_ne_nil (text : List Char) : splitSlashes text ≠ [] := by
  cases text with
  | nil => simp [splitSlashes]
  | cons c rest =>
      rw [splitSlashes]
      split
      · simp
      · split <;> simp

theorem splitSlashes_append_slash (first second : List Char) :
    splitSlashes (first ++ '/' :: second) = splitSlashes first ++ splitSlashes second := by
  induction first with
  | nil => simp [splitSlashes]
  | cons c rest ih =>
      rw [List.cons_append, splitSlashes, splitSlashes, ih]
      split
      · rfl
      · cases parted : splitSlashes rest with
        | nil => exact absurd parted (splitSlashes_ne_nil rest)
        | cons part others => rfl

theorem splitSlashes_of_not_mem {text : List Char} (noSlash : '/' ∉ text) :
    splitSlashes text = [text] := by
  induction text with
  | nil => rfl
  | cons c rest ih =>
      obtain ⟨other, noSlash⟩ := not_or.mp (mt List.mem_cons.mpr noSlash)
      rw [splitSlashes, if_neg (Ne.symm other), ih noSlash]

/-! ## Joining a name to a directory -/

/-- The name of something in a directory: neither that directory nor the one above it. -/
structure IsName (name : String) : Prop where
  filled : name ≠ ""
  noSlash : '/' ∉ name.toList
  noNul : ∀ c ∈ name.toList, c.toNat ≠ 0
  notHere : name ≠ "."
  notAbove : name ≠ ".."

/-- The characters are looked at one after the other, not all that there are. -/
instance (name : String) : Decidable (IsName name) :=
  decidable_of_iff
    (name ≠ "" ∧ '/' ∉ name.toList ∧ (name.toList.all fun c => c.toNat ≠ 0) = true ∧
      name ≠ "." ∧ name ≠ "..")
    ⟨fun ⟨filled, noSlash, noNul, notHere, notAbove⟩ =>
        ⟨filled, noSlash, by simpa using noNul, notHere, notAbove⟩,
      fun isName => ⟨isName.filled, isName.noSlash, by simpa using isName.noNul, isName.notHere,
        isName.notAbove⟩⟩

theorem IsName.toList_ne_nil (isName : IsName name) : name.toList ≠ [] :=
  fun empty => isName.filled (String.toList_eq_nil_iff.mp empty)

theorem IsName.parts_eq (isName : IsName name) : parts name = [name] := by
  simp [parts, splitSlashes_of_not_mem isName.noSlash, isName.toList_ne_nil]

theorem IsName.not_isAbsolute (isName : IsName name) : isAbsolute name = false := by
  rw [isAbsolute, decide_eq_false_iff_not]
  exact fun first => isName.noSlash (List.mem_of_mem_head? first)

/-- A name stands alone or after a slash. -/
theorem IsName.join_cases (isName : IsName name) (directory : String) :
    directory = "" ∧ join directory name = name ∨
      ∃ front, (join directory name).toList = front ++ '/' :: name.toList ∧
        (directory.toList = front ++ ['/'] ∨ directory.toList = front ∧ front ≠ []) := by
  rw [join, isName.not_isAbsolute]
  by_cases empty : directory = ""
  · simp [empty]
  · refine .inr ?_
    by_cases slash : endsWithSlash directory = true
    · have last : directory.toList.getLast? = some '/' := by simpa [endsWithSlash] using slash
      have cut := List.dropLast_append_getLast? '/' last
      refine ⟨directory.toList.dropLast, ?_, .inl cut.symm⟩
      simp only [slash, Bool.or_true, Bool.false_eq_true, if_false, if_true, String.toList_append]
      rw [← cut]
      simp
    · exact ⟨directory.toList, by simp [empty, slash], .inr ⟨rfl, by simpa using empty⟩⟩

theorem IsName.parts_join (isName : IsName name) (directory : String) :
    parts (join directory name) = parts directory ++ [name] := by
  rcases isName.join_cases directory with ⟨rfl, joined⟩ | ⟨front, joined, ends⟩
  · rw [joined, isName.parts_eq]
    rfl
  · have split : splitSlashes (join directory name).toList =
        splitSlashes front ++ [name.toList] := by
      rw [joined, splitSlashes_append_slash, splitSlashes_of_not_mem isName.noSlash]
    rcases ends with ends | ⟨ends, _⟩
    · simp [parts, split, ends, splitSlashes_append_slash, splitSlashes, isName.toList_ne_nil]
    · simp [parts, split, ends, isName.toList_ne_nil]

theorem IsName.isAbsolute_join (isName : IsName name) (directory : String) :
    isAbsolute (join directory name) = isAbsolute directory := by
  rcases isName.join_cases directory with ⟨rfl, joined⟩ | ⟨front, joined, ends⟩
  · rw [joined, isName.not_isAbsolute]
    rfl
  · rcases ends with ends | ⟨ends, filled⟩
    · simp [isAbsolute, joined, ends, List.head?_append]
    · obtain ⟨c, rest, rfl⟩ := List.exists_cons_of_ne_nil filled
      simp [isAbsolute, joined, ends]

theorem IsName.not_endsWithSlash_join (isName : IsName name) (directory : String) :
    endsWithSlash (join directory name) = false := by
  have same : (join directory name).toList.getLast? = name.toList.getLast? := by
    rcases isName.join_cases directory with ⟨_, joined⟩ | ⟨front, joined, _⟩
    · rw [joined]
    · rw [joined, List.append_cons, List.getLast?_append_of_ne_nil _ isName.toList_ne_nil]
  rw [endsWithSlash, decide_eq_false_iff_not, same]
  exact fun last => isName.noSlash (List.mem_of_getLast? last)

end Path

namespace FileTree

variable {tree : FileTree} {path directory name : String} {location : Location}

theorem unusable?_eq_none_iff : unusable? path = none ↔
    (∀ c ∈ path.toList, c.toNat ≠ 0) ∧ path ≠ "" ∧ path.utf8ByteSize < maxPathBytes := by
  by_cases nul : path.toList.any (·.toNat = 0) = true
  · simp only [unusable?, nul, if_true, reduceCtorEq, false_iff]
    rintro ⟨clean, _⟩
    obtain ⟨c, member, zero⟩ := List.any_eq_true.mp nul
    exact clean c member (by simpa using zero)
  · rw [unusable?, if_neg nul]
    split <;> simp_all

/-- Where a path leads, its names lead, and none of them holds a NUL. -/
theorem of_directoryAt? (led : tree.directoryAt? path = some location) :
    (∀ c ∈ path.toList, c.toNat ≠ 0) ∧
      tree.walk (tree.start path) (Path.parts path) = .ok location := by
  rw [directoryAt?] at led
  split at led
  · rename_i empty
    subst empty
    cases led
    exact ⟨by simp, rfl⟩
  · obtain ⟨usable, walked, _⟩ := resolve_eq_ok_iff.mp (target?_eq_some_iff.mp led)
    exact ⟨(unusable?_eq_none_iff.mp usable).1, walked⟩

theorem unusable?_join (isName : Path.IsName name) (clean : ∀ c ∈ directory.toList, c.toNat ≠ 0)
    (fits : (Path.join directory name).utf8ByteSize < maxPathBytes) :
    unusable? (Path.join directory name) = none := by
  refine unusable?_eq_none_iff.mpr ⟨?_, ?_, fits⟩
  · rcases isName.join_cases directory with ⟨_, joined⟩ | ⟨front, joined, ends⟩
    · rw [joined]
      exact isName.noNul
    · have before : ∀ c ∈ front, c.toNat ≠ 0 := by
        intro c member
        rcases ends with ends | ⟨ends, _⟩ <;> exact clean c (by simp [ends, member])
      rw [joined]
      simp only [List.forall_mem_append, List.forall_mem_cons]
      exact ⟨before, by decide, isName.noNul⟩
  · intro empty
    have nameless := isName.parts_join directory
    rw [empty] at nameless
    exact absurd nameless.symm (by simp [Path.parts, Path.splitSlashes])

/-- A name after the path of a directory is looked up there. -/
theorem parent_join (isName : Path.IsName name) (led : tree.directoryAt? directory = some location)
    (isDirectory : tree.lookup location = some .directory)
    (fits : (Path.join directory name).utf8ByteSize < maxPathBytes) :
    tree.parent (Path.join directory name) = .ok (location, some name) := by
  obtain ⟨clean, walked⟩ := of_directoryAt? led
  have started : tree.start (Path.join directory name) = tree.start directory := by
    rw [start, start, isName.isAbsolute_join]
  simp [parent, unusable?_join isName clean fits, isName.parts_join, started, walked, isDirectory]

/-- A file can be written under a name in a directory unless a directory of that name is
there. -/
theorem writable_join (isName : Path.IsName name)
    (led : tree.directoryAt? directory = some location)
    (isDirectory : tree.lookup location = some .directory)
    (short : name.utf8ByteSize ≤ maxNameBytes)
    (fits : (Path.join directory name).utf8ByteSize < maxPathBytes) :
    tree.writable (Path.join directory name) =
      if tree.lookup (location ++ [name]) = some .directory then .error .isADirectory
      else .ok (location ++ [name]) := by
  have plain : isPlainName name = true := by simp [isPlainName, isName.notHere, isName.notAbove]
  have stepped : tree.step location name = .ok (location ++ [name]) := by
    simp [step, isDirectory, isName.notHere, isName.notAbove, short]
  simp only [writable, parent_join isName led isDirectory fits, plain, stepped,
    isName.not_endsWithSlash_join]
  cases tree.lookup (location ++ [name]) with
  | none => rfl
  | some node => cases node <;> rfl

end FileTree

end GrammarUpgrade
