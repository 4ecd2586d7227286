import GrammarUpgrade.Proofs.Toml.Strings

/-!
# Numbers, dates and times that are read

The readers of numbers, truth values, dates and times use up characters of these alone, so
that nothing else is passed over with them: `uses_of_readNumber`, `uses_of_readDateTime?` and
`uses_of_readWord`.
-/

namespace GrammarUpgrade.Toml

open GrammarUpgrade.Decimal (isDigit)
open GrammarUpgrade.Json (of_map_eq_ok)
open GrammarUpgrade.Text (hexValue? consRead)

/-- The characters before what is left of a text may stand in a number, a truth value, a date
or a time. -/
def Uses (s rest : List Char) : Prop :=
  ∃ written, s = written ++ rest ∧ ∀ c ∈ written, isWordChar c = true

namespace Uses

variable {s t rest : List Char} {c : Char}

theorem refl (s : List Char) : Uses s s :=
  ⟨[], rfl, by simp⟩

theorem cons (isWord : isWordChar c = true) (uses : Uses s rest) : Uses (c :: s) rest := by
  obtain ⟨written, rfl, words⟩ := uses
  exact ⟨c :: written, rfl, List.forall_mem_cons.mpr ⟨isWord, words⟩⟩

theorem trans (first : Uses s t) (second : Uses t rest) : Uses s rest := by
  obtain ⟨before, rfl, words⟩ := first
  obtain ⟨after, rfl, others⟩ := second
  exact ⟨before ++ after, by simp, List.forall_mem_append.mpr ⟨words, others⟩⟩

theorem dropWhile {accepts : Char → Bool} (words : ∀ c, accepts c = true → isWordChar c = true)
    (s : List Char) : Uses s (s.dropWhile accepts) :=
  ⟨s.takeWhile accepts, List.takeWhile_append_dropWhile.symm,
    fun c mem => words c (List.mem_takeWhile_imp mem)⟩

/-- Where a number and its like ends, what follows blanks is what follows its characters. -/
theorem dropWhile_isWordChar (uses : Uses s rest)
    (ended : ∀ c ∈ (skipSpaces rest).head?, isWordChar c = false) :
    s.dropWhile isWordChar = skipSpaces rest := by
  have blanks : Uses rest (skipSpaces rest) :=
    dropWhile (fun c isBlank => by simp [isWordChar, isBlank]) rest
  obtain ⟨written, rfl, words⟩ := uses.trans blanks
  rw [List.dropWhile_append_of_pos words]
  cases behind : skipSpaces rest with
  | nil => rfl
  | cons c after => exact List.dropWhile_cons_of_neg (by simp [ended c (by simp [behind])])

end Uses

/-! ## Characters -/

theorem isWordChar_of_isBare {c : Char} (bare : isBare c = true) : isWordChar c = true := by
  simp [isWordChar, bare]

theorem isWordChar_of_isDigit {c : Char} (digit : isDigit c = true) : isWordChar c = true := by
  refine isWordChar_of_isBare ?_
  have between : '0' ≤ c ∧ c ≤ '9' := by
    simpa [isDigit] using digit
  simp [isBare, between]

theorem beginsWord_of_isDigit {c : Char} (digit : isDigit c = true) : beginsWord c = true := by
  have noSpace : isSpace c = false := by
    by_contra space
    simp only [isSpace, Bool.not_eq_false, Bool.or_eq_true, decide_eq_true_eq] at space
    rcases space with rfl | rfl <;> cases digit
  simp [beginsWord, isWordChar_of_isDigit digit, noSpace]

theorem isWordChar_of_hexValue? {c : Char} {value : Nat} (hex : hexValue? c = some value) :
    isWordChar c = true := by
  refine isWordChar_of_isBare ?_
  rw [hexValue?] at hex
  simp only [isBare, Bool.or_eq_true, Bool.and_eq_true, decide_eq_true_eq]
  split at hex
  · exact .inl (.inl (.inr ‹_›))
  split at hex
  · rename_i lower
    exact .inl (.inl (.inl (.inr ⟨lower.1, Char.le_trans lower.2 (by decide)⟩)))
  split at hex
  · rename_i upper
    exact .inl (.inl (.inl (.inl ⟨upper.1, Char.le_trans upper.2 (by decide)⟩)))
  · cases hex

/-! ## Runs of digits -/

section

variable {accepts : Char → Bool} {s rest : List Char}

theorem uses_of_readMoreDigits (words : ∀ c, accepts c = true → isWordChar c = true)
    {digits : List Char} (read : readMoreDigits accepts s = .ok (digits, rest)) :
    Uses s rest := by
  fun_induction readMoreDigits accepts s generalizing digits with
  | case1 =>
      cases read
      exact .refl _
  | case2 d s accepted ih =>
      obtain ⟨others, readOthers, -⟩ := of_map_consRead_eq_ok read
      exact .cons (by decide) (.cons (words d accepted) (ih readOthers))
  | case3 => cases read
  | case4 c s _ accepted ih =>
      obtain ⟨others, readOthers, -⟩ := of_map_consRead_eq_ok read
      exact .cons (words c accepted) (ih readOthers)
  | case5 => cases read
  | case6 =>
      cases read
      exact .refl _

theorem uses_of_readDigits (words : ∀ c, accepts c = true → isWordChar c = true)
    {digits : List Char} (read : readDigits accepts s = .ok (digits, rest)) : Uses s rest := by
  rw [readDigits.eq_def] at read
  split at read
  · cases read
  · split at read
    · rename_i c others accepted
      obtain ⟨digits, readOthers, -⟩ := of_map_consRead_eq_ok read
      exact .cons (words c accepted) (uses_of_readMoreDigits words readOthers)
    · cases read

end

/-! ## Dates and times -/

variable {s rest : List Char}

theorem uses_of_readMark {c : Char} (word : isWordChar c = true)
    (read : readMark c s = .ok rest) : Uses s rest := by
  rw [readMark.eq_def] at read
  split at read
  · cases read
  · split at read
    · rename_i same
      cases read
      exact .cons (same ▸ word) (.refl _)
    · cases read

theorem uses_of_readPair {low high number : Nat}
    (read : readPair low high s = .ok (number, rest)) : Uses s rest := by
  rw [readPair.eq_def] at read
  split at read
  · rename_i a b others
    simp only at read
    split at read
    · cases read
    rename_i digits
    simp only [Bool.not_eq_true, Bool.not_eq_false', Bool.and_eq_true] at digits
    split at read
    · cases read
      exact .cons (isWordChar_of_isDigit digits.1)
        (.cons (isWordChar_of_isDigit digits.2) (.refl _))
    · cases read
  · cases read

theorem uses_skipSecondFraction (s : List Char) : Uses s (skipSecondFraction s) := by
  rw [skipSecondFraction.eq_def]
  split
  · split
    · rename_i digit
      exact .cons (by decide) (.cons (isWordChar_of_isDigit digit)
        (.dropWhile (fun _ => isWordChar_of_isDigit) _))
    · exact .refl _
  · exact .refl _

theorem uses_of_readTime? (read : readTime? s = .ok (some rest)) : Uses s rest := by
  rw [readTime?] at read
  split at read
  · rename_i hour afterHour readHour
    obtain ⟨⟨minute, afterMinute⟩, readMinute, read⟩ := exists_of_bind_eq_ok read
    obtain ⟨afterMark, mark, read⟩ := exists_of_bind_eq_ok read
    obtain ⟨⟨second, afterSecond⟩, readSecond, read⟩ := exists_of_bind_eq_ok read
    cases read
    have hours := uses_of_readPair readHour
    have minutes := uses_of_readPair readMinute
    have seconds := uses_of_readPair readSecond
    have marked := uses_of_readMark (by decide) mark
    exact hours.trans (.cons (by decide) (minutes.trans (marked.trans (seconds.trans
      (uses_skipSecondFraction afterSecond)))))
  · cases read

theorem uses_of_readOffsetTime (read : readOffsetTime s = .ok rest) : Uses s rest := by
  rw [readOffsetTime] at read
  obtain ⟨⟨hour, afterHour⟩, readHour, read⟩ := exists_of_bind_eq_ok read
  obtain ⟨afterMark, mark, read⟩ := exists_of_bind_eq_ok read
  obtain ⟨⟨minute, afterMinute⟩, readMinute, read⟩ := exists_of_bind_eq_ok read
  cases read
  exact (uses_of_readPair readHour).trans
    ((uses_of_readMark (by decide) mark).trans (uses_of_readPair readMinute))

theorem uses_of_readOffset (read : readOffset s = .ok rest) : Uses s rest := by
  rw [readOffset.eq_def] at read
  split at read
  · cases read
    exact .refl _
  rename_i c others
  split at read
  · rename_i letter
    cases read
    refine .cons ?_ (.refl _)
    simp only [Bool.or_eq_true, decide_eq_true_eq] at letter
    rcases letter with rfl | rfl <;> decide
  split at read
  · rename_i sign
    refine .cons ?_ (uses_of_readOffsetTime (of_mapError_eq_ok read))
    simp only [Bool.or_eq_true, decide_eq_true_eq] at sign
    rcases sign with rfl | rfl <;> decide
  · cases read
    exact .refl _

theorem uses_of_readDate? (read : readDate? s = .ok (some rest)) : Uses s rest := by
  rw [readDate?.eq_def] at read
  split at read
  · rename_i a b c d others
    split at read
    · rename_i digits
      obtain ⟨⟨month, afterMonth⟩, readMonth, read⟩ := exists_of_bind_eq_ok read
      obtain ⟨afterMark, mark, read⟩ := exists_of_bind_eq_ok read
      obtain ⟨⟨day, last⟩, readDay, read⟩ := exists_of_bind_eq_ok read
      have year : Uses (a :: b :: c :: d :: '-' :: others) others := by
        simp only [List.all_cons, List.all_nil, Bool.and_true, Bool.and_eq_true] at digits
        obtain ⟨first, second, third, fourth⟩ := digits
        exact .cons (isWordChar_of_isDigit first) (.cons (isWordChar_of_isDigit second)
          (.cons (isWordChar_of_isDigit third) (.cons (isWordChar_of_isDigit fourth)
            (.cons (by decide) (.refl _)))))
      simp only at read
      split at read
      · cases read
      · cases read
        exact year.trans ((uses_of_readPair readMonth).trans
          ((uses_of_readMark (by decide) mark).trans (uses_of_readPair readDay)))
    · cases read
  · cases read

theorem uses_of_readTimeOfDate (read : readTimeOfDate s = .ok rest) : Uses s rest := by
  rw [readTimeOfDate.eq_def] at read
  split at read
  · cases read
    exact .refl _
  rename_i c afterMark
  split at read
  · rename_i mark
    obtain ⟨found, readTime, read⟩ := exists_of_bind_eq_ok read
    cases found with
    | none =>
        cases read
        exact .refl _
    | some afterTime =>
        refine .cons ?_ ((uses_of_readTime? readTime).trans (uses_of_readOffset read))
        simp only [Bool.or_eq_true, decide_eq_true_eq] at mark
        rcases mark with (rfl | rfl) | rfl <;> decide
  · cases read
    exact .refl _

/-- A date or time that is read. -/
theorem uses_of_readDateTime? (read : readDateTime? s = .ok (some rest)) : Uses s rest := by
  rw [readDateTime?] at read
  obtain ⟨found, readDate, read⟩ := exists_of_bind_eq_ok read
  cases found with
  | none => exact uses_of_readTime? (of_mapError_eq_ok read)
  | some afterDate =>
      obtain ⟨afterTime, readTime, read⟩ := exists_of_bind_eq_ok read
      cases read
      exact (uses_of_readDate? (of_mapError_eq_ok readDate)).trans
        (uses_of_readTimeOfDate (of_mapError_eq_ok readTime))

/-! ## Numbers -/

theorem uses_of_readExponent {power : Int} (read : readExponent s = .ok (power, rest)) :
    Uses s rest := by
  rw [readExponent.eq_def] at read
  split at read <;> obtain ⟨⟨digits, left⟩, readDigits, made⟩ := of_map_eq_ok read <;>
    cases made
  · exact .cons (by decide) (uses_of_readDigits (fun _ => isWordChar_of_isDigit) readDigits)
  · exact .cons (by decide) (uses_of_readDigits (fun _ => isWordChar_of_isDigit) readDigits)
  · exact uses_of_readDigits (fun _ => isWordChar_of_isDigit) readDigits

theorem uses_of_readExponent? {power : Option Int}
    (read : readExponent? s = .ok (power, rest)) : Uses s rest := by
  rw [readExponent?.eq_def] at read
  split at read
  · cases read
    exact .refl _
  rename_i c others
  split at read
  · rename_i letter
    obtain ⟨⟨exponent, left⟩, readExponent, made⟩ := of_map_eq_ok read
    cases made
    refine .cons ?_ (uses_of_readExponent (of_mapError_eq_ok readExponent))
    simp only [Bool.or_eq_true, decide_eq_true_eq] at letter
    rcases letter with rfl | rfl <;> decide
  · cases read
    exact .refl _

theorem uses_of_readFraction {digits : List Char} (read : readFraction s = .ok (digits, rest)) :
    Uses s rest :=
  uses_of_readDigits (fun _ => isWordChar_of_isDigit) (of_mapError_eq_ok read)

theorem uses_of_readWhole {digits : List Char} (read : readWhole s = .ok (digits, rest)) :
    Uses s rest := by
  rw [readWhole.eq_def] at read
  split at read
  · cases read
    exact .cons (by decide) (.refl _)
  · exact uses_of_readDigits (fun _ => isWordChar_of_isDigit) (of_mapError_eq_ok read)

theorem eq_of_integer_eq_ok {start left : List Char} {value : Int} {number : Number}
    (read : integer start value left = .ok (number, rest)) : left = rest := by
  rw [integer] at read
  split at read
  · cases read
  split at read
  · cases read
  · exact (Prod.mk.inj (Except.ok.inj read)).2

theorem eq_of_real_eq_ok {start left : List Char} {value : Real} {number : Number}
    (read : real start value left = .ok (number, rest)) : left = rest := by
  rw [real] at read
  split at read
  · cases read
  · exact (Prod.mk.inj (Except.ok.inj read)).2

theorem uses_of_readDecimal {start : List Char} {negative : Bool} {number : Number}
    (read : readDecimal start negative s = .ok (number, rest)) : Uses s rest := by
  rw [readDecimal] at read
  obtain ⟨⟨whole, afterWhole⟩, readWhole, read⟩ := exists_of_bind_eq_ok read
  refine (uses_of_readWhole readWhole).trans ?_
  simp only at read
  split at read
  · obtain ⟨⟨fraction, afterFraction⟩, readFraction, read⟩ := exists_of_bind_eq_ok read
    obtain ⟨⟨exponent, left⟩, readExponent, read⟩ := exists_of_bind_eq_ok read
    obtain rfl := eq_of_real_eq_ok read
    exact .cons (by decide)
      ((uses_of_readFraction readFraction).trans (uses_of_readExponent? readExponent))
  · obtain ⟨⟨exponent, left⟩, readExponent, read⟩ := exists_of_bind_eq_ok read
    refine (uses_of_readExponent? readExponent).trans ?_
    cases exponent with
    | some power =>
        obtain rfl := eq_of_real_eq_ok read
        exact .refl _
    | none =>
        obtain rfl := eq_of_integer_eq_ok read
        exact .refl _

theorem uses_of_readBased {start : List Char} {base : Nat} {what : String} {number : Number}
    (read : readBased start base what s = .ok (number, rest)) : Uses s rest := by
  rw [readBased] at read
  obtain ⟨⟨digits, left⟩, readDigits, read⟩ := exists_of_bind_eq_ok read
  obtain rfl := eq_of_integer_eq_ok read
  refine uses_of_readDigits (fun c accepted => ?_) (of_mapError_eq_ok readDigits)
  obtain ⟨value, hex, -⟩ := (Option.any_eq_true _ _).mp accepted
  exact isWordChar_of_hexValue? hex

theorem uses_of_readSigned {start : List Char} {negative : Bool} {number : Number}
    (read : readSigned start negative s = .ok (number, rest)) : Uses s rest := by
  rw [readSigned.eq_def] at read
  split at read
  · cases read
    exact .cons (by decide) (.cons (by decide) (.cons (by decide) (.refl _)))
  · cases read
    exact .cons (by decide) (.cons (by decide) (.cons (by decide) (.refl _)))
  · exact uses_of_readDecimal read

/-- A number that is read. -/
theorem uses_of_readNumber {number : Number} (read : readNumber s = .ok (number, rest)) :
    Uses s rest := by
  rw [readNumber.eq_def] at read
  split at read
  · exact .cons (by decide) (uses_of_readSigned read)
  · exact .cons (by decide) (uses_of_readSigned read)
  · exact .cons (by decide) (.cons (by decide) (uses_of_readBased read))
  · exact .cons (by decide) (.cons (by decide) (uses_of_readBased read))
  · exact .cons (by decide) (.cons (by decide) (uses_of_readBased read))
  · exact uses_of_readSigned read

/-! ## Truth values -/

/-- A word that is read. -/
theorem uses_of_readWord {word : String} (words : word.toList.all isWordChar = true)
    (read : readWord word s = .ok rest) : Uses s rest := by
  rw [readWord] at read
  split at read
  · rename_i begins
    obtain ⟨left, rfl⟩ := List.isPrefixOf_iff_prefix.mp begins
    cases read
    exact ⟨word.toList, by simp, List.all_eq_true.mp words⟩
  · cases read

end GrammarUpgrade.Toml
