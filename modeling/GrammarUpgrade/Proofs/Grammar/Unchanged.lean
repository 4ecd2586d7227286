import GrammarUpgrade.Proofs.Grammar.Substitution

/-!
# Grammars that a substitution leaves alone

A substitution may rewrite every placeholder of a grammar and still give the grammar back:
what it adds in one place can make up for what it takes in another.  The main statement,
`substitute_eq_self_iff`, says that this takes placeholders that become longer beside ones
that become shorter; otherwise a grammar stays the same only if each of its placeholders
does.  A single token is always of one kind, and guarded texts are of one kind because
they hold at least one placeholder for each that they replace.
-/

namespace GrammarUpgrade.Grammar

variable {meaning : List Char → Option (List Char)} {grammar : List Char}

/-- What a substitution makes of a placeholder. -/
def renewed (meaning : List Char → Option (List Char)) (token : List Char) : List Char :=
  (meaning token).getD token

theorem standIn_eq_renewed (body : List Char) :
    standIn meaning body = renewed meaning (bracketed body) :=
  rfl

/-! ## Lists put in the place of entries -/

section Lists

variable {α β γ : Type} {entries : List α} {first : α → List β} {second : α → List γ}

theorem length_flatMap_le
    (le : ∀ entry ∈ entries, (first entry).length ≤ (second entry).length) :
    (entries.flatMap first).length ≤ (entries.flatMap second).length := by
  induction entries with
  | nil => simp
  | cons entry others ih =>
      rw [List.forall_mem_cons] at le
      have rest := ih le.2
      simp only [List.flatMap_cons, List.length_append]
      omega

/-- If no list is longer than its counterpart and all together are as long, then each is as
long as its counterpart. -/
theorem length_eq_of_length_flatMap_eq
    (le : ∀ entry ∈ entries, (first entry).length ≤ (second entry).length)
    (same : (entries.flatMap first).length = (entries.flatMap second).length) :
    ∀ entry ∈ entries, (first entry).length = (second entry).length := by
  induction entries with
  | nil => simp
  | cons entry others ih =>
      rw [List.forall_mem_cons] at le ⊢
      have rest := length_flatMap_le le.2
      simp only [List.flatMap_cons, List.length_append] at same
      exact ⟨by omega, ih le.2 (by omega)⟩

/-- Lists that are not empty make up the list of the entries only if each of them is its
entry alone. -/
theorem eq_singleton_of_flatMap_eq_self {change : α → List α}
    (filled : ∀ entry ∈ entries, change entry ≠ [])
    (fixed : entries.flatMap change = entries) :
    ∀ entry ∈ entries, change entry = [entry] := by
  have single : ∀ entry ∈ entries, [entry].length = (change entry).length := by
    apply length_eq_of_length_flatMap_eq
    · intro entry member
      exact List.length_pos_iff.mpr (filled entry member)
    · rw [fixed, List.flatMap_singleton']
  clear filled
  induction entries with
  | nil => simp
  | cons entry others ih =>
      rw [List.forall_mem_cons] at single ⊢
      obtain ⟨alone, rest⟩ := List.append_inj fixed single.1.symm
      exact ⟨alone, ih rest single.2⟩

end Lists

/-! ## Lengths -/

/-- A substitution changes the length of a grammar by what it changes the lengths of the
placeholders. -/
theorem length_substitute_add (meaning : List Char → Option (List Char))
    (grammar : List Char) :
    (substitute meaning grammar).length + ((placeholders grammar).flatMap id).length =
      grammar.length + ((placeholders grammar).flatMap (renewed meaning)).length := by
  induction grammar using pieceInduction with
  | nil => simp
  | placeholder body rest free ih =>
      rw [substitute_bracketed_append free, placeholders_bracketed_append free,
        standIn_eq_renewed]
      simp only [List.length_append, List.flatMap_cons, id]
      omega
  | loose c rest loose ih =>
      rw [substitute_cons_of_loose loose, placeholders_cons_of_loose loose]
      simp only [List.length_cons]
      omega

/-- A grammar with placeholders that keep their length stays the same only if each of them
does. -/
theorem renewed_eq_of_length_eq (fixed : substitute meaning grammar = grammar)
    (sameLength : ∀ token ∈ placeholders grammar,
      token.length = (renewed meaning token).length) :
    ∀ token ∈ placeholders grammar, renewed meaning token = token := by
  induction grammar using pieceInduction with
  | nil => simp
  | placeholder body rest free ih =>
      rw [placeholders_bracketed_append free, List.forall_mem_cons] at sameLength ⊢
      rw [substitute_bracketed_append free, standIn_eq_renewed] at fixed
      obtain ⟨first, others⟩ := List.append_inj fixed sameLength.1.symm
      exact ⟨first, ih others sameLength.2⟩
  | loose c rest loose ih =>
      rw [placeholders_cons_of_loose loose] at sameLength ⊢
      rw [substitute_cons_of_loose loose] at fixed
      exact ih (List.cons.inj fixed).2 sameLength

/-- A substitution that changes no placeholder of a grammar copies the grammar. -/
theorem substitute_eq_self_of_renewed_eq
    (unchanged : ∀ token ∈ placeholders grammar, renewed meaning token = token) :
    substitute meaning grammar = grammar := by
  induction grammar using pieceInduction with
  | nil => simp
  | placeholder body rest free ih =>
      rw [placeholders_bracketed_append free, List.forall_mem_cons] at unchanged
      rw [substitute_bracketed_append free, standIn_eq_renewed, unchanged.1,
        ih unchanged.2]
  | loose c rest loose ih =>
      rw [placeholders_cons_of_loose loose] at unchanged
      rw [substitute_cons_of_loose loose, ih unchanged]

/-- A substitution that only makes the placeholders of a grammar longer, or only shorter,
leaves the grammar alone exactly if it leaves each of the placeholders alone. -/
theorem substitute_eq_self_iff
    (oneKind : (∀ token ∈ placeholders grammar,
        token.length ≤ (renewed meaning token).length) ∨
      ∀ token ∈ placeholders grammar, (renewed meaning token).length ≤ token.length) :
    substitute meaning grammar = grammar ↔
      ∀ token ∈ placeholders grammar, renewed meaning token = token := by
  constructor
  · intro fixed
    have lengths := length_substitute_add meaning grammar
    rw [fixed, Nat.add_left_cancel_iff] at lengths
    apply renewed_eq_of_length_eq fixed
    rcases oneKind with longer | shorter
    · exact length_eq_of_length_flatMap_eq longer lengths
    · intro token member
      exact (length_eq_of_length_flatMap_eq shorter lengths.symm token member).symm
  · exact substitute_eq_self_of_renewed_eq

/-! ## One token -/

theorem renewed_exchanging (token replacement other : List Char) :
    renewed (exchanging token replacement) other =
      if other = token then replacement else other := by
  unfold renewed exchanging
  split <;> rfl

/-- Replacing a token leaves a grammar alone that does not hold the token, and no other
unless the token is replaced by itself. -/
theorem substitute_exchanging_eq_self_iff {token replacement : List Char} :
    substitute (exchanging token replacement) grammar = grammar ↔
      (token ∈ placeholders grammar → replacement = token) := by
  rw [substitute_eq_self_iff]
  · constructor
    · intro unchanged member
      simpa [renewed_exchanging] using unchanged token member
    · intro same other member
      rw [renewed_exchanging]
      split
      · rename_i isToken
        subst isToken
        exact same member
      · rfl
  · rcases Nat.le_total token.length replacement.length with longer | shorter
    · left
      intro other _
      rw [renewed_exchanging]
      split <;> simp_all
    · right
      intro other _
      rw [renewed_exchanging]
      split <;> simp_all

/-! ## Guarded texts -/

/-- A guarded text holds a placeholder. -/
theorem Guarded.placeholders_ne_nil {text : List Char} (guarded : Guarded text) :
    placeholders text ≠ [] := by
  obtain ⟨opens, closes⟩ := guarded
  induction text using pieceInduction with
  | nil => simp at opens
  | placeholder body rest free _ =>
      rw [placeholders_bracketed_append free]
      exact List.cons_ne_nil _ _
  | loose c rest loose ih =>
      rw [placeholders_cons_of_loose loose]
      cases bracket : isBracket c with
      | false =>
          rw [brackets_cons_of_not_isBracket bracket] at opens closes
          exact ih opens closes
      | true =>
          rw [brackets_cons_of_isBracket bracket] at opens closes
          obtain rfl := Option.some.inj opens
          -- The bracket is not closed by the next one, which therefore opens as well.
          cases found : brackets rest with
          | nil => simp [found] at closes
          | cons next others =>
              have unclosed := loose rfl
              rw [found] at closes unclosed ih
              have isBracket_next : isBracket next = true := by
                have member : next ∈ brackets rest := found ▸ List.mem_cons_self
                exact (List.mem_filter.mp member).2
              have opened : next = '<' := by
                simp only [isBracket, Bool.or_eq_true, decide_eq_true_eq] at isBracket_next
                exact isBracket_next.resolve_right fun closed => unclosed (by simp [closed])
              exact ih (by simp [opened]) (by simpa using closes)

/-- A guarded substitution leaves a grammar alone exactly if it leaves each of its
placeholders alone. -/
theorem GuardedMeaning.substitute_eq_self_iff (guarded : GuardedMeaning meaning) :
    substitute meaning grammar = grammar ↔
      ∀ token ∈ placeholders grammar, renewed meaning token = token := by
  constructor
  · intro fixed
    have counted := placeholders_substitute guarded grammar
    rw [fixed] at counted
    -- There are as many placeholders as before, so each one has become one.
    have alone := eq_singleton_of_flatMap_eq_self (fun token _ => ?filled) counted.symm
    case filled =>
      cases meant : meaning token with
      | none => simp
      | some text => exact (guarded token text meant).placeholders_ne_nil
    refine (Grammar.substitute_eq_self_iff (.inl fun token member => ?_)).mp fixed
    have single := alone token member
    rw [renewed]
    cases meant : meaning token with
    | none => exact Nat.le_refl _
    | some text =>
        simp only [meant] at single
        have held : token ∈ placeholders text := single ▸ List.mem_singleton_self token
        exact (mem_placeholders_iff.mp held).2.length_le
  · exact substitute_eq_self_of_renewed_eq

end GrammarUpgrade.Grammar
