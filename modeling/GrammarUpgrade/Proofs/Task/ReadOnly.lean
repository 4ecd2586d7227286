import GrammarUpgrade.Proofs.Task.Runs

/-!
# Tasks that change nothing but the log

A read-only task leaves the state as it is, whether it fails or not.  Tasks made of
read-only ones are read-only.
-/

namespace GrammarUpgrade

variable {σ ε δ α β : Type}

/-- Nothing but the log has changed, and that has only grown. -/
structure Noted (earlier later : Stage σ) : Prop where
  log : earlier.1 <+: later.1
  state : later.2 = earlier.2

namespace Noted

theorem refl (stage : Stage σ) : Noted stage stage :=
  ⟨List.prefix_rfl, rfl⟩

theorem trans {first second third : Stage σ} (before : Noted first second)
    (after : Noted second third) : Noted first third :=
  ⟨before.log.trans after.log, after.state.trans before.state⟩

theorem append (log lines : Log) (state : σ) : Noted (log, state) (log ++ lines, state) :=
  ⟨List.prefix_append log lines, rfl⟩

end Noted

namespace Task

/-- A task that changes nothing but the log. -/
def ReadOnly (task : Task (StateM σ) ε α) : Prop :=
  ∀ stage, Noted stage (task.runFrom stage).2

namespace ReadOnly

theorem pure (value : α) : (Pure.pure value : Task (StateM σ) ε α).ReadOnly :=
  Noted.refl

theorem throw (failure : ε) : (MonadExcept.throw failure : Task (StateM σ) ε α).ReadOnly :=
  Noted.refl

theorem write (line : LogLine) : (Task.write line : Task (StateM σ) ε Unit).ReadOnly :=
  fun stage => .append stage.1 [line] stage.2

/-- An action that only looks at the state. -/
theorem ofOutcome {action : StateM σ (Except ε α)}
    (looks : ∀ state, (action state).2 = state) : (Task.ofOutcome action).ReadOnly := by
  rintro ⟨log, state⟩
  exact ⟨List.prefix_rfl, looks state⟩

theorem ofExcept (result : Except ε α) :
    (Task.ofExcept result : Task (StateM σ) ε α).ReadOnly :=
  ofOutcome fun _ => rfl

theorem bind {task : Task (StateM σ) ε α} {next : α → Task (StateM σ) ε β}
    (first : task.ReadOnly) (second : ∀ value, (next value).ReadOnly) :
    (task >>= next).ReadOnly := by
  intro stage
  have noted := first stage
  rw [runFrom_bind]
  rcases ran : task.runFrom stage with ⟨outcome, later⟩
  rw [ran] at noted
  cases outcome with
  | error failure => exact noted
  | ok value => exact noted.trans (second value later)

theorem mapError {task : Task (StateM σ) ε α} (readOnly : task.ReadOnly)
    (change : ε → δ) : (task.mapError change).ReadOnly := by
  intro stage
  rw [runFrom_mapError]
  exact readOnly stage

end ReadOnly

end Task

end GrammarUpgrade
