import GrammarUpgrade.Proofs.Task.Runs

/-!
# Tasks that two states cannot tell apart

A task runs alike on two states when it ends with the same outcome and the same log on
both and leaves each as it is.  Tasks made of such tasks run alike, so only the places
where a task looks at its state have to be compared.
-/

namespace GrammarUpgrade.Task

variable {σ ε δ α β : Type} {first second : σ}

/-- A task ends in the same way on two states and leaves them as they are. -/
def RunsAlike (first second : σ) (task : Task (StateM σ) ε α) : Prop :=
  ∀ log, ∃ outcome later, task.runFrom (log, first) = (outcome, later, first) ∧
    task.runFrom (log, second) = (outcome, later, second)

namespace RunsAlike

theorem pure (value : α) :
    RunsAlike first second (Pure.pure value : Task (StateM σ) ε α) :=
  fun log => ⟨.ok value, log, rfl, rfl⟩

theorem throw (failure : ε) :
    RunsAlike first second (MonadExcept.throw failure : Task (StateM σ) ε α) :=
  fun log => ⟨.error failure, log, rfl, rfl⟩

theorem write (line : LogLine) :
    RunsAlike first second (Task.write line : Task (StateM σ) ε Unit) :=
  fun log => ⟨.ok (), log ++ [line], rfl, rfl⟩

/-- An action that finds the same on both states. -/
theorem ofOutcome {action : StateM σ (Except ε α)} {outcome : Except ε α}
    (onFirst : action first = (outcome, first)) (onSecond : action second = (outcome, second)) :
    RunsAlike first second (Task.ofOutcome action) := by
  intro log
  refine ⟨outcome, log, ?_, ?_⟩
  · rw [runFrom_ofOutcome, onFirst]
  · rw [runFrom_ofOutcome, onSecond]

theorem ofExcept (result : Except ε α) :
    RunsAlike first second (Task.ofExcept result : Task (StateM σ) ε α) :=
  ofOutcome rfl rfl

theorem bind {task : Task (StateM σ) ε α} {next : α → Task (StateM σ) ε β}
    (before : RunsAlike first second task)
    (after : ∀ value, RunsAlike first second (next value)) :
    RunsAlike first second (task >>= next) := by
  intro log
  obtain ⟨outcome, later, ranFirst, ranSecond⟩ := before log
  cases outcome with
  | error failure =>
      exact ⟨.error failure, later, runFrom_bind_of_error ranFirst next,
        runFrom_bind_of_error ranSecond next⟩
  | ok value =>
      rw [runFrom_bind_of_ok ranFirst, runFrom_bind_of_ok ranSecond]
      exact after value later

theorem mapError {task : Task (StateM σ) ε α} (alike : RunsAlike first second task)
    (change : ε → δ) : RunsAlike first second (task.mapError change) := by
  intro log
  obtain ⟨outcome, later, ranFirst, ranSecond⟩ := alike log
  refine ⟨outcome.mapError change, later, ?_, ?_⟩
  · rw [runFrom_mapError, ranFirst]
  · rw [runFrom_mapError, ranSecond]

end RunsAlike

end GrammarUpgrade.Task
