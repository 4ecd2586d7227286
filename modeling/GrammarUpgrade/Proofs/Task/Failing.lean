import GrammarUpgrade.Proofs.Task.Runs

/-!
# The failures of tasks

Which failures a task can end with, from whatever stage it runs.  Tasks made of tasks that
fail with allowed failures only do so as well.
-/

namespace GrammarUpgrade.Task

variable {σ ε δ α β : Type} {allowed : ε → Prop}

/-- A task that ends with allowed failures only. -/
def FailsWith (allowed : ε → Prop) (task : Task (StateM σ) ε α) : Prop :=
  ∀ stage failure later, task.runFrom stage = (.error failure, later) → allowed failure

namespace FailsWith

theorem pure (value : α) : FailsWith allowed (Pure.pure value : Task (StateM σ) ε α) := by
  intro stage failure later ran
  cases ran

theorem write (line : LogLine) :
    FailsWith allowed (Task.write line : Task (StateM σ) ε Unit) := by
  intro stage failure later ran
  cases ran

theorem bind {task : Task (StateM σ) ε α} {next : α → Task (StateM σ) ε β}
    (before : FailsWith allowed task) (after : ∀ value, FailsWith allowed (next value)) :
    FailsWith allowed (task >>= next) := by
  intro stage failure later ran
  rcases started : task.runFrom stage with ⟨outcome, middle⟩
  cases outcome with
  | error cause =>
      rw [runFrom_bind_of_error started] at ran
      cases ran
      exact before stage failure later started
  | ok value =>
      rw [runFrom_bind_of_ok started] at ran
      exact after value middle failure later ran

/-- Whatever a task fails with, what becomes of it is allowed. -/
theorem mapError (task : Task (StateM σ) δ α) {change : δ → ε}
    (changed : ∀ cause, allowed (change cause)) : FailsWith allowed (task.mapError change) := by
  intro stage failure later ran
  rw [runFrom_mapError] at ran
  cases ended : (task.runFrom stage).1 with
  | error cause =>
      rw [ended] at ran
      cases ran
      exact changed cause
  | ok value =>
      rw [ended] at ran
      cases ran

theorem ofExcept (result : Except δ α) {change : δ → ε}
    (changed : ∀ cause, allowed (change cause)) :
    FailsWith allowed (Task.ofExcept (result.mapError change) : Task (StateM σ) ε α) := by
  rintro ⟨log, state⟩ failure later ran
  rw [Task.ofExcept, runFrom_ofOutcome] at ran
  cases result with
  | error cause =>
      cases ran
      exact changed cause
  | ok value => cases ran

end FailsWith

end GrammarUpgrade.Task
