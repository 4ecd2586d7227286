import GrammarUpgrade.Log

/-!
# Runs of tasks

A task over a state runs from a stage, which is the log so far together with the state,
to an outcome and a later stage.  The lemmas say how each way of making a task runs, so
that tasks need not be unfolded to what they are made of.
-/

namespace GrammarUpgrade

/-- The log so far and the state. -/
abbrev Stage (σ : Type) := Log × σ

namespace Task

variable {σ ε δ α β : Type}

/-- The outcome of a task and the stage at which it ends. -/
def runFrom (task : Task (StateM σ) ε α) (stage : Stage σ) : Except ε α × Stage σ :=
  match StateT.run (StateT.run (ExceptT.run task) stage.1) stage.2 with
  | ((outcome, log), state) => (outcome, log, state)

/-- To perform a task is to run it from the empty log. -/
theorem perform_eq_iff {task : Task (StateM σ) ε α} {state last : σ}
    {outcome : Except ε α} {log : Log} :
    task.perform state = ((outcome, log), last) ↔
      task.runFrom ([], state) = (outcome, log, last) := by
  have performed : task.perform state =
      (((task.runFrom ([], state)).1, (task.runFrom ([], state)).2.1),
        (task.runFrom ([], state)).2.2) := rfl
  rw [performed]
  constructor
  · rintro ⟨⟩
    rfl
  · intro ran
    rw [ran]

@[simp]
theorem runFrom_pure (value : α) (stage : Stage σ) :
    (pure value : Task (StateM σ) ε α).runFrom stage = (.ok value, stage) :=
  rfl

@[simp]
theorem runFrom_throw (failure : ε) (stage : Stage σ) :
    (throw failure : Task (StateM σ) ε α).runFrom stage = (.error failure, stage) :=
  rfl

@[simp]
theorem runFrom_write (line : LogLine) (log : Log) (state : σ) :
    (write line : Task (StateM σ) ε Unit).runFrom (log, state) =
      (.ok (), log ++ [line], state) :=
  rfl

@[simp]
theorem runFrom_note (level : Level) (text : String) (log : Log) (state : σ) :
    (note level text : Task (StateM σ) ε Unit).runFrom (log, state) =
      (.ok (), log ++ [⟨level, .generator, text⟩], state) :=
  rfl

@[simp]
theorem runFrom_ofOutcome (action : StateM σ (Except ε α)) (log : Log) (state : σ) :
    (ofOutcome action).runFrom (log, state) =
      ((action state).1, log, (action state).2) :=
  rfl

/-- A task that follows another runs from where the first ends, unless that fails. -/
theorem runFrom_bind (task : Task (StateM σ) ε α) (next : α → Task (StateM σ) ε β)
    (stage : Stage σ) :
    (task >>= next).runFrom stage =
      match task.runFrom stage with
      | (.ok value, later) => (next value).runFrom later
      | (.error failure, later) => (.error failure, later) := by
  rcases ran : StateT.run (StateT.run (ExceptT.run task) stage.1) stage.2 with
    ⟨⟨outcome, _⟩, _⟩
  rw [runFrom, runFrom, ExceptT.run_bind, StateT.run_bind, StateT.run_bind, ran]
  cases outcome <;> rfl

theorem runFrom_bind_of_ok {task : Task (StateM σ) ε α} {stage later : Stage σ}
    {value : α} (ran : task.runFrom stage = (.ok value, later))
    (next : α → Task (StateM σ) ε β) :
    (task >>= next).runFrom stage = (next value).runFrom later := by
  rw [runFrom_bind, ran]

theorem runFrom_bind_of_error {task : Task (StateM σ) ε α} {stage later : Stage σ}
    {failure : ε} (ran : task.runFrom stage = (.error failure, later))
    (next : α → Task (StateM σ) ε β) :
    (task >>= next).runFrom stage = (.error failure, later) := by
  rw [runFrom_bind, ran]

/-- A task with another view of its failures does the same. -/
theorem runFrom_mapError (change : ε → δ) (task : Task (StateM σ) ε α)
    (stage : Stage σ) :
    (task.mapError change).runFrom stage =
      ((task.runFrom stage).1.mapError change, (task.runFrom stage).2) := by
  rcases ran : StateT.run (StateT.run (ExceptT.run task) stage.1) stage.2 with
    ⟨⟨outcome, _⟩, _⟩
  rw [runFrom, runFrom, mapError, ExceptT.run_adapt, StateT.run_map, StateT.run_map, ran]
  rfl

/-- A handler runs from where the task failed. -/
theorem runFrom_tryCatch (task : Task (StateM σ) ε α)
    (handler : ε → Task (StateM σ) ε α) (stage : Stage σ) :
    (tryCatch task handler).runFrom stage =
      match task.runFrom stage with
      | (.ok value, later) => (.ok value, later)
      | (.error failure, later) => (handler failure).runFrom later := by
  rcases ran : StateT.run (StateT.run (ExceptT.run task) stage.1) stage.2 with
    ⟨⟨outcome, _⟩, _⟩
  rw [runFrom, runFrom, ExceptT.run_tryCatch, StateT.run_bind, StateT.run_bind, ran]
  cases outcome <;> rfl

end Task

end GrammarUpgrade
