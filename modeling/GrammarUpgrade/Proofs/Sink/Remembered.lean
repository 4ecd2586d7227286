import GrammarUpgrade.Proofs.Generation.Requests

/-!
# What sinks in memory remember

A sink in memory may be used any number of times, with single requests and with generations,
and it may refuse one document.  A use that fails leaves behind what it has written before the
failure.  The main statement, `remembered_uses`, says what is remembered after any uses.
-/

namespace GrammarUpgrade

variable {σ : Type}

/-! ## Uses of sinks -/

/-- What can be done with a sink. -/
inductive Use where
  | ask (request : Request)
  | generate (dataset : Dataset) (rules : RuleSet)

namespace Use

/-- Use a sink. -/
def task (sink : Sink (StateM σ)) : Use → Task (StateM σ) GenerationError Unit
  | .ask request => (fun _ => ()) <$> (sink.ask request).mapError .sink
  | .generate dataset rules => (fun _ => ()) <$> dataset.generate sink rules

/-- The requests that a use puts to a sink unless one of them fails. -/
def requests : Use → List Request
  | .ask request => [request]
  | .generate dataset rules => .prepare :: Document.all.map fun document =>
      .write document ((dataset.upgrade rules).render document)

/-- Whether a use makes the sink ready. -/
def prepares : Use → Bool
  | .ask request => request = .prepare
  | .generate _ _ => true

end Use

/-- Use a sink several times, whatever the outcomes are. -/
def Sink.useAll (sink : Sink (StateM σ)) :
    List Use → Stage σ → List (Except GenerationError Unit) × Stage σ
  | [], stage => ([], stage)
  | use :: others, stage =>
      let used := (use.task sink).runFrom stage
      let last := sink.useAll others used.2
      (used.1 :: last.1, last.2)

/-- A use puts its requests to the sink and does nothing else to it. -/
theorem Use.exists_performs (sink : Sink (StateM σ)) (use : Use) :
    ∃ (α : Type) (task : Task (StateM σ) SinkError α) (value : List String → α),
      sink.Performs task use.requests value ∧
        use.task sink = (fun _ => ()) <$> task.mapError .sink := by
  cases use with
  | ask request =>
      exact ⟨_, sink.ask request, id, .of_ask (bind_pure _).symm fun _ => rfl, rfl⟩
  | generate dataset rules =>
      exact ⟨_, _, _, dataset.performs_writeUpgraded sink rules, rfl⟩

/-! ## Requests to a sink in memory -/

/-- The sink in memory that refuses one document or none. -/
def Sink.refusing : Option Document → Sink (StateM Recording)
  | none => memory
  | some document => failing document

/-- The failure with which a document is refused. -/
def Document.refusal (document : Document) : SinkError :=
  .write document.fileName (.other "disk full")

/-- The failure of a request, if it is refused. -/
def Request.refusal? (refused? : Option Document) : Request → Option SinkError
  | .prepare => none
  | .write document _ => if refused? = some document then some document.refusal else none

namespace Recording

/-- A recording with one more request. -/
def add (recording : Recording) : Request → Recording
  | .prepare => { recording with preparations := recording.preparations + 1 }
  | .write document contents =>
      { recording with writes := recording.writes ++ [(document, contents)] }

/-- A recording with the requests before the first that is refused. -/
def serve (refused? : Option Document) :
    List Request → Recording → Except SinkError Unit × Recording
  | [], recording => (.ok (), recording)
  | request :: others, recording =>
      match request.refusal? refused? with
      | some failure => (.error failure, recording)
      | none => serve refused? others (recording.add request)

end Recording

/-- Documents are recorded up to the one that is refused. -/
theorem Recording.serve_writes (refused? : Option Document) (contents : Document → String)
    (documents : List Document) (recording : Recording) :
    recording.serve refused? (documents.map fun document => .write document (contents document)) =
      (match documents.find? fun document => refused? = some document with
        | some refused => .error refused.refusal
        | none => .ok (),
        ⟨recording.preparations,
          recording.writes ++ (documents.takeWhile fun document => refused? ≠ some document).map
            fun document => (document, contents document)⟩) := by
  induction documents generalizing recording with
  | nil => simp [serve]
  | cons document others ih =>
      by_cases same : refused? = some document
      · simp [serve, Request.refusal?, same]
      · simp [serve, Request.refusal?, same, add, ih]

theorem Document.find?_all (refused? : Option Document) :
    (Document.all.find? fun document => refused? = some document) = refused? := by
  cases refused? with
  | none => rfl
  | some refused => cases refused <;> rfl

variable {refused? : Option Document}

namespace Sink

theorem runFrom_ask_refusing (refused? : Option Document) (request : Request)
    (stage : Stage Recording) :
    ∃ paths, ((refusing refused?).ask request).runFrom stage =
      match request.refusal? refused? with
      | some failure => (.error failure, stage)
      | none => (.ok paths, stage.1, stage.2.add request) := by
  cases request with
  | prepare => cases refused? <;> exact ⟨[], rfl⟩
  | write document contents =>
      refine ⟨[Path.join "memory" document.fileName], ?_⟩
      cases refused? with
      | none => rfl
      | some refused =>
          by_cases same : refused = document
          · subst same
            simp [refusing, failing, ask, Request.refusal?, Document.refusal]
          · have accepts : (failing refused).write document = memory.write document := by
              funext contents
              exact if_neg (Ne.symm same)
            have unrefused : Request.refusal? (some refused) (.write document contents) = none :=
              if_neg (mt Option.some.inj same)
            rw [refusing, ask, accepts, unrefused]
            rfl

/-- What a sink in memory has recorded of requests that it has served. -/
theorem Serves.serve_eq {requests : List Request} {stage last : Stage Recording}
    {result : Except SinkError (List String)}
    (served : (refusing refused?).Serves requests stage result last) :
    stage.2.serve refused? requests = (result.map fun _ => (), last.2) := by
  induction served with
  | finished noted =>
      rw [Recording.serve, noted.state]
      rfl
  | @refused request _ _ asked _ _ _ before answer after =>
      obtain ⟨paths, asks⟩ := runFrom_ask_refusing refused? request asked
      rw [Recording.serve, ← before.state]
      rw [answer] at asks
      cases refusal : request.refusal? refused? with
      | none =>
          rw [refusal] at asks
          cases asks
      | some failure =>
          rw [refusal] at asks
          cases asks
          rw [after.state]
          rfl
  | @answered request _ _ asked _ _ _ result before answer _ ih =>
      obtain ⟨paths, asks⟩ := runFrom_ask_refusing refused? request asked
      rw [Recording.serve, ← before.state]
      rw [answer] at asks
      cases refusal : request.refusal? refused? with
      | none =>
          rw [refusal] at asks
          cases asks
          rw [ih]
          cases result <;> rfl
      | some failure =>
          rw [refusal] at asks
          cases asks

end Sink

namespace Use

/-- What a use of a sink in memory ends with. -/
def outcome (refused? : Option Document) : Use → Except SinkError Unit
  | .ask .prepare => .ok ()
  | .ask (.write document _) =>
      if refused? = some document then .error document.refusal else .ok ()
  | .generate _ _ =>
      match refused? with
      | none => .ok ()
      | some refused => .error refused.refusal

/-- The documents that a use of a sink in memory adds to its recording: the one that is to be
written, unless it is refused, or those of a generation before the one that is refused. -/
def recorded (refused? : Option Document) : Use → List (Document × String)
  | .ask .prepare => []
  | .ask (.write document contents) =>
      if refused? = some document then [] else [(document, contents)]
  | .generate dataset rules =>
      (Document.all.takeWhile fun document => refused? ≠ some document).map fun document =>
        (document, (dataset.upgrade rules).render document)

/-- A recording after one more use. -/
def addTo (refused? : Option Document) (use : Use) (recording : Recording) : Recording where
  preparations := recording.preparations + if use.prepares then 1 else 0
  writes := recording.writes ++ use.recorded refused?

theorem serve_requests (refused? : Option Document) (use : Use) (recording : Recording) :
    recording.serve refused? use.requests =
      (use.outcome refused?, use.addTo refused? recording) := by
  cases use with
  | ask request =>
      cases request with
      | prepare =>
          simp [requests, Recording.serve, Request.refusal?, Recording.add, outcome, addTo,
            prepares, recorded]
      | write document contents =>
          by_cases same : refused? = some document
          · simp [requests, Recording.serve, Request.refusal?, same, outcome, addTo, prepares,
              recorded]
          · simp [requests, Recording.serve, Request.refusal?, same, Recording.add, outcome,
              addTo, prepares, recorded]
  | generate dataset rules =>
      rw [requests, Recording.serve, Request.refusal?]
      simp only [Recording.serve_writes, Document.find?_all]
      cases refused? <;> rfl

theorem runFrom_task_refusing (refused? : Option Document) (use : Use)
    (stage : Stage Recording) :
    ∃ log, (use.task (Sink.refusing refused?)).runFrom stage =
      ((use.outcome refused?).mapError .sink, log, use.addTo refused? stage.2) := by
  obtain ⟨_, task, value, performs, same⟩ := use.exists_performs (Sink.refusing refused?)
  obtain ⟨result, last, served, ran⟩ := performs stage
  have serves := served.serve_eq
  rw [serve_requests] at serves
  obtain ⟨ends, left⟩ := Prod.mk.inj serves
  refine ⟨last.1, ?_⟩
  rw [same, ← bind_pure_comp, Task.runFrom_bind, Task.runFrom_mapError, ran, ends, left]
  cases result <;> rfl

end Use

/-! ## Any uses -/

theorem Sink.useAll_refusing (refused? : Option Document) (uses : List Use)
    (stage : Stage Recording) :
    ∃ log, (refusing refused?).useAll uses stage =
      (uses.map fun use => (use.outcome refused?).mapError .sink, log,
        ⟨stage.2.preparations + uses.countP Use.prepares,
          stage.2.writes ++ uses.flatMap (Use.recorded refused?)⟩) := by
  induction uses generalizing stage with
  | nil => exact ⟨stage.1, by simp [useAll]⟩
  | cons use others ih =>
      obtain ⟨middle, used⟩ := use.runFrom_task_refusing refused? stage
      obtain ⟨log, later⟩ := ih (middle, use.addTo refused? stage.2)
      refine ⟨log, ?_⟩
      simp only [useAll, used, later]
      simp [Use.addTo, List.countP_cons, Nat.add_right_comm, Nat.add_assoc]

/-- The contents of a document are those that were written last. -/
theorem Recording.contents?_eq (recording : Recording) (document : Document) :
    recording.contents? document =
      ((recording.writes.filter fun write => write.1 = document).getLast?).map Prod.snd := by
  rw [contents?, List.getLast?_filter]
  induction recording.writes.reverse with
  | nil => rfl
  | cons write earlier ih =>
      obtain ⟨written, contents⟩ := write
      by_cases here : written = document
      · simp [here]
      · simp [List.lookup_cons, here, beq_false_of_ne (Ne.symm here), ih]

/-- What is known after some uses of a sink in memory that refuses one document or none. -/
structure Remembered (refused? : Option Document) (uses : List Use)
    (ended : List (Except GenerationError Unit) × Stage Recording) : Prop where
  outcomes : ended.1 = uses.map fun use => (use.outcome refused?).mapError .sink
  preparations : ended.2.2.preparations = uses.countP Use.prepares
  writes : ended.2.2.writes = uses.flatMap (Use.recorded refused?)
  unrefused : refused? ∉ ended.2.2.writes.map fun write => some write.1
  contents : ∀ document, ended.2.2.contents? document =
    ((ended.2.2.writes.filter fun write => write.1 = document).getLast?).map Prod.snd

theorem Use.ne_of_mem_recorded {use : Use} {write : Document × String}
    (member : write ∈ use.recorded refused?) : refused? ≠ some write.1 := by
  cases use with
  | ask request =>
      cases request with
      | prepare => cases member
      | write document contents =>
          rw [recorded] at member
          split at member
          · cases member
          · rename_i accepted
            obtain rfl := List.mem_singleton.mp member
            exact accepted
  | generate dataset rules =>
      obtain ⟨document, before, rfl⟩ := List.mem_map.mp member
      simpa using List.all_eq_true.mp List.all_takeWhile document before

theorem Sink.remembered_refusing (refused? : Option Document) (uses : List Use) (log : Log) :
    Remembered refused? uses ((refusing refused?).useAll uses (log, .empty)) := by
  obtain ⟨last, ended⟩ := useAll_refusing refused? uses (log, .empty)
  rw [ended]
  refine ⟨rfl, Nat.zero_add _, List.nil_append _, ?_, Recording.contents?_eq _⟩
  intro member
  obtain ⟨write, inWrites, same⟩ := List.mem_map.mp member
  obtain ⟨use, _, inUse⟩ := List.mem_flatMap.mp inWrites
  exact Use.ne_of_mem_recorded inUse same.symm

/-- After any uses, whatever their outcomes were, a sink in memory has been made ready once for
each preparation and each generation, and it has recorded in their order the documents that
were accepted.  A generation writes all three documents, or those before the one that the sink
refuses, and then it fails.  The contents of a document are those that were recorded last. -/
theorem remembered_uses (uses : List Use) (log : Log) :
    Remembered none uses (Sink.memory.useAll uses (log, .empty)) ∧
      ∀ refused, Remembered (some refused) uses
        ((Sink.failing refused).useAll uses (log, .empty)) :=
  ⟨Sink.remembered_refusing none uses log,
    fun refused => Sink.remembered_refusing (some refused) uses log⟩

/-- A generation that fails leaves the types behind, and later uses go on from there. -/
example :
    let dataset : Dataset := ⟨.ofList [("tint", "<color>")], .empty, .empty⟩
    let uses : List Use := [.generate dataset .tailwind, .ask (.write .properties "lost"),
      .ask .prepare, .ask (.write .types "late")]
    ((Sink.failing .properties).useAll uses ([], .empty)).2.2 =
      ⟨2, [(.types, (dataset.upgrade .tailwind).render .types), (.types, "late")]⟩ := by
  decide +kernel

end GrammarUpgrade
