import GrammarUpgrade.Generation
import GrammarUpgrade.Proofs.Task.ReadOnly
import GrammarUpgrade.Sink.Memory
import Mathlib.Data.List.Basic

/-!
# What generation asks of a sink

A sink is asked to make itself ready and to write documents.  `Sink.Serves` is the run of
a list of requests on an arbitrary sink: each is put to the sink in the state in which
the one before has left it, and the first that fails is the last.  The main statement,
`generate_serves`, says that a generation is such a run and nothing else: between two
requests it does no more than write to the log.
-/

namespace GrammarUpgrade

variable {σ α β : Type}

/-- What a sink can be asked to do. -/
inductive Request where
  | prepare
  | write (document : Document) (contents : String)
  deriving DecidableEq, Repr

/-- The document that is to be written. -/
def Request.document? : Request → Option Document
  | .prepare => none
  | .write document _ => some document

namespace Sink

/-- Put a request to a sink.  The answer to a written document is its path. -/
def ask (sink : Sink (StateM σ)) : Request → Task (StateM σ) SinkError (List String)
  | .prepare => do
      sink.prepare
      return []
  | .write document contents => do
      let path ← sink.write document contents
      return [path]

/-- A sink serves requests one after the other until one of them fails.  In between only
the log may grow. -/
inductive Serves (sink : Sink (StateM σ)) :
    List Request → Stage σ → Except SinkError (List String) → Stage σ → Prop
  /-- There are no more requests. -/
  | finished {stage last : Stage σ} (noted : Noted stage last) :
      Serves sink [] stage (.ok []) last
  /-- A request fails, and those after it are not put. -/
  | refused {request : Request} {others : List Request} {stage asked left last : Stage σ}
      {failure : SinkError} (before : Noted stage asked)
      (answer : (sink.ask request).runFrom asked = (.error failure, left))
      (after : Noted left last) :
      Serves sink (request :: others) stage (.error failure) last
  /-- A request is answered, and the next is put where this one ends. -/
  | answered {request : Request} {others : List Request} {stage asked left last : Stage σ}
      {paths : List String} {result : Except SinkError (List String)}
      (before : Noted stage asked)
      (answer : (sink.ask request).runFrom asked = (.ok paths, left))
      (rest : Serves sink others left result last) :
      Serves sink (request :: others) stage (result.map (paths ++ ·)) last

theorem length_answer {sink : Sink (StateM σ)} {request : Request}
    {stage left : Stage σ} {paths : List String}
    (answer : (sink.ask request).runFrom stage = (.ok paths, left)) :
    paths.length = request.document?.toList.length := by
  cases request with
  | prepare =>
      rw [ask, Task.runFrom_bind] at answer
      split at answer
      · cases answer
        rfl
      · cases answer
  | write document contents =>
      rw [ask, Task.runFrom_bind] at answer
      split at answer
      · cases answer
        rfl
      · cases answer

namespace Serves

variable {sink : Sink (StateM σ)} {requests later : List Request}
  {stage middle last : Stage σ} {result : Except SinkError (List String)}

/-- Requests may be put after something has been noted. -/
theorem after_noted (noted : Noted stage middle)
    (served : sink.Serves requests middle result last) :
    sink.Serves requests stage result last := by
  cases served with
  | finished before => exact .finished (noted.trans before)
  | refused before answer after => exact .refused (noted.trans before) answer after
  | answered before answer rest => exact .answered (noted.trans before) answer rest

/-- Something may be noted after the requests. -/
theorem then_noted (served : sink.Serves requests stage result middle)
    (noted : Noted middle last) : sink.Serves requests stage result last := by
  induction served with
  | finished before => exact .finished (before.trans noted)
  | refused before answer after => exact .refused before answer (after.trans noted)
  | answered before answer _ ih => exact .answered before answer (ih noted)

/-- When all of no requests are answered, there are no paths. -/
theorem of_nil {paths : List String} (served : sink.Serves [] stage (.ok paths) last) :
    paths = [] ∧ Noted stage last := by
  cases served with
  | finished noted => exact ⟨rfl, noted⟩

/-- When all requests are answered, so are the first and those after it. -/
theorem of_cons {request : Request} {paths : List String}
    (served : sink.Serves (request :: requests) stage (.ok paths) last) :
    ∃ asked left first others, Noted stage asked ∧
      (sink.ask request).runFrom asked = (.ok first, left) ∧
      sink.Serves requests left (.ok others) last ∧ paths = first ++ others := by
  generalize all : Except.ok paths = result at served
  cases served with
  | refused => cases all
  | @answered _ _ _ asked left _ first result before answer rest =>
      cases result with
      | error => cases all
      | ok others =>
          cases all
          exact ⟨asked, left, first, others, before, answer, rest, rfl⟩

/-- After requests that were answered come further requests. -/
theorem append {paths : List String}
    (served : sink.Serves requests stage (.ok paths) middle)
    (more : sink.Serves later middle result last) :
    sink.Serves (requests ++ later) stage (result.map (paths ++ ·)) last := by
  induction requests generalizing stage paths with
  | nil =>
      obtain ⟨rfl, noted⟩ := served.of_nil
      cases result <;> exact more.after_noted noted
  | cons request rest ih =>
      obtain ⟨asked, left, first, others, before, answer, servedRest, rfl⟩ :=
        served.of_cons
      have whole := Serves.answered before answer (ih servedRest)
      cases result with
      | error => exact whole
      | ok => simpa [Except.map] using whole

/-- After a request that failed come none. -/
theorem append_of_error {failure : SinkError}
    (served : sink.Serves requests stage (.error failure) last) :
    sink.Serves (requests ++ later) stage (.error failure) last := by
  generalize failed : Except.error failure = result at served
  induction served with
  | finished => cases failed
  | refused before answer after =>
      cases failed
      exact .refused before answer after
  | @answered _ _ _ _ _ _ paths result before answer _ ih =>
      cases result with
      | ok => cases failed
      | error =>
          cases failed
          exact .answered before answer (ih rfl)

/-- There is a path for every document that was written. -/
theorem length_paths {paths : List String}
    (served : sink.Serves requests stage (.ok paths) last) :
    paths.length = (requests.filterMap Request.document?).length := by
  induction requests generalizing stage paths with
  | nil =>
      obtain ⟨rfl, _⟩ := served.of_nil
      rfl
  | cons request rest ih =>
      obtain ⟨_, _, first, others, _, answer, servedRest, rfl⟩ := served.of_cons
      rw [List.length_append, length_answer answer, ih servedRest, List.filterMap_cons]
      cases request.document? <;> simp [Nat.add_comm]

end Serves

/-- A task does nothing to the sink but put requests, and its value is made of the paths
in the answers. -/
def Performs (sink : Sink (StateM σ)) (task : Task (StateM σ) SinkError α)
    (requests : List Request) (value : List String → α) : Prop :=
  ∀ stage, ∃ result last, sink.Serves requests stage result last ∧
    task.runFrom stage = (result.map value, last)

namespace Performs

variable {sink : Sink (StateM σ)} {task : Task (StateM σ) SinkError α}
  {requests : List Request} {value : List String → α}

theorem pure {result : α} (made : value [] = result) :
    sink.Performs (Pure.pure result) [] value :=
  fun stage => ⟨.ok [], stage, .finished (.refl stage), made ▸ rfl⟩

/-- The requests of a task and of the one after it. -/
theorem bind {next : α → Task (StateM σ) SinkError β} {whole : List String → β}
    (first : sink.Performs task requests value) (later : List Request)
    (second : ∀ paths : List String,
      paths.length = (requests.filterMap Request.document?).length →
        sink.Performs (next (value paths)) later fun more => whole (paths ++ more)) :
    sink.Performs (task >>= next) (requests ++ later) whole := by
  intro stage
  obtain ⟨result, middle, served, ran⟩ := first stage
  cases result with
  | error failure =>
      exact ⟨_, middle, served.append_of_error, Task.runFrom_bind_of_error ran next⟩
  | ok paths =>
      obtain ⟨more, last, servedLater, ranLater⟩ :=
        second paths served.length_paths middle
      refine ⟨_, last, served.append servedLater, ?_⟩
      rw [Task.runFrom_bind_of_ok ran, ranLater]
      cases more <;> rfl

/-- What is made of a value without the sink. -/
theorem map (change : α → β) (performed : sink.Performs task requests value) :
    sink.Performs (change <$> task) requests fun paths => change (value paths) := by
  intro stage
  obtain ⟨result, last, served, ran⟩ := performed stage
  refine ⟨result, last, served, ?_⟩
  rw [← bind_pure_comp, Task.runFrom_bind, ran]
  cases result <;> rfl

/-- Notes before a task are no requests. -/
theorem note_bind (level : Level) (text : String)
    (performed : sink.Performs task requests value) :
    sink.Performs (Task.note level text >>= fun _ => task) requests value := by
  rintro ⟨log, state⟩
  obtain ⟨result, last, served, ran⟩ := performed (log ++ [⟨level, .generator, text⟩], state)
  exact ⟨result, last, served.after_noted (.append log _ state), ran⟩

/-- A failure may be noted before it is passed on. -/
theorem rethrow {handler : SinkError → Task (StateM σ) SinkError α}
    (performed : sink.Performs task requests value)
    (passedOn : ∀ failure stage, ∃ last, Noted stage last ∧
      (handler failure).runFrom stage = (.error failure, last)) :
    sink.Performs (tryCatch task handler) requests value := by
  intro stage
  obtain ⟨result, middle, served, ran⟩ := performed stage
  cases result with
  | error failure =>
      obtain ⟨last, noted, thrown⟩ := passedOn failure middle
      refine ⟨_, last, served.then_noted noted, ?_⟩
      rw [Task.runFrom_tryCatch, ran]
      exact thrown
  | ok paths =>
      refine ⟨_, middle, served, ?_⟩
      rw [Task.runFrom_tryCatch, ran]
      rfl

/-- A task whose value is what a request is answered with. -/
theorem of_ask {request : Request} {answer : α → List String}
    (asked : sink.ask request = task >>= fun given => Pure.pure (answer given))
    (made : ∀ given, value (answer given) = given) :
    sink.Performs task [request] value := by
  intro stage
  rcases ran : task.runFrom stage with ⟨outcome, last⟩
  cases outcome with
  | error failure =>
      have failed : (sink.ask request).runFrom stage = (.error failure, last) := by
        rw [asked, Task.runFrom_bind_of_error ran]
      exact ⟨_, last, .refused (.refl stage) failed (.refl last), rfl⟩
  | ok given =>
      have answered : (sink.ask request).runFrom stage = (.ok (answer given), last) := by
        rw [asked, Task.runFrom_bind_of_ok ran, Task.runFrom_pure]
      refine ⟨_, last, .answered (.refl stage) answered (.finished (.refl last)), ?_⟩
      simp [Except.map, made]

theorem prepare (sink : Sink (StateM σ)) :
    sink.Performs sink.prepare [.prepare] fun _ => () :=
  .of_ask rfl fun _ => rfl

theorem write (sink : Sink (StateM σ)) (document : Document) (contents : String) :
    sink.Performs (sink.write document contents) [.write document contents]
      fun paths => paths.headD "" :=
  .of_ask rfl fun _ => rfl

end Performs

end Sink

open Sink

/-! ## The requests of a generation -/

variable (sink : Sink (StateM σ))

theorem performs_announce (rules : RuleSet) :
    sink.Performs rules.announce [] fun _ => () := by
  rw [RuleSet.announce]
  induction rules.rules with
  | nil => exact .pure rfl
  | cons rule rest ih => exact ih.note_bind _ _

theorem performs_writeLogged (document : Document) (contents : String) :
    sink.Performs (sink.writeLogged document contents) [.write document contents]
      fun paths => paths.headD "" := by
  refine (Performs.write sink document contents).rethrow ?_
  rintro failure ⟨log, state⟩
  exact ⟨_, .append log _ state, rfl⟩

namespace Dataset

/-- What is reported about documents that were written. -/
def written (upgraded : Dataset) (documents : List Document) (paths : List String) :
    List WrittenDocument :=
  documents.zipWith (fun document path => ⟨document, path, upgraded.names document⟩) paths

theorem performs_writeDocument (upgraded : Dataset) (document : Document) :
    sink.Performs (upgraded.writeDocument sink document)
      [.write document (upgraded.render document)]
      fun paths => ⟨document, paths.headD "", upgraded.names document⟩ := by
  refine .note_bind _ _ (.note_bind _ _ ?_)
  refine (performs_writeLogged sink document _).bind [] ?_
  intro paths single
  obtain ⟨path, rfl⟩ := List.length_eq_one_iff.mp single
  exact .note_bind _ _ (.pure rfl)

theorem performs_writeDocuments (upgraded : Dataset) (documents : List Document) :
    sink.Performs (documents.mapM (upgraded.writeDocument sink))
      (documents.map fun document => .write document (upgraded.render document))
      (upgraded.written documents) := by
  induction documents with
  | nil =>
    exact .pure rfl
  | cons document rest ih =>
      rw [List.mapM_cons]
      refine (performs_writeDocument sink upgraded document).bind _ ?_
      intro paths single
      obtain ⟨path, rfl⟩ := List.length_eq_one_iff.mp single
      rw [bind_pure_comp]
      exact ih.map _

theorem performs_writeUpgraded (dataset : Dataset) (rules : RuleSet) :
    sink.Performs (dataset.writeUpgraded sink rules)
      (.prepare :: Document.all.map fun document =>
        .write document ((dataset.upgrade rules).render document))
      fun paths => ⟨(dataset.upgrade rules).written Document.all paths⟩ := by
  refine (performs_announce sink rules).bind _ ?_
  intro paths none
  obtain rfl := List.length_eq_zero_iff.mp none
  refine (Performs.prepare sink).bind _ ?_
  intro paths none
  obtain rfl := List.length_eq_zero_iff.mp none
  refine (performs_writeDocuments sink (dataset.upgrade rules) Document.all).bind [] ?_
  intro paths _
  exact .note_bind _ _ (.pure (by simp))

end Dataset

/-- A generation asks its sink to make itself ready and then to write the three documents
of the upgraded dataset, and nothing more after a request that fails.  Its failure is that
of the sink; otherwise its report has the paths that the sink answered, each with the keys
of the dictionary that was written. -/
theorem generate_serves (dataset : Dataset) (rules : RuleSet) (stage : Stage σ) :
    let upgraded := dataset.upgrade rules
    ∃ result last,
      sink.Serves
        [.prepare, .write .types (upgraded.render .types),
          .write .properties (upgraded.render .properties),
          .write .atRules (upgraded.render .atRules)] stage result last ∧
      match result with
      | .error failure =>
          (dataset.generate sink rules).runFrom stage = (.error (.sink failure), last)
      | .ok paths =>
          ∃ typesPath propertiesPath atRulesPath report,
            paths = [typesPath, propertiesPath, atRulesPath] ∧
            (dataset.generate sink rules).runFrom stage = (.ok report, last) ∧
            report.documents =
              [⟨.types, typesPath, upgraded.types.keys⟩,
                ⟨.properties, propertiesPath, upgraded.properties.keys⟩,
                ⟨.atRules, atRulesPath, upgraded.atRules.keys⟩] ∧
            report.total = upgraded.types.keys.length + upgraded.properties.keys.length +
              upgraded.atRules.keys.length := by
  intro upgraded
  obtain ⟨result, last, served, ran⟩ :=
    Dataset.performs_writeUpgraded sink dataset rules stage
  refine ⟨result, last, served, ?_⟩
  have generated : (dataset.generate sink rules).runFrom stage = _ :=
    Task.runFrom_mapError GenerationError.sink (dataset.writeUpgraded sink rules) stage
  rw [ran] at generated
  cases result with
  | error failure => exact generated
  | ok paths =>
      obtain ⟨typesPath, propertiesPath, atRulesPath, rfl⟩ :=
        List.length_eq_three.mp served.length_paths
      refine ⟨typesPath, propertiesPath, atRulesPath, _, rfl, generated, rfl, ?_⟩
      exact (Nat.add_assoc _ _ _).symm

/-- A sink that refuses the properties has been asked for the types before and is not
asked for the at-rules. -/
example :
    let dataset : Dataset := ⟨.ofList [("tint", "<color>")], .empty, .empty⟩
    ((dataset.generate (Sink.failing .properties) .tailwind).perform .empty).2 =
      ⟨1, [(.types, (dataset.upgrade .tailwind).render .types)]⟩ := by
  decide +kernel

end GrammarUpgrade
