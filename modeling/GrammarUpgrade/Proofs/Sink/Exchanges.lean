import GrammarUpgrade.Proofs.Generation.Requests

/-!
# Exchanges with a sink

Anyone may put requests to a sink, one after the other and also after one that has failed.
`Sink.exchanges` says what has become of each of them; every one starts at the stage at
which the one before has ended.
-/

namespace GrammarUpgrade

variable {σ : Type}

/-- What has become of a request. -/
structure Exchange (σ : Type) where
  request : Request
  /-- The stage at which the request was put. -/
  before : Stage σ
  answer : Except SinkError (List String)
  /-- The stage at which it was answered. -/
  after : Stage σ

/-- The path and the contents of a document that was written. -/
def Exchange.written? (exchange : Exchange σ) : Option (String × String) :=
  match exchange.request, exchange.answer with
  | .write _ contents, .ok [path] => some (path, contents)
  | _, _ => none

namespace Sink

/-- Put a request to a sink. -/
def exchange (sink : Sink (StateM σ)) (request : Request) (stage : Stage σ) : Exchange σ :=
  let asked := (sink.ask request).runFrom stage
  ⟨request, stage, asked.1, asked.2⟩

/-- Put requests to a sink one after the other, whatever the answers are. -/
def exchanges (sink : Sink (StateM σ)) : List Request → Stage σ → List (Exchange σ)
  | [], _ => []
  | request :: others, stage =>
      let first := sink.exchange request stage
      first :: sink.exchanges others first.after

/-- The stage after some requests. -/
def stageAfter (sink : Sink (StateM σ)) : List Request → Stage σ → Stage σ
  | [], stage => stage
  | request :: others, stage => sink.stageAfter others (sink.exchange request stage).after

/-- Each exchange is that of its own request at its own stage, and after it come others up
to the last stage. -/
theorem of_mem_exchanges {sink : Sink (StateM σ)} {requests : List Request}
    {stage : Stage σ} {exchange : Exchange σ} (member : exchange ∈ sink.exchanges requests stage) :
    exchange = sink.exchange exchange.request exchange.before ∧
      ∃ later, sink.stageAfter later exchange.after = sink.stageAfter requests stage := by
  induction requests generalizing stage with
  | nil => cases member
  | cons request others ih =>
      rcases List.mem_cons.mp member with rfl | later
      · exact ⟨rfl, others, rfl⟩
      · exact ih later

end Sink

end GrammarUpgrade
