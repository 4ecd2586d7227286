import GrammarUpgrade.Proofs.FileTree.Writing
import GrammarUpgrade.Proofs.Generation.Requests
import GrammarUpgrade.Sample
import GrammarUpgrade.Sink.Directory

/-!
# Generated files

The three paths of a destination are free to lead to the same file.  A generation that
succeeds has written all its documents, one after the other, so that a file has the
document that was written to it last.
-/

namespace GrammarUpgrade

namespace Destination

/-- The document that was written last to the file at the path of a document. -/
def lastAt (destination : Destination) (tree : FileTree) (document : Document) : Document :=
  let together := Document.all.filter fun other =>
    tree.target? (destination.path other) = tree.target? (destination.path document)
  together.getLast?.getD document

end Destination

namespace Sink

variable {destination : Destination}

theorem runFrom_write_directory (document : Document) (contents : String) (log : Log)
    (tree : FileTree) :
    ((directory destination).write document contents).runFrom (log, tree) =
      match tree.writeText (destination.path document) contents with
      | (.ok (), later) => (.ok (destination.path document), log, later)
      | (.error failure, later) =>
          (.error (.write (destination.path document) failure), log, later) := by
  have written : (MonadFiles.writeText (destination.path document) contents :
      StateM FileTree _) tree = tree.writeText (destination.path document) contents := rfl
  simp only [directory, Task.runFrom_bind, Task.runFrom_mapError, Task.runFrom_ofOutcome,
    written]
  rcases tree.writeText (destination.path document) contents with ⟨outcome, later⟩
  cases outcome <;> rfl

/-- A document that was written is in the file at its path. -/
theorem of_ask_write_directory {document : Document} {contents : String}
    {stage left : Stage FileTree} {paths : List String}
    (answer : ((directory destination).ask (.write document contents)).runFrom stage =
      (.ok paths, left)) :
    paths = [destination.path document] ∧
      ∃ location, stage.2.writable (destination.path document) = .ok location ∧
        left.2 = stage.2.set location (.file contents.toUTF8) := by
  obtain ⟨log, tree⟩ := stage
  rw [ask, Task.runFrom_bind, runFrom_write_directory, FileTree.writeText] at answer
  cases writable : tree.writable (destination.path document) with
  | error failure =>
      rw [writable] at answer
      cases answer
  | ok location =>
      rw [writable] at answer
      cases answer
      exact ⟨rfl, location, rfl, rfl⟩

/-- Documents that were all written are in the files at their paths, unless others were
written over them. -/
theorem Serves.holds {contents : Document → String} {documents : List Document}
    {stage last : Stage FileTree} {paths : List String}
    (served : (directory destination).Serves
      (documents.map fun document => .write document (contents document)) stage (.ok paths)
      last)
    {written : List (String × String)} (holds : stage.2.Holds written) :
    paths = documents.map destination.path ∧
      last.2.Holds (written ++ documents.map fun document =>
        (destination.path document, contents document)) := by
  induction documents generalizing stage paths written with
  | nil =>
      obtain ⟨rfl, noted⟩ := served.of_nil
      rw [noted.state]
      simpa using holds
  | cons document rest ih =>
      obtain ⟨asked, left, first, others, noted, answer, servedRest, rfl⟩ := served.of_cons
      obtain ⟨rfl, location, writable, changed⟩ := of_ask_write_directory answer
      rw [noted.state] at writable changed
      have holdsNow := holds.append writable (contents document)
      rw [← changed] at holdsNow
      obtain ⟨rfl, holdsLast⟩ := ih servedRest holdsNow
      refine ⟨rfl, ?_⟩
      rwa [List.append_assoc] at holdsLast

end Sink

/-- The text in a file that holds a text. -/
theorem FileTree.readText_of_lookup {tree : FileTree} {path contents : String}
    {location : Location} (target : tree.target? path = some location)
    (found : tree.lookup location = some (.file contents.toUTF8)) :
    tree.readText path = .ok contents := by
  rw [FileTree.target?_eq_some_iff] at target
  rw [FileTree.readText, FileTree.find, target]
  simp only [found]
  have decoded : String.fromUTF8? contents.toUTF8 = some contents :=
    dif_pos contents.isValidUTF8
  rw [decoded]

namespace Destination

variable (destination : Destination) (tree : FileTree) (document : Document)

/-- The document that was written last is among those that share the file. -/
theorem getLast?_together :
    (Document.all.filter fun other => tree.target? (destination.path other) =
      tree.target? (destination.path document)).getLast? =
      some (destination.lastAt tree document) := by
  have member : document ∈ Document.all.filter fun other =>
      tree.target? (destination.path other) = tree.target? (destination.path document) := by
    rw [List.mem_filter]
    exact ⟨by cases document <;> decide, by simp⟩
  rw [lastAt]
  cases last : (Document.all.filter fun other => tree.target? (destination.path other) =
      tree.target? (destination.path document)).getLast? with
  | none =>
      rw [List.getLast?_eq_none_iff] at last
      rw [last] at member
      cases member
  | some other => simp

theorem target?_lastAt :
    tree.target? (destination.path (destination.lastAt tree document)) =
      tree.target? (destination.path document) := by
  have member := List.mem_of_getLast? (destination.getLast?_together tree document)
  rw [List.mem_filter, decide_eq_true_iff] at member
  exact member.2

theorem lastAt_congr {first second : Document}
    (together : tree.target? (destination.path first) =
      tree.target? (destination.path second)) :
    destination.lastAt tree first = destination.lastAt tree second := by
  have last := destination.getLast?_together tree first
  rw [together, getLast?_together] at last
  exact (Option.some.inj last).symm

/-- Among written documents, the last one at a path is what the path leads to. -/
theorem readText_eq_lastAt {destination : Destination} {tree : FileTree}
    {contents : Document → String}
    (holds : tree.Holds (Document.all.map fun document =>
      (destination.path document, contents document))) (document : Document) :
    tree.readText (destination.path document) =
      .ok (contents (destination.lastAt tree document)) := by
  have written : (destination.path document, contents document) ∈
      Document.all.map fun document =>
        (destination.path document, contents document) :=
    List.mem_map_of_mem (by cases document <;> decide)
  obtain ⟨location, _, target, _⟩ := holds.found _ written
  have last : tree.lastWrite? (Document.all.map fun document =>
      (destination.path document, contents document)) location =
      some (destination.path (destination.lastAt tree document),
        contents (destination.lastAt tree document)) := by
    rw [FileTree.lastWrite?, List.filter_map, List.getLast?_map, ← target]
    exact congrArg (Option.map _) (destination.getLast?_together tree document)
  exact FileTree.readText_of_lookup target (holds.latest last)

end Destination

/-- A generation that succeeds has written every document to its path. -/
theorem Dataset.of_generate_directory {destination : Destination} {dataset : Dataset}
    {rules : RuleSet} {tree last : FileTree} {report : Report} {before log : Log}
    (generated : (dataset.generate (Sink.directory destination) rules).runFrom
      (before, tree) = (.ok report, log, last)) :
    report = ⟨(dataset.upgrade rules).written Document.all
        (Document.all.map destination.path)⟩ ∧
      last.Holds (Document.all.map fun document =>
        (destination.path document, (dataset.upgrade rules).render document)) := by
  obtain ⟨result, stage, served, ran⟩ := Dataset.performs_writeUpgraded
    (Sink.directory destination) dataset rules (before, tree)
  rw [Dataset.generate, Task.runFrom_mapError, ran] at generated
  cases result with
  | error failure => cases generated
  | ok paths =>
      cases generated
      obtain ⟨_, left, first, others, _, answer, servedDocuments, rfl⟩ := served.of_cons
      obtain rfl : first = [] := List.length_eq_zero_iff.mp (Sink.length_answer answer)
      obtain ⟨rfl, holds⟩ := servedDocuments.holds (.nil left.2)
      exact ⟨rfl, holds⟩

/-- The path of each document leads to the text of the document that was written last to
the same file.  So the documents are all kept exactly if no two different texts went to
the same file. -/
theorem readText_generated {destination : Destination} {dataset : Dataset}
    {rules : RuleSet} {tree last : FileTree} {report : Report} {before log : Log}
    (generated : (dataset.generate (Sink.directory destination) rules).runFrom
      (before, tree) = (.ok report, log, last)) :
    let upgraded := dataset.upgrade rules
    report.documents.map (fun written => (written.document, written.path)) =
        Document.all.map (fun document => (document, destination.path document)) ∧
      (∀ document, last.readText (destination.path document) =
        .ok (upgraded.render (destination.lastAt last document))) ∧
      ((∀ document, last.readText (destination.path document) =
          .ok (upgraded.render document)) ↔
        ∀ first second,
          last.target? (destination.path first) =
              last.target? (destination.path second) →
            upgraded.render first = upgraded.render second) := by
  intro upgraded
  obtain ⟨rfl, holds⟩ := Dataset.of_generate_directory generated
  have text := Destination.readText_eq_lastAt holds
  refine ⟨rfl, text, ?_⟩
  constructor
  · intro kept first second together
    have same : last.readText (destination.path first) =
        last.readText (destination.path second) := by
      rw [text, text, destination.lastAt_congr last together]
    rw [kept, kept] at same
    exact Except.ok.inj same
  · intro same document
    rw [text document]
    exact congrArg _ (same _ _ (destination.target?_lastAt last document))

/-- With the usual file names all documents are kept. -/
theorem readText_generated_standard :
    ∃ (report : Report) (log : Log) (last : FileTree),
      (Sample.dataset.generate (Sink.directory .standard) .tailwind).runFrom
          ([], FileTree.fresh) = (.ok report, log, last) ∧
        ∀ document, last.readText (Destination.standard.path document) =
          .ok ((Sample.dataset.upgrade .tailwind).render document) := by
  have succeeded : ((Sample.dataset.generate (Sink.directory .standard)
      .tailwind).runFrom ([], FileTree.fresh)).1.isOk = true := by decide +kernel
  have apart : (Document.all.map fun document =>
      (((Sample.dataset.generate (Sink.directory .standard) .tailwind).runFrom
        ([], FileTree.fresh)).2.2.target? (Destination.standard.path document))).Nodup := by
    decide +kernel
  rcases generated : (Sample.dataset.generate (Sink.directory .standard) .tailwind).runFrom
    ([], FileTree.fresh) with ⟨outcome, log, last⟩
  rw [generated] at succeeded apart
  cases outcome with
  | error failure => cases succeeded
  | ok report =>
      refine ⟨report, log, last, rfl, (readText_generated generated).2.2.mpr ?_⟩
      intro first second together
      cases first <;> cases second <;> simp_all [Document.all]

/-- A document is lost, although it is reported, when a later one goes to the same file. -/
theorem exists_generated_lost :
    let dataset : Dataset := ⟨.ofList [("tint", "<color>")], .empty, .empty⟩
    let destination := { Destination.standard with atRules := "types.json" }
    ∃ (report : Report) (log : Log) (last : FileTree),
      (dataset.generate (Sink.directory destination) .tailwind).runFrom
          ([], FileTree.fresh) = (.ok report, log, last) ∧
        ∃ written ∈ report.documents, last.readText written.path ≠
          .ok ((dataset.upgrade .tailwind).render written.document) := by
  intro dataset destination
  have succeeded : ((dataset.generate (Sink.directory destination)
      .tailwind).runFrom ([], FileTree.fresh)).1.isOk = true := by decide +kernel
  have different : (dataset.upgrade .tailwind).render .atRules ≠
      (dataset.upgrade .tailwind).render .types := by decide +kernel
  rcases generated : (dataset.generate (Sink.directory destination)
    .tailwind).runFrom ([], FileTree.fresh) with ⟨outcome, log, last⟩
  rw [generated] at succeeded
  cases outcome with
  | error failure => cases succeeded
  | ok report =>
      obtain ⟨rfl, holds⟩ := Dataset.of_generate_directory generated
      have shared : destination.path .atRules = destination.path .types := rfl
      have last_types : destination.lastAt last .types = .atRules := by
        simp only [Destination.lastAt, Document.all, List.filter_cons, List.filter_nil,
          shared, decide_true]
        cases decide (last.target? (destination.path .properties) =
          last.target? (destination.path .types)) <;> rfl
      refine ⟨_, log, last, rfl, _, List.mem_cons_self, ?_⟩
      intro kept
      have text := Destination.readText_eq_lastAt holds .types
      rw [last_types] at text
      exact different (Except.ok.inj (text.symm.trans kept))

end GrammarUpgrade
