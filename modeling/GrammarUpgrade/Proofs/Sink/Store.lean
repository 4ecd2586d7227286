import GrammarUpgrade.Proofs.FileTree.Directories
import GrammarUpgrade.Proofs.Generation.Files
import GrammarUpgrade.Proofs.Sink.Exchanges

/-!
# A directory as a store

The sink that writes to a destination keeps documents in files, and file names may be
spelled so that several documents share a file or that a path leads out of the directory.
The main statement, `exchanges_directory`, says that a write changes the one file to which
its path leads or nothing at all, and that after any requests each file has what was
written to it last.
-/

namespace GrammarUpgrade

namespace FileTree

variable {initial tree before after : FileTree} {path contents : String}
  {location : Location} {writes : List (String × String)}

/-- The contents of the file at a location. -/
def file? (tree : FileTree) (location : Location) : Option ByteArray :=
  match tree.lookup location with
  | some (.file contents) => some contents
  | _ => none

theorem file?_congr (same : after.lookup location = before.lookup location) :
    after.file? location = before.file? location := by
  rw [file?, file?, same]

theorem file?_of_lookup {bytes : ByteArray} (found : tree.lookup location = some (.file bytes)) :
    tree.file? location = some bytes := by
  rw [file?, found]

theorem Grows.file?_eq (grows : before.Grows after) (location : Location) :
    after.file? location = before.file? location := by
  rcases grows.lookup location with same | ⟨free, made⟩
  · exact file?_congr same
  · rw [file?, file?, free, made]

/-! ## One write -/

/-- The path leads to a file that has the contents, and nothing else has changed. -/
structure Stores (before after : FileTree) (path contents : String) (location : Location) :
    Prop where
  led : before.target? path = some location
  leads : after.target? path = some location
  file : after.file? location = some contents.toUTF8
  workingDirectory : after.workingDirectory = before.workingDirectory
  elsewhere : ∀ other, other ≠ location → after.lookup other = before.lookup other

theorem Stores.lookup_ne_none (stores : before.Stores after path contents location) :
    after.lookup location ≠ none := by
  intro missing
  have found := stores.file
  rw [file?, missing] at found
  cases found

theorem stores_set_of_writable (writable : tree.writable path = .ok location)
    (contents : String) :
    tree.Stores (tree.set location (.file contents.toUTF8)) path contents location where
  led := target?_eq_some_iff.mpr (resolve_of_writable writable)
  leads := target?_eq_some_iff.mpr (resolve_set_of_writable writable _)
  file := file?_of_lookup (lookup_set_of_writable writable _)
  workingDirectory := rfl
  elsewhere _ different := lookup_set_of_ne tree _ different

/-! ## Any number of writes -/

/-- Each file has what was written to it last, or what it had in the beginning. -/
structure Stored (initial tree : FileTree) (writes : List (String × String)) : Prop where
  holds : tree.Holds writes
  untouched : ∀ location, tree.lastWrite? writes location = none →
    tree.file? location = initial.file? location

namespace Stored

theorem start (initial : FileTree) : initial.Stored initial [] :=
  ⟨.nil initial, fun _ _ => rfl⟩

/-- Making directories changes no file. -/
theorem grows (stored : initial.Stored before writes) (grows : before.Grows after) :
    initial.Stored after writes := by
  have same := stored.holds.lastWrite?_eq grows.keeps
  refine ⟨⟨stored.holds.found_of_keeps grows.keeps, ?_⟩, ?_⟩
  · intro location write last
    rw [same] at last
    exact grows.lookup_eq (stored.holds.latest last)
  · intro location unwritten
    rw [same] at unwritten
    exact (grows.file?_eq location).trans (stored.untouched location unwritten)

/-- One more write. -/
theorem append (stored : initial.Stored tree writes)
    (writable : tree.writable path = .ok location) (contents : String) :
    initial.Stored (tree.set location (.file contents.toUTF8)) (writes ++ [(path, contents)]) := by
  have keeps := keeps_set_file (of_writable writable).2.2.2 contents.toUTF8
  have stores := stores_set_of_writable writable contents
  refine ⟨stored.holds.append writable contents, ?_⟩
  intro place unwritten
  rw [lastWrite?_append_singleton, stores.leads, stored.holds.lastWrite?_eq keeps] at unwritten
  split at unwritten
  · cases unwritten
  · rename_i elsewhere
    have different : place ≠ location := fun same => elsewhere (same ▸ rfl)
    rw [file?_congr (stores.elsewhere place different)]
    exact stored.untouched place unwritten

/-- What is in a file. -/
theorem file?_eq (stored : initial.Stored tree writes) (location : Location) :
    tree.file? location =
      ((tree.lastWrite? writes location).map fun write => write.2.toUTF8).or
        (initial.file? location) := by
  cases last : tree.lastWrite? writes location with
  | none => exact stored.untouched location last
  | some write => exact file?_of_lookup (stored.holds.latest last)

end Stored

end FileTree

namespace Sink

variable {stage : Stage FileTree}

/-! ## One request -/

/-- A preparation creates the directory of the destination, and fails if that fails. -/
theorem exchange_prepare_eq (destination : Destination) (stage : Stage FileTree) :
    let exchange := (directory destination).exchange .prepare stage
    let created := stage.2.createDirectories destination.directory
    exchange.answer = (created.1.map fun _ => []).mapError
        (SinkError.createDirectory destination.directory) ∧
      exchange.after.2 = created.2 := by
  obtain ⟨log, tree⟩ := stage
  have created : (MonadFiles.createDirectories destination.directory :
      StateM FileTree _) tree = tree.createDirectories destination.directory := rfl
  simp only [exchange, ask, directory, Task.runFrom_bind, Task.runFrom_mapError,
    Task.runFrom_ofOutcome, created]
  rcases tree.createDirectories destination.directory with ⟨outcome, later⟩
  cases outcome <;> exact ⟨rfl, rfl⟩

/-- A preparation makes directories at most. -/
theorem exchange_prepare_grows (destination : Destination) (stage : Stage FileTree) :
    stage.2.Grows ((directory destination).exchange .prepare stage).after.2 := by
  rw [(exchange_prepare_eq destination stage).2]
  exact stage.2.createDirectories_grows destination.directory

/-- A write is one write to the path of the document, and fails if that fails. -/
theorem exchange_write_eq (destination : Destination) (document : Document)
    (contents : String) (stage : Stage FileTree) :
    let path := destination.path document
    let exchange := (directory destination).exchange (.write document contents) stage
    let written := stage.2.writeText path contents
    exchange.answer = (written.1.map fun _ => [path]).mapError (SinkError.write path) ∧
      exchange.after.2 = written.2 := by
  obtain ⟨log, tree⟩ := stage
  simp only [exchange, ask, Task.runFrom_bind, runFrom_write_directory]
  rcases tree.writeText (destination.path document) contents with ⟨outcome, later⟩
  cases outcome <;> exact ⟨rfl, rfl⟩

/-- A write puts a file where its path leads, or it fails and changes nothing. -/
theorem exchange_write_cases (destination : Destination) (document : Document)
    (contents : String) (stage : Stage FileTree) :
    let path := destination.path document
    let exchange := (directory destination).exchange (.write document contents) stage
    (∃ location, stage.2.writable path = .ok location ∧ exchange.answer = .ok [path] ∧
        exchange.after.2 = stage.2.set location (.file contents.toUTF8)) ∨
      ∃ cause, exchange.answer = .error (.write path cause) ∧ exchange.after.2 = stage.2 := by
  intro path exchange
  obtain ⟨answered, changed⟩ := exchange_write_eq destination document contents stage
  rw [FileTree.writeText] at answered changed
  cases writable : stage.2.writable path with
  | error cause =>
      rw [writable] at answered changed
      exact .inr ⟨cause, answered, changed⟩
  | ok location =>
      rw [writable] at answered changed
      exact .inl ⟨location, rfl, answered, changed⟩

theorem exchange_directory_keeps (destination : Destination) (request : Request)
    (stage : Stage FileTree) :
    stage.2.Keeps ((directory destination).exchange request stage).after.2 := by
  cases request with
  | prepare => exact (exchange_prepare_grows destination stage).keeps
  | write document contents =>
      rcases exchange_write_cases destination document contents stage with
        ⟨location, writable, _, changed⟩ | ⟨_, _, same⟩
      · rw [changed]
        exact FileTree.keeps_set_file (FileTree.of_writable writable).2.2.2 _
      · rw [same]
        exact .refl stage.2

/-- What one more request does to the stored files. -/
theorem exchange_directory_stored (destination : Destination) {initial : FileTree}
    {writes : List (String × String)} (stored : initial.Stored stage.2 writes) (request : Request) :
    let exchange := (directory destination).exchange request stage
    initial.Stored exchange.after.2 (writes ++ exchange.written?.toList) := by
  intro exchange
  cases request with
  | prepare =>
      have unwritten : exchange.written? = none := rfl
      rw [unwritten, Option.toList_none, List.append_nil]
      exact stored.grows (exchange_prepare_grows destination stage)
  | write document contents =>
      have asked : exchange.request = .write document contents := rfl
      rcases exchange_write_cases destination document contents stage with
        ⟨location, writable, answered, changed⟩ | ⟨_, refused, same⟩
      · have written : exchange.written? = some (destination.path document, contents) := by
          rw [Exchange.written?, asked, answered]
        rw [written, changed]
        exact stored.append writable contents
      · have unwritten : exchange.written? = none := by
          rw [Exchange.written?, asked, refused]
        rw [unwritten, same, Option.toList_none, List.append_nil]
        exact stored

/-! ## Any number of requests -/

theorem stageAfter_directory_keeps (destination : Destination) (requests : List Request)
    (stage : Stage FileTree) :
    stage.2.Keeps ((directory destination).stageAfter requests stage).2 := by
  induction requests generalizing stage with
  | nil => exact .refl stage.2
  | cons request others ih =>
      exact (exchange_directory_keeps destination request stage).trans (ih _)

theorem stageAfter_directory_stored (destination : Destination) {initial : FileTree}
    {writes : List (String × String)} (stored : initial.Stored stage.2 writes)
    (requests : List Request) :
    initial.Stored ((directory destination).stageAfter requests stage).2
      (writes ++
        ((directory destination).exchanges requests stage).filterMap Exchange.written?) := by
  induction requests generalizing stage writes with
  | nil =>
      rw [exchanges, List.filterMap_nil, List.append_nil]
      exact stored
  | cons request others ih =>
      have later := ih (exchange_directory_stored destination stored request)
      rw [List.append_assoc] at later
      rw [exchanges, List.filterMap_cons]
      cases written : ((directory destination).exchange request stage).written? with
      | none =>
          rw [written] at later
          exact later
      | some write =>
          rw [written] at later
          exact later

/-- A write to the sink of a destination answers with the path of the document, and then
the path leads to a file that has the contents, from then on and up to the end, and nothing
else has changed; or it fails, the failure names the path, and nothing has changed.  After
any requests, whatever the answers were, the file at each location has what was written to
it last, by whichever path, or else what it had in the beginning. -/
theorem exchanges_directory (destination : Destination) (requests : List Request) (log : Log)
    (initial : FileTree) :
    let sink := directory destination
    let exchanges := sink.exchanges requests (log, initial)
    let last := (sink.stageAfter requests (log, initial)).2
    (∀ exchange ∈ exchanges, ∀ document contents,
        exchange.request = .write document contents →
        let path := destination.path document
        (∃ location, exchange.answer = .ok [path] ∧
            exchange.before.2.Stores exchange.after.2 path contents location ∧
            last.target? path = some location) ∨
          ∃ cause, exchange.answer = .error (.write path cause) ∧
            exchange.after.2 = exchange.before.2) ∧
      ∀ location, last.file? location =
        ((last.lastWrite? (exchanges.filterMap Exchange.written?) location).map
            fun write => write.2.toUTF8).or (initial.file? location) := by
  intro sink exchanges last
  constructor
  · intro exchange member document contents asked path
    obtain ⟨own, later, ends⟩ := of_mem_exchanges member
    rw [asked] at own
    rcases exchange_write_cases destination document contents exchange.before with
      ⟨location, writable, answered, changed⟩ | ⟨cause, refused, same⟩
    · rw [← own] at answered changed
      have stores := FileTree.stores_set_of_writable writable contents
      rw [← changed] at stores
      refine .inl ⟨location, answered, stores, ?_⟩
      -- The file is never removed, so what comes later does not change where the path leads.
      have keeps := stageAfter_directory_keeps destination later exchange.after
      rw [ends] at keeps
      exact FileTree.target?_eq_some_iff.mpr
        (keeps.resolve (FileTree.target?_eq_some_iff.mp stores.leads) stores.lookup_ne_none)
    · rw [← own] at refused same
      exact .inr ⟨cause, refused, same⟩
  · have start : initial.Stored ((log, initial) : Stage FileTree).2 [] := .start initial
    exact (stageAfter_directory_stored destination start requests).file?_eq

/-- A write outside of the directory fails as long as the directory is missing, and two
documents may share a file. -/
theorem exchanges_directory_shared :
    let destination : Destination := ⟨"out", "../old.json", "page.json", "./page.json"⟩
    let initial := FileTree.fresh.place "old.json" "old".toUTF8
    let requests : List Request := [.write .types "early", .prepare,
      .write .properties "first", .write .atRules "second"]
    let sink : Sink (StateM FileTree) := directory destination
    let last := (sink.stageAfter requests ([], initial)).2
    (∃ exchange ∈ sink.exchanges requests ([], initial), ∃ cause,
        exchange.answer = .error (.write "out/../old.json" cause) ∧
          exchange.after.2 = exchange.before.2) ∧
      last.file? ["work", "old.json"] = some "old".toUTF8 ∧
      last.file? ["work", "out", "page.json"] = some "second".toUTF8 := by
  intro destination initial requests sink last
  obtain ⟨each, files⟩ := exchanges_directory destination requests [] initial
  refine ⟨⟨_, List.mem_cons_self, ?_⟩, (files _).trans ?_, (files _).trans ?_⟩
  · have path : destination.path .types = "out/../old.json" := by decide +kernel
    rcases each _ List.mem_cons_self .types "early" rfl with ⟨_, answered, _⟩ | refused
    · have fails : (sink.exchange (.write .types "early") ([], initial)).answer.isOk = false := by
        decide +kernel
      have answers : (sink.exchange (.write .types "early") ([], initial)).answer = _ := answered
      rw [answers] at fails
      cases fails
    · rwa [path] at refused
  · decide +kernel
  · decide +kernel

end Sink

end GrammarUpgrade
