import GrammarUpgrade.CommandLine.Run
import GrammarUpgrade.Proofs.Generation.Requests

/-!
# Checking before generating

Both commands prepare themselves in the same way, and that only reads files.  So a check
that fails tells how a generation fails, and a check that succeeds leaves nothing to fail
but the writing; the main statement is `runOn_check_generate`.
-/

namespace GrammarUpgrade

/-- A report has the number of entries of each document. -/
theorem Dataset.map_written (upgraded : Dataset) {documents : List Document}
    {paths : List String} (enough : paths.length = documents.length) :
    (upgraded.written documents paths).map
        (fun written => (written.document, written.entries.length)) =
      documents.map fun document => (document, (upgraded.names document).length) := by
  induction documents generalizing paths with
  | nil => rfl
  | cons document rest ih =>
      obtain ⟨path, others, rfl⟩ := List.exists_cons_of_length_eq_add_one enough
      exact congrArg _ (ih (Nat.succ.inj enough))

/-! ## Preparing -/

theorem readText_readOnly (path : String) :
    (Task.ofOutcome (MonadFiles.readText path) : Task (StateM FileTree) _ _).ReadOnly :=
  .ofOutcome fun _ => rfl

theorem Config.load_readOnly (path : String) :
    (Config.load path : Task (StateM FileTree) _ _).ReadOnly := by
  refine .bind ((readText_readOnly path).mapError _) ?_
  intro text
  cases Config.ofText text with
  | error failure => exact .throw _
  | ok config => exact .bind (.write _) fun _ => .pure _

theorem Dataset.load_readOnly (path : String) :
    (Dataset.load path : Task (StateM FileTree) _ _).ReadOnly := by
  refine .bind ((readText_readOnly path).mapError _) ?_
  intro text
  cases Dataset.ofText text with
  | error failure => exact .throw _
  | ok dataset => exact .bind (.write _) fun _ => .pure _

namespace CommandLine

variable {flags : Arguments} {tree : FileTree}

theorem configPath_readOnly (flags : Arguments) :
    (configPath flags : Task (StateM FileTree) _ _).ReadOnly := by
  rw [configPath]
  cases flags.config with
  | some path => exact .pure _
  | none =>
      refine .bind (fun _ => ⟨List.prefix_rfl, rfl⟩) ?_
      intro isPresent
      cases isPresent <;> exact .pure _

theorem settleConfig_readOnly (flags : Arguments) :
    (settleConfig flags : Task (StateM FileTree) _ _).ReadOnly := by
  refine .bind (configPath_readOnly flags) ?_
  intro path?
  cases path? with
  | none => exact .pure _
  | some path => exact .bind ((Config.load_readOnly path).mapError _) fun _ => .pure _

theorem prepare_readOnly (flags : Arguments) :
    (prepare flags : Task (StateM FileTree) _ _).ReadOnly := by
  refine .bind (settleConfig_readOnly flags) ?_
  intro config
  refine .bind (Task.ReadOnly.ofExcept _) ?_
  intro rules
  refine .bind (Task.ReadOnly.ofExcept _) ?_
  intro path
  refine .bind (.write _) ?_
  intro _
  exact .bind ((Dataset.load_readOnly path).mapError _) fun _ => .pure _

/-! ## The two commands -/

/-- After preparing, `generate` reports the names of the upgraded dataset, or it fails in
generating. -/
theorem runFrom_generate {prepared : Prepared} {stage later : Stage FileTree}
    (ready : (prepare flags).runFrom stage = (.ok prepared, later)) :
    let upgraded := prepared.dataset.upgrade prepared.rules
    ∃ result last, (generate flags).runFrom stage = (result, last) ∧
      match result with
      | .error failure => ∃ cause, failure = .generation cause
      | .ok report =>
          report.documents.map (fun written => (written.document, written.entries.length)) =
            Document.all.map fun document =>
              (document, (upgraded.names document).length) := by
  intro upgraded
  obtain ⟨result, last, served, wrote⟩ := Dataset.performs_writeUpgraded
    (Sink.directory prepared.config.destination) prepared.dataset prepared.rules later
  have generated : (generate flags).runFrom stage = _ := Task.runFrom_bind_of_ok ready _
  rw [Task.runFrom_mapError, Dataset.generate, Task.runFrom_mapError, wrote] at generated
  refine ⟨_, last, generated, ?_⟩
  cases result with
  | error failure => exact ⟨.sink failure, rfl⟩
  | ok paths => exact upgraded.map_written served.length_paths

/-- A run of the program on a tree of files. -/
def runOn (environment : Option String) (words : List String) (tree : FileTree) :
    Outcome × FileTree :=
  (run environment words : StateM FileTree Outcome) tree

/-- How the program ends is how the command ends that it carries out. -/
theorem runOn_of_parse {α : Type} {command : Task (StateM FileTree) CommandError α}
    {text : α → String} {environment : Option String} {words : List String}
    {outcome : Except CommandError α} {log : Log} {last : FileTree}
    (parsed : parse words = .ok flags)
    (carries : carryOut flags = command >>= fun value => pure (text value))
    (ran : command.runFrom ([], tree) = (outcome, log, last)) :
    runOn environment words tree =
      (commandOutcome flags.verbose environment (outcome.map text, log), last) := by
  have carried : (carryOut flags).runFrom ([], tree) = (outcome.map text, log, last) := by
    rw [carries, Task.runFrom_bind, ran]
    cases outcome <;> rfl
  have performed := Task.perform_eq_iff.mpr carried
  rw [runOn, run, parsed]
  exact congrArg (fun ended : (Except CommandError String × Log) × FileTree =>
    (commandOutcome flags.verbose environment ended.1, ended.2)) performed

/-- With the same flags on the same files, `check` leaves the files as they are.  When it
fails, `generate` ends in the very same way.  When it succeeds, `generate` reports as many
entries for each document as `check` has counted candidates, or it fails in generating the
documents. -/
theorem runOn_check_generate {environment : Option String}
    {checkWords generateWords : List String}
    (checks : parse checkWords = .ok { flags with command := .check })
    (generates : parse generateWords = .ok { flags with command := .generate }) :
    let shown := (LogFilter.choose flags.verbose environment).render
    let checked := runOn environment checkWords tree
    let generated := runOn environment generateWords tree
    checked.2 = tree ∧
      ((checked.1.exitCode = 1 ∧ generated = checked) ∨
        ∃ summary log,
          (check flags).runFrom ([], tree) = (.ok summary, log, tree) ∧
          summary.counts.map Count.document = Document.all ∧
          checked.1 = ⟨0, shown log ++ summaryText summary, ""⟩ ∧
          ∃ result laterLog,
            (generate flags).runFrom ([], tree) = (result, laterLog, generated.2) ∧
            match result with
            | .ok report =>
                report.documents.map
                    (fun written => (written.document, written.entries.length)) =
                  summary.counts.map (fun count => (count.document, count.candidates)) ∧
                generated.1 = ⟨0, shown laterLog ++ generatedText report, ""⟩
            | .error failure =>
                failure.chain.outermost = "failed to generate syntax documents" ∧
                generated.1 = ⟨1, shown laterLog,
                  "\nError: " ++ failure.chain.render flags.verbose ++ "\n\n"⟩) := by
  intro shown checked generated
  -- Both commands start with the same preparation, which leaves the tree as it is.
  have noted := prepare_readOnly flags ([], tree)
  rcases ready : (prepare flags).runFrom ([], tree) with ⟨outcome, log, state⟩
  rw [ready] at noted
  obtain rfl : state = tree := noted.state
  cases outcome with
  | error failure =>
      have checkEnds : checked = _ :=
        runOn_of_parse checks rfl (Task.runFrom_bind_of_error ready _)
      have generateEnds : generated = _ :=
        runOn_of_parse generates rfl (Task.runFrom_bind_of_error ready _)
      rw [checkEnds, generateEnds]
      exact ⟨rfl, .inl ⟨rfl, rfl⟩⟩
  | ok prepared =>
      have checkRuns : (check flags).runFrom ([], state) = _ :=
        Task.runFrom_bind_of_ok ready _
      have checkEnds : checked = _ := runOn_of_parse checks rfl checkRuns
      obtain ⟨result, ⟨laterLog, last⟩, generateRuns, reported⟩ := runFrom_generate ready
      have generateEnds : generated = _ := runOn_of_parse generates rfl generateRuns
      rw [checkEnds, generateEnds]
      refine ⟨rfl, .inr ⟨_, log, checkRuns, rfl, rfl, result, laterLog, generateRuns, ?_⟩⟩
      cases result with
      | error failure =>
          obtain ⟨cause, rfl⟩ := reported
          exact ⟨rfl, rfl⟩
      | ok report => exact ⟨reported, rfl⟩

/-- A dataset with one candidate can be checked and generated. -/
theorem runOn_check_generate_source :
    let dataset := "\x7b\"types\":\x7b\"tint\":\"<color>\"\x7d\x7d"
    let tree := FileTree.fresh.place "data.json" dataset.toUTF8
    let checked := runOn none ["check", "--source", "data.json"] tree
    let generated := runOn none ["generate", "--source", "data.json"] tree
    checked.2 = tree ∧ checked.1.exitCode = 0 ∧ generated.1.exitCode = 0 := by
  intro dataset tree checked generated
  have compared := @runOn_check_generate
    ⟨.check, some "data.json", none, none, false⟩ tree none
    ["check", "--source", "data.json"] ["generate", "--source", "data.json"] rfl rfl
  have codes : checked.1.exitCode = 0 ∧ generated.1.exitCode = 0 := by decide +kernel
  exact ⟨compared.1, codes⟩

end CommandLine

end GrammarUpgrade
