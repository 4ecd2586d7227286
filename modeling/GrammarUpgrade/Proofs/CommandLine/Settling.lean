import GrammarUpgrade.Proofs.CommandLine.Checking
import GrammarUpgrade.Proofs.FileTree.Reading
import GrammarUpgrade.Proofs.Task.Alike
import GrammarUpgrade.Proofs.Task.Failing

/-!
# Settling before reading

Before a command looks at its dataset it settles the configuration, the rules and the path
of the dataset, in this order.  So what can fail until then depends on the configuration
file alone; the main statement is `prepare_settles_first`.
-/

namespace GrammarUpgrade

variable {first second tree : FileTree} {path : String}

theorem apply_readText (path : String) (tree : FileTree) :
    (MonadFiles.readText path : StateM FileTree _) tree = (tree.readText path, tree) :=
  rfl

/-- Loading a configuration depends on what its file reads as. -/
theorem Config.load_runsAlike (same : first.readText path = second.readText path) :
    Task.RunsAlike first second (Config.load path : Task (StateM FileTree) _ _) := by
  have onSecond := apply_readText path second
  rw [← same] at onSecond
  apply Task.RunsAlike.bind
  · exact (Task.RunsAlike.ofOutcome (apply_readText path first) onSecond).mapError _
  intro text
  cases Config.ofText text with
  | error failure => exact .throw _
  | ok config => exact (Task.RunsAlike.write _).bind fun _ => .pure _

namespace CommandLine

variable {flags : Arguments}

/-! ## The configuration file -/

/-- The path at which a configuration file is looked for. -/
def configFile (flags : Arguments) : String :=
  flags.config.getD defaultConfigPath

/-- The configuration file looks the same in two trees: it is absent from both, or it reads
identically in both. -/
def SameConfig (flags : Arguments) (first second : FileTree) : Prop :=
  (first.isPresent (configFile flags) = false ∧
      second.isPresent (configFile flags) = false) ∨
    first.readText (configFile flags) = second.readText (configFile flags)

/-- The path of the file that is loaded, if one is.  A file that is named is loaded whether
it is there or not. -/
def loadedPath? (flags : Arguments) (tree : FileTree) : Option String :=
  if flags.config.isSome ∨ tree.isPresent (configFile flags) then some (configFile flags)
  else none

theorem configFile_of_config (named : flags.config = some path) : configFile flags = path := by
  rw [configFile, named, Option.getD_some]

theorem eq_configFile_of_loadedPath? (loaded : loadedPath? flags tree = some path) :
    path = configFile flags := by
  rw [loadedPath?] at loaded
  split at loaded
  · cases loaded
    rfl
  · cases loaded

theorem loadedPath?_of_config (named : flags.config = some path) :
    loadedPath? flags tree = some path := by
  have isNamed : flags.config.isSome := by rw [named]; rfl
  rw [loadedPath?, if_pos (.inl isNamed), configFile_of_config named]

theorem loadedPath?_of_absent (unnamed : flags.config = none)
    (absent : tree.isPresent (configFile flags) = false) : loadedPath? flags tree = none := by
  rw [loadedPath?, unnamed, absent]
  rfl

theorem loadedPath?_congr
    (same : first.readText (configFile flags) = second.readText (configFile flags)) :
    loadedPath? flags first = loadedPath? flags second := by
  rw [loadedPath?, loadedPath?, FileTree.isPresent_congr same]

theorem runFrom_configPath (flags : Arguments) (log : Log) (tree : FileTree) :
    (configPath flags).runFrom (log, tree) = (.ok (loadedPath? flags tree), log, tree) := by
  rw [configPath]
  cases named : flags.config with
  | some path =>
      rw [loadedPath?_of_config named]
      rfl
  | none =>
      have looked : (liftM (MonadFiles.isPresent defaultConfigPath : StateM FileTree Bool) :
            Task (StateM FileTree) CommandError Bool).runFrom (log, tree) =
          (.ok (tree.isPresent defaultConfigPath), log, tree) := rfl
      rw [loadedPath?, configFile, named, Option.getD_none]
      refine (Task.runFrom_bind_of_ok looked _).trans ?_
      cases tree.isPresent defaultConfigPath <;> rfl

/-! ## Settling -/

/-- Settling the configuration leaves the tree as it is. -/
theorem runFrom_settleConfig_of_ok {log later : Log} {config : Config}
    (settled : ((settleConfig flags : Task (StateM FileTree) _ _).runFrom (log, tree)).map id
      Prod.fst = (.ok config, later)) :
    (settleConfig flags).runFrom (log, tree) = (.ok config, later, tree) := by
  obtain ⟨outcome, logged⟩ := Prod.mk.inj settled
  exact Prod.ext outcome (Prod.ext logged (settleConfig_readOnly flags (log, tree)).state)

/-- The configuration, the rules and the path of the dataset: what is settled before the
dataset is looked at. -/
def settle (flags : Arguments) :
    Task (StateM FileTree) CommandError (Config × RuleSet × String) := do
  let config ← settleConfig flags
  let rules ← Task.ofExcept (config.usableRules.mapError .config)
  let path ← Task.ofExcept (config.datasetPath.mapError .config)
  return (config, rules, path)

/-- Load the dataset, now that everything else is settled. -/
def loadSettled : Config × RuleSet × String → Task (StateM FileTree) CommandError Prepared
  | (config, rules, path) => do
      Task.write ⟨.info, .commandLine,
        "Using " ++ toString rules.size ++ " replacement rules on " ++ path⟩
      let dataset ← (Dataset.load path).mapError CommandError.dataset
      return ⟨config, rules, dataset⟩

theorem prepare_eq (flags : Arguments) : prepare flags = settle flags >>= loadSettled := by
  simp only [prepare, settle, loadSettled, bind_assoc, pure_bind]

/-- Failures that come before the dataset is looked at. -/
def Early : CommandError → Prop
  | .loading _ _ | .config _ => True
  | .dataset _ | .generation _ => False

theorem settleConfig_failsWith (flags : Arguments) :
    Task.FailsWith Early (settleConfig flags : Task (StateM FileTree) _ _) := by
  apply Task.FailsWith.bind
  · rintro ⟨log, tree⟩ failure later ran
    rw [runFrom_configPath] at ran
    cases ran
  intro path?
  cases path? with
  | none => exact .pure _
  | some path =>
      apply Task.FailsWith.bind
      · exact .mapError _ fun _ => trivial
      · exact fun _ => .pure _

theorem settle_failsWith (flags : Arguments) : Task.FailsWith Early (settle flags) := by
  apply (settleConfig_failsWith flags).bind
  intro config
  apply Task.FailsWith.bind
  · exact .ofExcept _ fun _ => trivial
  intro rules
  apply Task.FailsWith.bind
  · exact .ofExcept _ fun _ => trivial
  · exact fun _ => .pure _

theorem loadSettled_failsWith (settled : Config × RuleSet × String) :
    Task.FailsWith (fun failure => ¬ Early failure) (loadSettled settled) := by
  apply Task.FailsWith.bind
  · exact .write _
  intro _
  apply Task.FailsWith.bind
  · exact .mapError _ fun _ => not_false
  · exact fun _ => .pure _

/-- A command fails early exactly if settling fails. -/
theorem runFrom_prepare_early_iff {stage later : Stage FileTree} {failure : CommandError} :
    ((prepare flags).runFrom stage = (.error failure, later) ∧ Early failure) ↔
      (settle flags).runFrom stage = (.error failure, later) := by
  rw [prepare_eq]
  constructor
  · rintro ⟨ran, early⟩
    rcases settled : (settle flags).runFrom stage with ⟨outcome, middle⟩
    cases outcome with
    | error cause =>
        rw [Task.runFrom_bind_of_error settled] at ran
        cases ran
        rfl
    | ok value =>
        rw [Task.runFrom_bind_of_ok settled] at ran
        exact absurd early (loadSettled_failsWith value middle failure later ran)
  · intro ran
    exact ⟨Task.runFrom_bind_of_error ran _, settle_failsWith flags stage failure later ran⟩

/-- A named file that cannot be read ends the settling of the configuration. -/
theorem runFrom_settleConfig_unreadable {cause : FileError} (named : flags.config = some path)
    (unreadable : tree.readText path = .error cause) (log : Log) :
    (settleConfig flags).runFrom (log, tree) =
      (.error (.loading path (.file path cause)), log, tree) := by
  have loading : (Config.load path : Task (StateM FileTree) _ _).runFrom (log, tree) =
      (.error (.file path cause), log, tree) := by
    apply Task.runFrom_bind_of_error
    rw [Task.runFrom_mapError, Task.runFrom_ofOutcome, apply_readText, unreadable]
    rfl
  rw [settleConfig, Task.runFrom_bind_of_ok (runFrom_configPath flags log tree),
    loadedPath?_of_config named]
  apply Task.runFrom_bind_of_error
  rw [Task.runFrom_mapError, loading]
  rfl

/-- A named file that cannot be read ends the settling. -/
theorem runFrom_settle_unreadable {cause : FileError} (named : flags.config = some path)
    (unreadable : tree.readText path = .error cause) (log : Log) :
    (settle flags).runFrom (log, tree) =
      (.error (.loading path (.file path cause)), log, tree) :=
  Task.runFrom_bind_of_error (runFrom_settleConfig_unreadable named unreadable log) _

/-- Invalid rules end the settling, with or without a dataset. -/
theorem runFrom_settle_unusable {stage later : Stage FileTree} {config : Config}
    {cause : ConfigError} (settled : (settleConfig flags).runFrom stage = (.ok config, later))
    (unusable : config.usableRules = .error cause) :
    (settle flags).runFrom stage = (.error (.config cause), later) := by
  rw [settle, Task.runFrom_bind_of_ok settled, unusable]
  rfl

/-! ## Two trees -/

theorem settleConfig_runsAlike (loads : loadedPath? flags first = loadedPath? flags second)
    (reads : ∀ path, loadedPath? flags first = some path →
      first.readText path = second.readText path) :
    Task.RunsAlike first second (settleConfig flags) := by
  -- The trees are looked at for a path first, so what follows is compared for that path.
  intro log
  rw [settleConfig, Task.runFrom_bind_of_ok (runFrom_configPath flags log first),
    Task.runFrom_bind_of_ok (runFrom_configPath flags log second), ← loads]
  cases loaded : loadedPath? flags first with
  | none => exact Task.RunsAlike.pure _ log
  | some path =>
      have loadsAlike := (Config.load_runsAlike (reads path loaded)).mapError
        (CommandError.loading path)
      exact loadsAlike.bind (fun _ => .pure _) log

theorem settle_runsAlike (loads : loadedPath? flags first = loadedPath? flags second)
    (reads : ∀ path, loadedPath? flags first = some path →
      first.readText path = second.readText path) :
    Task.RunsAlike first second (settle flags) := by
  apply (settleConfig_runsAlike loads reads).bind
  intro config
  apply (Task.RunsAlike.ofExcept _).bind
  intro rules
  apply (Task.RunsAlike.ofExcept _).bind
  exact fun _ => .pure _

theorem settle_runsAlike_of_reads
    (reads : first.readText (configFile flags) = second.readText (configFile flags)) :
    Task.RunsAlike first second (settle flags) := by
  apply settle_runsAlike (loadedPath?_congr reads)
  intro path loaded
  rw [eq_configFile_of_loadedPath? loaded]
  exact reads

theorem settle_runsAlike_of_absent (unnamed : flags.config = none)
    (absentFirst : first.isPresent (configFile flags) = false)
    (absentSecond : second.isPresent (configFile flags) = false) :
    Task.RunsAlike first second (settle flags) := by
  have nothing := loadedPath?_of_absent unnamed absentFirst
  apply settle_runsAlike
  · rw [nothing, loadedPath?_of_absent unnamed absentSecond]
  · intro path loaded
    rw [nothing] at loaded
    cases loaded

/-- The file that is named is absent from both trees, from each for a reason of its own. -/
structure AbsentApart (flags : Arguments) (first second : FileTree) (path : String)
    (cause otherCause : FileError) : Prop where
  named : flags.config = some path
  absent : first.isPresent path = false ∧ second.isPresent path = false
  unread : first.readText path = .error cause
  otherUnread : second.readText path = .error otherCause
  differ : cause ≠ otherCause

theorem SameConfig.runsAlike_or_absentApart (same : SameConfig flags first second) :
    Task.RunsAlike first second (settle flags) ∨
      ∃ path cause otherCause, AbsentApart flags first second path cause otherCause := by
  rcases same with absent | reads
  · cases named : flags.config with
    | none => exact .inl (settle_runsAlike_of_absent named absent.1 absent.2)
    | some path =>
        rcases FileTree.readText_of_not_isPresent absent.1 with ⟨cause, unread⟩
        rcases FileTree.readText_of_not_isPresent absent.2 with ⟨otherCause, otherUnread⟩
        by_cases agree : cause = otherCause
        · subst agree
          exact .inl (settle_runsAlike_of_reads (unread.trans otherUnread.symm))
        · rw [configFile_of_config named] at absent unread otherUnread
          exact .inr ⟨path, cause, otherCause, named, absent, unread, otherUnread, agree⟩
  · exact .inl (settle_runsAlike_of_reads reads)

/-- What a command fails with before it looks at its dataset depends on the configuration
file alone.  On two trees in which that file looks the same it fails alike, but for the
reason why a file that is named cannot be read from where it is absent.  Rules that cannot
be used are what it fails with, whether or not there is a dataset. -/
theorem prepare_settles_first (flags : Arguments) :
    (∀ first second, SameConfig flags first second →
      ∀ log failure later last,
        (prepare flags).runFrom (log, first) = (.error failure, later, last) →
        Early failure →
          ∃ other, (prepare flags).runFrom (log, second) = (.error other, later, second) ∧
            (other = failure ∨
              ∃ path cause otherCause,
                AbsentApart flags first second path cause otherCause ∧
                failure = .loading path (.file path cause) ∧
                other = .loading path (.file path otherCause))) ∧
      ∀ tree log config later cause,
        (settleConfig flags : Task (StateM FileTree) _ _).runFrom (log, tree) =
          (.ok config, later, tree) →
        config.rules ≠ [] → RuleSet.ofList config.rules = .error cause →
          (prepare flags).runFrom (log, tree) =
            (.error (.config (.rules cause)), later, tree) := by
  constructor
  · intro first second same log failure later last ran early
    -- The early failures are those of settling, which has been compared as a whole.
    have settled := runFrom_prepare_early_iff.mp ⟨ran, early⟩
    rcases same.runsAlike_or_absentApart with alike | ⟨path, cause, otherCause, apart⟩
    · rcases alike log with ⟨outcome, ended, onFirst, onSecond⟩
      rw [settled] at onFirst
      cases onFirst
      exact ⟨failure, (runFrom_prepare_early_iff.mpr onSecond).1, .inl rfl⟩
    · have onSecond := runFrom_settle_unreadable apart.named apart.otherUnread log
      rw [runFrom_settle_unreadable apart.named apart.unread] at settled
      cases settled
      exact ⟨_, (runFrom_prepare_early_iff.mpr onSecond).1,
        .inr ⟨path, cause, otherCause, apart, rfl, rfl⟩⟩
  · intro tree log config later cause settled given invalid
    have unusable : config.usableRules = .error (.rules cause) := by
      rw [Config.usableRules, if_neg given, invalid]
      rfl
    exact (runFrom_prepare_early_iff.mpr (runFrom_settle_unusable settled unusable)).1

/-- A rule whose token is no placeholder is reported whether the dataset is absent or is
no dataset, and also if none is given. -/
theorem prepare_settles_first_rule :
    let text := "[[rules]]\ntoken = \"color\"\nreplacement = \"tint\"\n"
    let first := FileTree.fresh.place "css-syntax.toml" text.toUTF8
    let second := first.place "data.json" "[".toUTF8
    let given : Arguments := ⟨.check, some "data.json", none, none, false⟩
    let bare : Arguments := ⟨.check, none, none, none, false⟩
    let failure := CommandError.config (.rules (.tokenShape "color"))
    let log : Log := [⟨.debug, .generator, "Loaded configuration from css-syntax.toml"⟩]
    (prepare given).runFrom ([], first) = (.error failure, log, first) ∧
      (prepare given).runFrom ([], second) = (.error failure, log, second) ∧
      (prepare bare).runFrom ([], first) = (.error failure, log, first) := by
  intro text first second given bare failure log
  let rules : List Rule := [⟨"color", "tint"⟩]
  have settledGiven := @runFrom_settleConfig_of_ok first given [] log
    ⟨some "data.json", .standard, rules⟩ (by decide +kernel)
  have settledBare := @runFrom_settleConfig_of_ok first bare [] log
    ⟨none, .standard, rules⟩ (by decide +kernel)
  have invalid : RuleSet.ofList rules = .error (.tokenShape "color") := rfl
  have onFirst := (prepare_settles_first given).2 first [] _ log _ settledGiven nofun invalid
  have reads : first.readText "css-syntax.toml" = second.readText "css-syntax.toml" := by
    decide +kernel
  obtain ⟨other, onSecond, alike⟩ :=
    (prepare_settles_first given).1 first second (.inr reads) [] _ _ _ onFirst trivial
  have same : other = failure := by
    rcases alike with same | ⟨path, cause, otherCause, apart, _⟩
    · exact same
    · cases apart.named
  rw [same] at onSecond
  have onBare := (prepare_settles_first bare).2 first [] _ log _ settledBare nofun invalid
  exact ⟨onFirst, onSecond, onBare⟩

/-- What is named below a file is absent as it was before that file was there, and the two
failures read differently. -/
theorem exists_absent_reported_differently :
    let flags : Arguments := ⟨.check, none, some "syntax/types.json/c.toml", none, false⟩
    let first := FileTree.fresh.place "data.json" "\x7b\x7d".toUTF8
    let second := first.place "syntax/types.json" "\x7b\x7d\n".toUTF8
    parse ["check", "--config", "syntax/types.json/c.toml"] = .ok flags ∧
      SameConfig flags first second ∧
      ∃ failure other,
        (prepare flags).runFrom ([], first) = (.error failure, [], first) ∧ Early failure ∧
        (prepare flags).runFrom ([], second) = (.error other, [], second) ∧
        other.chain.render flags.verbose ≠ failure.chain.render flags.verbose := by
  intro flags first second
  have unread : first.readText "syntax/types.json/c.toml" = .error .notFound := by
    decide +kernel
  have otherUnread : second.readText "syntax/types.json/c.toml" = .error .notADirectory := by
    decide +kernel
  have onFirst :=
    runFrom_prepare_early_iff.mpr (@runFrom_settle_unreadable _ _ flags _ rfl unread [])
  have onSecond :=
    runFrom_prepare_early_iff.mpr (@runFrom_settle_unreadable _ _ flags _ rfl otherUnread [])
  exact ⟨by decide +kernel, .inl (by decide +kernel), _, _, onFirst.1, trivial, onSecond.1,
    by decide +kernel⟩

end CommandLine

end GrammarUpgrade
