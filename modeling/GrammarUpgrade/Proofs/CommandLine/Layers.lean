import GrammarUpgrade.Proofs.CommandLine.Settling
import GrammarUpgrade.Proofs.FileTree.Waypoints

/-!
# Layers of settings

The settings of a run come from its flags, from a file that is named and from the file that is
looked for when none is named.  Flags are laid over what the file says, and a file that is
named leaves the other one without a part, unless it is reached through that one.  The main
statement is `settleConfig_layers`.
-/

namespace GrammarUpgrade

open FileTree (SameApart)

/-- The location of the configuration file that is looked for when none is named. -/
def FileTree.defaultPlace (tree : FileTree) : Location :=
  tree.workingDirectory ++ [CommandLine.defaultConfigPath]

/-- Paths start above the file that is looked for. -/
theorem FileTree.not_defaultPlace_prefix_start (tree : FileTree) (path : String) :
    ¬ tree.defaultPlace <+: tree.start path := by
  intro below
  have longer := below.length_le
  rw [defaultPlace, start, List.length_append, List.length_singleton] at longer
  split at longer
  · exact absurd longer (Nat.not_succ_le_zero _)
  · exact absurd longer (Nat.not_succ_le_self _)

namespace CommandLine

variable {flags : Arguments} {tree first second : FileTree} {path : String}

/-- The flags without those that stand for settings. -/
def Arguments.withoutSettings (flags : Arguments) : Arguments :=
  { flags with source := none, outDir := none }

/-- What flags set, and what they leave as it is. -/
theorem override_eq (flags : Arguments) (config : Config) :
    override flags config =
      { config with
        dataset := flags.source <|> config.dataset
        destination :=
          { config.destination with
            directory := flags.outDir.getD config.destination.directory } } := by
  obtain ⟨command, source, named, outDir, verbose⟩ := flags
  cases source <;> cases outDir <;> rfl

/-- The configuration of a file, or the standard one if there is no file to load. -/
def loadBase (path? : Option String) : Task (StateM FileTree) CommandError Config :=
  match path? with
  | none => return .standard
  | some path => (Config.load path).mapError (CommandError.loading path)

/-- Settling loads what there is to load and lays the flags over it. -/
theorem runFrom_settleConfig (flags : Arguments) (log : Log) (tree : FileTree) :
    let base := (loadBase (loadedPath? flags tree)).runFrom (log, tree)
    (settleConfig flags).runFrom (log, tree) = (base.1.map (override flags), base.2) := by
  intro base
  have sought : (settleConfig flags).runFrom (log, tree) = _ :=
    Task.runFrom_bind_of_ok (runFrom_configPath flags log tree) _
  rw [sought]
  cases loaded : loadedPath? flags tree with
  | none => simp [base, loaded, loadBase, Except.map]
  | some path =>
      have run : ((Config.load path).mapError (CommandError.loading path)).runFrom (log, tree) =
          base := by
        simp only [base, loaded, loadBase]
      simp only [Task.runFrom_bind, run]
      rcases base with ⟨outcome, later⟩
      cases outcome <;> rfl

/-- Settling lays the flags over what is settled without them. -/
theorem runFrom_settleConfig_withoutSettings (flags : Arguments) (log : Log) (tree : FileTree) :
    let bare := (settleConfig flags.withoutSettings).runFrom (log, tree)
    (settleConfig flags).runFrom (log, tree) = (bare.1.map (override flags), bare.2) := by
  intro bare
  have settled : bare = _ := runFrom_settleConfig flags.withoutSettings log tree
  have same : loadedPath? flags.withoutSettings tree = loadedPath? flags tree := rfl
  rw [runFrom_settleConfig, settled, same]
  cases ((loadBase (loadedPath? flags tree)).runFrom (log, tree)).1 <;> rfl

/-- Without a named file, the other one is loaded as if it were named, if it is there. -/
theorem runFrom_settleConfig_unnamed (unnamed : flags.config = none) (log : Log)
    (tree : FileTree) :
    (settleConfig flags).runFrom (log, tree) =
      if tree.isPresent defaultConfigPath then
        (settleConfig { flags with config := some defaultConfigPath }).runFrom (log, tree)
      else (.ok (override flags .standard), log, tree) := by
  have file : configFile flags = defaultConfigPath := by
    rw [configFile, unnamed, Option.getD_none]
  rw [runFrom_settleConfig]
  by_cases isPresent : tree.isPresent defaultConfigPath = true
  · have loaded : loadedPath? flags tree = some defaultConfigPath := by
      rw [loadedPath?, file, if_pos (.inr isPresent)]
    let named : Arguments := { flags with config := some defaultConfigPath }
    have same : loadedPath? named tree = some defaultConfigPath := loadedPath?_of_config rfl
    rw [if_pos isPresent, runFrom_settleConfig named, same, loaded]
    rfl
  · have absent : tree.isPresent (configFile flags) = false := by
      rw [file, Bool.eq_false_iff]
      exact isPresent
    rw [if_neg isPresent, loadedPath?_of_absent unnamed absent]
    rfl

/-- A named file is loaded alike in trees in which it reads alike. -/
theorem settleConfig_runsAlike_of_config (named : flags.config = some path)
    (reads : first.readText path = second.readText path) :
    Task.RunsAlike first second (settleConfig flags) := by
  have loads : loadedPath? flags first = some path := loadedPath?_of_config named
  apply settleConfig_runsAlike (loads.trans (loadedPath?_of_config named).symm)
  intro other loaded
  rw [loads] at loaded
  cases loaded
  exact reads

/-- Flags are laid over what is settled without them, and set the dataset and the directory
alone.  If a file is named, it does not matter what is at the place of the other one unless
the path of the file touches that place; if it does and no directory is there, the path names
what is there or cannot be read.  A named file must be there.  If none is named, the other one
is loaded as if it were named, and if that is not there the standard settings are used. -/
theorem settleConfig_layers (flags : Arguments) :
    (∀ (log : Log) (tree : FileTree),
        let bare := (settleConfig flags.withoutSettings).runFrom (log, tree)
        (settleConfig flags).runFrom (log, tree) = (bare.1.map (override flags), bare.2)) ∧
      (∀ config, override flags config =
        { config with
          dataset := flags.source <|> config.dataset
          destination :=
            { config.destination with
              directory := flags.outDir.getD config.destination.directory } }) ∧
      (∀ path, flags.config = some path →
        (∀ first second : FileTree, SameApart first.defaultPlace first second →
          first.defaultPlace ∉ first.waypointsOf path →
            Task.RunsAlike first second (settleConfig flags)) ∧
        (∀ (log : Log) (tree : FileTree), tree.lookup tree.defaultPlace ≠ some .directory →
          tree.defaultPlace ∈ tree.waypointsOf path →
            tree.resolve path = .ok tree.defaultPlace ∨ ∃ cause,
              (settleConfig flags).runFrom (log, tree) =
                (.error (.loading path (.file path cause)), log, tree)) ∧
        ∀ (log : Log) (tree : FileTree), tree.isPresent path = false → ∃ cause,
          (settleConfig flags).runFrom (log, tree) =
            (.error (.loading path (.file path cause)), log, tree)) ∧
      (flags.config = none → ∀ (log : Log) (tree : FileTree),
        (settleConfig flags).runFrom (log, tree) =
          if tree.isPresent defaultConfigPath then
            (settleConfig { flags with config := some defaultConfigPath }).runFrom (log, tree)
          else (.ok (override flags .standard), log, tree)) := by
  refine ⟨runFrom_settleConfig_withoutSettings flags, override_eq flags, ?_,
    runFrom_settleConfig_unnamed⟩
  intro path named
  refine ⟨?_, ?_, ?_⟩
  · intro first second same avoided
    have above := first.not_defaultPlace_prefix_start path
    exact settleConfig_runsAlike_of_config named (same.readText_eq above avoided)
  · intro log tree blocked touched
    rcases FileTree.exists_readText_of_mem_waypoints blocked touched with led | ⟨cause, unread⟩
    · exact .inl led
    · exact .inr ⟨cause, runFrom_settleConfig_unreadable named unread log⟩
  · intro log tree absent
    obtain ⟨cause, unread⟩ := FileTree.readText_of_not_isPresent absent
    exact ⟨cause, runFrom_settleConfig_unreadable named unread log⟩

/-- A file that is named is laid under the flags, whether or not the other one is there. -/
theorem settleConfig_layers_named :
    let flags : Arguments := ⟨.check, some "s.json", some "c.toml", some "out", false⟩
    let text := "source = \"d.json\"\n[output]\ndir = \"d\"\ntypes = \"t.json\"\n"
    let first := FileTree.fresh.place "c.toml" text.toUTF8
    let second := first.set first.defaultPlace (.file "source".toUTF8)
    let log : Log := [⟨.debug, .generator, "Loaded configuration from c.toml"⟩]
    let config : Config :=
      ⟨some "s.json", ⟨"out", "t.json", "properties.json", "at-rules.json"⟩, []⟩
    flags.config = some "c.toml" ∧ SameApart first.defaultPlace first second ∧
      first.defaultPlace ∉ first.waypointsOf "c.toml" ∧
      (settleConfig flags).runFrom ([], first) = (.ok config, log, first) ∧
      (settleConfig flags).runFrom ([], second) = (.ok config, log, second) := by
  intro flags text first second log config
  have apart : SameApart first.defaultPlace first second :=
    FileTree.sameApart_set first first.defaultPlace _
  have avoided : first.defaultPlace ∉ first.waypointsOf "c.toml" := by decide +kernel
  have settled := @runFrom_settleConfig_of_ok first flags [] log config (by decide +kernel)
  have alike := ((settleConfig_layers flags).2.2.1 "c.toml" rfl).1 first second apart avoided
  obtain ⟨outcome, later, onFirst, onSecond⟩ := alike []
  rw [settled] at onFirst
  cases onFirst
  exact ⟨rfl, apart, avoided, settled, onSecond⟩

/-- A path that goes on from the place of the other file is reported differently as soon as
there is a file at that place, though neither path leads to that file. -/
theorem exists_reported_apart :
    let flags : Arguments := ⟨.check, none, some "css-syntax.toml/c.toml", none, false⟩
    let first := FileTree.fresh
    let second := first.set first.defaultPlace (.file "".toUTF8)
    parse ["check", "--config", "css-syntax.toml/c.toml"] = .ok flags ∧
      SameApart first.defaultPlace first second ∧
      first.resolve "css-syntax.toml/c.toml" ≠ .ok first.defaultPlace ∧
      second.resolve "css-syntax.toml/c.toml" ≠ .ok second.defaultPlace ∧
      ∃ failure other,
        (settleConfig flags).runFrom ([], first) = (.error failure, [], first) ∧
        (settleConfig flags).runFrom ([], second) = (.error other, [], second) ∧
        other.chain.render flags.verbose ≠ failure.chain.render flags.verbose := by
  intro flags first second
  have apart : SameApart first.defaultPlace first second :=
    FileTree.sameApart_set first first.defaultPlace _
  have unread : first.readText "css-syntax.toml/c.toml" = .error .notFound := by
    decide +kernel
  have otherUnread : second.readText "css-syntax.toml/c.toml" = .error .notADirectory := by
    decide +kernel
  have onFirst := @runFrom_settleConfig_unreadable first _ flags _ rfl unread []
  have onSecond := @runFrom_settleConfig_unreadable second _ flags _ rfl otherUnread []
  exact ⟨by decide +kernel, apart, by decide +kernel, by decide +kernel, _, _, onFirst, onSecond,
    by decide +kernel⟩

end CommandLine

end GrammarUpgrade
