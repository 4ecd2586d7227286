import GrammarUpgrade.CommandLine.Arguments
import GrammarUpgrade.Config.Loading
import GrammarUpgrade.ErrorChain
import GrammarUpgrade.Generation
import GrammarUpgrade.Sink.Directory

/-!
# The commands

Both commands settle the configuration first, then the rules, then the dataset.
`generate` writes the documents of the upgraded dataset to the configured
directory; `check` counts them and writes nothing.
-/

namespace GrammarUpgrade.CommandLine

/-- Why a command failed. -/
inductive CommandError where
  /-- The configuration file could not be loaded. -/
  | loading (path : String) (cause : ConfigError)
  /-- The configuration cannot be used. -/
  | config (cause : ConfigError)
  | dataset (cause : DatasetError)
  | generation (cause : GenerationError)
  deriving DecidableEq, Repr, Inhabited

/-- What was being done when a command failed, and what caused it. -/
def CommandError.chain : CommandError → ErrorChain
  | .loading path cause =>
      cause.chain.within ("failed to load configuration from " ++ path)
  | .config cause => cause.chain
  | .dataset cause => cause.chain.within "failed to load grammar dataset"
  | .generation cause => cause.chain.within "failed to generate syntax documents"

/-- The configuration file that is used when none is named. -/
def defaultConfigPath : String :=
  "css-syntax.toml"

/-- What a command works on. -/
structure Prepared where
  config : Config
  rules : RuleSet
  dataset : Dataset

section Commands

variable {m : Type → Type} [Monad m] [MonadFiles m]

/-- The path of the configuration file: the one named, or the default one if it is
there. -/
def configPath (arguments : Arguments) : Task m CommandError (Option String) :=
  match arguments.config with
  | some path => return some path
  | none => do
      if ← (MonadFiles.isPresent defaultConfigPath : m Bool) then
        return some defaultConfigPath
      else return none

/-- The configuration with what the arguments say. -/
def override (arguments : Arguments) (config : Config) : Config :=
  let sourced := (arguments.source.map config.withDataset).getD config
  (arguments.outDir.map sourced.withDirectory).getD sourced

/-- The configuration of a run. -/
def settleConfig (arguments : Arguments) : Task m CommandError Config := do
  match ← configPath arguments with
  | none => return override arguments .standard
  | some path =>
      let config ← (Config.load path).mapError (CommandError.loading path)
      return override arguments config

/-- What a command works on.  The rules and the path of the dataset are settled
before the dataset is read. -/
def prepare (arguments : Arguments) : Task m CommandError Prepared := do
  let config ← settleConfig arguments
  let rules ← Task.ofExcept (config.usableRules.mapError .config)
  let path ← Task.ofExcept (config.datasetPath.mapError .config)
  Task.write ⟨.info, .commandLine,
    "Using " ++ toString rules.size ++ " replacement rules on " ++ path⟩
  let dataset ← (Dataset.load path).mapError CommandError.dataset
  return ⟨config, rules, dataset⟩

/-- A number in five columns, to the right. -/
def padLeft (n : Nat) : String :=
  ErrorChain.inFiveColumns n

/-- A name in eleven columns, to the left. -/
def padRight (name : String) : String :=
  name ++ String.ofList (List.replicate (11 - name.length) ' ')

/-- What `generate` says in the end. -/
def generatedText (report : Report) : String :=
  let line (written : WrittenDocument) : String :=
    "  " ++ padRight written.document.name ++ " " ++ padLeft written.entries.length ++
      " entries → " ++ written.path ++ "\n"
  "\nGenerated successfully\n" ++ String.join (report.documents.map line)

/-- Upgrade the dataset and write its documents. -/
def generate (arguments : Arguments) : Task m CommandError Report := do
  let prepared ← prepare arguments
  (prepared.dataset.generate (Sink.directory prepared.config.destination)
    prepared.rules).mapError CommandError.generation

/-- The candidates of a document among its definitions. -/
structure Count where
  document : Document
  candidates : Nat
  definitions : Nat
  deriving DecidableEq, Repr

/-- What `check` finds out. -/
structure Summary where
  rules : Nat
  counts : List Count
  deriving DecidableEq, Repr

/-- What `check` says in the end. -/
def summaryText (summary : Summary) : String :=
  let line (count : Count) : String :=
    "  " ++ padRight count.document.name ++ " " ++ padLeft count.candidates ++ " of " ++
      padLeft count.definitions ++ "\n"
  "Configuration OK (" ++ toString summary.rules ++ " rules)\n" ++
    String.join (summary.counts.map line)

/-- Upgrade the dataset and count. -/
def check (arguments : Arguments) : Task m CommandError Summary := do
  let prepared ← prepare arguments
  let upgraded := prepared.dataset.upgrade prepared.rules
  let count (document : Document) : Count :=
    ⟨document, (upgraded.names document).length, (prepared.dataset.names document).length⟩
  return ⟨prepared.rules.size, Document.all.map count⟩

/-- Carry out a command; the result is what it says in the end. -/
def carryOut (arguments : Arguments) : Task m CommandError String :=
  match arguments.command with
  | .generate => return generatedText (← generate arguments)
  | .check => return summaryText (← check arguments)

end Commands

end GrammarUpgrade.CommandLine
