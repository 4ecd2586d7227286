import GrammarUpgrade.Destination
import GrammarUpgrade.FileTree.Error
import GrammarUpgrade.Rule.RuleSet
import GrammarUpgrade.Toml.Fault

/-!
# Configurations

A configuration says where the dataset is, where the documents go and which rules
are applied.  Without rules of its own it means the usual ones; without a dataset
it cannot be used.
-/

namespace GrammarUpgrade

/-- The settings of a run. -/
structure Config where
  /-- The path of the dataset. -/
  dataset : Option String
  destination : Destination
  /-- The rules as they are written, not yet validated. -/
  rules : List Rule
  deriving DecidableEq, Repr

/-- Why a configuration cannot be read or used. -/
inductive ConfigError where
  | file (path : String) (cause : FileError)
  | text (cause : Toml.Error)
  | rules (cause : RuleError)
  | noDataset
  deriving DecidableEq, Repr, Inhabited

namespace ConfigError

/-- The words of the cause, if there is one. -/
def causeMessage? : ConfigError → Option String
  | .file _ cause => some cause.message
  | .text cause => some cause.report
  | .rules cause => some cause.message
  | .noDataset => none

/-- The words for a configuration that cannot be read or used. -/
def message : ConfigError → String
  | .file path cause => "io error reading " ++ path ++ ": " ++ cause.message
  | .text cause => "invalid configuration: " ++ cause.report
  | .rules cause => "invalid replacement rules: " ++ cause.message
  | .noDataset =>
      "no grammar dataset configured; pass --source or set `source` in the config file"

end ConfigError

namespace Config

/-- The configuration in which nothing is set. -/
def standard : Config :=
  ⟨none, .standard, []⟩

instance : Inhabited Config := ⟨standard⟩

/-- The configuration with another dataset. -/
def withDataset (config : Config) (path : String) : Config :=
  { config with dataset := some path }

/-- The configuration with another output directory and the same file names. -/
def withDirectory (config : Config) (path : String) : Config :=
  { config with destination := { config.destination with directory := path } }

/-- The configuration with other rules. -/
def withRules (config : Config) (rules : List Rule) : Config :=
  { config with rules }

/-- The rules to apply. -/
def usableRules (config : Config) : Except ConfigError RuleSet :=
  if config.rules = [] then .ok .tailwind
  else (RuleSet.ofList config.rules).mapError .rules

/-- The dataset to read. -/
def datasetPath (config : Config) : Except ConfigError String :=
  match config.dataset with
  | some path => .ok path
  | none => .error .noDataset

end Config

end GrammarUpgrade
