import GrammarUpgrade.Main
import GrammarUpgrade.Proofs.CommandLine.Settling
import GrammarUpgrade.Proofs.Dataset.Changed
import GrammarUpgrade.Proofs.Dataset.Passes
import GrammarUpgrade.Proofs.Dataset.ReadBack
import GrammarUpgrade.Proofs.Dataset.RuleOrder
import GrammarUpgrade.Proofs.Grammar.Decomposition
import GrammarUpgrade.Proofs.Rule.Exhaustion
import GrammarUpgrade.Proofs.Rule.FirstFault
import GrammarUpgrade.Proofs.Sink.Store
import GrammarUpgrade.Proofs.ErrorLine
import GrammarUpgrade.Proofs.Json.Spelling
import GrammarUpgrade.Proofs.Rule.Nameable
import GrammarUpgrade.Proofs.Json.Notation
import GrammarUpgrade.Proofs.Json.Skipping
import GrammarUpgrade.Proofs.Json.Decoding
import GrammarUpgrade.Proofs.Json.Unambiguous
import GrammarUpgrade.Proofs.Dictionary.Gathering
import GrammarUpgrade.Proofs.Json.Elements
import GrammarUpgrade.Proofs.Json.Members
import GrammarUpgrade.Proofs.Json.Meaning
import GrammarUpgrade.Proofs.Dataset.Fields
import GrammarUpgrade.Proofs.Dataset.Notation
import GrammarUpgrade.Proofs.Dataset.Sections
import GrammarUpgrade.Proofs.Dataset.Repeated
import GrammarUpgrade.Proofs.Dataset.Truncation
import GrammarUpgrade.Proofs.Dataset.Lines
import GrammarUpgrade.Proofs.Sink.Remembered
import GrammarUpgrade.Proofs.FileTree.Creating
import GrammarUpgrade.Proofs.FileTree.Joining
import GrammarUpgrade.Proofs.Sink.Prepared
import GrammarUpgrade.Proofs.CommandLine.Spelling
import GrammarUpgrade.Proofs.CommandLine.Layers
import GrammarUpgrade.Proofs.Config.Documents
