import GrammarUpgrade.Config.Basic
import GrammarUpgrade.Dataset.Loading
import GrammarUpgrade.Dataset.Printer
import GrammarUpgrade.Dataset.Upgrade
import GrammarUpgrade.Sink.Basic

/-!
# Generating documents

A dataset is upgraded once and its three sections go to a sink, one document after
the other.  The first failure of the sink ends the generation; otherwise the
report says where each document is and which entries it has.
-/

namespace GrammarUpgrade

/-- The names of the entries of a document. -/
def Dataset.names (dataset : Dataset) : Document → List String
  | .types => dataset.types.keys
  | .properties => dataset.properties.keys
  | .atRules => dataset.atRules.keys

/-- The text of a document. -/
def Dataset.render (dataset : Dataset) : Document → String
  | .types => dataset.types.toValue.documentText
  | .properties => dataset.properties.toValue.documentText
  | .atRules => (AtRule.sectionValue dataset.atRules).documentText

/-- Why documents could not be generated. -/
inductive GenerationError where
  | dataset (cause : DatasetError)
  | config (cause : ConfigError)
  | sink (cause : SinkError)
  deriving DecidableEq, Repr, Inhabited

/-- The words for documents that could not be generated. -/
def GenerationError.message : GenerationError → String
  | .dataset cause => "source error: " ++ cause.message
  | .config cause => "config error: " ++ cause.message
  | .sink cause => "sink error: " ++ cause.message

/-- Where a document was written and what it holds. -/
structure WrittenDocument where
  document : Document
  path : String
  entries : List String
  deriving DecidableEq, Repr, Inhabited

/-- What was written, in order. -/
structure Report where
  documents : List WrittenDocument
  deriving DecidableEq, Repr, Inhabited

namespace Report

/-- The number of entries in all documents. -/
def total (report : Report) : Nat :=
  report.documents.foldr (fun written count => written.entries.length + count) 0

/-- The report of a document. -/
def find? (report : Report) (document : Document) : Option WrittenDocument :=
  report.documents.find? fun written => written.document = document

/-- The paths of the documents. -/
def paths (report : Report) : List String :=
  report.documents.map WrittenDocument.path

end Report

section Generation

variable {m : Type → Type} [Monad m]

/-- Hand a document to a sink.  A failure is logged before it is passed on. -/
def Sink.writeLogged (sink : Sink m) (document : Document) (contents : String) :
    Task m SinkError String :=
  tryCatch (sink.write document contents) fun failure => do
    Task.note .error
      ("Failed to write upgraded " ++ document.name ++ ": " ++ failure.message)
    throw failure

/-- Write a document of an upgraded dataset. -/
def Dataset.writeDocument (upgraded : Dataset) (sink : Sink m) (document : Document) :
    Task m SinkError WrittenDocument := do
  let entries := upgraded.names document
  Task.note .info
    ("Generating upgraded " ++ document.name ++ ": found " ++ toString entries.length ++
      " " ++ document.label ++ " upgrade candidates")
  Task.note .debug (document.name ++ " candidates: " ++ ", ".intercalate entries)
  let path ← sink.writeLogged document (upgraded.render document)
  Task.note .info ("Generated upgraded " ++ document.name ++ ": " ++ path)
  return ⟨document, path, entries⟩

/-- Log the rules that are going to be applied. -/
def RuleSet.announce (rules : RuleSet) : Task m SinkError Unit :=
  rules.rules.forM fun rule =>
    Task.note .debug ("Replacement: " ++ rule.token ++ " → " ++ rule.replacement)

/-- Upgrade a dataset and write its documents to a sink. -/
def Dataset.writeUpgraded (dataset : Dataset) (sink : Sink m) (rules : RuleSet) :
    Task m SinkError Report := do
  rules.announce
  sink.prepare
  let upgraded := dataset.upgrade rules
  let documents ← Document.all.mapM (upgraded.writeDocument sink)
  let report : Report := ⟨documents⟩
  Task.note .info
    ("Generated " ++ toString report.total ++ " upgraded definitions in " ++
      toString report.documents.length ++ " documents")
  return report

/-- Generate the documents of a dataset. -/
def Dataset.generate (dataset : Dataset) (sink : Sink m) (rules : RuleSet) :
    Task m GenerationError Report :=
  (dataset.writeUpgraded sink rules).mapError GenerationError.sink

end Generation

end GrammarUpgrade
