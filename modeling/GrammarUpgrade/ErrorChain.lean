import GrammarUpgrade.Generation
import GrammarUpgrade.Text.Substring

/-!
# Chains of errors

An error is shown with what was being done and with what caused it: a chain of
texts, the outermost first.  The short rendering is one line of texts, from which
those are left out that the text before already contains; the long one lists all
causes.
-/

namespace GrammarUpgrade

/-- The texts of an error and its causes, the outermost first. -/
structure ErrorChain where
  outermost : String
  causes : List String
  deriving DecidableEq, Repr, Inhabited

namespace ErrorChain

/-- An error without causes. -/
def single (text : String) : ErrorChain :=
  ⟨text, []⟩

/-- All texts. -/
def links (chain : ErrorChain) : List String :=
  chain.outermost :: chain.causes

/-- The chain with one more text outside. -/
def within (chain : ErrorChain) (context : String) : ErrorChain :=
  ⟨context, chain.links⟩

/-! ## The short rendering -/

/-- The rendering continued by more texts: `previous` is the text before them, and
`rendered` what has been rendered so far. -/
def extendLine (previous rendered : String) : List String → String
  | [] => rendered
  | text :: rest =>
      if Text.occursIn text.toList previous.toList then extendLine text rendered rest
      else if rendered = "" then extendLine text text rest
      else extendLine text (rendered ++ ": " ++ text) rest

/-- The texts in one line, without those that the text before contains. -/
def oneLine (chain : ErrorChain) : String :=
  extendLine "" "" chain.links

/-! ## The long rendering -/

/-- A text whose lines after the first are indented. -/
def indentLines (columns : Nat) (text : String) : String :=
  String.ofList (text.toList.flatMap fun c =>
    if c = '\n' then '\n' :: List.replicate columns ' ' else [c])

/-- A number in five columns. -/
def inFiveColumns (n : Nat) : String :=
  let digits := toString n
  String.ofList (List.replicate (5 - digits.length) ' ') ++ digits

/-- The causes with their numbers, each on a line of its own. -/
def numberedCauses : Nat → List String → String
  | _, [] => ""
  | number, cause :: rest =>
      "\n" ++ inFiveColumns number ++ ": " ++ indentLines 7 cause ++
        numberedCauses (number + 1) rest

/-- The outermost text and a list of the causes, which are numbered if there are
several. -/
def report (chain : ErrorChain) : String :=
  match chain.causes with
  | [] => chain.outermost
  | [cause] =>
      chain.outermost ++ "\n\nCaused by:\n    " ++ indentLines 4 cause
  | causes => chain.outermost ++ "\n\nCaused by:" ++ numberedCauses 0 causes

/-- An error as it is shown. -/
def render (chain : ErrorChain) (verbose : Bool) : String :=
  if verbose then chain.report else chain.oneLine

end ErrorChain

/-! ## The chains of the library's errors -/

/-- A dataset that could not be loaded, and why. -/
def DatasetError.chain (error : DatasetError) : ErrorChain :=
  ⟨error.message, [error.causeMessage]⟩

/-- A configuration that cannot be read or used, and why. -/
def ConfigError.chain (error : ConfigError) : ErrorChain :=
  ⟨error.message, error.causeMessage?.toList⟩

/-- A sink that failed, and why. -/
def SinkError.chain (error : SinkError) : ErrorChain :=
  ⟨error.message, [error.causeMessage]⟩

/-- Documents that could not be generated, and why. -/
def GenerationError.chain (error : GenerationError) : ErrorChain :=
  match error with
  | .dataset cause => cause.chain.within error.message
  | .config cause => cause.chain.within error.message
  | .sink cause => cause.chain.within error.message

end GrammarUpgrade
