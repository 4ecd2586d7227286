import GrammarUpgrade.Log

/-!
# Which log lines are shown

A filter is a list of directives: a level for all lines, or a level for the lines
whose origin has a name that starts in some way.  For each line the directive with
the longest such name decides; a line without a directive is not shown.
-/

namespace GrammarUpgrade.CommandLine

/-- The name of an origin in filters. -/
def originName : Origin → String
  | .commandLine => "css_syntax"
  | .generator => "css_syntax_gen"

/-- A level for the lines of some origins. -/
structure Directive where
  /-- How the name of an origin starts. -/
  target : String
  /-- The rank up to which lines are shown. -/
  rank : Nat
  deriving DecidableEq, Repr, Inhabited

/-- The directives of a filter. -/
abbrev LogFilter := List Directive

namespace LogFilter

/-- The same level for all lines. -/
def upTo (level : Level) : LogFilter :=
  [⟨"", level.rank⟩]

/-- The rank that a word names, in letters of either case or as a number. -/
def rankOf? (word : String) : Option Nat :=
  match word.toLower with
  | "off" | "0" => some 0
  | "error" | "1" => some Level.error.rank
  | "warn" | "2" => some Level.warn.rank
  | "info" | "3" => some Level.info.rank
  | "debug" | "4" => some Level.debug.rank
  | "trace" | "5" => some Level.trace.rank
  | _ => none

/-- Whether a directive may begin with a character. -/
def beginsDirective (c : Char) : Bool :=
  c.isAlphanum || ['-', ':', '_', '['].contains c || 0x80 ≤ c.toNat

/-- A directive: a level, a target, or both with an equals sign between them.  A
target alone shows all of its lines. -/
def directive? (word : String) : Option Directive :=
  let chars := word.toList
  if !(chars.dropWhile Char.isWhitespace).head?.any beginsDirective then none
  else
    match rankOf? word, chars.dropWhile (· ≠ '=') with
    | some rank, _ => some ⟨"", rank⟩
    | none, [] => some ⟨word, Level.trace.rank⟩
    | none, _ :: level =>
        let target := String.ofList (chars.takeWhile (· ≠ '='))
        if level = [] then some ⟨target, Level.trace.rank⟩
        else (rankOf? (String.ofList level)).map (⟨target, ·⟩)

/-- Words between commas, empty ones left out. -/
def splitCommas : List Char → List (List Char)
  | [] => []
  | c :: rest =>
      if c = ',' then [] :: splitCommas rest
      else
        match splitCommas rest with
        | [] => [[c]]
        | word :: words => (c :: word) :: words

/-- The filter that a text spells, if all of its directives do.  A text without any
directive shows nothing. -/
def parse? (text : String) : Option LogFilter :=
  ((splitCommas text.toList).filter (· ≠ [])).mapM fun word =>
    directive? (String.ofList word)

/-- The filter of a run: all but the finest lines when asked for, else what the
environment says, else the plain messages. -/
def choose (verbose : Bool) (environment : Option String) : LogFilter :=
  if verbose then upTo .debug
  else (environment.bind parse?).getD (upTo .info)

/-- The directive of two that decides for an origin: the one with the longer
target, and of equally long ones the later. -/
def moreSpecific (best next : Directive) : Directive :=
  if best.target.length ≤ next.target.length then next else best

/-- The rank up to which lines of an origin are shown. -/
def rankFor (filter : LogFilter) (origin : Origin) : Nat :=
  match filter.filter fun directive =>
      directive.target.toList.isPrefixOf (originName origin).toList with
  | [] => 0
  | first :: others => (others.foldl moreSpecific first).rank

/-- Whether a line is shown. -/
def shows (filter : LogFilter) (line : LogLine) : Bool :=
  line.level.rank ≤ filter.rankFor line.origin

/-- The text of the lines that are shown. -/
def render (filter : LogFilter) (log : Log) : String :=
  Log.text (log.filter filter.shows)

end LogFilter

end GrammarUpgrade.CommandLine
