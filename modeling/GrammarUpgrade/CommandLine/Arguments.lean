/-!
# Argument vectors

The words after the program's name select a command and its options.  Words are
looked at from left to right and the first that cannot stand where it stands
decides; an option whose value is the next word is settled only when the word
after that is looked at, or at the end.
-/

namespace GrammarUpgrade.CommandLine

/-- What the program can be asked to do. -/
inductive Command where
  /-- Write the documents. -/
  | generate
  /-- Count the candidates and write nothing. -/
  | check
  deriving DecidableEq, Repr, Inhabited

namespace Command

/-- The name of a command. -/
def name : Command → String
  | .generate => "generate"
  | .check => "check"

/-- The command with a name. -/
def ofName? (name : String) : Option Command :=
  if name = "generate" then some .generate
  else if name = "check" then some .check
  else none

end Command

/-- An option with a value. -/
inductive Setting where
  | source
  | config
  | outDir
  deriving DecidableEq, Repr

/-- An option of either kind. -/
inductive Switch where
  | verbose
  | help
  | version
  | setting (setting : Setting)
  deriving DecidableEq, Repr

/-- A command with its options. -/
structure Arguments where
  command : Command
  source : Option String
  config : Option String
  outDir : Option String
  verbose : Bool
  deriving DecidableEq, Repr

/-- What help can be asked about. -/
inductive Topic where
  | program
  | command (command : Command)
  | help
  deriving DecidableEq, Repr, Inhabited

/-- Why an argument vector selects no command. -/
inductive UsageError where
  | displayHelp (topic : Topic)
  | displayVersion
  /-- There are no arguments at all. -/
  | noArguments
  | missingCommand
  | invalidCommand
  | unknownArgument
  | invalidValue
  /-- A value is given to an option that takes none. -/
  | tooManyValues
  /-- An option is given twice. -/
  | argumentConflict
  deriving DecidableEq, Repr, Inhabited

/-! ## Words -/

/-- What a word looks like. -/
inductive Word where
  /-- Two dashes: everything after them is no option. -/
  | escape
  /-- Two dashes and a name, perhaps with a value after an equals sign. -/
  | long (name : List Char) (value : Option (List Char))
  /-- A dash and letters. -/
  | short (letters : List Char)
  /-- Anything else. -/
  | plain
  deriving DecidableEq, Repr

/-- What a word looks like. -/
def Word.of (word : String) : Word :=
  match word.toList with
  | ['-', '-'] => .escape
  | '-' :: '-' :: rest =>
      match rest.dropWhile (· ≠ '=') with
      | [] => .long rest none
      | _ :: value => .long (rest.takeWhile (· ≠ '=')) (some value)
  | '-' :: c :: rest => .short (c :: rest)
  | _ => .plain

/-- Where a word stands: before the command or after it. -/
inductive Scope where
  | program
  | command
  deriving DecidableEq, Repr

/-- The option with a long name. -/
def Scope.long? (scope : Scope) (name : List Char) : Option Switch :=
  if name = "verbose".toList then some .verbose
  else if name = "help".toList then some .help
  else
    match scope with
    | .program => if name = "version".toList then some .version else none
    | .command =>
        if name = "source".toList then some (.setting .source)
        else if name = "config".toList then some (.setting .config)
        else if name = "out-dir".toList then some (.setting .outDir)
        else none

/-- The option with a letter. -/
def Scope.short? (scope : Scope) (letter : Char) : Option Switch :=
  if letter = 'v' then some .verbose
  else if letter = 'h' then some .help
  else
    match scope with
    | .program => if letter = 'V' then some .version else none
    | .command =>
        if letter = 's' then some (.setting .source)
        else if letter = 'c' then some (.setting .config)
        else if letter = 'o' then some (.setting .outDir)
        else none

/-! ## Options -/

/-- The options of a scope that are settled, and the one that is not. -/
structure Options where
  verbose : Bool
  source : Option String
  config : Option String
  outDir : Option String
  /-- An option that waits for its value, or has it and is not settled. -/
  pending : Option (Setting × Option String)
  deriving DecidableEq, Repr

namespace Options

/-- No options. -/
def none : Options :=
  ⟨false, .none, .none, .none, .none⟩

/-- The value of an option. -/
def get (options : Options) : Setting → Option String
  | .source => options.source
  | .config => options.config
  | .outDir => options.outDir

/-- Give an option a value. -/
def set (options : Options) (setting : Setting) (value : String) : Options :=
  match setting with
  | .source => { options with source := some value }
  | .config => { options with config := some value }
  | .outDir => { options with outDir := some value }

/-- Settle an option with its value: it may be given only once and its value is
not empty. -/
def settle (options : Options) (setting : Setting) (value : String) :
    Except UsageError Options :=
  if (options.get setting).isSome then .error .argumentConflict
  else if value = "" then .error .invalidValue
  else .ok (options.set setting value)

/-- Settle the option that waits. -/
def settlePending (options : Options) : Except UsageError Options :=
  match options.pending with
  | .none => .ok options
  | some (_, .none) => .error .invalidValue
  | some (setting, some value) =>
      { options with pending := .none }.settle setting value

/-- Whether the next word that is no option is a value. -/
def awaitsValue? (options : Options) : Option Setting :=
  match options.pending with
  | some (setting, .none) => some setting
  | _ => .none

/-- Take note of an option without a value. -/
def raise (options : Options) (topic : Topic) (switch : Switch) :
    Except UsageError Options :=
  match options.settlePending with
  | .error failure => .error failure
  | .ok settled =>
      match switch with
      | .help => .error (.displayHelp topic)
      | .version => .error .displayVersion
      | _ =>
          if settled.verbose then .error .argumentConflict
          else .ok { settled with verbose := true }

/-- Take note of an option with a value. -/
def assign (options : Options) (setting : Setting) (value : String) :
    Except UsageError Options :=
  match options.settlePending with
  | .error failure => .error failure
  | .ok settled => settled.settle setting value

/-- Take note of an option whose value is the next word. -/
def await (options : Options) (setting : Setting) : Except UsageError Options :=
  match options.settlePending with
  | .error failure => .error failure
  | .ok settled => .ok { settled with pending := some (setting, .none) }

/-- Take note of a word with a long name. -/
def addLong (options : Options) (scope : Scope) (topic : Topic) (name : List Char)
    (value : Option (List Char)) : Except UsageError Options :=
  match scope.long? name, value with
  | .none, _ => .error .unknownArgument
  | some (.setting setting), some value =>
      options.assign setting (String.ofList value)
  | some (.setting setting), .none => options.await setting
  | some _, some _ => .error .tooManyValues
  | some switch, .none => options.raise topic switch

/-- Take note of the letters of a word.  The first letter of an option with a value
ends them; an equals sign may stand before the value. -/
def addShort (options : Options) (scope : Scope) (topic : Topic) :
    List Char → Except UsageError Options
  | [] => .ok options
  | letter :: rest =>
      match scope.short? letter with
      | .none => .error .unknownArgument
      | some (.setting setting) =>
          match rest with
          | [] => options.await setting
          | '=' :: value => options.assign setting (String.ofList value)
          | value => options.assign setting (String.ofList value)
      | some switch =>
          match options.raise topic switch with
          | .error failure => .error failure
          | .ok raised => raised.addShort scope topic rest

end Options

/-! ## Vectors -/

/-- The words after a command. -/
def parseCommand (topic : Topic) (options : Options) :
    List String → Except UsageError Options
  | [] => options.settlePending
  | word :: rest =>
      match Word.of word with
      | .escape =>
          match rest with
          | [] => options.settlePending
          | _ :: _ => .error .unknownArgument
      | .long name value =>
          match options.addLong .command topic name value with
          | .error failure => .error failure
          | .ok next => parseCommand topic next rest
      | .short letters =>
          match options.addShort .command topic letters with
          | .error failure => .error failure
          | .ok next => parseCommand topic next rest
      | .plain =>
          match options.awaitsValue? with
          | some setting =>
              parseCommand topic { options with pending := some (setting, some word) }
                rest
          | .none => .error .unknownArgument

/-- The words after `help`: at most one name of something to be helped with. -/
def parseHelp : List String → UsageError
  | [] => .displayHelp .program
  | name :: rest =>
      let topic? :=
        if name = "help" then some Topic.help
        else (Command.ofName? name).map Topic.command
      match topic?, rest with
      | some topic, [] => .displayHelp topic
      | _, _ => .invalidCommand

/-- Words before the command: flags, and then the command with its words. -/
def parseProgram (options : Options) : List String → Except UsageError Arguments
  | [] => .error (if options.verbose then .missingCommand else .noArguments)
  | word :: rest =>
      if word = "help" then .error (parseHelp rest)
      else
        match Command.ofName? word with
        | some command =>
            match parseCommand (.command command) .none rest with
            | .error failure => .error failure
            | .ok given =>
                .ok
                  { command
                    source := given.source
                    config := given.config
                    outDir := given.outDir
                    verbose := options.verbose || given.verbose }
        | none =>
            match Word.of word with
            | .escape =>
                match rest with
                | [] =>
                    .error (if options.verbose then .missingCommand else .noArguments)
                | next :: _ =>
                    if next = "help" || (Command.ofName? next).isSome then
                      .error .unknownArgument
                    else .error .invalidCommand
            | .long name value =>
                match options.addLong .program .program name value with
                | .error failure => .error failure
                | .ok next => parseProgram next rest
            | .short letters =>
                match options.addShort .program .program letters with
                | .error failure => .error failure
                | .ok next => parseProgram next rest
            | .plain => .error .invalidCommand

/-- The command that an argument vector selects. -/
def parse (words : List String) : Except UsageError Arguments :=
  parseProgram .none words

end GrammarUpgrade.CommandLine
