import GrammarUpgrade.CommandLine.Arguments
import Mathlib.Data.List.Forall2
import Mathlib.Data.List.Pairwise
import Mathlib.Data.List.Perm.Basic

/-!
# Spelled arguments

The options of a command may be given in any order and each in several ways, and the flag
also before the command.  Whatever the words, arguments that are spelled in them are what
the words are parsed to; the main statement is `parse_of_spells`.
-/

namespace GrammarUpgrade.CommandLine

/-- The long name of an option with a value. -/
def Setting.longName : Setting → String
  | .source => "source"
  | .config => "config"
  | .outDir => "out-dir"

/-- The letter of an option with a value. -/
def Setting.letter : Setting → Char
  | .source => 's'
  | .config => 'c'
  | .outDir => 'o'

/-- One thing that is asked of a command. -/
inductive Choice where
  | verbose
  | setting (setting : Setting) (value : String)
  deriving DecidableEq, Repr

namespace Choice

/-- The words in which a choice is spelled.  A value may be a word of its own unless it
begins with a dash. -/
inductive Spells : Choice → List String → Prop
  | flag : Spells .verbose ["--verbose"]
  | flagLetter : Spells .verbose ["-v"]
  | joined (setting : Setting) (value : String) :
      Spells (.setting setting value) ["--" ++ setting.longName ++ "=" ++ value]
  | apart (setting : Setting) {value : String} (noDash : value.toList.head? ≠ some '-') :
      Spells (.setting setting value) ["--" ++ setting.longName, value]
  | letter (setting : Setting) {value : String} (noDash : value.toList.head? ≠ some '-') :
      Spells (.setting setting value) [String.ofList ['-', setting.letter], value]

/-- The setting that a choice is about; the flag is about none. -/
def about : Choice → Option Setting
  | .verbose => none
  | .setting chosen _ => some chosen

/-- A value that is given is not empty. -/
def Filled : Choice → Prop
  | .verbose => True
  | .setting _ value => value ≠ ""

end Choice

/-- The value of a setting. -/
def Arguments.get (arguments : Arguments) : Setting → Option String
  | .source => arguments.source
  | .config => arguments.config
  | .outDir => arguments.outDir

/-- What is asked of the command. -/
def Arguments.choices (arguments : Arguments) : List Choice :=
  (arguments.source.map (Choice.setting .source)).toList ++
    (arguments.config.map (Choice.setting .config)).toList ++
    (arguments.outDir.map (Choice.setting .outDir)).toList ++
    if arguments.verbose then [.verbose] else []

/-- The words in which arguments are spelled: the command, followed by its choices in some
order, each once and in some spelling.  The flag may instead stand before the command. -/
inductive Arguments.Spells (arguments : Arguments) : List String → Prop
  | after {order : List Choice} {groups : List (List String)}
      (ordered : order.Perm arguments.choices)
      (spelled : List.Forall₂ Choice.Spells order groups) :
      Spells arguments (arguments.command.name :: groups.flatten)
  | around {flag : List String} {order : List Choice} {groups : List (List String)}
      (verbose : arguments.verbose = true) (flagged : Choice.verbose.Spells flag)
      (ordered : order.Perm { arguments with verbose := false }.choices)
      (spelled : List.Forall₂ Choice.Spells order groups) :
      Spells arguments (flag ++ arguments.command.name :: groups.flatten)

/-! ## Taking choices -/

namespace Options

/-- The options with one more choice. -/
def take (options : Options) : Choice → Options
  | .verbose => { options with verbose := true }
  | .setting setting value => options.set setting value

/-- Nothing has been chosen yet about a setting, or about the flag. -/
def Lacks (options : Options) : Option Setting → Prop
  | .none => options.verbose = false
  | some setting => options.get setting = .none

theorem pending_take (options : Options) (choice : Choice) :
    (options.take choice).pending = options.pending := by
  cases choice with
  | verbose => rfl
  | setting setting value => cases setting <;> rfl

theorem get_set_of_ne (options : Options) {chosen setting : Setting} (value : String)
    (different : chosen ≠ setting) :
    (options.set chosen value).get setting = options.get setting := by
  cases chosen <;> cases setting <;> simp_all [set, get]

theorem set_comm (options : Options) {chosen setting : Setting} (value other : String)
    (different : chosen ≠ setting) :
    (options.set chosen value).set setting other =
      (options.set setting other).set chosen value := by
  cases chosen <;> cases setting <;> simp_all [set]

/-- A choice changes nothing but what it is about. -/
theorem lacks_take {options : Options} {choice : Choice} {about : Option Setting}
    (different : choice.about ≠ about) (lacks : options.Lacks about) :
    (options.take choice).Lacks about := by
  cases choice with
  | verbose =>
      cases about with
      | none => exact absurd rfl different
      | some setting => cases setting <;> exact lacks
  | setting chosen value =>
      cases about with
      | none => cases chosen <;> exact lacks
      | some setting =>
          have unequal : chosen ≠ setting := fun same => different (congrArg some same)
          exact (options.get_set_of_ne value unequal).trans lacks

/-- Two choices that may be taken in either order. -/
def Commute (first second : Choice) : Prop :=
  ∀ options : Options, (options.take first).take second = (options.take second).take first

instance : Std.Symm Commute :=
  ⟨fun _ _ commute options => (commute options).symm⟩

/-- Choices about different things may be taken in either order. -/
theorem commute_of_about_ne {first second : Choice} (different : first.about ≠ second.about) :
    Commute first second := by
  intro options
  cases first with
  | verbose =>
      cases second with
      | verbose => exact absurd rfl different
      | setting setting value => cases setting <;> rfl
  | setting chosen value =>
      cases second with
      | verbose => cases chosen <;> rfl
      | setting setting other =>
          have unequal : chosen ≠ setting := fun same => different (congrArg some same)
          exact options.set_comm value other unequal

/-- Settled options wait for nothing. -/
theorem pending_of_settlePending {options settled : Options}
    (settles : options.settlePending = .ok settled) : settled.pending = .none := by
  rw [settlePending] at settles
  split at settles
  · rename_i nothing
    cases settles
    exact nothing
  · cases settles
  · rename_i setting value _
    rw [settle] at settles
    split at settles
    · cases settles
    split at settles
    · cases settles
    · cases settles
      exact pending_take _ (.setting setting value)

theorem settlePending_of_pending {settled : Options} (settles : settled.pending = .none) :
    settled.settlePending = .ok settled := by
  rw [settlePending, settles]

/-- A value that waits is settled when it is its turn. -/
theorem settlePending_waiting {settled : Options} (idle : settled.pending = .none)
    (setting : Setting) (value : String) :
    ({ settled with pending := some (setting, some value) } : Options).settlePending =
      settled.settle setting value := by
  have same : ({ settled with pending := .none } : Options) = settled := by
    rw [← idle]
  rw [settlePending]
  exact congrArg (fun options : Options => options.settle setting value) same

/-- A value is settled that is not empty and of which there was none. -/
theorem settle_eq_take {options : Options} {setting : Setting} {value : String}
    (lacks : options.Lacks (some setting)) (filled : value ≠ "") :
    options.settle setting value = .ok (options.take (.setting setting value)) := by
  have absent : ¬ (options.get setting).isSome = true := by
    rw [show options.get setting = .none from lacks]
    exact Bool.false_ne_true
  rw [settle, if_neg absent, if_neg filled]
  rfl

end Options

/-! ## Reading choices -/

theorem Word.of_joined (setting : Setting) (value : String) :
    Word.of ("--" ++ setting.longName ++ "=" ++ value) =
      .long setting.longName.toList (some value.toList) := by
  cases setting <;> simp [Word.of, Setting.longName]

theorem Word.of_longName (setting : Setting) :
    Word.of ("--" ++ setting.longName) = .long setting.longName.toList none := by
  cases setting <;> rfl

theorem Word.of_letter (setting : Setting) :
    Word.of (String.ofList ['-', setting.letter]) = .short [setting.letter] := by
  cases setting <;> rfl

theorem Word.of_noDash {value : String} (noDash : value.toList.head? ≠ some '-') :
    Word.of value = .plain := by
  rw [Word.of]
  split
  · simp_all
  · simp_all
  · simp_all
  · rfl

theorem Scope.long?_longName (setting : Setting) :
    Scope.command.long? setting.longName.toList = some (.setting setting) := by
  cases setting <;> rfl

theorem Scope.short?_letter (setting : Setting) :
    Scope.command.short? setting.letter = some (.setting setting) := by
  cases setting <;> rfl

variable {topic : Topic} {options settled : Options} {choice : Choice} {words : List String}

/-- A word with a long name is read when its option has been taken note of. -/
theorem parseCommand_long {word : String} {name : List Char} {value : Option (List Char)}
    {next : Options} (shape : Word.of word = .long name value)
    (added : options.addLong .command topic name value = .ok next) (rest : List String) :
    parseCommand topic options (word :: rest) = parseCommand topic next rest := by
  rw [parseCommand.eq_def]
  simp only [shape, added]

/-- A word of letters is read when its options have been taken note of. -/
theorem parseCommand_short {word : String} {letters : List Char} {next : Options}
    (shape : Word.of word = .short letters)
    (added : options.addShort .command topic letters = .ok next) (rest : List String) :
    parseCommand topic options (word :: rest) = parseCommand topic next rest := by
  rw [parseCommand.eq_def]
  simp only [shape, added]

/-- An option takes the next word for its value if that has no dash. -/
theorem parseCommand_await {setting : Setting} {value : String}
    (noDash : value.toList.head? ≠ some '-') (rest : List String) :
    parseCommand topic { settled with pending := some (setting, .none) } (value :: rest) =
      parseCommand topic { settled with pending := some (setting, some value) } rest := by
  rw [parseCommand.eq_def]
  simp only [Word.of_noDash noDash]
  rfl

/-! ## Taking note of choices -/

theorem Options.raise_verbose (topic : Topic) (settles : options.settlePending = .ok settled)
    (lacks : settled.Lacks .none) :
    options.raise topic .verbose = .ok (settled.take .verbose) := by
  have silent : ¬ settled.verbose = true := Bool.eq_false_iff.mp lacks
  rw [raise, settles]
  exact if_neg silent

theorem Options.assign_eq_take {setting : Setting} {value : String}
    (settles : options.settlePending = .ok settled) (lacks : settled.Lacks (some setting))
    (filled : value ≠ "") :
    options.assign setting value = .ok (settled.take (.setting setting value)) := by
  rw [assign, settles]
  exact settle_eq_take lacks filled

theorem Options.await_eq (settles : options.settlePending = .ok settled) (setting : Setting) :
    options.await setting = .ok { settled with pending := some (setting, .none) } := by
  rw [await, settles]

/-- A spelled choice is taken, at once or when the next word is looked at. -/
theorem parseCommand_append (topic : Topic) (spelled : choice.Spells words)
    (filled : choice.Filled) (settles : options.settlePending = .ok settled)
    (lacks : settled.Lacks choice.about) (rest : List String) :
    ∃ next, parseCommand topic options (words ++ rest) = parseCommand topic next rest ∧
      next.settlePending = .ok (settled.take choice) := by
  have idle := Options.pending_of_settlePending settles
  have taken : (settled.take choice).settlePending = .ok (settled.take choice) :=
    Options.settlePending_of_pending ((settled.pending_take choice).trans idle)
  cases spelled with
  | flag =>
      have added : options.addLong .command topic "verbose".toList none =
          .ok (settled.take .verbose) := Options.raise_verbose topic settles lacks
      exact ⟨_, parseCommand_long rfl added rest, taken⟩
  | flagLetter =>
      have known : Scope.command.short? 'v' = some .verbose := rfl
      have added : options.addShort .command topic ['v'] = .ok (settled.take .verbose) := by
        simp only [Options.addShort, known, Options.raise_verbose topic settles lacks]
      exact ⟨_, parseCommand_short rfl added rest, taken⟩
  | joined setting value =>
      refine ⟨_, parseCommand_long (Word.of_joined setting value) ?_ rest, taken⟩
      simp only [Options.addLong, Scope.long?_longName, String.ofList_toList,
        Options.assign_eq_take settles lacks filled]
  | @apart setting value noDash =>
      have added : options.addLong .command topic setting.longName.toList none =
          .ok { settled with pending := some (setting, .none) } := by
        simp only [Options.addLong, Scope.long?_longName, Options.await_eq settles]
      refine ⟨{ settled with pending := some (setting, some value) }, ?_, ?_⟩
      · exact (parseCommand_long (Word.of_longName setting) added _).trans
          (parseCommand_await noDash rest)
      · rw [Options.settlePending_waiting idle, Options.settle_eq_take lacks filled]
  | @letter setting value noDash =>
      have added : options.addShort .command topic [setting.letter] =
          .ok { settled with pending := some (setting, .none) } := by
        simp only [Options.addShort, Scope.short?_letter, Options.await_eq settles]
      refine ⟨{ settled with pending := some (setting, some value) }, ?_, ?_⟩
      · exact (parseCommand_short (Word.of_letter setting) added _).trans
          (parseCommand_await noDash rest)
      · rw [Options.settlePending_waiting idle, Options.settle_eq_take lacks filled]

/-! ## Vectors -/

/-- Choices about different things are all taken, one after the other. -/
theorem parseCommand_flatten {order : List Choice} {groups : List (List String)}
    (spelled : List.Forall₂ Choice.Spells order groups)
    (filled : ∀ choice ∈ order, choice.Filled)
    (different : order.Pairwise fun first second => first.about ≠ second.about)
    (settles : options.settlePending = .ok settled)
    (lacks : ∀ choice ∈ order, settled.Lacks choice.about) :
    parseCommand topic options groups.flatten = .ok (order.foldl Options.take settled) := by
  induction spelled generalizing options settled with
  | nil => exact settles
  | @cons choice words order groups spelled _ ih =>
      obtain ⟨apart, different⟩ := List.pairwise_cons.mp different
      obtain ⟨filledFirst, filled⟩ := List.forall_mem_cons.mp filled
      obtain ⟨lacksFirst, lacks⟩ := List.forall_mem_cons.mp lacks
      obtain ⟨next, read, settles⟩ :=
        parseCommand_append topic spelled filledFirst settles lacksFirst groups.flatten
      rw [List.flatten_cons, read, List.foldl_cons]
      exact ih filled different settles fun other member =>
        Options.lacks_take (apart other member) (lacks other member)

namespace Arguments

variable {arguments : Arguments}

/-- The options that arguments are made of. -/
def toOptions (arguments : Arguments) : Options :=
  ⟨arguments.verbose, arguments.source, arguments.config, arguments.outDir, none⟩

theorem get_silent (arguments : Arguments) :
    ({ arguments with verbose := false } : Arguments).get = arguments.get := by
  funext setting
  cases setting <;> rfl

theorem choices_pairwise (arguments : Arguments) :
    arguments.choices.Pairwise fun first second => first.about ≠ second.about := by
  obtain ⟨_, source, config, outDir, verbose⟩ := arguments
  cases source <;> cases config <;> cases outDir <;> cases verbose <;>
    simp [choices, Choice.about]

theorem foldl_take_choices (arguments : Arguments) :
    arguments.choices.foldl Options.take .none = arguments.toOptions := by
  obtain ⟨_, source, config, outDir, verbose⟩ := arguments
  cases source <;> cases config <;> cases outDir <;> cases verbose <;> rfl

/-- The order of the choices does not matter. -/
theorem foldl_take_of_perm {order : List Choice} (ordered : order.Perm arguments.choices) :
    order.foldl Options.take .none = arguments.toOptions := by
  have pairwise : arguments.choices.Pairwise Options.Commute :=
    arguments.choices_pairwise.imp Options.commute_of_about_ne
  have commute : ∀ first ∈ arguments.choices, ∀ second ∈ arguments.choices,
      Options.Commute first second :=
    pairwise.forall_of_forall fun _ _ _ => rfl
  exact (ordered.symm.foldl_eq' commute Options.none).symm.trans arguments.foldl_take_choices

theorem filled_of_mem_choices (filled : ∀ setting, arguments.get setting ≠ some "")
    {choice : Choice} (member : choice ∈ arguments.choices) : choice.Filled := by
  cases choice with
  | verbose => trivial
  | setting chosen value =>
      rintro rfl
      apply filled chosen
      cases chosen <;> simpa [choices, get] using member

theorem parseCommand_of_perm (topic : Topic) {order : List Choice} {groups : List (List String)}
    (filled : ∀ setting, arguments.get setting ≠ some "")
    (ordered : order.Perm arguments.choices)
    (spelled : List.Forall₂ Choice.Spells order groups) :
    parseCommand topic .none groups.flatten = .ok arguments.toOptions := by
  have different := ordered.symm.pairwise arguments.choices_pairwise Ne.symm
  rw [← foldl_take_of_perm ordered]
  refine parseCommand_flatten spelled ?_ different rfl ?_
  · exact fun choice member => filled_of_mem_choices filled (ordered.mem_iff.mp member)
  · rintro (_ | ⟨chosen, value⟩) _
    · rfl
    · cases chosen <;> rfl

end Arguments

/-- The words after a command decide the arguments, together with a flag before it. -/
theorem parseProgram_command {options given : Options} {command : Command} {words : List String}
    (read : parseCommand (.command command) .none words = .ok given) :
    parseProgram options (command.name :: words) =
      .ok ⟨command, given.source, given.config, given.outDir,
        options.verbose || given.verbose⟩ := by
  have unhelpful : command.name ≠ "help" := by cases command <;> decide
  have named : Command.ofName? command.name = some command := by cases command <;> rfl
  rw [parseProgram.eq_def]
  simp only [if_neg unhelpful, named, read]

theorem parseProgram_flag {flag : List String} (flagged : Choice.verbose.Spells flag)
    (words : List String) :
    parse (flag ++ words) = parseProgram { Options.none with verbose := true } words := by
  cases flagged <;> rfl

/-- Arguments with values that are not empty are what any words are parsed to in which they
are spelled. -/
theorem parse_of_spells {arguments : Arguments} {words : List String}
    (filled : ∀ setting, arguments.get setting ≠ some "") (spelled : arguments.Spells words) :
    parse words = .ok arguments := by
  cases spelled with
  | after ordered spelled =>
      exact parseProgram_command (Arguments.parseCommand_of_perm _ filled ordered spelled)
  | around verbose flagged ordered spelled =>
      have read := Arguments.parseCommand_of_perm (.command arguments.command)
        (arguments.get_silent ▸ filled) ordered spelled
      rw [parseProgram_flag flagged, parseProgram_command read]
      obtain ⟨command, source, config, outDir, _⟩ := arguments
      cases verbose
      rfl

/-- Values that look like a command or an option, in spellings of every kind, with the flag
between them and before the command. -/
theorem parse_of_spells_lookalikes :
    let arguments : Arguments :=
      ⟨.check, some "generate", some "--config=a b", some "=help", true⟩
    (∀ setting, arguments.get setting ≠ some "") ∧
      parse ["check", "-o", "=help", "-v", "--config=--config=a b", "--source", "generate"] =
        .ok arguments ∧
      parse ["--verbose", "check", "--config=--config=a b", "-s", "generate",
        "--out-dir==help"] = .ok arguments := by
  intro arguments
  have filled : ∀ setting, arguments.get setting ≠ some "" := by
    intro setting
    cases setting <;> decide
  refine ⟨filled, parse_of_spells filled ?_, parse_of_spells filled ?_⟩
  · exact @Arguments.Spells.after arguments
      [.setting .outDir "=help", .verbose, .setting .config "--config=a b",
        .setting .source "generate"] _ (by decide)
      (.cons (.letter .outDir (by decide)) (.cons .flagLetter
        (.cons (.joined .config _) (.cons (.apart .source (by decide)) .nil))))
  · exact @Arguments.Spells.around arguments _
      [.setting .config "--config=a b", .setting .source "generate", .setting .outDir "=help"] _
      rfl .flag (by decide)
      (.cons (.joined .config _) (.cons (.letter .source (by decide))
        (.cons (.joined .outDir _) .nil)))

end GrammarUpgrade.CommandLine
