import GrammarUpgrade.Proofs.Config.Settings
import GrammarUpgrade.Proofs.Toml.Unambiguous
import Mathlib.Data.List.Forall2
import Mathlib.Data.List.Nodup

/-!
# What a document states about a configuration

`States` says what a document, however it is written, makes of a configuration: no path but
those of the settings is in it, each string that is written is the one that is kept, what is
not written has its standard, and the rules are the written ones in their order.  The document
of a text that is read states the configuration: `exists_states_of_ofText`.
-/

namespace GrammarUpgrade

open GrammarUpgrade.Toml (Means Members Shows Term Tracks Value exists_of_bind_eq_ok
  of_mapError_eq_ok)

/-! ## Documents -/

/-- The items of an array, and none of another value. -/
def Toml.Term.items : Term → List Term
  | .array items => items
  | _ => []

/-- The elements of a name in the order of the text: the items of its array, or the tables with
its name in double brackets. -/
def Toml.Document.elementsOf (document : Toml.Document) (name : String) : List Term :=
  ((document.entries.filter (·.1 = [name])).flatMap fun entry => entry.2.items) ++
    (document.sectionsOf name).map fun part => .braces part.entries

namespace Config

/-- A setting that is a string: where it is written and where it is kept. -/
structure TextSetting where
  path : List String
  text? : Config → Option String

/-- The dataset. -/
def sourceSetting : TextSetting :=
  ⟨["source"], Config.dataset⟩

/-- A setting of the output. -/
def outputSetting (field : String × (Destination → String)) : TextSetting :=
  ⟨["output", field.1], fun config => some (field.2 config.destination)⟩

/-- The settings that are strings. -/
def textSettings : List TextSetting :=
  sourceSetting :: destinationFields.map outputSetting

/-- The paths that may be written: those of the settings that are strings, the output as a
whole, and whatever lies below the rules. -/
inductive IsKnown : List String → Prop
  | text {setting : TextSetting} (isSetting : setting ∈ textSettings) : IsKnown setting.path
  | output : IsKnown ["output"]
  | rules {below : List String} : IsKnown ("rules" :: below)

/-- What a document states about a configuration. -/
structure States (document : Toml.Document) (config : Config) : Prop where
  /-- Nothing but settings is written. -/
  known : ∀ path, document.Mentions path → IsKnown path
  /-- A setting that is written is given one string, which is kept. -/
  given : ∀ setting ∈ textSettings, document.Mentions setting.path →
    ∃ text, setting.text? config = some text ∧
      ∀ term, document.Gives setting.path term ↔ term = .string text
  /-- A setting that is not written has the standard, unless the output is an array. -/
  standard : ∀ setting ∈ textSettings, ¬document.Mentions setting.path →
    setting = sourceSetting ∨ (∀ items, ¬document.Gives ["output"] (.array items)) →
      setting.text? config = setting.text? Config.standard
  /-- An array lists the settings of the output in order. -/
  listed : ∀ items, document.Gives ["output"] (.array items) →
    ListsOutput items config.destination
  /-- The rules are the written ones, in order. -/
  rules : List.Forall₂ IsRule (document.elementsOf "rules") config.rules

theorem outputSetting_mem {field : String × (Destination → String)}
    (isField : field ∈ destinationFields) : outputSetting field ∈ textSettings :=
  List.mem_cons_of_mem _ (List.mem_map_of_mem isField)

theorem textSettings_cases {setting : TextSetting} (isSetting : setting ∈ textSettings) :
    setting = sourceSetting ∨ ∃ field ∈ destinationFields, setting = outputSetting field := by
  rcases List.mem_cons.mp isSetting with same | mem
  · exact .inl same
  · obtain ⟨field, isField, same⟩ := List.mem_map.mp mem
    exact .inr ⟨field, isField, same.symm⟩

/-- Settings are written in different places. -/
theorem eq_of_mem_textSettings {first second : TextSetting} (isSetting : first ∈ textSettings)
    (isOther : second ∈ textSettings) (same : first.path = second.path) : first = second :=
  List.inj_on_of_nodup_map (f := TextSetting.path) (by decide) isSetting isOther same

section

variable {document : Toml.Document} {members : Members} {config : Config}

/-! ## What is at the top -/

theorem mem_settingNames_of_names (tracks : Tracks document members)
    (read : ofMembers members = .ok config) {name : String} {path : List String}
    (names : document.Names (name :: path)) : name ∈ settingNames := by
  obtain ⟨value, found⟩ := tracks.named.exists_find? names
  obtain ⟨key, mem, rfl⟩ := Members.exists_mem_of_find? found
  obtain ⟨before, after, taken⟩ := exists_step_of_mem read mem
  exact mem_settingNames_of_setting taken

/-- What the dataset is written as: not at all, or as one string. -/
inductive WritesSource (document : Toml.Document) (dataset : Option String) : Prop
  | absent (nameless : ∀ path, ¬document.Names ("source" :: path)) (standard : dataset = none)
  | value {text : String} (kept : dataset = some text)
      (given : ∀ term, document.Has ["source"] term ↔ term = .string text)
      (alone : ∀ path, document.Names ("source" :: path) → path = [])

theorem writesSource_of_ofMembers (tracks : Tracks document members)
    (read : ofMembers members = .ok config) : WritesSource document config.dataset := by
  rcases reads_source.of_foldlM tracks.filled.distinct read with
    ⟨free, kept⟩ | ⟨value, found, keeps⟩
  · refine .absent (fun path names => ?_) kept
    obtain ⟨value, found⟩ := tracks.named.exists_find? names
    cases free.symm.trans found
  · obtain ⟨text, kept, given⟩ := keeps.has_iff tracks.filled found
    refine .value kept given fun path names => ?_
    cases path with
    | nil => rfl
    | cons next rest =>
        exact absurd names (tracks.named.alone found keeps.isWhole next rest)

/-- What the value of the output states. -/
inductive StatesOutput (destination : Destination) : Term → Prop
  | braces {pairs : List (List String × Term)} (filledPaths : ∀ pair ∈ pairs, pair.1 ≠ [])
      (sets : SetsOutput (fun path term => (path, term) ∈ pairs)
        (fun path => ∃ term, (path, term) ∈ pairs) destination) :
      StatesOutput destination (.braces pairs)
  | array {items : List Term} (lists : ListsOutput items destination) :
      StatesOutput destination (.array items)

theorem statesOutput_of_means {term : Term} {value : Value} {destination : Destination}
    (means : Means term value) (read : readDestination value = .ok destination) :
    StatesOutput destination term := by
  cases means with
  | string => cases read
  | other isOther =>
      cases value with
      | integer | real | boolean | dateTime => cases read
      | string | array | table | tables => cases isOther
  | array each => exact .array (listsOutput_of_forall₂ each read)
  | @braces pairs assignments span members each made =>
      have table : Means (.braces pairs) (.table .braces span members) := .braces each made
      obtain ⟨filled, named⟩ := table.filled_named_of_braces
      exact .braces (Toml.fills_of_ofAssignments each made).path_ne_nil
        (setsOutput_of_foldlM filled named read)

/-- What the output is written as: not at all, as a table of headers and dotted keys, or as one
value. -/
inductive WritesOutput (document : Toml.Document) (destination : Destination) : Prop
  | absent (nameless : ∀ path, ¬document.Names ("output" :: path))
      (standard : destination = .standard)
  | table (noValue : ∀ term, ¬document.Has ["output"] term)
      (sets : SetsOutput (fun path => document.Has ("output" :: path))
        (fun path => document.Names ("output" :: path)) destination)
  | value {term : Term} (given : document.Has ["output"] term)
      (alone : ∀ path, document.Names ("output" :: path) → path = [])
      (states : ∀ found, document.Has ["output"] found → StatesOutput destination found)

theorem writesOutput_of_ofMembers (tracks : Tracks document members)
    (read : ofMembers members = .ok config) : WritesOutput document config.destination := by
  rcases reads_output.of_foldlM tracks.filled.distinct read with
    ⟨free, kept⟩ | ⟨value, found, readValue⟩
  · refine .absent (fun path names => ?_) kept
    obtain ⟨value, found⟩ := tracks.named.exists_find? names
    cases free.symm.trans found
  have shown : Shows document "output" (some value) := found ▸ tracks.shows "output"
  cases shown with
  | whole isWhole =>
      obtain ⟨term, given, means⟩ := tracks.filled.written found isWhole
      refine .value given (fun path names => ?_) fun also has => ?_
      · cases path with
        | nil => rfl
        | cons next rest => exact absurd names (tracks.named.alone found isWhole next rest)
      · exact tracks.unique given has ▸ statesOutput_of_means means readValue
  | table openable isInside =>
      refine .table (fun term given => ?_) (setsOutput_of_foldlM isInside.1 isInside.2 readValue)
      obtain ⟨again, foundAgain, means⟩ := tracks.filled.kept given
      cases found.symm.trans foundAgain
      exact absurd means.isWhole (by simp [Value.isWhole_table openable])
  | tables present each =>
      -- An array of tables begins with a table, where a string is wanted.
      obtain ⟨first, others, rfl⟩ := List.exists_cons_of_ne_nil present
      obtain ⟨part, parts, ⟨span, inner, rfl, -⟩, -, -⟩ := List.forall₂_cons_right_iff.mp each
      exact absurd readValue destinationOfElements_ne_ok

/-! ## Outside of braces -/

theorem isKnown_of_names (tracks : Tracks document members)
    (read : ofMembers members = .ok config) {path : List String}
    (names : document.Names path) : IsKnown path := by
  obtain ⟨name, rest, rfl⟩ := List.exists_cons_of_ne_nil (tracks.filledPaths names)
  have isName := mem_settingNames_of_names tracks read names
  simp only [settingNames, List.mem_cons, List.not_mem_nil, or_false] at isName
  rcases isName with rfl | rfl | rfl
  · cases writesSource_of_ofMembers tracks read with
    | absent nameless => exact absurd names (nameless rest)
    | value _ _ alone =>
        obtain rfl := alone rest names
        exact .text List.mem_cons_self
  · cases writesOutput_of_ofMembers tracks read with
    | absent nameless => exact absurd names (nameless rest)
    | table noValue sets =>
        cases rest with
        | nil => exact .output
        | cons name path =>
            obtain ⟨rfl, isName⟩ := sets.known names
            obtain ⟨field, isField, rfl⟩ := exists_field_of_mem_destinationNames isName
            exact .text (outputSetting_mem isField)
    | value given alone states =>
        obtain rfl := alone rest names
        exact .output
  · exact .rules

/-- A setting that is named outside of braces is given one string there, which is kept. -/
theorem has_iff_of_names (tracks : Tracks document members)
    (read : ofMembers members = .ok config) {setting : TextSetting}
    (isSetting : setting ∈ textSettings) (names : document.Names setting.path) :
    ∃ text, setting.text? config = some text ∧
      ∀ term, document.Has setting.path term ↔ term = .string text := by
  rcases textSettings_cases isSetting with rfl | ⟨field, isField, rfl⟩
  · cases writesSource_of_ofMembers tracks read with
    | absent nameless => exact absurd names (nameless [])
    | value kept given => exact ⟨_, kept, given⟩
  · cases writesOutput_of_ofMembers tracks read with
    | absent nameless => exact absurd names (nameless _)
    | table noValue sets => exact ⟨_, rfl, sets.given field isField names⟩
    | value given alone states => cases alone _ names

theorem statesOutput_of_has (tracks : Tracks document members)
    (read : ofMembers members = .ok config) {term : Term} (has : document.Has ["output"] term) :
    StatesOutput config.destination term := by
  cases writesOutput_of_ofMembers tracks read with
  | absent nameless => exact absurd has.names (nameless [])
  | table noValue => exact absurd has (noValue term)
  | value _ _ states => exact states term has

/-! ## Between braces -/

/-- What a document may give to a path. -/
inductive Stated (config : Config) : List String → Term → Prop
  | text {setting : TextSetting} {text : String} (isSetting : setting ∈ textSettings)
      (kept : setting.text? config = some text) : Stated config setting.path (.string text)
  | output {term : Term} (states : StatesOutput config.destination term) :
      Stated config ["output"] term
  | rules {below : List String} {term : Term} : Stated config ("rules" :: below) term

theorem stated_of_has (tracks : Tracks document members)
    (read : ofMembers members = .ok config) {path : List String} {term : Term}
    (has : document.Has path term) : Stated config path term := by
  cases isKnown_of_names tracks read has.names with
  | text isSetting =>
      obtain ⟨text, kept, given⟩ := has_iff_of_names tracks read isSetting has.names
      obtain rfl := (given term).mp has
      exact .text isSetting kept
  | output => exact .output (statesOutput_of_has tracks read has)
  | rules => exact .rules

/-- The induction is on the braces around a path: those of the output have its settings between
them, and there are no others but below the rules. -/
theorem stated_of_gives (tracks : Tracks document members)
    (read : ofMembers members = .ok config) {path : List String} {term : Term}
    (gives : document.Gives path term) : Stated config path term := by
  induction gives with
  | outside has => exact stated_of_has tracks read has
  | @inside path inner pairs term outer mem ih =>
      cases ih with
      | output states =>
          cases states with
          | braces filledPaths sets =>
              obtain ⟨name, rest, rfl⟩ := List.exists_cons_of_ne_nil (filledPaths _ mem)
              obtain ⟨rfl, isName⟩ := sets.known ⟨term, mem⟩
              obtain ⟨field, isField, rfl⟩ := exists_field_of_mem_destinationNames isName
              obtain rfl := (sets.given field isField ⟨term, mem⟩ term).mp mem
              exact .text (outputSetting_mem isField) rfl
      | rules => exact .rules

theorem Stated.isKnown {path : List String} {term : Term} (stated : Stated config path term) :
    IsKnown path := by
  cases stated with
  | text isSetting => exact .text isSetting
  | output => exact .output
  | rules => exact .rules

/-- A setting that is a string is given no other value than the one that is kept. -/
theorem Stated.exists_text {setting : TextSetting} {term : Term}
    (stated : Stated config setting.path term) (isSetting : setting ∈ textSettings) :
    ∃ text, setting.text? config = some text ∧ term = .string text := by
  generalize same : setting.path = path at stated
  cases stated with
  | text isOther kept =>
      obtain rfl := eq_of_mem_textSettings isSetting isOther same
      exact ⟨_, kept, rfl⟩
  | output | rules =>
      rcases textSettings_cases isSetting with rfl | ⟨field, -, rfl⟩
      · simp [sourceSetting] at same
      · simp [outputSetting] at same

/-! ## The parts of a statement -/

theorem given_of_mentions (tracks : Tracks document members)
    (read : ofMembers members = .ok config) {setting : TextSetting}
    (isSetting : setting ∈ textSettings) (mentions : document.Mentions setting.path) :
    ∃ text, setting.text? config = some text ∧
      ∀ term, document.Gives setting.path term ↔ term = .string text := by
  have present : ∃ term, document.Gives setting.path term := by
    generalize same : setting.path = path at mentions
    cases mentions with
    | outside names =>
        obtain ⟨text, -, given⟩ := has_iff_of_names tracks read isSetting (same ▸ names)
        exact ⟨.string text, .outside (same ▸ (given _).mpr rfl)⟩
    | inside outer mem => exact ⟨_, .inside outer mem⟩
  obtain ⟨term, gives⟩ := present
  obtain ⟨text, kept, rfl⟩ := (stated_of_gives tracks read gives).exists_text isSetting
  refine ⟨text, kept, fun also => ⟨fun given => ?_, ?_⟩⟩
  · obtain ⟨again, keptAgain, rfl⟩ := (stated_of_gives tracks read given).exists_text isSetting
    cases kept.symm.trans keptAgain
    rfl
  · rintro rfl
    exact gives

theorem standard_of_not_mentions (tracks : Tracks document members)
    (read : ofMembers members = .ok config) {setting : TextSetting}
    (isSetting : setting ∈ textSettings) (absent : ¬document.Mentions setting.path)
    (unlisted : setting = sourceSetting ∨ ∀ items, ¬document.Gives ["output"] (.array items)) :
    setting.text? config = setting.text? Config.standard := by
  rcases textSettings_cases isSetting with rfl | ⟨field, isField, rfl⟩
  · cases writesSource_of_ofMembers tracks read with
    | absent _ standard => exact standard
    | value _ given => exact absurd (.outside ((given _).mpr rfl).names) absent
  · refine congrArg some ?_
    cases writesOutput_of_ofMembers tracks read with
    | absent _ standard => exact congrArg field.2 standard
    | table _ sets => exact sets.standard field isField fun names => absent (.outside names)
    | value given _ states =>
        cases states _ given with
        | braces _ sets =>
            refine sets.standard field isField ?_
            rintro ⟨term, mem⟩
            exact absent (.inside (.outside given) mem)
        | array =>
            rcases unlisted with same | noArray
            · simp [outputSetting, sourceSetting] at same
            · exact absurd (.outside given) (noArray _)

theorem listed_of_gives (tracks : Tracks document members)
    (read : ofMembers members = .ok config) {items : List Term}
    (gives : document.Gives ["output"] (.array items)) : ListsOutput items config.destination := by
  have stated := stated_of_gives tracks read gives
  generalize same : ["output"] = path at stated
  cases stated with
  | output states =>
      cases states with
      | array lists => exact lists
  | rules => simp at same

/-! ## Rules -/

theorem readRules_cases {value : Value} {rules : List Rule} (read : readRules value = .ok rules) :
    (∃ span items, value = .array span items ∧ items.mapM readRule = .ok rules) ∨
      ∃ span elements, value = .tables span elements ∧ elements.mapM readRule = .ok rules := by
  cases value with
  | array span items => exact .inl ⟨span, items, rfl, read⟩
  | tables span elements => exact .inr ⟨span, elements, rfl, read⟩
  | string | integer | real | boolean | dateTime | table => cases read

/-- What holds of everything that is read one after the other. -/
theorem forall₂_of_mapM {α β γ : Type} {related : α → β → Prop} {holds : α → γ → Prop}
    {read : β → Setting γ} {written : List α} {values : List β} {results : List γ}
    (each : List.Forall₂ related written values) (run : values.mapM read = .ok results)
    (step : ∀ {first second result}, related first second → read second = .ok result →
      holds first result) : List.Forall₂ holds written results := by
  induction each generalizing results with
  | nil =>
      cases run
      exact .nil
  | cons first _ ih =>
      rw [List.mapM_cons] at run
      obtain ⟨result, readFirst, run⟩ := exists_of_bind_eq_ok run
      obtain ⟨others, readOthers, made⟩ := exists_of_bind_eq_ok run
      cases made
      exact .cons (step first readFirst) (ih readOthers)

theorem forall₂_isRule (tracks : Tracks document members)
    (read : ofMembers members = .ok config) :
    List.Forall₂ IsRule (document.elementsOf "rules") config.rules := by
  rw [Toml.Document.elementsOf]
  rcases reads_rules.of_foldlM tracks.filled.distinct read with
    ⟨free, kept⟩ | ⟨value, found, readValue⟩
  · have shown : Shows document "rules" none := free ▸ tracks.shows "rules"
    have noValue (term : Term) : ¬document.Has ["rules"] term := by
      intro given
      obtain ⟨value, found, -⟩ := tracks.filled.kept given
      cases free.symm.trans found
    rw [document.filter_entries_eq_nil noValue, shown.sectionsOf_of_none, kept]
    exact .nil
  have shown : Shows document "rules" (some value) := found ▸ tracks.shows "rules"
  rcases readRules_cases readValue with ⟨span, values, rfl, run⟩ | ⟨span, elements, rfl, run⟩
  · obtain ⟨term, given, means⟩ := tracks.filled.written found rfl
    cases means with
    | other isOther => cases isOther
    | @array items _ _ each =>
        rw [tracks.once given, shown.sectionsOf_of_whole rfl]
        simpa [Toml.Term.items] using forall₂_of_mapM each run isRule_of_means
  · have noValue (term : Term) : ¬document.Has ["rules"] term := by
      intro given
      obtain ⟨value, foundAgain, means⟩ := tracks.filled.kept given
      cases found.symm.trans foundAgain
      cases means.isWhole
    rw [document.filter_entries_eq_nil noValue]
    simpa [List.forall₂_map_left_iff] using
      forall₂_of_mapM shown.elements_of_tables.2 run isRule_of_isElement

theorem states_of_ofMembers (tracks : Tracks document members)
    (read : ofMembers members = .ok config) : States document config where
  known path mentions := by
    cases mentions with
    | outside names => exact isKnown_of_names tracks read names
    | inside outer mem => exact (stated_of_gives tracks read (.inside outer mem)).isKnown
  given _ isSetting mentions := given_of_mentions tracks read isSetting mentions
  standard _ isSetting absent unlisted :=
    standard_of_not_mentions tracks read isSetting absent unlisted
  listed _ gives := listed_of_gives tracks read gives
  rules := forall₂_isRule tracks read

end

/-! ## Texts -/

theorem exists_ofMembers_of_ofText {text : String} {config : Config}
    (read : ofText text = .ok config) :
    ∃ members, Toml.ofText text = .ok members ∧ ofMembers members = .ok config := by
  rw [ofText] at read
  split at read
  · cases read
  · exact ⟨_, ‹_›, of_mapError_eq_ok read⟩

/-- No setting is ignored: a text that is read is written for one document, and this document
states the configuration. -/
theorem exists_states_of_ofText {text : String} {config : Config}
    (read : ofText text = .ok config) :
    ∃ document : Toml.Document,
      (∀ found : Toml.Document, Toml.Writes found text ↔ found = document) ∧
        States document config := by
  obtain ⟨members, readText, readMembers⟩ := exists_ofMembers_of_ofText read
  obtain ⟨document, writes, tracks⟩ := Toml.exists_writes_tracks_of_ofText readText
  refine ⟨document, fun found => ⟨fun also => also.unique writes, ?_⟩,
    states_of_ofMembers tracks readMembers⟩
  rintro rfl
  exact writes

/-- A text with rules before and after the header of the output. -/
def scatteredRules : String :=
  "[[rules]]\ntoken = \"\\u003cn>\"\nreplacement = '#'\n" ++
    "[output]\ndir = \"\"\"\nout\"\"\"\n" ++
    "[[rules]]\nreplacement = \"%\" # a comment\n\"token\" = '<p>'"

theorem exists_states_of_scattered_rules :
    ∃ document : Toml.Document,
      (∀ found : Toml.Document, Toml.Writes found scatteredRules ↔ found = document) ∧
        States document
          ⟨none, { Destination.standard with directory := "out" }, [⟨"<n>", "#"⟩, ⟨"<p>", "%"⟩]⟩ :=
  exists_states_of_ofText (by decide +kernel)

end Config

end GrammarUpgrade
