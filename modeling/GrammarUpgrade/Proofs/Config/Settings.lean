import GrammarUpgrade.Config.Reader
import GrammarUpgrade.Proofs.Toml.Contents

/-!
# Settings that are read

What a configuration that is read from members holds, by the names of the members: a setting
that is there has the string that stands there, one that is not has the standard, and no other
name is there.
-/

namespace GrammarUpgrade.Config

open GrammarUpgrade.Toml (Filled Key Means Members Named Term Value exists_of_bind_eq_ok
  of_mapError_eq_ok)

/-! ## Members one after the other -/

section

variable {σ α : Type} {step : σ → Key × Value → Setting σ} {members : Members} {start final : σ}

/-- Every member was accepted. -/
theorem exists_step_of_mem (run : members.foldlM step start = .ok final) {entry : Key × Value}
    (mem : entry ∈ members) : ∃ before after, step before entry = .ok after := by
  induction members generalizing start with
  | nil => cases mem
  | cons first others ih =>
      obtain ⟨next, taken, run⟩ := exists_of_bind_eq_ok run
      rcases List.mem_cons.mp mem with rfl | mem
      · exact ⟨start, next, taken⟩
      · exact ih run mem

/-- Members of one name decide one part of the outcome, and other members leave it alone. -/
structure Reads (step : σ → Key × Value → Setting σ) (name : String) (get : σ → α)
    (holds : Value → α → Prop) : Prop where
  own : ∀ {state key value next}, key.name = name → step state (key, value) = .ok next →
    holds value (get next)
  others : ∀ {state key value next}, key.name ≠ name → step state (key, value) = .ok next →
    get next = get state

theorem Reads.of_foldlM {name : String} {get : σ → α} {holds : Value → α → Prop}
    (reads : Reads step name get holds) (distinct : members.Distinct)
    (run : members.foldlM step start = .ok final) :
    (members.find? name = none ∧ get final = get start) ∨
      ∃ value, members.find? name = some value ∧ holds value (get final) := by
  induction members generalizing start with
  | nil =>
      cases run
      exact .inl ⟨rfl, rfl⟩
  | cons first rest ih =>
      obtain ⟨key, value⟩ := first
      obtain ⟨next, taken, run⟩ := exists_of_bind_eq_ok run
      obtain ⟨fresh, distinct⟩ := List.nodup_cons.mp distinct
      rw [Members.find?_cons]
      split
      · rename_i same
        have free : Members.find? rest name = none := Members.find?_eq_none_iff.mpr (same ▸ fresh)
        rcases ih distinct run with ⟨-, kept⟩ | ⟨other, found, -⟩
        · exact .inr ⟨value, rfl, kept ▸ reads.own same taken⟩
        · cases free.symm.trans found
      · rename_i different
        rcases ih distinct run with ⟨free, kept⟩ | found
        · exact .inl ⟨free, kept.trans (reads.others different taken)⟩
        · exact .inr found

end

/-! ## Strings -/

theorem exists_of_readString {expected text : String} {value : Value}
    (read : readString expected value = .ok text) : ∃ span, value = .string span text := by
  cases value with
  | string span =>
      cases read
      exact ⟨span, rfl⟩
  | integer | real | boolean | dateTime | array | table | tables => cases read

/-- A string of which the outcome keeps a copy. -/
def KeepsText (value : Value) (kept : Option String) : Prop :=
  ∃ span text, value = .string span text ∧ kept = some text

theorem KeepsText.of_readMember {expected : String} {key : Key} {value : Value} {text : String}
    (read : readMember (readString expected) key value = .ok text) :
    KeepsText value (some text) := by
  obtain ⟨span, same⟩ := exists_of_readString (of_mapError_eq_ok read)
  exact ⟨span, text, same, rfl⟩

theorem KeepsText.isWhole {value : Value} {kept : Option String} (keeps : KeepsText value kept) :
    value.isWhole = true := by
  obtain ⟨span, text, rfl, -⟩ := keeps
  rfl

/-- What is written where a string is kept: the string and nothing else. -/
theorem KeepsText.has_iff {has : List String → Term → Prop} {members : Members} {name : String}
    {value : Value} {kept : Option String} (keeps : KeepsText value kept)
    (filled : Filled has members) (found : members.find? name = some value) :
    ∃ text, kept = some text ∧ ∀ term, has [name] term ↔ term = .string text := by
  obtain ⟨span, text, rfl, rfl⟩ := keeps
  refine ⟨text, rfl, fun term => ⟨fun given => ?_, ?_⟩⟩
  · obtain ⟨value, again, means⟩ := filled.kept given
    cases found.symm.trans again
    cases means with
    | string => rfl
    | other isOther => cases isOther
  · rintro rfl
    obtain ⟨term, given, means⟩ := filled.written found rfl
    cases means with
    | string => exact given
    | other isOther => cases isOther

/-! ## Rules -/

theorem reads_token : Reads ruleMember "token" Rule.Draft.token KeepsText where
  own name taken := by
    rw [ruleMember, if_pos name] at taken
    obtain ⟨text, read, made⟩ := exists_of_bind_eq_ok taken
    cases made
    exact .of_readMember read
  others name taken := by
    rw [ruleMember, if_neg name] at taken
    split at taken
    · obtain ⟨text, read, made⟩ := exists_of_bind_eq_ok taken
      cases made
      rfl
    · cases taken
      rfl

theorem reads_replacement :
    Reads ruleMember "replacement" Rule.Draft.replacement KeepsText where
  own name taken := by
    rw [ruleMember, if_neg (by rw [name]; decide), if_pos name] at taken
    obtain ⟨text, read, made⟩ := exists_of_bind_eq_ok taken
    cases made
    exact .of_readMember read
  others name taken := by
    rw [ruleMember] at taken
    split at taken
    · obtain ⟨text, read, made⟩ := exists_of_bind_eq_ok taken
      cases made
      rfl
    · cases taken
      rfl

/-- A rule that is read from a table has the two strings that are written there. -/
theorem has_iff_of_readRule {has : List String → Term → Prop} {members : Members} {rule : Rule}
    {origin : Toml.Origin} {span : Option Toml.Span} (filled : Filled has members)
    (read : readRule (.table origin span members) = .ok rule) :
    (∀ term, has ["token"] term ↔ term = .string rule.token) ∧
      ∀ term, has ["replacement"] term ↔ term = .string rule.replacement := by
  obtain ⟨⟨token, replacement⟩, run, finished⟩ := exists_of_bind_eq_ok read
  have finish := of_mapError_eq_ok finished
  constructor
  · rcases reads_token.of_foldlM filled.distinct run with ⟨-, absent⟩ | ⟨value, found, keeps⟩
    · obtain rfl : token = none := absent
      cases finish
    · obtain ⟨text, kept, iff⟩ := keeps.has_iff filled found
      obtain rfl : token = some text := kept
      cases replacement with
      | none => cases finish
      | some =>
          cases finish
          exact iff
  · rcases reads_replacement.of_foldlM filled.distinct run with
      ⟨-, absent⟩ | ⟨value, found, keeps⟩
    · obtain rfl : replacement = none := absent
      cases token <;> cases finish
    · obtain ⟨text, kept, iff⟩ := keeps.has_iff filled found
      obtain rfl : replacement = some text := kept
      cases token with
      | none => cases finish
      | some =>
          cases finish
          exact iff

/-- What a rule is written as: a table with the two strings, or an array that begins with
them. -/
inductive IsRule : Term → Rule → Prop
  | named {pairs : List (List String × Term)} {rule : Rule}
      (token : ∀ term, (["token"], term) ∈ pairs ↔ term = .string rule.token)
      (replacement : ∀ term, (["replacement"], term) ∈ pairs ↔ term = .string rule.replacement) :
      IsRule (.braces pairs) rule
  | listed {token replacement : String} {others : List Term} :
      IsRule (.array (.string token :: .string replacement :: others)) ⟨token, replacement⟩

theorem isRule_of_isElement {part : Toml.Section} {element : Value} {rule : Rule}
    (isElement : Toml.IsElement part element) (read : readRule element = .ok rule) :
    IsRule (.braces part.entries) rule := by
  obtain ⟨span, inner, rfl, filled⟩ := isElement
  obtain ⟨token, replacement⟩ := has_iff_of_readRule filled read
  exact .named token replacement

theorem eq_string_of_means {term : Term} {span : Toml.Span} {text : String}
    (means : Means term (.string span text)) : term = .string text := by
  cases means with
  | string => rfl
  | other isOther => cases isOther

theorem isRule_of_means {term : Term} {value : Value} {rule : Rule} (means : Means term value)
    (read : readRule value = .ok rule) : IsRule term rule := by
  cases means with
  | string => cases read
  | other isOther =>
      cases value with
      | integer | real | boolean | dateTime => cases read
      | string | array | table | tables => cases isOther
  | @array items span values each =>
      cases each with
      | nil => cases read
      | cons first each =>
      cases each with
      | nil =>
          obtain ⟨text, read, refused⟩ := exists_of_bind_eq_ok read
          cases refused
      | cons second each =>
          obtain ⟨token, readToken, read⟩ := exists_of_bind_eq_ok read
          obtain ⟨replacement, readReplacement, made⟩ := exists_of_bind_eq_ok read
          cases made
          obtain ⟨span, rfl⟩ := exists_of_readString readToken
          obtain ⟨span, rfl⟩ := exists_of_readString readReplacement
          rw [eq_string_of_means first, eq_string_of_means second]
          exact .listed
  | braces each made =>
      have table : Means (.braces _) (.table .braces none _) := .braces each made
      obtain ⟨token, replacement⟩ := has_iff_of_readRule table.filled_named_of_braces.1 read
      exact .named token replacement

/-! ## The output -/

/-- The settings of the output and where they are kept. -/
def destinationFields : List (String × (Destination → String)) :=
  [("dir", Destination.directory), ("types", Destination.types),
    ("properties", Destination.properties), ("at_rules", Destination.atRules)]

theorem destinationFields_names : destinationFields.map Prod.fst = destinationNames :=
  rfl

/-- Settings of the output have different names. -/
theorem eq_of_mem_destinationFields {first second : String × (Destination → String)}
    (isField : first ∈ destinationFields) (isOther : second ∈ destinationFields)
    (same : first.1 = second.1) : first = second :=
  List.inj_on_of_nodup_map (f := Prod.fst) (by decide) isField isOther same

theorem exists_field_of_mem_destinationNames {name : String} (mem : name ∈ destinationNames) :
    ∃ field ∈ destinationFields, field.1 = name := by
  rw [← destinationFields_names] at mem
  exact List.mem_map.mp mem

/-- A member of the output is one of its settings, and changes this one alone. -/
theorem exists_field_of_destinationMember {destination next : Destination} {key : Key}
    {value : Value} (taken : destinationMember destination (key, value) = .ok next) :
    ∃ field ∈ destinationFields, key.name = field.1 ∧ KeepsText value (some (field.2 next)) ∧
      ∀ other ∈ destinationFields, other.1 ≠ field.1 → other.2 next = other.2 destination := by
  rw [destinationMember] at taken
  split at taken
  · obtain ⟨text, read, made⟩ := exists_of_bind_eq_ok taken
    cases made
    exact ⟨("dir", Destination.directory), by simp [destinationFields], ‹_›,
      .of_readMember read, by simp [destinationFields]⟩
  split at taken
  · obtain ⟨text, read, made⟩ := exists_of_bind_eq_ok taken
    cases made
    exact ⟨("types", Destination.types), by simp [destinationFields], ‹_›,
      .of_readMember read, by simp [destinationFields]⟩
  split at taken
  · obtain ⟨text, read, made⟩ := exists_of_bind_eq_ok taken
    cases made
    exact ⟨("properties", Destination.properties), by simp [destinationFields], ‹_›,
      .of_readMember read, by simp [destinationFields]⟩
  split at taken
  · obtain ⟨text, read, made⟩ := exists_of_bind_eq_ok taken
    cases made
    exact ⟨("at_rules", Destination.atRules), by simp [destinationFields], ‹_›,
      .of_readMember read, by simp [destinationFields]⟩
  · cases taken

theorem reads_destinationMember {field : String × (Destination → String)}
    (isField : field ∈ destinationFields) :
    Reads destinationMember field.1 (fun destination => some (field.2 destination)) KeepsText where
  own name taken := by
    obtain ⟨found, isFound, named, keeps, -⟩ := exists_field_of_destinationMember taken
    obtain rfl := eq_of_mem_destinationFields isField isFound (name.symm.trans named)
    exact keeps
  others name taken := by
    obtain ⟨found, isFound, named, -, others⟩ := exists_field_of_destinationMember taken
    exact congrArg some (others field isField fun same => name (named.trans same.symm))

/-- What the members of the output say about its settings. -/
structure SetsOutput (has : List String → Term → Prop) (named : List String → Prop)
    (destination : Destination) : Prop where
  known : ∀ {name path}, named (name :: path) → path = [] ∧ name ∈ destinationNames
  given : ∀ field ∈ destinationFields, named [field.1] →
    ∀ term, has [field.1] term ↔ term = .string (field.2 destination)
  standard : ∀ field ∈ destinationFields, ¬named [field.1] →
    field.2 destination = field.2 Destination.standard

theorem setsOutput_of_foldlM {has : List String → Term → Prop} {named : List String → Prop}
    {members : Members} {destination : Destination} (filled : Filled has members)
    (isNamed : Named named members)
    (run : members.foldlM destinationMember .standard = .ok destination) :
    SetsOutput has named destination := by
  have known {name : String} {path : List String} (isPath : named (name :: path)) :
      path = [] ∧ name ∈ destinationNames := by
    obtain ⟨value, found⟩ := isNamed.exists_find? isPath
    obtain ⟨key, mem, same⟩ := Members.exists_mem_of_find? found
    obtain ⟨before, after, taken⟩ := exists_step_of_mem run mem
    obtain ⟨field, isField, isName, keeps, -⟩ := exists_field_of_destinationMember taken
    constructor
    · cases path with
      | nil => rfl
      | cons next rest => exact absurd isPath (isNamed.alone found keeps.isWhole next rest)
    · rw [← same, isName, ← destinationFields_names]
      exact List.mem_map_of_mem isField
  refine ⟨known, fun field isField isPath => ?_, fun field isField absent => ?_⟩
  · rcases (reads_destinationMember isField).of_foldlM filled.distinct run with
      ⟨free, -⟩ | ⟨value, found, keeps⟩
    · obtain ⟨value, found⟩ := isNamed.exists_find? isPath
      cases free.symm.trans found
    · obtain ⟨text, kept, iff⟩ := keeps.has_iff filled found
      cases kept
      exact iff
  · rcases (reads_destinationMember isField).of_foldlM filled.distinct run with
      ⟨-, kept⟩ | ⟨value, found, -⟩
    · exact Option.some.inj kept
    · obtain ⟨path, isPath⟩ := (isNamed.present field.1).mpr (by simp [found])
      obtain ⟨rfl, -⟩ := known isPath
      exact absurd isPath absent

/-- An array that lists the settings of the output in order, as far as it goes. -/
def ListsOutput (items : List Term) (destination : Destination) : Prop :=
  ∀ (index : Nat) (field : String × (Destination → String)),
    destinationFields[index]? = some field →
      (∀ term ∈ items[index]?, term = .string (field.2 destination)) ∧
        (items[index]? = none → field.2 destination = field.2 Destination.standard)

theorem destinationFields_cases {index : Nat} {field : String × (Destination → String)}
    (isField : destinationFields[index]? = some field) :
    index = 0 ∧ field = ("dir", Destination.directory) ∨
      index = 1 ∧ field = ("types", Destination.types) ∨
      index = 2 ∧ field = ("properties", Destination.properties) ∨
      index = 3 ∧ field = ("at_rules", Destination.atRules) := by
  rcases index with _ | _ | _ | _ | index <;> simp_all [destinationFields]

/-- The setting at a place of an array, and the standard behind the last place. -/
def readPlace (standard : String) : Option Value → Setting String
  | some value => readPath value
  | none => .ok standard

/-- An array is read place by place. -/
theorem destinationOfElements_eq (elements : List Value) : destinationOfElements elements = do
    return ⟨← readPlace Destination.standard.directory elements[0]?,
      ← readPlace Destination.standard.types elements[1]?,
      ← readPlace Destination.standard.properties elements[2]?,
      ← readPlace Destination.standard.atRules elements[3]?⟩ := by
  rcases elements with _ | ⟨first, _ | ⟨second, _ | ⟨third, _ | ⟨fourth, others⟩⟩⟩⟩ <;> rfl

theorem of_readPlace {standard text : String} {value? : Option Value}
    (read : readPlace standard value? = .ok text) :
    (∀ value ∈ value?, ∃ span, value = .string span text) ∧ (value? = none → text = standard) := by
  cases value? with
  | none =>
      cases read
      simp
  | some value => simpa using exists_of_readString read

/-- Tables are no settings of the output. -/
theorem destinationOfElements_ne_ok {origin : Toml.Origin} {span : Option Toml.Span}
    {members : Members} {others : List Value} {destination : Destination} :
    destinationOfElements (.table origin span members :: others) ≠ .ok destination := by
  intro read
  rw [destinationOfElements_eq] at read
  obtain ⟨directory, first, -⟩ := exists_of_bind_eq_ok read
  cases first

/-- The strings of an array are kept in order. -/
theorem of_destinationOfElements {elements : List Value} {destination : Destination}
    (read : destinationOfElements elements = .ok destination) {index : Nat}
    {field : String × (Destination → String)} (isField : destinationFields[index]? = some field) :
    (∀ value ∈ elements[index]?, ∃ span, value = .string span (field.2 destination)) ∧
      (elements[index]? = none → field.2 destination = field.2 Destination.standard) := by
  rw [destinationOfElements_eq] at read
  obtain ⟨directory, first, read⟩ := exists_of_bind_eq_ok read
  obtain ⟨types, second, read⟩ := exists_of_bind_eq_ok read
  obtain ⟨properties, third, read⟩ := exists_of_bind_eq_ok read
  obtain ⟨atRules, fourth, made⟩ := exists_of_bind_eq_ok read
  cases made
  rcases destinationFields_cases isField with ⟨rfl, rfl⟩ | ⟨rfl, rfl⟩ | ⟨rfl, rfl⟩ | ⟨rfl, rfl⟩
  · exact of_readPlace first
  · exact of_readPlace second
  · exact of_readPlace third
  · exact of_readPlace fourth

theorem listsOutput_of_forall₂ {items : List Term} {values : List Value}
    {destination : Destination} (each : List.Forall₂ Means items values)
    (read : destinationOfElements values = .ok destination) : ListsOutput items destination := by
  intro index field isField
  obtain ⟨given, standard⟩ := of_destinationOfElements read isField
  constructor
  · intro term isTerm
    obtain ⟨inItems, rfl⟩ := List.getElem?_eq_some_iff.mp isTerm
    have inValues : index < values.length := each.length_eq ▸ inItems
    have means := each.get inItems inValues
    obtain ⟨span, same⟩ := given values[index] (List.getElem?_eq_getElem inValues)
    rw [List.get_eq_getElem, List.get_eq_getElem, same] at means
    exact eq_string_of_means means
  · intro absent
    rw [List.getElem?_eq_none_iff, each.length_eq, ← List.getElem?_eq_none_iff] at absent
    exact standard absent

/-! ## The whole configuration -/

theorem setting_eq_ok {config next : Config} {key : Key} {value : Value}
    (taken : setting config (key, value) = .ok next) :
    (key.name = "source" ∧ KeepsText value next.dataset ∧
      next.destination = config.destination ∧ next.rules = config.rules) ∨
    (key.name = "output" ∧ readDestination value = .ok next.destination ∧
      next.dataset = config.dataset ∧ next.rules = config.rules) ∨
    (key.name = "rules" ∧ readRules value = .ok next.rules ∧
      next.dataset = config.dataset ∧ next.destination = config.destination) := by
  rw [setting] at taken
  split at taken
  · obtain ⟨text, read, made⟩ := exists_of_bind_eq_ok taken
    cases made
    exact .inl ⟨‹_›, .of_readMember read, rfl, rfl⟩
  split at taken
  · obtain ⟨destination, read, made⟩ := exists_of_bind_eq_ok taken
    cases made
    exact .inr (.inl ⟨‹_›, of_mapError_eq_ok read, rfl, rfl⟩)
  split at taken
  · obtain ⟨rules, read, made⟩ := exists_of_bind_eq_ok taken
    cases made
    exact .inr (.inr ⟨‹_›, of_mapError_eq_ok read, rfl, rfl⟩)
  · cases taken

theorem mem_settingNames_of_setting {config next : Config} {key : Key} {value : Value}
    (taken : setting config (key, value) = .ok next) : key.name ∈ settingNames := by
  rcases setting_eq_ok taken with ⟨name, -⟩ | ⟨name, -⟩ | ⟨name, -⟩ <;> simp [settingNames, name]

theorem reads_source : Reads setting "source" Config.dataset KeepsText where
  own name taken := by
    rcases setting_eq_ok taken with ⟨-, keeps, -⟩ | ⟨other, -⟩ | ⟨other, -⟩
    · exact keeps
    · simp [name] at other
    · simp [name] at other
  others name taken := by
    rcases setting_eq_ok taken with ⟨same, -⟩ | ⟨-, -, kept, -⟩ | ⟨-, -, kept, -⟩
    · exact absurd same name
    · exact kept
    · exact kept

theorem reads_output : Reads setting "output" Config.destination
    fun value destination => readDestination value = .ok destination where
  own name taken := by
    rcases setting_eq_ok taken with ⟨other, -⟩ | ⟨-, read, -⟩ | ⟨other, -⟩
    · simp [name] at other
    · exact read
    · simp [name] at other
  others name taken := by
    rcases setting_eq_ok taken with ⟨-, -, kept, -⟩ | ⟨same, -⟩ | ⟨-, -, -, kept⟩
    · exact kept
    · exact absurd same name
    · exact kept

theorem reads_rules : Reads setting "rules" Config.rules
    fun value rules => readRules value = .ok rules where
  own name taken := by
    rcases setting_eq_ok taken with ⟨other, -⟩ | ⟨other, -⟩ | ⟨-, read, -⟩
    · simp [name] at other
    · simp [name] at other
    · exact read
  others name taken := by
    rcases setting_eq_ok taken with ⟨-, -, -, kept⟩ | ⟨-, -, -, kept⟩ | ⟨same, -⟩
    · exact kept
    · exact kept
    · exact absurd same name

end GrammarUpgrade.Config
