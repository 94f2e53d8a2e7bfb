import LowerComments.Proofs.Settings.Effect
import LowerComments.Proofs.Settings.Fields

/-!
# The settings in a document

Three keys of a document have a meaning: `on_error` and `write_strategy` in the table `run`, and
`quiet` in the table `output`. Each of them settles one part of the settings when it is there, and
otherwise the default holds (`Gives`). Loading a document answers the settings that it gives, and
it is a fault of the document when it gives none (`load_document`). What else it holds, where its
entries stand and how they are written does not matter, because all of this is gone once a
value is looked up by its name.

The theorem is about documents in which the tables of the settings are tables and the choices are
strings (`IsTyped`). The reader also takes other values for some of these.
-/

set_option autoImplicit false

namespace LowerComments.Settings

open Toml

/-! ## What a document gives -/

/-- The value that a document gives to a key of one of its tables. -/
def given? (table : Table) (outer inner : String) : Option Value :=
  match table.lookup outer with
  | some (.table entries) => entries.lookup inner
  | _ => none

/-- The tables of the settings are tables, and the choices in them are strings. -/
structure IsTyped (table : Table) : Prop where
  run : ∀ value, table.lookup "run" = some value → ∃ entries, value = .table entries
  output : ∀ value, table.lookup "output" = some value → ∃ entries, value = .table entries
  policy : ∀ value, given? table "run" "on_error" = some value → ∃ name, value = .string name
  strategy : ∀ value, given? table "run" "write_strategy" = some value →
    ∃ name, value = .string name

/-- What a value means as a policy. -/
inductive MeansPolicy : Value → FailurePolicy → Prop where
  | abort : MeansPolicy (.string "abort") .abort
  | proceed : MeansPolicy (.string "continue") .proceed

/-- What a value means as a strategy. -/
inductive MeansStrategy : Value → Strategy → Prop where
  | inPlace : MeansStrategy (.string "in_place") .inPlace
  | atomic : MeansStrategy (.string "atomic") .atomic

/-- What a value means as a flag. -/
inductive MeansFlag : Value → Bool → Prop where
  | boolean (flag : Bool) : MeansFlag (.boolean flag) flag

/-- The settings are what a document gives, and the defaults where it gives nothing. -/
structure Gives (table : Table) (settings : Settings) : Prop where
  policy : Settles MeansPolicy .abort (given? table "run" "on_error") settings.onFailure
  strategy : Settles MeansStrategy .inPlace (given? table "run" "write_strategy")
    settings.strategy
  quiet : Settles MeansFlag false (given? table "output" "quiet") settings.quiet

/-! ## The fields -/

/-- A string is one of the two names of a choice, when it makes a choice. -/
theorem Choice.ofValue_string_cases {Meaning : Type} {choice : Choice Meaning} {name : String}
    {meaning : Meaning} (named : choice.ofValue (.string name) = .ok meaning) :
    name = choice.first.1 ∧ meaning = choice.first.2 ∨
      name = choice.second.1 ∧ meaning = choice.second.2 := by
  rw [Choice.ofValue, Choice.named] at named
  by_cases first : name = choice.first.1
  · rw [if_pos first] at named
    exact .inl ⟨first, (Except.ok.inj named).symm⟩
  · by_cases second : name = choice.second.1
    · rw [if_neg first, if_pos second] at named
      exact .inr ⟨second, (Except.ok.inj named).symm⟩
    · rw [if_neg first, if_neg second] at named
      exact absurd named (by simp)

theorem MeansPolicy.ofValue {value : Value} {policy : FailurePolicy}
    (means : MeansPolicy value policy) : policies.ofValue value = .ok policy := by
  cases means <;> rfl

theorem MeansStrategy.ofValue {value : Value} {strategy : Strategy}
    (means : MeansStrategy value strategy) : strategies.ofValue value = .ok strategy := by
  cases means <;> rfl

theorem MeansFlag.ofValue {value : Value} {flag : Bool} (means : MeansFlag value flag) :
    flagOfValue value = .ok flag := by
  cases means
  rfl

theorem meansPolicy_of_ofValue {name : String} {policy : FailurePolicy}
    (named : policies.ofValue (.string name) = .ok policy) :
    MeansPolicy (.string name) policy := by
  rcases Choice.ofValue_string_cases named with ⟨rfl, rfl⟩ | ⟨rfl, rfl⟩
  · exact .abort
  · exact .proceed

theorem meansStrategy_of_ofValue {name : String} {strategy : Strategy}
    (named : strategies.ofValue (.string name) = .ok strategy) :
    MeansStrategy (.string name) strategy := by
  rcases Choice.ofValue_string_cases named with ⟨rfl, rfl⟩ | ⟨rfl, rfl⟩
  · exact .inPlace
  · exact .atomic

theorem meansFlag_of_ofValue {value : Value} {flag : Bool} (said : flagOfValue value = .ok flag) :
    MeansFlag value flag := by
  unfold flagOfValue at said
  split at said
  · obtain rfl := Except.ok.inj said
    exact .boolean _
  · exact absurd said (by simp)

/-! ## The parts of the settings -/

section Parts

variable {Part Meaning : Type} {part : Settings → Part} {means : Value → Part → Prop}
  {fields : List Field} {field : Field} {reads : Value → Except Fault Meaning}
  {put : Settings → Meaning → Settings}

theorem map_eq_ok_iff {Error Given Made : Type} {given : Except Error Given} {make : Given → Made}
    {made : Made} : given.map make = .ok made ↔ ∃ value, given = .ok value ∧ make value = made := by
  cases given <;> simp [Except.map]

/-- A field that puts a value in one place leaves the others alone. -/
theorem keeps_of_map
    (assigns : ∀ settings value, field.assign settings value = (reads value).map (put settings))
    (same : ∀ settings meaning, part (put settings meaning) = part settings) :
    field.Keeps part := by
  intro settings value next assigned
  rw [assigns] at assigned
  obtain ⟨meaning, -, rfl⟩ := map_eq_ok_iff.mp assigned
  exact same settings meaning

theorem policyField_keeps
    (same : ∀ settings policy, part { settings with onFailure := policy } = part settings) :
    policyField.Keeps part :=
  keeps_of_map (fun _ _ => rfl) same

theorem strategyField_keeps
    (same : ∀ settings strategy, part { settings with strategy := strategy } = part settings) :
    strategyField.Keeps part :=
  keeps_of_map (fun _ _ => rfl) same

theorem quietField_keeps
    (same : ∀ settings quiet, part { settings with quiet := quiet } = part settings) :
    quietField.Keeps part :=
  keeps_of_map (fun _ _ => rfl) same

/-- A field that puts a value in one place governs what stands there. -/
theorem governs_of_map {part : Settings → Meaning}
    (found : fields.find? (fun other => other.name = field.name) = some field)
    (assigns : ∀ settings value, field.assign settings value = (reads value).map (put settings))
    (puts : ∀ settings meaning, part (put settings meaning) = meaning)
    (others : ∀ other ∈ fields, other.name = field.name ∨ other.Keeps part) :
    Governs fields field.name part fun value _ after => reads value = .ok after := by
  refine .of_field found (fun settings value next assigned => ?_) others
  rw [assigns] at assigned
  obtain ⟨meaning, given, rfl⟩ := map_eq_ok_iff.mp assigned
  rw [given, puts]

theorem governs_policy : Governs [policyField, strategyField] policyField.name Settings.onFailure
    fun value _ after => policies.ofValue value = .ok after :=
  governs_of_map rfl (fun _ _ => rfl) (fun _ _ => rfl) (List.forall_mem_cons.mpr
    ⟨.inl rfl, List.forall_mem_singleton.mpr (.inr (strategyField_keeps fun _ _ => rfl))⟩)

theorem governs_strategy : Governs [policyField, strategyField] strategyField.name
    Settings.strategy fun value _ after => strategies.ofValue value = .ok after :=
  governs_of_map rfl (fun _ _ => rfl) (fun _ _ => rfl) (List.forall_mem_cons.mpr
    ⟨.inr (policyField_keeps fun _ _ => rfl), List.forall_mem_singleton.mpr (.inl rfl)⟩)

theorem governs_quiet : Governs [quietField] quietField.name Settings.quiet
    fun value _ after => flagOfValue value = .ok after :=
  governs_of_map rfl (fun _ _ => rfl) (fun _ _ => rfl) (List.forall_mem_singleton.mpr (.inl rfl))

/-- A part of the settings is what a table means for it under a name. -/
def InTable (name : String) (means : Value → Part → Prop) (value : Value) (before after : Part) :
    Prop :=
  ∀ entries, value = .table entries → DistinctNames entries →
    Settles means before (entries.lookup name) after

theorem Governs.readFields {name expected : String} {settings next : Settings} {value : Value}
    (governs : Governs fields name part fun value _ after => means value after)
    (read : readFields expected fields settings value = .ok next) :
    InTable name means value (part settings) (part next) := by
  rintro entries rfl distinct
  exact governs.readEntries distinct read

theorem governs_run {name : String}
    (governs : Governs [policyField, strategyField] name part
      fun value _ after => means value after)
    (keeps : quietField.Keeps part) :
    Governs [runField, outputField] runField.name part (InTable name means) :=
  .of_field rfl (fun _ _ _ read => governs.readFields read) (List.forall_mem_cons.mpr
    ⟨.inl rfl, List.forall_mem_singleton.mpr
      (.inr fun _ _ _ read => part_readFields (List.forall_mem_singleton.mpr keeps) read)⟩)

theorem governs_output {name : String}
    (governs : Governs [quietField] name part fun value _ after => means value after)
    (keeps : ∀ field ∈ [policyField, strategyField], field.Keeps part) :
    Governs [runField, outputField] outputField.name part (InTable name means) :=
  .of_field rfl (fun _ _ _ read => governs.readFields read) (List.forall_mem_cons.mpr
    ⟨.inr fun _ _ _ read => part_readFields keeps read, List.forall_mem_singleton.mpr (.inl rfl)⟩)

/-- What a document without fault gives for a key, a part of the settings becomes. -/
theorem Governs.settles {outer inner : String} {table : Table} {settings : Settings}
    (governs : Governs [runField, outputField] outer part (InTable inner means))
    (distinct : (Value.table table).Distinct)
    (typed : ∀ value, table.lookup outer = some value → ∃ entries, value = .table entries)
    (read : ofTable table = .ok settings) :
    Settles means (part {}) (given? table outer inner) (part settings) := by
  have settled := governs.readEntries distinct.names read
  unfold given?
  cases found : table.lookup outer with
  | none => rwa [found] at settled
  | some value =>
    obtain ⟨entries, rfl⟩ := typed value found
    rw [found] at settled
    exact settled entries rfl (distinct.of_lookup found).names

end Parts

/-! ## Reading a document -/

section Reading

variable {table : Table} {settings next : Settings}

/-- **The settings that are read are the given ones.** -/
theorem gives_of_ofTable (distinct : (Value.table table).Distinct) (typed : IsTyped table)
    (read : ofTable table = .ok settings) : Gives table settings := by
  have policy := (governs_run governs_policy (quietField_keeps fun _ _ => rfl)).settles
    distinct typed.run read
  have strategy := (governs_run governs_strategy (quietField_keeps fun _ _ => rfl)).settles
    distinct typed.run read
  have quiet := (governs_output governs_quiet (List.forall_mem_cons.mpr
    ⟨policyField_keeps fun _ _ => rfl, List.forall_mem_singleton.mpr
      (strategyField_keeps fun _ _ => rfl)⟩)).settles distinct typed.output read
  refine ⟨policy.imp fun value given named => ?_, strategy.imp fun value given named => ?_,
    quiet.imp fun value given said => meansFlag_of_ofValue said⟩
  · obtain ⟨name, rfl⟩ := typed.policy value given
    exact meansPolicy_of_ofValue named
  · obtain ⟨name, rfl⟩ := typed.strategy value given
    exact meansStrategy_of_ofValue named

/-- What stands in a table of a document is what the document gives. -/
theorem given?_of_mem (distinct : (Value.table table).Distinct) {outer inner : String}
    {entries : Table} {value : Value} (there : (outer, .table entries) ∈ table)
    (within : (inner, value) ∈ entries) : given? table outer inner = some value := by
  have found := distinct.names.lookup_of_mem there
  rw [given?, found]
  exact (distinct.of_lookup found).names.lookup_of_mem within

/-- **Settings that are given are read**, whatever else the document holds. -/
theorem exists_ofTable (distinct : (Value.table table).Distinct) (typed : IsTyped table)
    (gives : Gives table settings) : ∃ next, ofTable table = .ok next := by
  have takes {Meaning : Type} {given : Except Fault Meaning} {meaning : Meaning}
      (make : Meaning → Settings) (same : given = .ok meaning) :
      ∃ next, given.map make = .ok next := ⟨_, map_eq_ok_iff.mpr ⟨meaning, same, rfl⟩⟩
  refine exists_readEntries (List.forall_mem_cons.mpr ⟨?_, List.forall_mem_singleton.mpr ?_⟩) {}
  · intro value there
    obtain ⟨entries, rfl⟩ := typed.run value (distinct.names.lookup_of_mem there)
    refine exists_readEntries
      (List.forall_mem_cons.mpr ⟨?_, List.forall_mem_singleton.mpr ?_⟩)
    · intro value within settings
      have given : given? table "run" "on_error" = some value :=
        given?_of_mem distinct there within
      have policy := gives.policy
      rw [given] at policy
      exact takes _ (MeansPolicy.ofValue policy)
    · intro value within settings
      have given : given? table "run" "write_strategy" = some value :=
        given?_of_mem distinct there within
      have strategy := gives.strategy
      rw [given] at strategy
      exact takes _ (MeansStrategy.ofValue strategy)
  · intro value there
    obtain ⟨entries, rfl⟩ := typed.output value (distinct.names.lookup_of_mem there)
    refine exists_readEntries (List.forall_mem_singleton.mpr fun value within settings => ?_)
    have given : given? table "output" "quiet" = some value :=
      given?_of_mem distinct there within
    have quiet := gives.quiet
    rw [given] at quiet
    exact takes _ (MeansFlag.ofValue quiet)

/-- A document gives one collection of settings. -/
theorem Gives.unique (gives : Gives table settings) (gives' : Gives table next) :
    next = settings := by
  have policy := gives'.policy.unique gives.policy fun _ _ _ left right =>
    Except.ok.inj (left.ofValue.symm.trans right.ofValue)
  have strategy := gives'.strategy.unique gives.strategy fun _ _ _ left right =>
    Except.ok.inj (left.ofValue.symm.trans right.ofValue)
  have quiet := gives'.quiet.unique gives.quiet fun _ _ _ left right =>
    Except.ok.inj (left.ofValue.symm.trans right.ofValue)
  cases next
  cases settings
  simp only at policy strategy quiet
  rw [policy, strategy, quiet]

/-- **Reading a document answers the settings that it gives**, and no others. -/
theorem ofTable_eq_ok_iff (distinct : (Value.table table).Distinct) (typed : IsTyped table) :
    ofTable table = .ok settings ↔ Gives table settings := by
  refine ⟨gives_of_ofTable distinct typed, fun gives => ?_⟩
  obtain ⟨next, read⟩ := exists_ofTable distinct typed gives
  rw [read, gives.unique (gives_of_ofTable distinct typed read)]

section User

variable {tree : Tree} {directory : Path} {text : List Char}

/-- The file of the user says what reading it as a document answers. -/
theorem said_eq_ofTable (document : Document.read? text = some table)
    (reading : tree.reading? (directory.join userName) = some (.ok (Utf8.encode text))) :
    said tree directory = (ofTable table).mapError .settings := by
  have answers : Answers (tree.reading? (directory.join userName))
      ((ofTable table).mapError .settings) := by
    have answers := Answers.text text
    rwa [ofText, document, ← reading] at answers
  exact answers_iff.mp answers

/-- **The file of the user says what its document gives.** -/
theorem said_eq_ok_iff (document : Document.read? text = some table) (typed : IsTyped table)
    (reading : tree.reading? (directory.join userName) = some (.ok (Utf8.encode text))) :
    said tree directory = .ok settings ↔ Gives table settings := by
  rw [said_eq_ofTable document reading,
    ← ofTable_eq_ok_iff (Document.distinct_of_read? document) typed]
  cases ofTable table <;> simp [Except.mapError]

end User

end Reading

/-! ## Loading a document -/

/-- The file of the user is this document, the tables of the settings are tables in it and the
choices are strings, and the note about the file can be written. -/
structure LoadsFrom (styled : Bool) (tree : Tree) (directory : Path) (notes : Writer)
    (table : Table) : Prop where
  document : ∃ text, Document.read? text = some table ∧
    (provideExample tree directory).reading? (directory.join userName) =
      some (.ok (Utf8.encode text))
  typed : IsTyped table
  takes : notes.fits (Report.noteLine styled (directory.join userName)) = true

section Loading

variable {styled styled' quiet quiet' : Bool} {tree tree' : Tree} {directory directory' : Path}
  {notes notes' : Writer} {table table' : Table} {settings : Settings}

theorem LoadsFrom.distinct (loads : LoadsFrom styled tree directory notes table) :
    (Value.table table).Distinct := by
  obtain ⟨text, read, -⟩ := loads.document
  exact Document.distinct_of_read? read

/-- Loading a document answers what reading it answers. -/
theorem LoadsFrom.result_load (loads : LoadsFrom styled tree directory notes table) (quiet : Bool) :
    (load styled quiet tree directory notes).result = (ofTable table).mapError .settings := by
  obtain ⟨text, read, reading⟩ := loads.document
  rw [load_eq_of_takes styled quiet tree directory loads.takes]
  exact said_eq_ofTable read reading

theorem LoadsFrom.result_load_eq_ok_iff (loads : LoadsFrom styled tree directory notes table)
    (quiet : Bool) :
    (load styled quiet tree directory notes).result = .ok settings ↔ Gives table settings := by
  obtain ⟨text, read, reading⟩ := loads.document
  rw [load_eq_of_takes styled quiet tree directory loads.takes]
  exact said_eq_ok_iff read loads.typed reading

theorem LoadsFrom.result_load_cases (loads : LoadsFrom styled tree directory notes table)
    (quiet : Bool) :
    (∃ settings, (load styled quiet tree directory notes).result = .ok settings) ∨
      ∃ cause, (load styled quiet tree directory notes).result = .error (.settings cause) := by
  rw [loads.result_load]
  cases ofTable table with
  | error cause => exact .inr ⟨cause, rfl⟩
  | ok settings => exact .inl ⟨settings, rfl⟩

/-- **A document gives settings** when what it gives as a choice is one of the two names, and what
it gives as a flag is one. -/
theorem exists_gives_iff : (∃ settings, Gives table settings) ↔
    (∀ value, given? table "run" "on_error" = some value →
      value = .string "abort" ∨ value = .string "continue") ∧
    (∀ value, given? table "run" "write_strategy" = some value →
      value = .string "in_place" ∨ value = .string "atomic") ∧
    ∀ value, given? table "output" "quiet" = some value → ∃ flag, value = .boolean flag := by
  constructor
  · rintro ⟨settings, policy, strategy, quiet⟩
    obtain ⟨onFailure, strategy', flag⟩ := settings
    refine ⟨fun value given => ?_, fun value given => ?_, fun value given => ?_⟩
    · rw [given] at policy
      cases (policy : MeansPolicy value onFailure) with
      | abort => exact .inl rfl
      | proceed => exact .inr rfl
    · rw [given] at strategy
      cases (strategy : MeansStrategy value strategy') with
      | inPlace => exact .inl rfl
      | atomic => exact .inr rfl
    · rw [given] at quiet
      cases (quiet : MeansFlag value flag) with
      | boolean flag => exact ⟨flag, rfl⟩
  · rintro ⟨policy, strategy, quiet⟩
    have policy : ∃ meaning, Settles MeansPolicy .abort (given? table "run" "on_error") meaning :=
      exists_settles fun value given => by
        rcases policy value given with rfl | rfl
        · exact ⟨_, .abort⟩
        · exact ⟨_, .proceed⟩
    have strategy : ∃ meaning,
        Settles MeansStrategy .inPlace (given? table "run" "write_strategy") meaning :=
      exists_settles fun value given => by
        rcases strategy value given with rfl | rfl
        · exact ⟨_, .inPlace⟩
        · exact ⟨_, .atomic⟩
    have quiet : ∃ meaning, Settles MeansFlag false (given? table "output" "quiet") meaning :=
      exists_settles fun value given => by
        obtain ⟨flag, rfl⟩ := quiet value given
        exact ⟨_, .boolean flag⟩
    obtain ⟨⟨onFailure, policy⟩, ⟨strategy', strategy⟩, ⟨flag, quiet⟩⟩ := policy, strategy, quiet
    exact ⟨⟨onFailure, strategy', flag⟩, policy, strategy, quiet⟩

/-- Documents that agree on the three keys give the same settings. -/
theorem Gives.of_agree (gives : Gives table settings)
    (policy : given? table' "run" "on_error" = given? table "run" "on_error")
    (strategy : given? table' "run" "write_strategy" = given? table "run" "write_strategy")
    (quiet : given? table' "output" "quiet" = given? table "output" "quiet") :
    Gives table' settings :=
  ⟨policy ▸ gives.policy, strategy ▸ gives.strategy, quiet ▸ gives.quiet⟩

/-- **Loading a document answers the settings that it gives**, and nothing else in the document
matters. -/
theorem load_document (quiet : Bool) (loads : LoadsFrom styled tree directory notes table) :
    let result := (load styled quiet tree directory notes).result
    (Value.table table).Distinct ∧
    (∀ settings, result = .ok settings ↔ Gives table settings) ∧
    ((∃ settings, result = .ok settings) ↔
      (∀ value, given? table "run" "on_error" = some value →
        value = .string "abort" ∨ value = .string "continue") ∧
      (∀ value, given? table "run" "write_strategy" = some value →
        value = .string "in_place" ∨ value = .string "atomic") ∧
      ∀ value, given? table "output" "quiet" = some value → ∃ flag, value = .boolean flag) ∧
    ((∀ settings, result ≠ .ok settings) → ∃ cause, result = .error (.settings cause)) ∧
    ∀ (styled' quiet' : Bool) (tree' : Tree) (directory' : Path) (notes' : Writer)
      (table' : Table), LoadsFrom styled' tree' directory' notes' table' →
      given? table' "run" "on_error" = given? table "run" "on_error" →
      given? table' "run" "write_strategy" = given? table "run" "write_strategy" →
      given? table' "output" "quiet" = given? table "output" "quiet" →
      let result' := (load styled' quiet' tree' directory' notes').result
      (∃ settings, result = .ok settings ∧ result' = .ok settings) ∨
        ∃ cause cause', result = .error (.settings cause) ∧
          result' = .error (.settings cause') := by
  refine ⟨loads.distinct, fun settings => loads.result_load_eq_ok_iff quiet, ?_, ?_, ?_⟩
  · simp only [loads.result_load_eq_ok_iff quiet, exists_gives_iff]
  · intro refused
    exact (loads.result_load_cases quiet).resolve_left fun ⟨settings, read⟩ => refused settings read
  · intro styled' quiet' tree' directory' notes' table' loads' policy strategy flag
    rcases loads.result_load_cases quiet with ⟨settings, read⟩ | ⟨cause, faulty⟩
    · have gives := (loads.result_load_eq_ok_iff quiet).mp read
      have gives' := gives.of_agree policy strategy flag
      exact .inl ⟨settings, read, (loads'.result_load_eq_ok_iff quiet').mpr gives'⟩
    · refine .inr ?_
      rcases loads'.result_load_cases quiet' with ⟨settings, read⟩ | ⟨cause', faulty'⟩
      · have gives' := (loads'.result_load_eq_ok_iff quiet').mp read
        have gives := gives'.of_agree policy.symm strategy.symm flag.symm
        have read := (loads.result_load_eq_ok_iff quiet).mpr gives
        exact absurd (faulty.symm.trans read) (by simp)
      · exact ⟨cause, cause', faulty, faulty'⟩

end Loading

/-- The text `run={on_error='continue',x=[1,{}]}`, with a table in braces. -/
def bracedText : List Char :=
  ['r', 'u', 'n', '=', '\x7b', 'o', 'n', '_', 'e', 'r', 'r', 'o', 'r', '=', '\'', 'c', 'o', 'n',
    't', 'i', 'n', 'u', 'e', '\'', ',', 'x', '=', '[', '1', ',', '\x7b', '\x7d', ']', '\x7d']

/-- The lines `x.y=1`, `[run.more]`, `[run]`, `'on_error'='continue'` and `[[z]]`. -/
def headedText : List Char :=
  ['x', '.', 'y', '=', '1', '\n', '[', 'r', 'u', 'n', '.', 'm', 'o', 'r', 'e', ']', '\n', '[', 'r',
    'u', 'n', ']', '\n', '\'', 'o', 'n', '_', 'e', 'r', 'r', 'o', 'r', '\'', '=', '\'', 'c', 'o',
    'n', 't', 'i', 'n', 'u', 'e', '\'', '\n', '[', '[', 'z', ']', ']']

/-- A directory with this text as the file of the user. -/
def textTree (text : List Char) : Tree :=
  (({} : Tree).setEntry [Bytes.ofString "d"] (.directory 0o755 false)).addFile
    [userName, Bytes.ofString "d"] { content := Utf8.encode text }

theorem loadsFrom_textTree {text : List Char} {table : Table}
    (read : Document.read? text = some table) (typed : IsTyped table) :
    LoadsFrom false (textTree text) (Bytes.ofString "d") {} table where
  document := ⟨text, read, rfl⟩
  typed := typed
  takes := Writer.fits_new _

/-- The same key in two notations. -/
theorem load_document_notations :
    let table := [("run", Value.table [("on_error", .string "continue"),
      ("x", .array [.integer 1, .table []])])]
    let table' := [("x", Value.table [("y", .integer 1)]),
      ("run", .table [("more", .table []), ("on_error", .string "continue")]),
      ("z", .array [.table []])]
    let directory := Bytes.ofString "d"
    LoadsFrom false (textTree bracedText) directory {} table ∧
      LoadsFrom false (textTree headedText) directory {} table' ∧
      (load false false (textTree bracedText) directory {}).result =
        .ok { onFailure := .proceed } ∧
      (load false false (textTree headedText) directory {}).result =
        .ok { onFailure := .proceed } := by
  intro table table' directory
  have braced : LoadsFrom false (textTree bracedText) directory {} table :=
    loadsFrom_textTree rfl
      ⟨by simp [table], by simp [table, lookup_cons], by simp [table, given?],
        by simp [table, given?, lookup_cons]⟩
  have headed : LoadsFrom false (textTree headedText) directory {} table' :=
    loadsFrom_textTree rfl
      ⟨by simp [table', lookup_cons], by simp [table', lookup_cons],
        by simp [table', given?, lookup_cons], by simp [table', given?, lookup_cons]⟩
  obtain ⟨-, reads, -, -, agree⟩ := load_document false braced
  have gives : Gives table { onFailure := .proceed } := ⟨.proceed, rfl, rfl⟩
  have first := (reads _).mpr gives
  rcases agree false false (textTree headedText) directory {} table' headed rfl rfl rfl with
    ⟨settings, read, same⟩ | ⟨cause, _, faulty, -⟩
  · obtain rfl := Except.ok.inj (first.symm.trans read)
    exact ⟨braced, headed, read, same⟩
  · exact absurd (first.symm.trans faulty) (by simp)

end LowerComments.Settings
