import LowerComments.Settings.Basic
import LowerComments.Settings.Fault
import LowerComments.Toml.Document

/-!
# Settings in a document

A document may have a table `run` with the fields `on_error` and `write_strategy`,
and a table `output` with the field `quiet`. Whatever is not said keeps its default,
and whatever has another name is passed over. The entries of a table are read in the
order of the document, and the first fault decides.

The fields of a table may also be given as an array, in the order of this module;
then they have no names, the last ones may be left out, and what goes beyond the
fields is passed over. A choice may also be given as a table with one entry, the
name of the choice with nothing in it.
-/

set_option autoImplicit false

namespace LowerComments.Settings

/-- A name and what a value under this name does to the settings. -/
structure Field where
  name : String
  assign : Settings → Toml.Value → Except Fault Settings

/-- The effect of one entry of a table that has these fields. -/
def readEntry (fields : List Field) (settings : Settings) (entry : String × Toml.Value) :
    Except Fault Settings :=
  match fields.find? fun field => field.name = entry.1 with
  | some field => field.assign settings entry.2
  | none => .ok settings

/-- The effect of the entries of a table that has these fields. -/
def readEntries (fields : List Field) (settings : Settings) :
    Toml.Table → Except Fault Settings
  | [] => .ok settings
  | entry :: rest =>
    match readEntry fields settings entry with
    | .error fault => .error fault
    | .ok next => readEntries fields next rest

/-- The effect of the elements of an array that gives the fields in their order. -/
def readElements : List Field → Settings → List Toml.Value → Except Fault Settings
  | [], settings, _ => .ok settings
  | _, settings, [] => .ok settings
  | field :: fields, settings, value :: values =>
    match field.assign settings value with
    | .error fault => .error fault
    | .ok next => readElements fields next values

/-- The effect of a value that gives the fields of a table, which a fault calls by this name. A
date or a time counts as a table without any of the fields. -/
def readFields (expected : String) (fields : List Field) (settings : Settings) :
    Toml.Value → Except Fault Settings
  | .table entries => readEntries fields settings entries
  | .array elements => readElements fields settings elements
  | .moment => .ok settings
  | other => .error (.wrongType other.describe expected)

/-! ## Choices -/

/-- Two choices by name. -/
structure Choice (Meaning : Type) where
  first : String × Meaning
  second : String × Meaning

namespace Choice

variable {Meaning : Type}

/-- The choice of that name. -/
def named (choice : Choice Meaning) (name : String) : Except Fault Meaning :=
  if name = choice.first.1 then .ok choice.first.2
  else if name = choice.second.1 then .ok choice.second.2
  else .error (.unknownChoice name choice.first.1 choice.second.1)

/-- A value with nothing in it. -/
def isEmpty : Toml.Value → Bool
  | .table entries => entries.isEmpty
  | .array elements => elements.isEmpty
  | _ => false

/-- The choice that a value makes. -/
def ofValue (choice : Choice Meaning) : Toml.Value → Except Fault Meaning
  | .string name => choice.named name
  | .table [(name, content)] =>
    match choice.named name with
    | .error fault => .error fault
    | .ok meaning => if isEmpty content then .ok meaning else .error .wrongShape
  | _ => .error .wrongShape

end Choice

/-- The policies for failures. -/
def policies : Choice FailurePolicy := ⟨("abort", .abort), ("continue", .proceed)⟩

/-- The strategies for writing files back. -/
def strategies : Choice Strategy := ⟨("in_place", .inPlace), ("atomic", .atomic)⟩

/-- What a value says about a flag. -/
def flagOfValue : Toml.Value → Except Fault Bool
  | .boolean flag => .ok flag
  | other => .error (.wrongType other.describe "a boolean")

/-! ## The fields -/

/-- The field for the policy. -/
def policyField : Field where
  name := "on_error"
  assign settings value :=
    (policies.ofValue value).map fun policy => { settings with onFailure := policy }

/-- The field for the strategy. -/
def strategyField : Field where
  name := "write_strategy"
  assign settings value :=
    (strategies.ofValue value).map fun strategy => { settings with strategy := strategy }

/-- The field for leaving out notes and the closing line. -/
def quietField : Field where
  name := "quiet"
  assign settings value :=
    (flagOfValue value).map fun flag => { settings with quiet := flag }

/-- The table about the run. -/
def runField : Field where
  name := "run"
  assign := readFields "struct RunConfig" [policyField, strategyField]

/-- The table about the output. -/
def outputField : Field where
  name := "output"
  assign := readFields "struct OutputConfig" [quietField]

/-- The settings in a document. -/
def ofTable (table : Toml.Table) : Except Fault Settings :=
  readEntries [runField, outputField] {} table

/-- The settings in a text. -/
def ofText (text : List Char) : Except Fault Settings :=
  match Toml.Document.read? text with
  | none => .error .malformed
  | some table => ofTable table

end LowerComments.Settings
