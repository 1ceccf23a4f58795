/-
Settings: the options of a form, the element around it and the level of the log.

They come from keyword values or a YAML document, laid over what the environment
says; what none of them says has a default.
-/
import WebForm.Settings.Environment
import WebForm.Yaml.Document

namespace WebForm

/-- The settings of an application. -/
structure Settings where
  form : Options := {}
  componentElement : String := "cruddy-form"
  logLevel : String := "INFO"
deriving DecidableEq

/-- Why settings cannot be loaded. -/
inductive SettingsFault where
  /-- A variable of the environment holds no JSON. -/
  | notJson (setting : String)
  | notYaml (f : Yaml.Fault)
  /-- The document is no mapping. -/
  | notMapping (v : Value)
  /-- The document has a key that is no text. -/
  | keyNotText (key : Value)
  | rejected (r : Rejection)

namespace Settings

/-- The settings as fields. -/
def fields : List Field :=
  [{ name := "form", type := .record Options.schema, default := some (Options.toRecord {}) },
    { name := "component_element", type := .str, default := some (.str "cruddy-form") },
    { name := "log_level", type := .str, default := some (.str "INFO") }]

/-- The schema of settings. -/
def schema : Schema := { name := "Settings", fields, config := { extras := .forbid } }

/-- The settings that a checked value holds. -/
def ofValue : Value → Settings
  | .record _ _ pairs =>
    { form := Options.ofValue ((Pairs.get? pairs "form").getD .null)
      componentElement := (Options.text? pairs "component_element").getD ""
      logLevel := (Options.text? pairs "log_level").getD "" }
  | _ => {}

/-- What the environment says of each setting. -/
def ofEnvironment (env : List (String × String)) :
    Except SettingsFault (List (String × Value)) :=
  let vars := Environment.variablesByName env
  match Environment.form? vars with
  | none => .error (.notJson "form")
  | some form =>
    let named (name : String) (v : Option Value) := v.toList.map fun v => (name, v)
    .ok (named "form" form
      ++ named "component_element" (Environment.text? vars "component_element")
      ++ named "log_level" (Environment.text? vars "log_level"))

/-- Keyword values with the settings first, in their order. -/
def arranged (given : List (String × Value)) : List (String × Value) :=
  let names := fields.map (·.name)
  (names.filterMap fun n => (Pairs.get? given n).map fun v => (n, v))
    ++ given.filter fun p => !names.contains p.1

/-- Loads settings from the environment and from keyword values, which win. -/
def load (env : List (String × String)) (given : List (String × Value)) :
    Except SettingsFault Settings :=
  match ofEnvironment env with
  | .error e => .error e
  | .ok below =>
    let all := Value.overlay (Value.ofPairs below) (Value.ofPairs (arranged given))
    match schema.check none all with
    | .error r => .error (.rejected r)
    | .ok c => .ok (ofValue c.value)

/-- A value that counts as no settings at all. -/
def isBlank : Value → Bool
  | .null | .bool false | .int 0 | .str "" => true
  | .float x => x.toInt? = some 0
  | .list items | .set items => items.isEmpty
  | .map entries => entries.isEmpty
  | _ => false

/-- The keyword values that a document holds. -/
def ofDocument (v : Value) : Except SettingsFault (List (String × Value)) :=
  if isBlank v then .ok []
  else
    match v with
    | .map entries =>
      entries.mapM fun e =>
        match e.1 with
        | .str k => .ok (k, e.2)
        | k => .error (.keyNotText k)
    | v => .error (.notMapping v)

/-- Loads settings from the environment and from a YAML document, which wins. -/
def loadYaml (env : List (String × String)) (text : String) : Except SettingsFault Settings :=
  match Yaml.read text with
  | .error f => .error (.notYaml f)
  | .ok v =>
    match ofDocument v with
    | .error e => .error e
    | .ok given => load env given

end Settings

end WebForm
