/-
Elements: what a definition becomes in one language.

The attributes are taken in order; each adds to the element what its name stands
for.  An element without a name of its tag or without an input type is a fault.
-/
import WebForm.Element.Defaults
import WebForm.Element.Localized
import WebForm.Text.Case

namespace WebForm

open WebForm.Text

/-- An element of a form, ready to be written. -/
structure Element where
  name : String
  id : String
  element : String
  label : Phrase
  inputType : Option String := none
  hint : Option Phrase := none
  elementValue : Option String := none
  flags : List String := []
  attributes : List (String × Phrase) := []
deriving DecidableEq

namespace Element

/-- The label of a field that declares none: its name with a capital. -/
def defaultLabel (name : String) : String :=
  match name.toList with
  | [] => ""
  | c :: cs => String.ofList (upperChar c ++ cs)

/-- An element while its attributes are taken. -/
structure Draft where
  element : Option String := none
  inputType : Option String := none
  label : Option Phrase := none
  hint : Option Phrase := none
  elementValue : Option String := none
  flags : List String
  attributes : List (String × Phrase)

namespace Draft

/-- A draft with an attribute set. -/
def set (d : Draft) (key : String) (text : Phrase) : Draft :=
  { d with attributes := Pairs.set d.attributes key text }

/-- Takes an attribute whose name has no meaning of its own. -/
def addOrdinary (d : Draft) (key : String) (v : Value) : Draft :=
  match v with
  | .bool true => { d with flags := d.flags ++ [key] }
  | .bool false => d
  | v => if key = "type" then d else d.set key (.ofText v.declaredText)

/-- Takes one attribute. -/
def add (name : String) (lang : Option String) (d : Draft) (declared : String × Value) :
    Except ConfigurationFault Draft :=
  let (key, v) := declared
  if v.isEmpty then .ok d
  else
    match key with
    | "element" => .ok { d with element := some v.text }
    | "hint" => (v.inLanguage lang (some name)).map fun t => { d with hint := some t }
    | "label" => (v.inLanguage lang (some name)).map fun t => { d with label := some t }
    | "placeholder" => (v.inLanguage lang (some name)).map fun t => d.set "placeholder" t
    | "endpoint" => (v.inLanguage lang (some name)).map fun t => d.set "data-endpoint" t
    | "elementValue" =>
      .ok ({ d with elementValue := some v.attributeText }.set "value" (.ofText v.attributeText))
    | "inputType" => .ok ({ d with inputType := some v.text }.set "type" (.ofText v.text))
    | key => .ok (d.addOrdinary key v)

end Draft

/-- A text that is there and not empty. -/
def nonEmpty (t : Option String) : Option String :=
  t.filter fun s => !s.isEmpty

/-- The attributes of an element, with the defaults for its tag. -/
def complete (element : String) (inputType : Option String) (attributes : List (String × Phrase)) :
    List (String × Phrase) :=
  (withDefaults element inputType (attributes.map fun p => (p.1, some p.2))).map fun p =>
    (p.1, p.2.getD (.ofText ""))

/-- The element of a definition; `idSuffix` ends its id. -/
def ofDefinition (idSuffix : String) (lang : Option String) (d : Definition) :
    Except ConfigurationFault Element := do
  let id := d.name ++ "_" ++ idSuffix
  let start : Draft :=
    { flags := if d.required then ["required"] else [],
      attributes := [("name", .ofText d.name), ("id", .ofText id)] }
  let draft ← d.attributes.foldlM (Draft.add d.name lang) start
  match nonEmpty draft.element, nonEmpty draft.inputType with
  | none, _ => .error (.missingElement d.name)
  | some _, none => .error (.missingInputType d.name)
  | some element, some inputType =>
    .ok {
      name := d.name
      id
      element
      label := (Phrase.nonEmpty? draft.label).getD (.ofText (defaultLabel d.name))
      inputType := some inputType
      hint := draft.hint
      elementValue := draft.elementValue
      flags := draft.flags
      attributes := complete element (some inputType) draft.attributes }

/-- The elements of all definitions in a language. -/
def ofDefinitions (idSuffix : String) (lang : Option String) (definitions : List Definition) :
    Except ConfigurationFault (List Element) := do
  let localized ← Definition.checkConsistency definitions
  if localized && (nonEmpty lang).isNone then .error .missingLanguage
  else definitions.mapM (ofDefinition idSuffix lang)

end Element

end WebForm
