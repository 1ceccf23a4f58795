/-
Definitions: the ordered attributes that a field declares for its element.

The declared attributes come first, unchanged; limits on the length and the
pattern follow where no attribute of that name is declared.
-/
import WebForm.Check.Limit
import WebForm.Schema.Name

namespace WebForm

/-- A field as its element sees it. -/
structure Definition where
  name : String
  required : Bool
  attributes : List (String × Value)

/-- What is written down for a field's element when it is declared as a form field. -/
structure Declaration where
  element : Value
  inputType : Value
  label : Value := .null
  hint : Value := .null
  endpoint : Value := .null
  placeholder : Value := .null
  elementValue : Value := .null
  /-- All other attributes; underscores at the end of a name are no part of it. -/
  others : List (String × Value) := []

namespace Declaration

/-- A name without the underscores at its end. -/
def bareName (name : String) : String :=
  String.ofList (name.toList.reverse.dropWhile (· = '_')).reverse

/-- The attributes that a declaration can leave out, with those that it has. -/
def optional (d : Declaration) : List (String × Value) :=
  [("label", d.label), ("hint", d.hint), ("endpoint", d.endpoint),
    ("placeholder", d.placeholder), ("elementValue", d.elementValue)].filter fun p => p.2 != .null

/-- The attributes of a declaration in order. -/
def attributes (d : Declaration) : List (String × Value) :=
  Pairs.setAll ([("element", d.element), ("inputType", d.inputType)] ++ d.optional)
    (d.others.map fun p => (bareName p.1, p.2))

end Declaration

namespace Definition

/-- The attributes that limits give rise to, in order; of two limits the last counts. -/
def ofLimits (ls : List Limit) : List (String × Value) :=
  [("minLength", (Limit.least? ls).map fun n => Value.int n),
    ("maxLength", (Limit.most? ls).map fun n => Value.int n),
    ("pattern", (Limit.pattern? ls).map fun p => Value.str p.source)].filterMap fun p =>
      p.2.map fun v => (p.1, v)

/-- Adds the pairs whose keys are not there. -/
def addMissing (pairs more : List (String × Value)) : List (String × Value) :=
  pairs ++ more.filter fun p => !Pairs.has pairs p.1

/-- The definition of a field. -/
def ofField (c : Config) (f : Field) : Definition where
  name := f.formName c
  required := f.isRequired
  attributes := addMissing (f.declared.getD []) (ofLimits f.allLimits)

end Definition

/-- The definitions of a schema's fields. -/
def SchemaOf.definitions (schema : Schema) : List Definition :=
  schema.fields.map (Definition.ofField schema.config)

end WebForm
