/-
Options of a form, and how they are read.

An option can be given under its name or under its alias; a name that is no
option is a fault.  The options are declared as a schema of their own, so the
checks of fields read them too.
-/
import WebForm.Check.Type
import WebForm.Options.Picture

namespace WebForm

/-- The options of a form. -/
structure Options where
  action : Option String := none
  buttonLabel : Option String := none
  class_ : Option String := none
  extraHtml : Option String := none
  fieldset : Bool := false
  id : Option String := none
  idSuffix : Option String := none
  legend : Option String := none
  method : Option String := some "post"
  novalidate : Bool := false
  passwordHideSvg : String := Options.hidePicture
  passwordShowSvg : String := Options.showPicture
deriving DecidableEq, Inhabited

namespace Options

/-- An option with an alias, if it has one, and a default. -/
def declare (name : String) (knownAs : Option String) (type : Ty) (default : Value) : Field :=
  { name, knownAs, type, default := some default }

/-- The options as fields. -/
def fields : List Field :=
  [declare "action" none (.optional .str) .null,
    declare "button_label" (some "buttonLabel") (.optional .str) .null,
    declare "class_" (some "class") (.optional .str) .null,
    declare "extra_html" (some "extraHTML") (.optional .str) .null,
    declare "fieldset" none .bool (.bool false),
    declare "id" none (.optional .str) .null,
    declare "id_suffix" (some "idSuffix") (.optional .str) .null,
    declare "legend" none (.optional .str) .null,
    declare "method" none (.optional (.literal [.str "get", .str "post"])) (.str "post"),
    declare "novalidate" none .bool (.bool false),
    declare "password_hide_svg" (some "passwordHideSVG") .str (.str hidePicture),
    declare "password_show_svg" (some "passwordShowSVG") .str (.str showPicture)]

/-- The schema of options. -/
def schema : Schema :=
  { name := "FormOptions", fields, config := { byName := true, extras := .forbid } }

/-- The text that a record of options holds under a name. -/
def text? (pairs : List (String × Value)) (name : String) : Option String :=
  (Pairs.get? pairs name).bind Value.asText?

/-- The flag that a record of options holds under a name. -/
def flag (pairs : List (String × Value)) (name : String) : Bool :=
  Pairs.get? pairs name == some (.bool true)

/-- The options that a record holds. -/
def ofRecord (pairs : List (String × Value)) : Options where
  action := text? pairs "action"
  buttonLabel := text? pairs "button_label"
  class_ := text? pairs "class_"
  extraHtml := text? pairs "extra_html"
  fieldset := flag pairs "fieldset"
  id := text? pairs "id"
  idSuffix := text? pairs "id_suffix"
  legend := text? pairs "legend"
  method := text? pairs "method"
  novalidate := flag pairs "novalidate"
  passwordHideSvg := (text? pairs "password_hide_svg").getD ""
  passwordShowSvg := (text? pairs "password_show_svg").getD ""

/-- A text or nothing. -/
def ofText? (t : Option String) : Value :=
  match t with
  | some s => .str s
  | none => .null

/-- The options as pairs, by their names. -/
def toPairs (o : Options) : List (String × Value) :=
  [("action", ofText? o.action), ("button_label", ofText? o.buttonLabel),
    ("class_", ofText? o.class_), ("extra_html", ofText? o.extraHtml),
    ("fieldset", .bool o.fieldset), ("id", ofText? o.id), ("id_suffix", ofText? o.idSuffix),
    ("legend", ofText? o.legend), ("method", ofText? o.method),
    ("novalidate", .bool o.novalidate), ("password_hide_svg", .str o.passwordHideSvg),
    ("password_show_svg", .str o.passwordShowSvg)]

/-- The options as a record. -/
def toRecord (o : Options) : Value :=
  .record schema.name (schema.fields.map fun f => f.writeName schema.config) o.toPairs

/-- The options that a checked value holds. -/
def ofValue : Value → Options
  | .record _ _ pairs => ofRecord pairs
  | _ => {}

/-- Reads options from a value. -/
def read (v : Value) : Except Rejection Options :=
  (schema.check none v).map fun c => ofValue c.value

theorem asText?_ofText? (t : Option String) : (ofText? t).asText? = t := by
  cases t <;> rfl

theorem ofValue_toRecord (o : Options) : ofValue o.toRecord = o := by
  have text (s : String) : (Value.str s).asText? = some s := rfl
  have flag (b : Bool) : (some (Value.bool b) == some (Value.bool true)) = b := by
    cases b <;> simp
  simp [ofValue, toRecord, ofRecord, toPairs, text?, Options.flag, Pairs.get?, asText?_ofText?,
    text, flag, -Option.some_beq_some]

end Options

end WebForm
