/-
The markup of the form around its fields.
-/
import WebForm.Markup.Element

namespace WebForm.Markup

open WebForm.Element

/-- The block that shows an error message and its details. -/
def errors (message : String) (details : List String) : String :=
  if message.isEmpty then ""
  else
    let (heading, list) :=
      if details.isEmpty then (message, "")
      else
        ("<span>" ++ message ++ ":</span>\n<ul>\n<li>",
          "</li>\n<li>\n".intercalate details ++ "</li>\n</ul>")
    "<div class=\x22error\x22>\n" ++ heading ++ "\n" ++ list ++ "\n</div>"

/-- The start and the end of the set of fields. -/
def fieldset (fieldset : Bool) (legend : Option String) : String × String :=
  if !fieldset then ("", "")
  else
    match nonEmpty legend with
    | some l => ("<fieldset><legend>" ++ l ++ "</legend>", "</fieldset>")
    | none => ("<fieldset>", "</fieldset>")

/-- An attribute that is left out without a value. -/
def optionalAttribute (name : String) (value : Option String) : String :=
  match nonEmpty value with
  | some v => " " ++ name ++ "=\x22" ++ v ++ "\x22"
  | none => ""

/-- The opening tag of the form. -/
def formTag (o : Options) : String :=
  let class_ := match nonEmpty o.class_ with
    | some c => "normform " ++ c
    | none => "normform"
  "<form" ++ optionalAttribute "action" o.action ++ optionalAttribute "class" (some class_)
    ++ optionalAttribute "id" o.id ++ (if o.novalidate then " novalidate" else "")
    ++ optionalAttribute "method" o.method ++ ">"

/-- The button that submits the form. -/
def submitButton (label : String) (class_ : Option String) : String :=
  "<div class=\x22" ++ (nonEmpty class_).getD "submit" ++ "\x22><input class=\x22button\x22 type=\x22submit\x22 value=\x22"
    ++ label ++ "\x22></div>"

/-- A field with the value that is supplied under its name. -/
def suppliedField (values : Supplied) (o : Options) (e : Element) : List Piece :=
  e.fieldPieces (Pairs.get? values e.name) values o

/-- The whole form. -/
def form (elements : List Element) (values : Supplied) (o : Options) (buttonLabel message : String)
    (details : List String) : List Piece :=
  let (start, stop) := fieldset o.fieldset o.legend
  [.fixed (formTag o), .fixed start, .fixed (o.extraHtml.getD ""), .fixed "\n"]
    ++ elements.flatMap (suppliedField values o)
    ++ [.fixed "\n", .fixed (errors message details), .fixed stop,
      .fixed (submitButton buttonLabel none), .fixed "\n</form>"]

end WebForm.Markup
