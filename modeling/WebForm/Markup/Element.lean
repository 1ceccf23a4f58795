/-
The markup of an element and of the field around it.

A tag is an ordered list of attributes; a supplied value is shown in the `value`
attribute, in the content of a text area, or as the mark of a checkbox.
-/
import WebForm.Element.Build
import WebForm.Markup.Piece
import WebForm.Markup.Supplied
import WebForm.Options.Basic

namespace WebForm.Element

open WebForm.Text

/-- An attribute of a tag: a name with a value, or a name alone. -/
structure TagAttribute where
  name : String
  value : Option Piece
deriving DecidableEq

/-- The pieces of an attribute. -/
def TagAttribute.pieces (a : TagAttribute) : List Piece :=
  match a.value with
  | some v => [.fixed (" " ++ a.name ++ "=\x22"), v, .fixed "\x22"]
  | none => [.fixed (" " ++ a.name)]

/-- The element is a checkbox. -/
def isCheckbox (e : Element) : Bool := e.element = "input" && e.inputType = some "checkbox"

/-- The attributes with values, after a supplied value has taken the place of the declared. -/
def shownAttributes (e : Element) (shown : Option String) : List (String × Piece) :=
  let declared := e.attributes.map fun p => (p.1, Piece.fixed p.2.written)
  match shown with
  | some v => Pairs.set declared "value" (.hole v)
  | none => declared

/-- The name under which the element looks for its state. -/
def stateName? (e : Element) : Option String :=
  nonEmpty ((Pairs.get? e.attributes "name").map (·.content))

/-- A checkbox is marked by the supplied value `true`, unless it declares the mark itself. -/
def isMarked (e : Element) (values : Supplied) : Bool :=
  e.isCheckbox && !e.flags.contains "checked"
    && (e.stateName?.bind (Pairs.get? values)) == some "true"

/-- The attributes of the tag in order. -/
def tagAttributes (e : Element) (shown : Option String) (values : Supplied) : List TagAttribute :=
  let named := (e.shownAttributes shown).filter fun p => lower p.1 != "checked"
  [⟨"class", some (.fixed e.name)⟩] ++ named.map (fun p => ⟨lower p.1, some p.2⟩)
    ++ e.flags.map (fun f => ⟨f, none⟩)
    ++ (if e.isMarked values then [⟨"checked", none⟩] else [])

/-- The end of the tag. -/
def tagEnd (e : Element) : String :=
  if e.isCheckbox then " >"
  else if e.element = "input" || e.element = "textarea" then ">"
  else "/>"

/-- The content of a text area and its closing tag. -/
def content (e : Element) (values : Supplied) : List Piece :=
  if e.element = "textarea" then
    [.hole ((e.stateName?.bind (Pairs.get? values)).getD ""), .fixed "</textarea>"]
  else []

/-- The element's tag, with its content. -/
def pieces (e : Element) (shown : Option String) (values : Supplied) : List Piece :=
  [.fixed ("<" ++ e.element)] ++ (e.tagAttributes shown values).flatMap TagAttribute.pieces
    ++ [.fixed e.tagEnd] ++ e.content values

/-- The label of the element. -/
def labelMarkup (e : Element) : String :=
  "<label for=\x22" ++ e.id ++ "\x22>" ++ e.label.written ++ "</label>"

/-- What stands before the element: its label, or for a checkbox a hidden value, so that a
box without its mark still submits one. -/
def before (e : Element) : String :=
  if e.isCheckbox then " <input type=\x22hidden\x22 name=\x22" ++ e.name ++ "\x22 value=\x22off\x22>"
  else if e.inputType != some "checkbox" && e.inputType != some "hidden" && e.element != "textarea"
  then e.labelMarkup
  else ""

/-- What stands after the element: the label of a checkbox, and the buttons of a password. -/
def after (e : Element) (o : Options) : String :=
  if e.isCheckbox then e.labelMarkup
  else if e.element = "input" && e.inputType = some "password" && !o.passwordHideSvg.isEmpty
      && !o.passwordShowSvg.isEmpty then
    "<button class=\x22button-password-hide\x22 type=\x22button\x22>" ++ o.passwordHideSvg
      ++ "</button>\n                <button class=\x22button-password-show\x22 type=\x22button\x22>"
      ++ o.passwordShowSvg ++ "</button>"
  else ""

/-- A hint for the user. -/
def hintMarkup (hint : Option Phrase) : String :=
  match Phrase.nonEmpty? hint with
  | some h => "<div class=\x22requirements\x22>" ++ h.written ++ "</div>"
  | none => ""

/-- The field: the element with all that stands around it. -/
def fieldPieces (e : Element) (shown : Option String) (values : Supplied) (o : Options) :
    List Piece :=
  [.fixed ("<div class=\x22" ++ (nonEmpty e.inputType).getD e.element ++ "\x22>"),
    .fixed e.before]
    ++ e.pieces shown values
    ++ [.fixed (e.after o), .fixed (hintMarkup e.hint), .fixed "</div>"]

end WebForm.Element
