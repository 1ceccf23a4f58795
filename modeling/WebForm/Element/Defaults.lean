/-
The attributes that an element gets when they are not declared.

Elements in which text is typed get six defaults; an attribute that is there
keeps its place and its value.
-/
import WebForm.Element.Phrase

namespace WebForm.Element

/-- The defaults of elements in which text is typed. -/
def textDefaults : List (String × String) :=
  [("autocapitalize", "off"), ("autocomplete", "off"), ("autocorrect", "off"),
    ("placeholder", ""), ("spellcheck", "false"), ("value", "")]

/-- Text is typed in the element: in a text area, and in every input but a checkbox. -/
def isTextEditable (element : String) (inputType : Option String) : Bool :=
  element = "textarea" || (element = "input" && inputType != some "checkbox")

/-- Sets the value under a key if there is none. -/
def setDefault (attributes : List (String × Option Phrase)) (d : String × String) :
    List (String × Option Phrase) :=
  match (Pairs.get? attributes d.1).join with
  | none => Pairs.set attributes d.1 (some (.ofText d.2))
  | some _ => attributes

/-- The attributes with the defaults of the element. -/
def withDefaults (element : String) (inputType : Option String)
    (attributes : List (String × Option Phrase)) : List (String × Option Phrase) :=
  if isTextEditable element inputType then textDefaults.foldl setDefault attributes
  else attributes

end WebForm.Element
