/-
The text of a value.

A value that stands alone is written as it is: a text without quotes, a date in
its ISO form, an option by its name.  Inside a collection a text is quoted and a
date or an option is written as an expression.  An attribute writes flags in
small letters, and a declared attribute whole floats without a point.
-/
import WebForm.Text.Quoted
import WebForm.Value.Basic

namespace WebForm.Value

open WebForm.Text

/-- Items with commas between them. -/
def commaList (items : List String) : String := ", ".intercalate items

/-- The text of an integer. -/
def intText (i : Int) : String :=
  let digits := String.ofList (Nat.toDigits 10 i.natAbs)
  if i < 0 then "-" ++ digits else digits

/-- The text of a flag. -/
def boolText (b : Bool) : String := if b then "True" else "False"

/-- A date as an expression. -/
def dateShown (d : Date) : String :=
  "datetime.date(" ++ commaList [intText d.year, intText d.month, intText d.day] ++ ")"

/-- A tuple's items between parentheses; a single item keeps a comma. -/
def tupleShown (items : List String) : String :=
  match items with
  | [item] => "(" ++ item ++ ",)"
  | items => "(" ++ commaList items ++ ")"

/-- A set's items between braces; the empty set has a name. -/
def setShown (items : List String) : String :=
  if items.isEmpty then "set()" else "\x7b" ++ commaList items ++ "\x7d"

/-- A frozen set's items between braces behind its name. -/
def frozensetShown (items : List String) : String :=
  if items.isEmpty then "frozenset()" else "frozenset(\x7b" ++ commaList items ++ "\x7d)"

mutual

/-- The text of a value inside a collection. -/
def shown : Value → String
  | .null => "None"
  | .bool b => boolText b
  | .int i => intText i
  | .float x => x.text
  | .str s => quoted s
  | .list items => "[" ++ commaList (shownItems items) ++ "]"
  | .tuple items => tupleShown (shownItems items)
  | .set items => setShown (shownItems items)
  | .frozenset items => frozensetShown (shownItems items)
  | .map entries => "\x7b" ++ commaList (shownEntries entries) ++ "\x7d"
  | .date d => dateShown d
  | .option e _ n v _ => "<" ++ e ++ "." ++ n ++ ": " ++ shown v ++ ">"
  | .object attributes => "namespace(" ++ commaList (shownFields attributes) ++ ")"
  | .record schema _ fields => schema ++ "(" ++ commaList (shownFields fields) ++ ")"

/-- The texts of items. -/
def shownItems : List Value → List String
  | [] => []
  | v :: vs => shown v :: shownItems vs

/-- The texts of a mapping's entries. -/
def shownEntries : List (Value × Value) → List String
  | [] => []
  | (k, v) :: rest => (shown k ++ ": " ++ shown v) :: shownEntries rest

/-- The texts of attributes or fields. -/
def shownFields : List (String × Value) → List String
  | [] => []
  | (k, v) :: rest => (k ++ "=" ++ shown v) :: shownFields rest

end

/-- The text of a value that stands alone. -/
def text : Value → String
  | .str s => s
  | .date d => d.text
  | .option e _ n _ _ => e ++ "." ++ n
  | .record _ _ fields => " ".intercalate (shownFields fields)
  | v => shown v

/-- The text of a value in an attribute. -/
def attributeText : Value → String
  | .bool b => if b then "true" else "false"
  | v => text v

/-- The text of a value in a declared attribute. -/
def declaredText : Value → String
  | .float x =>
    match x.toInt? with
    | some i => intText i
    | none => x.text
  | v => attributeText v

end WebForm.Value
