/-
Faults: what a check finds wrong, where, and in which value.

A cause is one of a fixed list; its code and its wording are functions of it.  The
place is the path from the whole value to the part at fault.
-/
import WebForm.Date.Moment
import WebForm.Value.Text

namespace WebForm

/-- One step on the way to a part of a value. -/
inductive Step where
  | key (name : String)
  | index (i : Int)
deriving DecidableEq

/-- The text of a step. -/
def Step.text : Step → String
  | .key name => name
  | .index i => Value.intText i

/-- What is counted when a collection is too short or too long. -/
inductive Counted where
  | list
  | tuple
  | set
  | frozenset
  | dictionary
  | value
deriving DecidableEq

/-- The name of what is counted. -/
def Counted.text : Counted → String
  | .list => "List"
  | .tuple => "Tuple"
  | .set => "Set"
  | .frozenset => "Frozenset"
  | .dictionary => "Dictionary"
  | .value => "Value"

/-- The type that a value was expected to have. -/
inductive Expected where
  | string
  | integer
  | number
  | boolean
  | list
  | tuple
  | set
  | frozenset
  | dictionary
  | date
  | nothing
deriving DecidableEq

/-- The code and the words for a value of another type. -/
def Expected.wording : Expected → String × String
  | .string => ("string_type", "a valid string")
  | .integer => ("int_type", "a valid integer")
  | .number => ("float_type", "a valid number")
  | .boolean => ("bool_type", "a valid boolean")
  | .list => ("list_type", "a valid list")
  | .tuple => ("tuple_type", "a valid tuple")
  | .set => ("set_type", "a valid set")
  | .frozenset => ("frozen_set_type", "a valid frozenset")
  | .dictionary => ("dict_type", "a valid dictionary")
  | .date => ("date_type", "a valid date")
  | .nothing => ("none_required", "None")

/-- What is wrong with a value. -/
inductive Cause where
  | missing
  | extra
  | invalidKey
  | expected (what : Expected)
  | stringTooShort (least : Nat)
  | stringTooLong (most : Nat)
  | patternMismatch (source : String)
  | integerUnreadable
  | integerTooLong
  | integerFraction
  | notFinite
  | numberUnreadable
  | flagUnreadable
  /-- The bound is given as text. -/
  | notAbove (bound : String)
  | notAtLeast (bound : String)
  | notBelow (bound : String)
  | notAtMost (bound : String)
  | notMultiple (step : String)
  | tooFew (what : Counted) (least actual : Nat)
  /-- Without an actual count when counting has stopped early. -/
  | tooMany (what : Counted) (most : Nat) (actual : Option Nat)
  | notHashable
  | notOption (choices : String)
  | notLiteral (choices : String)
  | notInstance (class_ : String)
  | notRecord (schema : String)
  | textAsSequence (class_ : String)
  | dateUnreadable (reason : String)
  | momentUnreadable (reason : MomentFault)
  | timeNotZero
deriving DecidableEq

namespace Cause

/-- The code of a cause. -/
def code : Cause → String
  | .missing => "missing"
  | .extra => "extra_forbidden"
  | .invalidKey => "invalid_key"
  | .expected what => what.wording.1
  | .stringTooShort _ => "string_too_short"
  | .stringTooLong _ => "string_too_long"
  | .patternMismatch _ => "string_pattern_mismatch"
  | .integerUnreadable => "int_parsing"
  | .integerTooLong => "int_parsing_size"
  | .integerFraction => "int_from_float"
  | .notFinite => "finite_number"
  | .numberUnreadable => "float_parsing"
  | .flagUnreadable => "bool_parsing"
  | .notAbove _ => "greater_than"
  | .notAtLeast _ => "greater_than_equal"
  | .notBelow _ => "less_than"
  | .notAtMost _ => "less_than_equal"
  | .notMultiple _ => "multiple_of"
  | .tooFew .. => "too_short"
  | .tooMany .. => "too_long"
  | .notHashable => "set_item_not_hashable"
  | .notOption _ => "enum"
  | .notLiteral _ => "literal_error"
  | .notInstance _ => "is_instance_of"
  | .notRecord _ => "model_type"
  | .textAsSequence _ => "sequence_str"
  | .dateUnreadable _ => "date_parsing"
  | .momentUnreadable _ => "date_from_datetime_parsing"
  | .timeNotZero => "date_from_datetime_inexact"

/-- A count of things, which stand in the plural unless there is one. -/
def countText (n : Nat) (thing : String) : String :=
  Value.intText n ++ " " ++ thing ++ (if n = 1 then "" else "s")

/-- The wording of a cause. -/
def message : Cause → String
  | .missing => "Field required"
  | .extra => "Extra inputs are not permitted"
  | .invalidKey => "Keys should be strings"
  | .expected what => "Input should be " ++ what.wording.2
  | .stringTooShort n => "String should have at least " ++ countText n "character"
  | .stringTooLong n => "String should have at most " ++ countText n "character"
  | .patternMismatch source => "String should match pattern '" ++ source ++ "'"
  | .integerUnreadable => "Input should be a valid integer, unable to parse string as an integer"
  | .integerTooLong =>
    "Unable to parse input string as an integer, exceeded maximum size"
  | .integerFraction => "Input should be a valid integer, got a number with a fractional part"
  | .notFinite => "Input should be a finite number"
  | .numberUnreadable => "Input should be a valid number, unable to parse string as a number"
  | .flagUnreadable => "Input should be a valid boolean, unable to interpret input"
  | .notAbove bound => "Input should be greater than " ++ bound
  | .notAtLeast bound => "Input should be greater than or equal to " ++ bound
  | .notBelow bound => "Input should be less than " ++ bound
  | .notAtMost bound => "Input should be less than or equal to " ++ bound
  | .notMultiple step => "Input should be a multiple of " ++ step
  | .tooFew what n actual =>
    what.text ++ " should have at least " ++ countText n "item" ++ " after validation, not "
      ++ Value.intText actual
  | .tooMany what n actual =>
    what.text ++ " should have at most " ++ countText n "item" ++ " after validation, not "
      ++ (match actual with
        | some k => Value.intText k
        | none => "more")
  | .notHashable => "Set items should be hashable"
  | .notOption choices => "Input should be " ++ choices
  | .notLiteral choices => "Input should be " ++ choices
  | .notInstance class_ => "Input should be an instance of " ++ class_
  | .notRecord schema => "Input should be a valid dictionary or instance of " ++ schema
  | .textAsSequence class_ =>
    "'" ++ class_ ++ "' instances are not allowed as a Sequence value"
  | .dateUnreadable reason => "Input should be a valid date in the format YYYY-MM-DD, " ++ reason
  | .momentUnreadable reason => "Input should be a valid date or datetime, " ++ reason.message
  | .timeNotZero =>
    "Datetimes provided to dates should have zero time - e.g. be exact dates"

end Cause

/-- A fault: its cause, the path to the part at fault, and that part. -/
structure Fault where
  cause : Cause
  path : List Step := []
  input : Value

namespace Fault

/-- The fault seen from one step further out. -/
def under (step : Step) (f : Fault) : Fault := { f with path := step :: f.path }

/-- The steps of a path with slashes between them. -/
def pathText (path : List Step) : String := "/".intercalate (path.map Step.text)

/-- A fault's line: its path, if there is one, and its message. -/
def lineText (path : List Step) (message : String) : String :=
  let place := pathText path
  if place.isEmpty then message else place ++ ": " ++ message

/-- The line of a fault. -/
def line (f : Fault) : String := lineText f.path f.cause.message

end Fault

end WebForm
