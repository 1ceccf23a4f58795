/-
Supplied values: what a caller gives for the fields of a form.

Each value is escaped and kept under its name in small letters, and then under its
exact name, which wins.  Values that are null count as not given.
-/
import WebForm.Text.Case
import WebForm.Text.Escape
import WebForm.Value.Dump
import WebForm.Value.Text

namespace WebForm

open WebForm.Text

/-- The escaped texts of supplied values under their names. -/
abbrev Supplied := List (String × String)

/-- Why values cannot be supplied. -/
inductive SupplyFault where
  | notMapping (v : Value)
  | keyNotText (key : Value)

namespace Supplied

/-- The entries that hold a value; their keys have to be texts. -/
def given (entries : List (Value × Value)) : Except SupplyFault (List (String × Value)) :=
  (entries.filter fun e => e.2 != .null).mapM fun e =>
    match e.1.asText? with
    | some k => .ok (k, e.2)
    | none => .error (.keyNotText e.1)

/-- The text of a supplied value. -/
def textOf (v : Value) : String := escape v.attributeText

/-- The texts of named values, by small and by exact names. -/
def ofPairs (pairs : List (String × Value)) : Supplied :=
  Pairs.setAll (Pairs.setAll [] (pairs.map fun p => (lower p.1, textOf p.2)))
    (pairs.map fun p => (p.1, textOf p.2))

/-- The texts of supplied values: nothing, a mapping or a record. -/
def ofValue (v : Value) : Except SupplyFault Supplied :=
  match v with
  | .null => .ok []
  | v =>
    match v.dumpedEntries? with
    | some entries => (given entries).map ofPairs
    | none => .error (.notMapping v)

end Supplied

end WebForm
