/-
Records written out as mappings.
-/
import WebForm.Value.Basic

namespace WebForm.Value

mutual

/-- The value with every record in it written out, by the names under which its fields go. -/
def dump : Value → Value
  | .record _ written fields => .ofPairs (Pairs.setAll [] (written.zip (dumpFields fields)))
  | .list items => .list (dumpItems items)
  | .tuple items => .tuple (dumpItems items)
  | .set items => .set (dumpItems items)
  | .frozenset items => .frozenset (dumpItems items)
  | .map entries => .map (dumpEntries entries)
  | v => v

/-- Items written out. -/
def dumpItems : List Value → List Value
  | [] => []
  | v :: vs => dump v :: dumpItems vs

/-- Entries written out. -/
def dumpEntries : List (Value × Value) → List (Value × Value)
  | [] => []
  | (k, v) :: rest => (dump k, dump v) :: dumpEntries rest

/-- The values of fields written out. -/
def dumpFields : List (String × Value) → List Value
  | [] => []
  | (_, v) :: rest => dump v :: dumpFields rest

end

/-- The entries that a record or a mapping is written out as. -/
def dumpedEntries? : Value → Option (List (Value × Value))
  | .record schema written fields =>
    match dump (.record schema written fields) with
    | .map entries => some entries
    | _ => none
  | .map entries => some entries
  | _ => none

end WebForm.Value
