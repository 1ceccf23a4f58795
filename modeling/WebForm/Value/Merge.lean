/-
Mappings laid over one another.
-/
import WebForm.Value.Basic

namespace WebForm.Value

mutual

/-- The second value laid over the first: two mappings are joined key by key, any other value
hides what is below. -/
def overlay (below : Value) : Value → Value
  | .map entries =>
    match below with
    | .map old => .map (overlayEntries old entries)
    | _ => .map entries
  | v => v

/-- Entries laid over entries: those that are below keep their places. -/
def overlayEntries (below : List (Value × Value)) : List (Value × Value) → List (Value × Value)
  | [] => below
  | (k, v) :: rest =>
    let value :=
      match entryOf? below k with
      | some old => overlay old v
      | none => v
    overlayEntries (setEntry below k value) rest

end

end WebForm.Value
