/-
The check of a type, and of a schema as a whole.

The check is built by recursion on the type, from the checks of its parts.  A
choice is built from all its alternatives: those of a choice within it count as
its own, and an alternative that is named twice counts once.
-/
import WebForm.Check.Choice
import WebForm.Check.Lookup
import WebForm.Check.Record

namespace WebForm

/-- How a type is read: its check without the limits put on it as a whole, those limits, and
the alternatives that it offers beside nothing. -/
structure Reading where
  core : Check
  own : List Limit := []
  options : List (Ty × Check) := []
  nullable : Bool := false

namespace Reading

/-- The check under more limits: those are applied before or after the type's own. -/
def under (r : Reading) (before : List Limit) : Check where
  label := fun ls => r.core.label (before ++ r.own ++ ls)
  run := fun ls v => r.core.run (before ++ r.own ++ ls) v

/-- The check of the type. -/
def check (r : Reading) : Check := r.under []

/-- A type that is its own only alternative. -/
def alone (t : Ty) (c : Check) : Reading := { core := c, options := [(t, c)] }

/-- The alternatives without those that came before. -/
def distinctOptions (options : List (Ty × Check)) : List (Ty × Check) :=
  (options.foldl (fun seen o => if seen.any (fun p => p.1.isSameOption o.1) then seen else o :: seen)
    []).reverse

/-- A choice between alternatives, and nothing if it is nullable. -/
def among (options : List (Ty × Check)) (nullable : Bool) (s : Setting) : Reading :=
  let distinct := distinctOptions options
  let core : Check :=
    match distinct with
    | [] => Check.none s
    | [only] => if nullable then only.2.nullable else only.2
    | several =>
      let c := Check.alternatives (several.map (·.2)) s
      if nullable then c.nullable else c
  { core, options := distinct, nullable }

end Reading

/-- What is counted in a collection. -/
def Collection.counted : Collection → Counted
  | .set => .set
  | .frozenset => .frozenset
  | .tuple => .tuple
  | _ => .list

namespace Ty

/-- A type that every value has. -/
def isAny : Ty → Bool
  | .any => true
  | .limited t l => isAny t && l.toList.isEmpty
  | _ => false

mutual

/-- How a type is read in a setting. -/
def reading : Ty → Setting → Reading
  | .any, s => .alone .any (Check.any s)
  | .none, s => { core := Check.none s, nullable := true }
  | .str, s => .alone .str (Check.text s)
  | .int, s => .alone .int (Check.integer s)
  | .float, s => .alone .float (Check.float s)
  | .bool, s => .alone .bool (Check.flag s)
  | .date, s => .alone .date (Check.date s)
  | .bare .tuple, s => .alone (.bare .tuple) (Check.collection .tuple (Check.any s) s)
  | .bare .dict, s => .alone (.bare .dict) (Check.dict (Check.any s) (Check.any s) s)
  | .bare c, s => .alone (.bare c) (Check.freeList s)
  | .many .sequence .any, s => .alone (.many .sequence .any) (Check.freeSequence s)
  | .many .sequence t, s => .alone (.many .sequence t) (Check.sequence (reading t s).check s)
  | .many .list t, s =>
    .alone (.many .list t)
      (if t.isAny then Check.freeList s else Check.collection .list (reading t s).check s)
  | .many c t, s => .alone (.many c t) (Check.collection c.counted (reading t s).check s)
  | .positions ts, s => .alone (.positions ts) (Check.positions (checks ts s) s)
  | .dict k v, s => .alone (.dict k v) (Check.dict (reading k s).check (reading v s).check s)
  | .optional t, s => .among (reading t s).options true s
  | .choice _ ts, s => .among (allOptions ts s) (anyNullable ts s) s
  | .literal values, s => .alone (.literal values) (Check.literal values s)
  | .enumeration e, s => .alone (.enumeration e) (Check.option e s)
  | .limited t l, s =>
    let r := reading t s
    let own := r.own ++ l.toList
    { core := r.core, own, options := [(.limited t l, { r with own }.check)] }
  | .record ⟨name, fields, c⟩, s =>
    .alone (.record ⟨name, fields, c⟩)
      (Check.record name c (fieldChecks fields { s with config := c }) s)

/-- The checks of some types. -/
def checks : List Ty → Setting → List Check
  | [], _ => []
  | t :: ts, s => (reading t s).check :: checks ts s

/-- All alternatives of some types. -/
def allOptions : List Ty → Setting → List (Ty × Check)
  | [], _ => []
  | t :: ts, s => (reading t s).options ++ allOptions ts s

/-- One of some types allows nothing. -/
def anyNullable : List Ty → Setting → Bool
  | [], _ => false
  | t :: ts, s => (reading t s).nullable || anyNullable ts s

/-- The fields with the checks of their types, under their own limits. -/
def fieldChecks : List (FieldOf Ty) → Setting → List Check.FieldCheck
  | [], _ => []
  | ⟨f, t⟩ :: rest, s =>
    ⟨f, ((reading t s).under f.limits.toList).run []⟩ :: fieldChecks rest s

end

/-- The check of a type in a setting. -/
def check (t : Ty) (s : Setting) : Check := (t.reading s).check

theorem own_reading (t : Ty) (s : Setting) : (t.reading s).own = t.outerLimits := by
  fun_induction outerLimits t generalizing s with
  | case1 t l ih => simp [reading, ih]
  | case2 t h =>
    unfold reading
    split <;> first | rfl | exact absurd rfl (h _ _)

end Ty

namespace Schema

/-- Checks a value as a record of the schema; `strict?` overrules what is declared. -/
def check (schema : Schema) (strict? : Option Bool) (v : Value) : Outcome :=
  ((Ty.record schema).check { strict? }).run [] v

end Schema

namespace Field

/-- The check of a field's value by itself, outside of its schema. -/
def checkAlone (f : Field) (v : Value) : Outcome :=
  ((f.type.reading {}).under f.limits.toList).run [] v

end Field

end WebForm
