/-
Added limits: those that a type does not take as its own.

They are tried one by one on the value that came out.  Lengths and bounds ask for
any value that has a length or an order; a pattern asks for a text, read as texts
are.  A value that a limit does not fit ends the check.
-/
import WebForm.Check.Text

namespace WebForm

namespace Limit

/-- The cause of the fault when a value does not keep an added bound, if the two compare. -/
def boundCause? (v : Value) : Limit → Option (Option Cause)
  | .above b =>
    (b.below? false v).map fun kept => if kept then none else some (.notAbove b.boundText)
  | .atLeast b =>
    (b.below? true v).map fun kept => if kept then none else some (.notAtLeast b.boundText)
  | .below b =>
    (v.below? false b).map fun kept => if kept then none else some (.notBelow b.boundText)
  | .atMost b =>
    (v.below? true b).map fun kept => if kept then none else some (.notAtMost b.boundText)
  | .multipleOf step =>
    match v.quantity?, step.quantity? with
    | some q, some p => some (if q.isMultiple p then none else some (.notMultiple step.boundText))
    | _, _ => none
  | _ => some none

/-- The cause of the fault when a length does not keep a limit. -/
def lengthCause? (length : Nat) : Limit → Option Cause
  | .minLength n => if length < n then some (.tooFew .value n length) else none
  | .maxLength n => if n < length then some (.tooMany .value n (some length)) else none
  | _ => none

/-- The sort of what bears a limit: an added limit makes another sort of it. -/
def sortAfter (sort : String) : Limit → String
  | .strict _ => sort
  | .pattern _ => "chain"
  | _ => "function-after"

/-- Tries an added limit on a value that has passed; `input` is the value before. -/
def apply (s : Setting) (sort : String) (input : Value) (l : Limit) (c : Checked) : Outcome :=
  match l with
  | .strict _ => .ok c
  | .minLength _ | .maxLength _ =>
    match c.value.length? with
    | none => .error (.misfit ⟨l, c.value, none⟩)
    | some n =>
      match l.lengthCause? n with
      | some cause => Outcome.fault cause input
      | none => .ok c
  | .pattern p =>
    match Check.runText s [.pattern p] c.value with
    | .ok r => .ok { c with value := r.value, exactness := c.exactness.worse r.exactness }
    | .error (.faults fs) =>
      if fs.any fun f => f.cause = .expected .string then
        .error (.misfit ⟨l, c.value, some sort⟩)
      else .error (.faults fs)
    | .error r => .error r
  | l =>
    match l.boundCause? c.value with
    | none => .error (.misfit ⟨l, c.value, none⟩)
    | some (some cause) => Outcome.fault cause input
    | some none => .ok c

/-- Tries added limits one by one. -/
def applyAll (s : Setting) (input : Value) : String → List Limit → Checked → Outcome
  | _, [], c => .ok c
  | sort, l :: ls, c => (apply s sort input l c).bind (applyAll s input (sortAfter sort l) ls)

end Limit

/-- The name of a check in reports, when limits are added to it: a text is checked after it for
each pattern. -/
def Limit.addedLabel (label : String) (added : List Limit) : String :=
  let patterns := added.filter isPattern
  if patterns.isEmpty then label
  else
    "chain[" ++ ",".intercalate (label :: patterns.map fun _ =>
      "function-wrap[_apply_constraint_with_incompatibility_info()]") ++ "]"

/-- The check of a type that knows some limits and leaves the others to follow. -/
def Check.ofOwn (s : Setting) (sort : String) (knows : Limit → Bool) (label : List Limit → String)
    (own : List Limit → Value → Outcome) : Check where
  label := fun ls =>
    let (mine, later) := Limit.split knows ls
    Limit.addedLabel (label mine) later
  run := fun ls v =>
    let (mine, later) := Limit.split knows ls
    (own mine v).bind (Limit.applyAll s v sort later)

end WebForm
