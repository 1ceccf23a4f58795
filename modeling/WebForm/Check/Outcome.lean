/-
What comes of a check: a value, faults, or a limit that cannot be applied.

A check goes on after a fault, so that all faults of a whole are reported, in
order; a limit that cannot be applied to the value ends the check at once.
`gather` is that rule for the parts of a whole.
-/
import WebForm.Check.Fault
import WebForm.Schema.Type

namespace WebForm

/-- How much a value had to be changed to pass: not at all, in kind only, or in value. -/
inductive Exactness where
  | exact
  | close
  | loose
deriving DecidableEq

namespace Exactness

/-- The greater change of two. -/
def worse : Exactness → Exactness → Exactness
  | .exact, e => e
  | e, .exact => e
  | .close, .close => .close
  | _, _ => .loose

/-- The first is a smaller change than the second. -/
def isBetter : Exactness → Exactness → Bool
  | .exact, .exact => false
  | .exact, _ => true
  | .close, .loose => true
  | _, _ => false

end Exactness

/-- A value that passed, with the change that it took and, if it holds records, the number of
fields that were given for them. -/
structure Checked where
  value : Value
  exactness : Exactness := .exact
  given : Option Nat := none
  /-- The change and the count hold for all that was checked before, too: an alternative that fits
  exactly ends its choice at once, and what came before is forgotten. -/
  final : Bool := false

namespace Checked

/-- Two counts of given fields as one. -/
def addGiven : Option Nat → Option Nat → Option Nat
  | none, n => n
  | n, none => n
  | some a, some b => some (a + b)

/-- A whole with one more of its parts. -/
def add (whole part : Checked) : Checked :=
  if part.final then
    { whole with exactness := part.exactness, given := part.given, final := true }
  else
    { whole with
      exactness := whole.exactness.worse part.exactness
      given := addGiven whole.given part.given }

/-- A whole made of parts that passed. -/
def ofParts (exactness : Exactness) (parts : List Checked) (value : Value) : Checked :=
  parts.foldl add { value, exactness }

end Checked

/-- A limit met a value to which it cannot be applied. -/
structure Misfit where
  limit : Limit
  value : Value
  /-- The sort of type that bears the limit, where the report tells it. -/
  sort : Option String := none

/-- The name of a limit in reports. -/
def Limit.name : Limit → String
  | .strict _ => "strict"
  | .above _ => "gt"
  | .atLeast _ => "ge"
  | .below _ => "lt"
  | .atMost _ => "le"
  | .multipleOf _ => "multiple_of"
  | .minLength _ => "min_length"
  | .maxLength _ => "max_length"
  | .pattern _ => "pattern"

/-- The wording of a misfit. -/
def Misfit.message (m : Misfit) : String :=
  "Unable to apply constraint '" ++ m.limit.name ++ "' to supplied value " ++ m.value.text
    ++ (match m.sort with
      | some sort => " for schema of type '" ++ sort ++ "'"
      | none => "")

/-- Why a value did not pass. -/
inductive Rejection where
  | faults (list : List Fault)
  | misfit (m : Misfit)

/-- What comes of checking a value. -/
abbrev Outcome := Except Rejection Checked

namespace Outcome

/-- The value passed as it is. -/
def pass (v : Value) (exactness : Exactness := .exact) : Outcome := .ok { value := v, exactness }

/-- The value has one fault. -/
def fault {α : Type} (cause : Cause) (input : Value) : Except Rejection α :=
  .error (.faults [⟨cause, [], input⟩])

/-- The outcome seen from one step further out. -/
def under {α : Type} (step : Step) : Except Rejection α → Except Rejection α
  | .error (.faults fs) => .error (.faults (fs.map (Fault.under step)))
  | r => r

/-- The parts of a whole: the first misfit, or else all faults in order, or else all values. -/
def gather {α : Type} : List (Except Rejection α) → Except Rejection (List α)
  | [] => .ok []
  | .error (.misfit m) :: _ => .error (.misfit m)
  | .error (.faults fs) :: rest =>
    match gather rest with
    | .error (.misfit m) => .error (.misfit m)
    | .error (.faults gs) => .error (.faults (fs ++ gs))
    | .ok _ => .error (.faults fs)
  | .ok a :: rest =>
    match gather rest with
    | .error e => .error e
    | .ok as => .ok (a :: as)

theorem gather_ok {α : Type} (as : List α) : gather (as.map .ok) = .ok as := by
  induction as with
  | nil => rfl
  | cons a as ih => simp [gather, ih]

theorem gather_eq_ok_iff {α : Type} {rs : List (Except Rejection α)} {as : List α} :
    gather rs = .ok as ↔ rs = as.map .ok := by
  constructor
  · intro h
    induction rs generalizing as with
    | nil =>
      simp only [gather, Except.ok.injEq] at h
      simp [← h]
    | cons r rest ih =>
      match r with
      | .error (.misfit m) => simp [gather] at h
      | .error (.faults fs) =>
        simp only [gather] at h
        split at h <;> simp at h
      | .ok a =>
        simp only [gather] at h
        split at h
        · simp at h
        · rename_i bs hb
          simp only [Except.ok.injEq] at h
          rw [← h, ih hb]
          rfl
  · rintro rfl
    exact gather_ok as

end Outcome

/-- How a value is read: what the caller asks of all checks, and the rules of the schema
around the type. -/
structure Setting where
  /-- Strict or lax, whatever is declared. -/
  strict? : Option Bool := none
  config : Config := {}

/-- The check of a type under given limits, and the name of the type in reports. -/
structure Check where
  label : List Limit → String
  run : List Limit → Value → Outcome

end WebForm
