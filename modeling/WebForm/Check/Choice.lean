/-
The check of a choice between types.

The first alternative that takes the value as it is wins; failing that, the one
that took the most fields of records, and then the one that changed the value
least.  When none takes it, the faults of all are reported, each alternative's
under its name.
-/
import WebForm.Check.Added

namespace WebForm.Check

/-- The better of the best result so far and a new one. -/
def better (best : Option Checked) (c : Checked) : Checked :=
  match best with
  | none => c
  | some b =>
    match b.given, c.given with
    | some m, some n => if m = n then closer b c else if m < n then c else b
    | _, _ => closer b c
where
  /-- The one that is changed less; the earlier one if there is no difference. -/
  closer (b c : Checked) : Checked := if c.exactness.isBetter b.exactness then c else b

/-- Tries alternatives in turn, with the best result and the faults so far. -/
def runAlternatives (v : Value) (best : Option Checked) (faults : List Fault) :
    List Check → Outcome
  | [] =>
    match best with
    | some c => .ok { c with final := false }
    | none => .error (.faults faults)
  | a :: rest =>
    match Outcome.under (.key (a.label [])) (a.run [] v) with
    | .error (.misfit m) => .error (.misfit m)
    | .error (.faults fs) => runAlternatives v best (faults ++ fs) rest
    | .ok c =>
      if c.exactness = .exact && c.given.isNone then .ok { c with final := true }
      else runAlternatives v (some (better best c)) faults rest

/-- The check of a choice between two or more alternatives. -/
def alternatives (options : List Check) (s : Setting) : Check :=
  ofOwn s "union" (fun _ => false)
    (fun _ => "union[" ++ ",".intercalate (options.map fun o => o.label []) ++ "]")
    fun _ v => runAlternatives v none [] options

/-- The check of a value or nothing. -/
def nullable (c : Check) : Check where
  label := fun ls => "nullable[" ++ c.label ls ++ "]"
  run := fun ls v =>
    match v with
    | .null => Outcome.pass .null
    | v => c.run ls v

end WebForm.Check
