/-
Limits: which of them a type takes as its own, and when a value keeps them.

A type takes its own limits as it reads a value; the last of two limits of one
name counts.  From the first limit that it does not know, all limits are tried one
by one on the value that came out.
-/
import WebForm.Check.Outcome
import WebForm.Pattern.Match
import WebForm.Value.Order

namespace WebForm

open WebForm.Number

namespace Value

/-- The number of characters or items of a value. -/
def length? : Value → Option Nat
  | .str s => some s.length
  | .option _ .text _ (.str s) _ => some s.length
  | .list items | .tuple items | .set items | .frozenset items => some items.length
  | .map entries => some entries.length
  | _ => none

/-- The text of a bound in a message: a number or a text as it is, anything else as an
expression. -/
def boundText : Value → String
  | .float x => x.plainText
  | .str s => s
  | .option _ .text _ (.str s) _ => s
  | v => shown (plain v)

/-- The text of a bound for dates, which is in the ISO form, or for numbers. -/
def ownBoundText : Value → String
  | .date d => d.text
  | v => boundText v

/-- The quantity of a bound for numbers or dates. -/
def boundQuantity? : Value → Option Quantity
  | .date d => some (.finite d.toEpochDays)
  | v => v.quantity?

end Value

/-- The text matches the pattern. -/
def PatternText.accepts (p : PatternText) (s : String) : Bool :=
  (Pattern.ofSource p.dialect p.source).accepts s

namespace Limit

/-! ## Limits that a type knows -/

/-- Strictness. -/
def isStrict : Limit → Bool
  | .strict _ => true
  | _ => false

/-- A bound or a step. -/
def isNumeric : Limit → Bool
  | .above _ | .atLeast _ | .below _ | .atMost _ | .multipleOf _ => true
  | _ => false

/-- A limit on the length. -/
def isLength : Limit → Bool
  | .minLength _ | .maxLength _ => true
  | _ => false

/-- A pattern. -/
def isPattern : Limit → Bool
  | .pattern _ => true
  | _ => false

/-- The limits that a type takes as its own, and those that follow. -/
def split (knows : Limit → Bool) (ls : List Limit) : List Limit × List Limit :=
  let own := ls.takeWhile fun l => l.isStrict || knows l
  let later := ls.dropWhile fun l => l.isStrict || knows l
  (own ++ later.filter isStrict, later.filter (!·.isStrict))

/-- The last limit that `pick` finds. -/
def last? {α : Type} (pick : Limit → Option α) (ls : List Limit) : Option α :=
  ls.reverse.findSome? pick

/-- The least length. -/
def least? (ls : List Limit) : Option Nat :=
  last? (fun | .minLength n => some n | _ => none) ls

/-- The greatest length. -/
def most? (ls : List Limit) : Option Nat :=
  last? (fun | .maxLength n => some n | _ => none) ls

/-- The pattern. -/
def pattern? (ls : List Limit) : Option PatternText :=
  last? (fun | .pattern p => some p | _ => none) ls

/-- The strictness. -/
def strict? (ls : List Limit) : Option Bool :=
  last? (fun | .strict b => some b | _ => none) ls

/-! ## A number's own limits -/

/-- A bound as the float nearest to it. -/
def asFloat (bound : Value) : Value :=
  match bound.asInteger?.bind Binary64.ofInt? with
  | some x => .float x
  | none => bound

/-- The cause of the fault when a quantity does not keep one of its own limits.  For an exact
quantity only exact multiples count; the bounds of any other are floats. -/
def ownCause? (exact : Bool) (q : Quantity) (l : Limit) : Option Cause :=
  let keeping (bound : Value) (kept : Quantity → Bool) (cause : String → Cause) : Option Cause :=
    let bound := if exact then bound else asFloat bound
    match bound.boundQuantity? with
    | some b => if kept b then none else some (cause bound.ownBoundText)
    | none => none
  match l with
  | .above b => keeping b (fun b => b.lt q) .notAbove
  | .atLeast b => keeping b (fun b => b.le q) .notAtLeast
  | .below b => keeping b q.lt .notBelow
  | .atMost b => keeping b q.le .notAtMost
  | .multipleOf step =>
    keeping step (fun step => if exact then q.isMultiple step else q.isNearMultiple step) .notMultiple
  | _ => none

/-- The order in which a number's own limits are tried. -/
def numericRank : Limit → Nat
  | .multipleOf _ => 0
  | .atMost _ => 1
  | .below _ => 2
  | .atLeast _ => 3
  | _ => 4

/-- A number's own limits, one of each name, in the order in which they are tried. -/
def numericOrder (ls : List Limit) : List Limit :=
  (List.range 5).filterMap fun rank => ls.reverse.find? fun l => l.isNumeric && l.numericRank == rank

/-- The first of its own limits that a quantity does not keep. -/
def numericCause? (exact : Bool) (ls : List Limit) (q : Quantity) : Option Cause :=
  (numericOrder ls).findSome? (ownCause? exact q)

end Limit

namespace Setting

/-- The setting and the limits ask for a strict check. -/
def isStrict (s : Setting) (ls : List Limit) : Bool :=
  s.strict?.getD ((Limit.strict? ls).getD s.config.strict)

end Setting

end WebForm
