/-
The order of values.

Numbers, dates and texts have an order each, lists and tuples are ordered by the
first items that differ, and a set is less than those that hold all of its items.
Values of different kinds have no order, and neither have all others.
-/
import WebForm.Value.Basic

namespace WebForm

open WebForm.Number

/-- A number as a bound sees it. -/
inductive Quantity where
  | nan
  | infinite (negative : Bool)
  | finite (q : Rat)
deriving DecidableEq

namespace Quantity

/-- The first is less than the second; nothing is less or greater than what is no number. -/
def lt : Quantity → Quantity → Bool
  | .nan, _ | _, .nan => false
  | .infinite n, .infinite k => n && !k
  | .infinite n, .finite _ => n
  | .finite _, .infinite k => !k
  | .finite p, .finite q => p < q

/-- The first is less than the second, or equal to it. -/
def le : Quantity → Quantity → Bool
  | .infinite n, .infinite k => n || !k
  | .finite p, .finite q => p ≤ q
  | p, q => p.lt q

/-- The remainder of a division towards zero. -/
def remainder (x step : Rat) : Rat :=
  let ratio := x / step
  let whole : Int := if ratio < 0 then -(-ratio).floor else ratio.floor
  x - step * whole

/-- The number is a multiple of the step. -/
def isMultiple : Quantity → Quantity → Bool
  | .finite x, .finite step => remainder x step = 0
  | .finite x, .infinite _ => x = 0
  | _, _ => false

/-- The float nearest to a fraction, as a fraction. -/
def rounded (q : Rat) : Rat := (Binary64.nearest q).toRat?.getD q

/-- The number is a multiple of the step up to a billionth of the number; a remainder that is no
number counts as none. -/
def isNearMultiple : Quantity → Quantity → Bool
  | .finite x, .finite step =>
    let rest := (remainder x step).abs
    let slack := rounded (x.abs / 1000000000)
    step = 0 || rest ≤ slack || (rounded (rest - step)).abs ≤ slack
  | .finite x, .infinite _ => x = 0
  | _, _ => true

end Quantity

namespace Value

/-- The number that a value is. -/
def quantity? (v : Value) : Option Quantity :=
  match plain v with
  | .int i => some (.finite i)
  | .float .nan => some .nan
  | .float (.infinite n) => some (.infinite n)
  | .float x => some (.finite (x.toRat?.getD 0))
  | _ => none

/-- The value is less than the other, or equal to it if that counts; nothing is said of lists
and tuples. -/
def scalarBelow? (orEqual : Bool) (a b : Value) : Option Bool :=
  let ofQuantities (p q : Quantity) : Bool := if orEqual then p.le q else p.lt q
  match a, b with
  | .date d, .date e => some (ofQuantities (.finite d.toEpochDays) (.finite e.toEpochDays))
  | .set xs, .set ys | .set xs, .frozenset ys | .frozenset xs, .set ys
  | .frozenset xs, .frozenset ys =>
    some (itemsIn xs ys && (orEqual || decide (xs.length < ys.length)))
  | a, b =>
    match a.quantity?, b.quantity?, a.asText?, b.asText? with
    | some p, some q, _, _ => some (ofQuantities p q)
    | _, _, some s, some t => some (if orEqual then decide (s ≤ t) else decide (s < t))
    | _, _, _, _ => none

mutual

/-- The value is less than the other, or equal to it if that counts, when the two compare. -/
def below? (orEqual : Bool) : Value → Value → Option Bool
  | .list xs, v =>
    match v with
    | .list ys => itemsBelow? orEqual xs ys
    | _ => none
  | .tuple xs, v =>
    match v with
    | .tuple ys => itemsBelow? orEqual xs ys
    | _ => none
  | a, b => scalarBelow? orEqual a b

/-- The first items that differ decide, and then the number of items. -/
def itemsBelow? (orEqual : Bool) : List Value → List Value → Option Bool
  | [], ys => some (orEqual || !ys.isEmpty)
  | _ :: _, [] => some false
  | x :: xs, y :: ys => if same x y then itemsBelow? orEqual xs ys else below? orEqual x y

end

end Value

end WebForm
