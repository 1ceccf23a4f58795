/-
Timestamps: moments as counts since the first of January 1970.

A count up to 20 000 000 000 is one of seconds, and a greater one of milliseconds.
A count with a fraction gives the microseconds too, to the nearest.  The years 0 to
9999 can be counted.
-/
import WebForm.Date.Moment
import WebForm.Number.Numeral

namespace WebForm

open WebForm.Number

/-- A count since 1970, as a text writes it. -/
inductive Timestamp where
  | whole (n : Int)
  | fractional (x : Binary64)
deriving DecidableEq

namespace Timestamp

/-- The greatest count that is taken as seconds. -/
def secondsLimit : Nat := 20000000000

/-- The first second of the year 0. -/
def firstSecond : Int := -62167219200

/-- The last second of the year 9999. -/
def lastSecond : Int := 253402300799

/-- The moment of a number of microseconds. -/
def ofMicroseconds (t : Int) : Except MomentFault Moment :=
  let seconds := t / 1000000
  if seconds < firstSecond then .error .tooEarly
  else if lastSecond < seconds then .error .tooLate
  else .ok ⟨.ofEpochDays (seconds / 86400), t % 86400000000 = 0⟩

/-- The moment of a whole count and some microseconds. -/
def ofCount (n microseconds : Int) : Except MomentFault Moment :=
  ofMicroseconds ((if n.natAbs ≤ secondsLimit then n * 1000000 else n * 1000) + microseconds)

/-- The microseconds of a part of a second: the float nearest to the product, and then the whole
number nearest to that. -/
def microseconds (part : Rat) : Int :=
  (((Binary64.nearest (part * 1000000)).toRat?.getD 0) + 1 / 2).floor

/-- The moment of an infinite count. -/
def ofInfinite (negative : Bool) : Except MomentFault Moment :=
  .error (if negative then .tooEarly else .tooLate)

/-- The moment of a float: the whole count below it, and the microseconds of its digits behind the
point, whatever its sign. -/
def ofFloat (x : Binary64) : Except MomentFault Moment :=
  match x with
  | .nan => .error .notANumber
  | .infinite negative => ofInfinite negative
  | x =>
    let q := x.toRat?.getD 0
    let magnitude := q.abs
    ofCount q.floor (microseconds (magnitude - magnitude.floor))

/-- The moment of a fraction that a text writes: a count of milliseconds is made one of seconds
first. -/
def ofFraction (x : Binary64) : Except MomentFault Moment :=
  match x with
  | .nan => .error .notANumber
  | .infinite negative => ofInfinite negative
  | x =>
    let count := x.toRat?.getD 0
    let seconds :=
      if count.abs ≤ secondsLimit then count
      else (Binary64.nearest (count / 1000)).toRat?.getD 0
    let part := (Binary64.nearest (seconds - seconds.floor)).toRat?.getD 0
    ofCount seconds.floor (microseconds part)

/-- The moment of a timestamp. -/
def moment : Timestamp → Except MomentFault Moment
  | .whole n => ofCount n 0
  | .fractional x => ofFraction x

/-- Reads a timestamp: a whole number that fits in a word, or one with a point behind it, which
digits and an exponent can follow. -/
def read? (s : String) : Option Timestamp :=
  let (negative, cs) := splitSign s.toList
  let digits := cs.takeWhile Char.isDigit
  let n := digitsValue digits
  if wordLimit ≤ n then none
  else
    match cs.dropWhile Char.isDigit with
    | [] => if digits.isEmpty then none else some (.whole (withSign negative n))
    | '.' :: _ => (unsignedFloat? negative cs).map .fractional
    | _ => none

end Timestamp

end WebForm
