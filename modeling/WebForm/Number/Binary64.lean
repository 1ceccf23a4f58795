/-
Binary floating point numbers of 64 bits, as exact values.

A finite number is a sign, a mantissa below 2 ^ 53 and an exponent of two; all
operations work on these integers, so every result is exact or rounded once, to
the nearest number and to the even mantissa on a tie.  `shortest` gives the
fewest decimal digits that read back as the number.
-/

namespace WebForm.Number

/-- A number of the binary64 format.  All values that are not a number count as one. -/
inductive Binary64 where
  | nan
  | infinite (negative : Bool)
  | finite (negative : Bool) (mantissa : Nat) (exponent : Int)
deriving DecidableEq, Inhabited

namespace Binary64

/-- The least exponent of a finite number. -/
def minExponent : Int := -1074

/-- The greatest exponent of a finite number. -/
def maxExponent : Int := 971

/-- Zero with a sign. -/
def zero (negative : Bool) : Binary64 := .finite negative 0 minExponent

/-- The fraction `num / den` times a power of two, as a fraction of natural numbers. -/
def scaleBy (num den : Nat) (e : Int) : Nat × Nat :=
  if 0 ≤ e then (num * Nat.pow 2 e.toNat, den) else (num, den * Nat.pow 2 (-e).toNat)

/-- The quotient rounded to the nearest integer, a tie to the even one. -/
def divNearest (num den : Nat) : Nat :=
  let q := num / den
  let r := num % den
  if den < 2 * r || (den = 2 * r && q % 2 = 1) then q + 1 else q

/-- The exponent that gives `num / den` a mantissa of 53 bits, or the least exponent. -/
def exponentFor (num den : Nat) : Int :=
  let guess : Int := (num.log2 : Int) - (den.log2 : Int) - 52
  let scaled := scaleBy num den (-guess)
  let e := if scaled.1 / scaled.2 < Nat.pow 2 52 then guess - 1 else guess
  max e minExponent

/-- The number nearest to the positive fraction `num / den`. -/
def ofFraction (negative : Bool) (num den : Nat) : Binary64 :=
  if num = 0 then zero negative
  else
    let e := exponentFor num den
    let scaled := scaleBy num den (-e)
    let m := divNearest scaled.1 scaled.2
    let (m, e) := if m = Nat.pow 2 53 then (Nat.pow 2 52, e + 1) else (m, e)
    if maxExponent < e then .infinite negative else .finite negative m e

/-- The number nearest to `digits` times a power of ten. -/
def ofDecimal (negative : Bool) (digits : Nat) (exponent : Int) : Binary64 :=
  if digits = 0 then zero negative
  else
    let magnitude : Int := exponent + (Nat.toDigits 10 digits).length
    if 310 < magnitude then .infinite negative
    else if magnitude < -330 then zero negative
    else if 0 ≤ exponent then ofFraction negative (digits * Nat.pow 10 exponent.toNat) 1
    else ofFraction negative digits (Nat.pow 10 (-exponent).toNat)

/-- The number nearest to a fraction. -/
def nearest (q : Rat) : Binary64 := ofFraction (q < 0) q.num.natAbs q.den

/-- The number nearest to an integer, when it is finite. -/
def ofInt? (i : Int) : Option Binary64 :=
  match ofDecimal (i < 0) i.natAbs 0 with
  | .finite n m e => some (.finite (n && m != 0) m e)
  | _ => none

/-- The number is finite. -/
def isFinite : Binary64 → Bool
  | .finite .. => true
  | _ => false

/-- The value of a finite number. -/
def toRat? : Binary64 → Option Rat
  | .finite n m e =>
    let scaled := scaleBy m 1 e
    let magnitude := mkRat scaled.1 scaled.2
    some (if n then -magnitude else magnitude)
  | _ => none

/-- The value of a finite number without a fractional part. -/
def toInt? : Binary64 → Option Int
  | .finite n m e =>
    let scaled := scaleBy m 1 e
    if scaled.1 % scaled.2 = 0 then
      let i : Int := (scaled.1 / scaled.2 : Nat)
      some (if n then -i else i)
    else none
  | _ => none

/-- `x` is less than `y`; nothing is less or greater than what is no number. -/
def lt : Binary64 → Binary64 → Bool
  | .nan, _ => false
  | _, .nan => false
  | .infinite n, .infinite k => n && !k
  | .infinite n, .finite .. => n
  | .finite .., .infinite k => !k
  | x@(.finite ..), y@(.finite ..) => x.toRat?.getD 0 < y.toRat?.getD 0

/-- The numbers are equal in value; what is no number equals nothing. -/
def eq : Binary64 → Binary64 → Bool
  | .infinite n, .infinite k => n = k
  | x@(.finite ..), y@(.finite ..) => x.toRat? = y.toRat?
  | _, _ => false

/-- `x` is less than or equal to `y`. -/
def le (x y : Binary64) : Bool := x.lt y || x.eq y

/-! ## Shortest decimal digits -/

/-- The exponent of ten of the first digit of the positive fraction `num / den`. -/
def leadingExponent (num den : Nat) : Int :=
  if den ≤ num then ((Nat.toDigits 10 (num / den)).length : Int) - 1
  else
    let d := (Nat.toDigits 10 (den / num)).length
    if den ≤ num * Nat.pow 10 (d - 1) then -((d : Int) - 1) else -(d : Int)

/-- `num / den` divided by a power of ten, as a fraction of natural numbers. -/
def unscaleTen (num den : Nat) (p : Int) : Nat × Nat :=
  if 0 ≤ p then (num, den * Nat.pow 10 p.toNat) else (num * Nat.pow 10 (-p).toNat, den)

/-- Decimals around a positive number: the fraction itself, the ends of the interval
that rounds to it, all over one denominator, and whether the ends belong to it. -/
structure Neighbourhood where
  value : Nat
  low : Nat
  high : Nat
  denominator : Nat
  closed : Bool

/-- The interval that rounds to the number of mantissa `m` and exponent `e`. -/
def neighbourhood (m : Nat) (e : Int) : Neighbourhood :=
  -- over the denominator of a quarter of a unit in the last place
  let scaled := scaleBy 1 4 e
  let below := if m = Nat.pow 2 52 && minExponent < e then 1 else 2
  { value := 4 * m * scaled.1
    low := (4 * m - below) * scaled.1
    high := (4 * m + 2) * scaled.1
    denominator := scaled.2
    closed := m % 2 = 0 }

/-- The decimal `d` times ten to the `p` lies in the interval. -/
def Neighbourhood.has (n : Neighbourhood) (d : Nat) (p : Int) : Bool :=
  let scaled := if 0 ≤ p then (d * Nat.pow 10 p.toNat, 1) else (d, Nat.pow 10 (-p).toNat)
  let x := scaled.1 * n.denominator
  let low := n.low * scaled.2
  let high := n.high * scaled.2
  if n.closed then low ≤ x && x ≤ high else low < x && x < high

/-- The decimal on the grid of ten to the `p` that lies in the interval nearest to the
value, if there is one. -/
def Neighbourhood.onGrid? (n : Neighbourhood) (p : Int) : Option Nat :=
  let scaled := unscaleTen n.value n.denominator p
  let q := scaled.1 / scaled.2
  let r := scaled.1 % scaled.2
  let up := scaled.2 < 2 * r || (scaled.2 = 2 * r && q % 2 = 1)
  let first := if up then q + 1 else q
  let second := if up then q else q + 1
  if n.has first p then some first
  else if n.has second p then some second
  else none

/-- Tries grids of one digit more each time. -/
def Neighbourhood.search (n : Neighbourhood) (top : Int) : Nat → Nat → Nat × Int
  | 0, digits =>
    let p := top - (digits : Int) + 1
    let scaled := unscaleTen n.value n.denominator p
    (divNearest scaled.1 scaled.2, p)
  | fuel + 1, digits =>
    let p := top - (digits : Int) + 1
    match n.onGrid? p with
    | some d => (d, p)
    | none => n.search top fuel (digits + 1)

/-- Drops zeros at the end of a decimal. -/
def dropZeros : Nat → Nat → Int → Nat × Int
  | 0, d, p => (d, p)
  | fuel + 1, d, p => if d % 10 = 0 && d != 0 then dropZeros fuel (d / 10) (p + 1) else (d, p)

/-- The fewest decimal digits, with an exponent of ten, that read back as the positive
number of mantissa `m` and exponent `e`. -/
def shortest (m : Nat) (e : Int) : Nat × Int :=
  let n := neighbourhood m e
  let top := leadingExponent n.value n.denominator
  let (d, p) := n.search top 16 1
  dropZeros 400 d p

/-! ## Text -/

/-- Digits with a point after the digit of exponent zero; zeros fill both sides. -/
def positional (digits : List Char) (exponent : Int) : String :=
  if 0 ≤ exponent then String.ofList (digits ++ List.replicate exponent.toNat '0')
  else
    let places := (-exponent).toNat
    if places < digits.length then
      String.ofList (digits.take (digits.length - places)) ++ "."
        ++ String.ofList (digits.drop (digits.length - places))
    else
      "0." ++ String.ofList (List.replicate (places - digits.length) '0' ++ digits)

/-- Digits with a point after the first one and an exponent of two digits or more. -/
def scientific (digits : List Char) (leading : Int) : String :=
  let head := String.ofList (digits.take 1)
  let tail := digits.drop 1
  let fraction := if tail.isEmpty then "" else "." ++ String.ofList tail
  let size := Nat.toDigits 10 leading.natAbs
  let padded := if size.length < 2 then '0' :: size else size
  head ++ fraction ++ "e" ++ (if leading < 0 then "-" else "+") ++ String.ofList padded

/-- The text of a number: positional from 1e-4 to below 1e16, with a point in any case. -/
def text : Binary64 → String
  | .nan => "nan"
  | .infinite n => if n then "-inf" else "inf"
  | .finite n m e =>
    let sign := if n then "-" else ""
    if m = 0 then sign ++ "0.0"
    else
      let (d, p) := shortest m e
      let digits := Nat.toDigits 10 d
      let leading := p + digits.length - 1
      if -4 ≤ leading && leading < 16 then
        sign ++ positional digits p ++ (if 0 ≤ p then ".0" else "")
      else sign ++ scientific digits leading

/-- The text of a number in a message: positional always, whole numbers without a point. -/
def plainText : Binary64 → String
  | .nan => "NaN"
  | .infinite n => if n then "-inf" else "inf"
  | .finite n m e =>
    let sign := if n then "-" else ""
    if m = 0 then sign ++ "0"
    else
      let (d, p) := shortest m e
      sign ++ positional (Nat.toDigits 10 d) p

end Binary64

end WebForm.Number
