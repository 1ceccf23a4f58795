/-
Readers of numerals.

A submitted numeral may use the decimal digits of any script, blanks around it
and single underscores between digits.  A check reads numerals more narrowly:
ASCII digits only, but zeros after a point may follow an integer.  Both refuse an
integer that is written with more than 4300 digits.
-/
import WebForm.Number.Binary64
import WebForm.Text.Blank
import WebForm.Text.Digit

namespace WebForm.Number

open WebForm.Text

/-- The most digits that an integer may be written with. -/
def digitLimit : Nat := 4300

/-- The value of an ASCII digit. -/
def digitOf (c : Char) : Nat := c.toNat - 0x30

/-- The number that a list of ASCII digits writes. -/
def digitsValue (ds : List Char) : Nat := ds.foldl (fun v c => 10 * v + digitOf c) 0

/-- The integer with a sign. -/
def withSign (negative : Bool) (n : Nat) : Int := if negative then -(n : Int) else n

/-- Splits off one sign. -/
def splitSign : List Char → Bool × List Char
  | '-' :: cs => (true, cs)
  | '+' :: cs => (false, cs)
  | cs => (false, cs)

/-! ## Grouped digits -/

/-- The digits after a digit, where a single underscore may stand before a digit. -/
def afterDigit : List Char → Option (List Char)
  | [] => some []
  | '_' :: c :: cs => if c.isDigit then (afterDigit cs).map (c :: ·) else none
  | c :: cs => if c.isDigit then (afterDigit cs).map (c :: ·) else none

/-- The digits of a numeral with single underscores between them. -/
def groupedDigits : List Char → Option (List Char)
  | [] => none
  | c :: cs => if c.isDigit then (afterDigit cs).map (c :: ·) else none

/-! ## Submitted numerals -/

/-- The ASCII character that a numeral's character stands for: blanks become a space,
digits of any script ASCII digits, and any other character beyond ASCII a question
mark, which no numeral holds. -/
def plainChar (c : Char) : Char :=
  if c.toNat < 127 then c
  else if isSpacing c then ' '
  else
    match decimalValue? c with
    | some d => digitChar d
    | none => '?'

/-- The ASCII text of a submitted numeral, without the blanks around it. -/
def plainNumeral (s : String) : List Char := trim isAsciiBlank (s.toList.map plainChar)

/-- Reads a submitted integer. -/
def readInteger? (s : String) : Option Int :=
  let (negative, cs) := splitSign (plainNumeral s)
  match groupedDigits cs with
  | some ds => if ds.length ≤ digitLimit then some (withSign negative (digitsValue ds)) else none
  | none => none

/-! ## Decimal fractions -/

/-- The exponent that follows the digits, nothing for a zero exponent. -/
def exponentPart : List Char → Option Int
  | [] => some 0
  | c :: cs =>
    if c = 'e' || c = 'E' then
      let (negative, ds) := splitSign cs
      if ds.isEmpty || !ds.all Char.isDigit then none
      else some (withSign negative (digitsValue ds))
    else none

/-- Reads an unsigned decimal fraction with an optional exponent. -/
def unsignedFloat? (negative : Bool) (cs : List Char) : Option Binary64 :=
  let whole := cs.takeWhile Char.isDigit
  let rest := cs.dropWhile Char.isDigit
  let (fraction, rest) :=
    match rest with
    | '.' :: r => (r.takeWhile Char.isDigit, r.dropWhile Char.isDigit)
    | r => ([], r)
  if whole.isEmpty && fraction.isEmpty then none
  else
    (exponentPart rest).map fun e =>
      Binary64.ofDecimal negative (digitsValue (whole ++ fraction)) (e - fraction.length)

/-- Reads a float in ASCII characters: a decimal fraction, an infinity or `nan`. -/
def float? (cs : List Char) : Option Binary64 :=
  let (negative, rest) := splitSign cs
  let word := rest.map Char.toLower
  if word = "nan".toList then some .nan
  else if word = "inf".toList || word = "infinity".toList then some (.infinite negative)
  else unsignedFloat? negative rest

/-- Removes underscores that stand between two digits; any other underscore is refused. -/
def dropUnderscores (before : Char) : List Char → Option (List Char)
  | [] => some []
  | '_' :: c :: cs =>
    if before.isDigit && c.isDigit then (dropUnderscores c cs).map (c :: ·) else none
  | ['_'] => none
  | c :: cs => (dropUnderscores c cs).map (c :: ·)

/-- Reads a submitted float. -/
def readFloat? (s : String) : Option Binary64 :=
  (dropUnderscores ' ' (plainNumeral s)).bind float?

/-! ## Numerals in checks -/

/-- Why a text is no integer. -/
inductive IntegerFault where
  | unreadable
  | tooLong
deriving DecidableEq

/-- Integers and their opposites that fit in a signed word of 64 bits stay below this. -/
def wordLimit : Int := 9223372036854775808

/-- The integer fits in a signed word of 64 bits. -/
def isWord (i : Int) : Bool := -wordLimit ≤ i && i < wordLimit

/-- Reads an integer in its plain form: a minus or nothing, and digits without a zero in front.
A numeral that is too long is a fault of its own, whatever follows the digits. -/
def plainInteger (cs : List Char) : Except IntegerFault Int :=
  let negative := cs.head? = some '-'
  let body := if negative then cs.drop 1 else cs
  let digits := body.takeWhile Char.isDigit
  let rest := body.dropWhile Char.isDigit
  match digits with
  | [] => .error .unreadable
  | ['0'] => if rest.isEmpty then .ok 0 else .error .unreadable
  | '0' :: _ => .error .unreadable
  | _ =>
    if digitLimit < digits.length + (if negative then 1 else 0) then .error .tooLong
    else if rest.isEmpty then .ok (withSign negative (digitsValue digits))
    else .error .unreadable

/-- What follows zeros and underscores, `last` of which stands before: from the first other digit
or minus on, or from `last` on when a point or nothing follows. -/
def afterZeros (last : Char) : List Char → Option (List Char)
  | [] => some [last]
  | c :: cs =>
    if c = '0' || c = '_' then afterZeros c cs
    else if c = '.' then some (last :: c :: cs)
    else if c = '-' || c.isDigit then some (c :: cs)
    else none

/-- A numeral without zeros in front. -/
def dropLeadingZeros : List Char → Option (List Char)
  | [] => none
  | c :: cs =>
    if c = '0' then afterZeros c cs
    else if c = '-' || c.isDigit then some (c :: cs)
    else none

/-- Drops a point with zeros, and nothing else, behind it. -/
def dropZeroFraction (cs : List Char) : List Char :=
  match cs.dropWhile (· != '.') with
  | _ :: zeros =>
    if !zeros.isEmpty && zeros.all (· = '0') then cs.takeWhile (· != '.') else cs
  | [] => cs

/-- Drops a plus, which no minus may follow. -/
def dropPlus : List Char → Option (List Char)
  | '+' :: '-' :: _ => none
  | '+' :: cs => some cs
  | cs => some cs

/-- The text without its underscores, when they stand singly and inside. -/
def looseUnderscores (cs : List Char) : Option (List Char) :=
  let doubled := (cs.zip (cs.drop 1)).any fun p => p.1 = '_' && p.2 = '_'
  if !cs.contains '_' || cs.head? = some '_' || cs.getLast? = some '_' || doubled then none
  else some (cs.filter (· != '_'))

/-- The plain form of an integer that is written with blanks around it, a plus, zeros in front,
zeros behind a point or underscores. -/
def plainForm? (cs : List Char) : Option (List Char) :=
  ((dropPlus (trim isWhite cs)).bind dropLeadingZeros).map fun cs =>
    let whole := dropZeroFraction cs
    (looseUnderscores whole).getD whole

/-- Reads an integer as a check does. -/
def checkInteger (s : String) : Except IntegerFault Int :=
  match plainInteger s.toList with
  | .error .unreadable =>
    match (plainForm? s.toList).map plainInteger with
    | some (.ok i) => .ok i
    | _ => .error .unreadable
  | r => r

/-- Reads a float as a check does. -/
def checkFloat? (s : String) : Option Binary64 :=
  match float? (trim isWhite s.toList) with
  | some x => some x
  | none => (looseUnderscores s.toList).bind float?

end WebForm.Number
