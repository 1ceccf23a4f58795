/-
The value of a scalar in a YAML document.

A plain scalar can write nothing, a flag, a number or a date; any other is a text.
A tag can ask for one of these kinds, and a scalar that looks like a number or a
date can turn out to be none.
-/
import WebForm.Number.Numeral
import WebForm.Text.Case
import WebForm.Value.Text

namespace WebForm.Yaml

open WebForm.Number

/-- Why a document has no value. -/
inductive Fault where
  /-- The document breaks the rules of the layout, or a node has no value by its tag. -/
  | unreadable
  /-- A date that the calendar does not have. -/
  | year | month | day
  /-- A text that is no integer in its base. -/
  | integer (base : Nat) (text : String)
  /-- An integer of more digits than are read. -/
  | tooManyDigits (n : Nat)
  | float (text : String)
  | flag (word : String)
  /-- A number without any character. -/
  | emptyNumber
  | timestamp
deriving DecidableEq

/-- The wording of a fault. -/
def Fault.message : Fault → String
  | .unreadable => "the document cannot be read"
  | .year => "year 0 is out of range"
  | .month => "month must be in 1..12"
  | .day => "day is out of range for month"
  | .integer base text =>
    "invalid literal for int() with base " ++ Value.intText base ++ ": " ++ Text.quoted text
  | .tooManyDigits n =>
    "Exceeds the limit (" ++ Value.intText digitLimit
      ++ " digits) for integer string conversion: value has " ++ Value.intText n
      ++ " digits; use sys.set_int_max_str_digits() to increase the limit"
  | .float text => "could not convert string to float: " ++ Text.quoted text
  | .flag word => Text.quoted word
  | .emptyNumber => "string index out of range"
  | .timestamp => "'NoneType' object has no attribute 'groupdict'"

/-- The words for nothing. -/
def nullWords : List String := ["", "~", "null", "Null", "NULL"]

/-- The words for a set flag. -/
def trueWords : List String :=
  ["yes", "Yes", "YES", "true", "True", "TRUE", "on", "On", "ON"]

/-- The words for an unset flag. -/
def falseWords : List String :=
  ["no", "No", "NO", "false", "False", "FALSE", "off", "Off", "OFF"]

/-- A digit or an underscore. -/
def isDigitOrLow (c : Char) : Bool := c.isDigit || c = '_'

/-- The value of a digit in a base up to 16. -/
def digitIn? (base : Nat) (c : Char) : Option Nat :=
  let d :=
    if c.isDigit then some (c.toNat - 0x30)
    else if 'a' ≤ c.toLower && c.toLower ≤ 'f' then some (c.toLower.toNat - 0x57)
    else none
  d.filter (· < base)

/-- The number that digits of a base write. -/
def baseValue? (base : Nat) (cs : List Char) : Option Nat :=
  if cs.isEmpty then none
  else (cs.mapM (digitIn? base)).map fun ds => ds.foldl (fun v d => base * v + d) 0

/-! ## Looks -/

/-- All characters are digits that pass or underscores, and there is one. -/
def areDigits (isDigit : Char → Bool) (cs : List Char) : Bool :=
  !cs.isEmpty && cs.all fun c => isDigit c || c = '_'

/-- A part of a number in base 60 behind its first: one or two digits below 60. -/
def isSixty : List Char → Bool
  | [a] => a.isDigit
  | [a, b] => '0' ≤ a && a ≤ '5' && b.isDigit
  | _ => false

/-- A digit, and digits or underscores behind it. -/
def isGrouped : List Char → Bool
  | c :: cs => c.isDigit && cs.all isDigitOrLow
  | [] => false

/-- A first number, and parts in base 60 behind it, with colons between them. -/
def isSexagesimal (cs : List Char) : Bool :=
  match cs.splitOn ':' with
  | whole :: p :: parts => isGrouped whole && (p :: parts).all isSixty
  | _ => false

/-- An unsigned text looks like an integer. -/
def looksInteger (cs : List Char) : Bool :=
  match cs with
  | ['0'] => true
  | '0' :: 'b' :: rest => areDigits (fun c => c = '0' || c = '1') rest
  | '0' :: 'x' :: rest => areDigits (fun c => (digitIn? 16 c).isSome) rest
  | '0' :: rest => areDigits (fun c => (digitIn? 8 c).isSome) rest
  | cs => isGrouped cs || isSexagesimal cs

/-- An exponent behind a fraction; it has a sign. -/
def isExponent (cs : List Char) : Bool :=
  match cs with
  | [] => true
  | e :: sign :: rest =>
    (e = 'e' || e = 'E') && (sign = '+' || sign = '-') && !rest.isEmpty && rest.all Char.isDigit
  | _ => false

/-- An unsigned text looks like a float. -/
def looksFraction (cs : List Char) : Bool :=
  let whole := cs.takeWhile (· != '.')
  match cs.dropWhile (· != '.') with
  | _ :: rest =>
    let places := rest.takeWhile isDigitOrLow
    let exponent := rest.dropWhile isDigitOrLow
    (isGrouped whole && isExponent exponent)
      || (whole.isEmpty && isGrouped places && isExponent exponent)
      || (isSexagesimal whole && exponent.isEmpty)
  | [] => false

/-- The words for an infinite float behind its sign. -/
def infiniteWords : List String := [".inf", ".Inf", ".INF"]

/-- The words for what is no number. -/
def nanWords : List String := [".nan", ".NaN", ".NAN"]

/-- A text looks like a float; a sign needs a digit or an infinity behind it. -/
def looksFloat (cs : List Char) : Bool :=
  let rest := (splitSign cs).2
  infiniteWords.contains (String.ofList rest) || nanWords.contains (String.ofList cs)
    || (looksFraction rest && (rest.head? != some '.' || rest == cs))

/-- A text looks like an integer with or without a sign. -/
def looksSignedInteger (cs : List Char) : Bool := looksInteger (splitSign cs).2

/-- A text of ten characters looks like a date. -/
def looksDate (cs : List Char) : Bool :=
  match cs with
  | [a, b, c, d, '-', e, f, '-', g, h] => [a, b, c, d, e, f, g, h].all Char.isDigit
  | _ => false

/-! ## Values -/

/-- Reads an integer in a base, with blanks around it, a sign, and the mark of its base. -/
def readBase (base : Nat) (cs : List Char) : Except Fault Nat :=
  let fault : Fault := .integer base (String.ofList cs)
  if base = 10 then
    match readInteger? (String.ofList cs) with
    | some i => if 0 ≤ i then .ok i.toNat else .error fault
    | none =>
      let digits := (splitSign (plainNumeral (String.ofList cs))).2
      if digitLimit < digits.length && digits.all Char.isDigit then
        .error (.tooManyDigits digits.length)
      else .error fault
  else
    let digits :=
      match cs with
      | '0' :: mark :: rest => if base = 8 && (mark = 'o' || mark = 'O') then rest else cs
      | _ => cs
    match baseValue? base digits with
    | some n => .ok n
    | none => .error fault

/-- The number that parts in base 60 write, the first part first. -/
def ofSixty (parts : List Nat) : Nat := parts.foldl (fun v part => 60 * v + part) 0

/-- Reads an unsigned integer without underscores. -/
def readUnsigned (cs : List Char) : Except Fault Nat :=
  match cs with
  | [] => .error .emptyNumber
  | ['0'] => .ok 0
  | '0' :: 'b' :: rest => readBase 2 rest
  | '0' :: 'x' :: rest => readBase 16 rest
  | '0' :: rest => readBase 8 ('0' :: rest)
  | cs =>
    if cs.contains ':' then ((cs.splitOn ':').mapM (readBase 10)).map ofSixty else readBase 10 cs

/-- Reads an integer. -/
def readInteger (cs : List Char) : Except Fault Int :=
  match cs.filter (· != '_') with
  | [] => .error .emptyNumber
  | cs =>
    let (negative, rest) := splitSign cs
    (readUnsigned rest).map (withSign negative)

/-- The sum of two floats. -/
def plus (x y : Binary64) : Binary64 :=
  match x.toRat?, y.toRat? with
  | some p, some q => Binary64.nearest (p + q)
  | some _, none => y
  | none, _ => x

/-- The product of a float and a number. -/
def times (x : Binary64) (n : Nat) : Binary64 :=
  match x.toRat? with
  | some p => Binary64.nearest (p * n)
  | none => x

/-- The float that parts in base 60 write, the last part first; `base` is the worth of that part. -/
def sumOfSixty (sum : Binary64) (base : Nat) : List Binary64 → Binary64
  | [] => sum
  | x :: xs => sumOfSixty (plus sum (times x base)) (60 * base) xs

/-- A float with the opposite sign. -/
def negated : Binary64 → Binary64
  | .finite negative m e => .finite (!negative) m e
  | .infinite negative => .infinite (!negative)
  | .nan => .nan

/-- Reads an unsigned float without underscores, in small letters. -/
def readFraction (cs : List Char) : Except Fault Binary64 :=
  let part (cs : List Char) : Except Fault Binary64 :=
    match readFloat? (String.ofList cs) with
    | some x => .ok x
    | none => .error (.float (String.ofList cs))
  if cs = ".inf".toList then .ok (.infinite false)
  else if cs = ".nan".toList then .ok .nan
  else if cs.contains ':' then
    ((cs.splitOn ':').mapM part).map fun parts => sumOfSixty (.zero false) 1 parts.reverse
  else part cs

/-- Reads a float. -/
def readFloat (cs : List Char) : Except Fault Binary64 :=
  match (Text.lower (String.ofList cs)).toList.filter (· != '_') with
  | [] => .error .emptyNumber
  | cs =>
    let (negative, rest) := splitSign cs
    (readFraction rest).map fun x => if negative then negated x else x

/-- Reads a date of ten characters. -/
def readDate (cs : List Char) : Except Fault Date :=
  let number (from_ count : Nat) : Nat := digitsValue ((cs.drop from_).take count)
  let d : Date := ⟨number 0 4, number 5 2, number 8 2⟩
  if d.year = 0 then .error .year
  else if Date.daysIn d.year d.month = 0 then .error .month
  else if d.day < 1 || Date.daysIn d.year d.month < d.day then .error .day
  else .ok d

/-- Reads a flag. -/
def readFlag (s : String) : Except Fault Bool :=
  let word := Text.lower s
  if trueWords.contains word then .ok true
  else if falseWords.contains word then .ok false
  else .error (.flag word)

/-- The value of a plain scalar; two marks have a meaning of their own and no value. -/
def plainValue (s : String) : Except Fault Value :=
  let cs := s.toList
  if s = "=" || s = "<<" then .error .unreadable
  else if nullWords.contains s then .ok .null
  else if trueWords.contains s then .ok (.bool true)
  else if falseWords.contains s then .ok (.bool false)
  else if looksFloat cs then (readFloat cs).map .float
  else if looksSignedInteger cs then (readInteger cs).map .int
  else if looksDate cs then (readDate cs).map .date
  else .ok (.str s)

end WebForm.Yaml
