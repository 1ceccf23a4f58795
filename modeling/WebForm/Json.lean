/-
Values written in JSON.

Beside the standard, `NaN`, `Infinity` and `-Infinity` are numbers.  A repeated
key keeps its first place and takes the last value.
-/
import WebForm.Number.Numeral
import WebForm.Value.Basic

namespace WebForm.Json

open WebForm.Number

/-- Blanks between tokens. -/
def isBlank (c : Char) : Bool := c = ' ' || c = '\t' || c = '\n' || c = '\r'

/-- The text without the blanks at its start. -/
def skip (cs : List Char) : List Char := cs.dropWhile isBlank

/-- The value of a hexadecimal digit. -/
def hexDigit? (c : Char) : Option Nat :=
  if c.isDigit then some (c.toNat - 0x30)
  else if 'a' ≤ c && c ≤ 'f' then some (c.toNat - 0x57)
  else if 'A' ≤ c && c ≤ 'F' then some (c.toNat - 0x37)
  else none

/-- Reads four hexadecimal digits. -/
def readUnit : List Char → Option (Nat × List Char)
  | a :: b :: c :: d :: rest => do
    let a ← hexDigit? a
    let b ← hexDigit? b
    let c ← hexDigit? c
    let d ← hexDigit? d
    some (((a * 16 + b) * 16 + c) * 16 + d, rest)
  | _ => none

/-- The first half of a pair of units. -/
def isHigh (u : Nat) : Bool := 0xd800 ≤ u && u < 0xdc00

/-- The second half of a pair of units. -/
def isLow (u : Nat) : Bool := 0xdc00 ≤ u && u < 0xe000

/-- Reads the character that one or two escaped units stand for; half a pair alone becomes the
replacement character. -/
def readEscapedUnit (cs : List Char) : Option (Char × List Char) := do
  let (u, rest) ← readUnit cs
  if isHigh u then
    match rest with
    | '\\' :: 'u' :: more =>
      match readUnit more with
      | some (v, after) =>
        if isLow v then some (Char.ofNat (0x10000 + (u - 0xd800) * 1024 + (v - 0xdc00)), after)
        else some ('\ufffd', rest)
      | none => none
    | _ => some ('\ufffd', rest)
  else if isLow u then some ('\ufffd', rest)
  else some (Char.ofNat u, rest)

/-- The character that a letter behind a backslash stands for. -/
def simpleEscape? : Char → Option Char
  | '\x22' => some '\x22'
  | '\\' => some '\\'
  | '/' => some '/'
  | 'b' => some '\x08'
  | 'f' => some '\x0c'
  | 'n' => some '\n'
  | 'r' => some '\r'
  | 't' => some '\t'
  | _ => none

/-- Reads a text up to its closing quote; `done` is what came before, the last character first. -/
def readText : Nat → List Char → List Char → Option (String × List Char)
  | 0, _, _ => none
  | fuel + 1, cs, done =>
    match cs with
    | [] => none
    | '\x22' :: rest => some (String.ofList done.reverse, rest)
    | '\\' :: 'u' :: rest => do
      let (c, after) ← readEscapedUnit rest
      readText fuel after (c :: done)
    | '\\' :: c :: rest => do
      let e ← simpleEscape? c
      readText fuel rest (e :: done)
    | c :: rest => if c.toNat < 0x20 || c = '\\' then none else readText fuel rest (c :: done)

/-- The leading digits, and what follows them. -/
def digits (cs : List Char) : List Char × List Char :=
  (cs.takeWhile Char.isDigit, cs.dropWhile Char.isDigit)

/-- The fraction that follows a whole number, if there is one. -/
def fraction (cs : List Char) : List Char × List Char :=
  match cs with
  | '.' :: rest =>
    match digits rest with
    | ([], _) => ([], cs)
    | found => found
  | _ => ([], cs)

/-- The exponent that follows a number, if there is one. -/
def exponent (cs : List Char) : Option Int × List Char :=
  match cs with
  | c :: rest =>
    if c = 'e' || c = 'E' then
      let (negative, rest) := splitSign rest
      match digits rest with
      | ([], _) => (none, cs)
      | (ds, after) => (some (withSign negative (digitsValue ds)), after)
    else (none, cs)
  | [] => (none, cs)

/-- Reads a number without its sign. -/
def readNumber (negative : Bool) (cs : List Char) : Option (Value × List Char) :=
  let (whole, rest) := match cs with
    | '0' :: rest => (['0'], rest)
    | cs => digits cs
  if whole.isEmpty then none
  else
    let (places, rest) := fraction rest
    match places, exponent rest with
    | [], (none, rest) =>
      if digitLimit < whole.length then none
      else some (.int (withSign negative (digitsValue whole)), rest)
    | places, (e, rest) =>
      some (.float (Binary64.ofDecimal negative (digitsValue (whole ++ places))
        (e.getD 0 - places.length)), rest)

/-- What follows a word at the start of a text. -/
def afterWord? (word : String) (cs : List Char) : Option (List Char) :=
  if word.toList.isPrefixOf cs then some (cs.drop word.length) else none

/-- The words that stand for values. -/
def words : List (String × Value) :=
  [("null", .null), ("true", .bool true), ("false", .bool false), ("NaN", .float .nan),
    ("Infinity", .float (.infinite false)), ("-Infinity", .float (.infinite true))]

/-- Reads a word. -/
def readWord (cs : List Char) : Option (Value × List Char) :=
  words.findSome? fun w => (afterWord? w.1 cs).map fun rest => (w.2, rest)

mutual

/-- Reads a value. -/
def readValue : Nat → List Char → Option (Value × List Char)
  | 0, _ => none
  | fuel + 1, cs =>
    match cs with
    | '\x22' :: rest => (readText (rest.length + 1) rest []).map fun p => (.str p.1, p.2)
    | '[' :: rest =>
      match skip rest with
      | ']' :: after => some (.list [], after)
      | items => readItems fuel items []
    | '\x7b' :: rest =>
      match skip rest with
      | '\x7d' :: after => some (.map [], after)
      | pairs => readPairs fuel pairs []
    | cs =>
      match readWord cs with
      | some found => some found
      | none =>
        match cs with
        | '-' :: rest => readNumber true rest
        | cs => readNumber false cs

/-- Reads the items of a list. -/
def readItems : Nat → List Char → List Value → Option (Value × List Char)
  | 0, _, _ => none
  | fuel + 1, cs, done => do
    let (v, rest) ← readValue fuel cs
    match skip rest with
    | ',' :: more => readItems fuel (skip more) (v :: done)
    | ']' :: after => some (.list (v :: done).reverse, after)
    | _ => none

/-- Reads the pairs of a mapping. -/
def readPairs : Nat → List Char → List (String × Value) → Option (Value × List Char)
  | 0, _, _ => none
  | fuel + 1, cs, done =>
    match cs with
    | '\x22' :: rest => do
      let (key, rest) ← readText (rest.length + 1) rest []
      match skip rest with
      | ':' :: rest =>
        let (v, rest) ← readValue fuel (skip rest)
        let done := Pairs.set done key v
        match skip rest with
        | ',' :: more => readPairs fuel (skip more) done
        | '\x7d' :: after => some (Value.ofPairs done, after)
        | _ => none
      | _ => none
    | _ => none

end

/-- The value that a text writes. -/
def read (s : String) : Option Value :=
  let cs := s.toList
  match readValue (2 * cs.length + 2) (skip cs) with
  | some (v, rest) => if (skip rest).isEmpty then some v else none
  | none => none

end WebForm.Json
