/-
Checks of single values: texts, numbers, flags and dates.

A lax check also takes a value of another kind that can stand for one of the
type; a strict check takes the type's own values alone.  Each check first reads
the value and then tries the limits that belong to it.
-/
import WebForm.Check.Added
import WebForm.Date.Timestamp
import WebForm.Text.Case

namespace WebForm

open WebForm.Number WebForm.Text

namespace Check

/-! ## Texts -/

/-- The check of texts. -/
def text (s : Setting) : Check :=
  ofOwn s "str" (fun l => l.isLength || l.isPattern)
    (fun ls =>
      if s.config.strip || ls.any (fun l => l.isLength || l.isPattern) then "constrained-str"
      else "str")
    (runText s)

/-! ## Integers -/

/-- The integer that a float is taken as. -/
def integerOfFloat (x : Binary64) : Except Cause Int :=
  if !x.isFinite then .error .notFinite
  else
    match x.toInt? with
    | none => .error .integerFraction
    | some i => if wordLimit ≤ i || i ≤ -wordLimit then .error .integerTooLong else .ok i

/-- The integer that a text is taken as. -/
def integerOfText (s : String) : Except Cause Int :=
  match checkInteger s with
  | .ok i => .ok i
  | .error .unreadable => .error .integerUnreadable
  | .error .tooLong => .error .integerTooLong

/-- The integer that a value is taken as, with the change.  A lax check also takes what an option
of a plain enumeration stands for, whatever it is. -/
def readInteger (strict : Bool) : Value → Except Cause (Value × Exactness)
  | .int i => .ok (.int i, .exact)
  | .option e .integer n w p => .ok ((Value.option e .integer n w p).plain, .close)
  | v =>
    if strict then .error (.expected .integer)
    else
      match v with
      | .bool b => .ok (.int (if b then 1 else 0), .loose)
      | .str s | .option _ .text _ (.str s) _ => (integerOfText s).map (.int ·, .loose)
      | .float x => (integerOfFloat x).map (.int ·, .loose)
      | .option _ .plain _ w _ => .ok (w, .loose)
      | _ => .error (.expected .integer)

/-- Checks an integer.  What is none is a fault only under the limits of integers. -/
def runInteger (s : Setting) (ls : List Limit) (v : Value) : Outcome :=
  match readInteger (s.isStrict ls) v with
  | .error cause => Outcome.fault cause v
  | .ok (w, exactness) =>
    if !ls.any Limit.isNumeric then Outcome.pass w exactness
    else
      match w.asInteger? with
      | Option.none => Outcome.fault .integerTooLong w
      | some i =>
        match Limit.numericCause? true ls (.finite i) with
        | some cause => Outcome.fault cause v
        | Option.none => Outcome.pass w exactness

/-- The check of integers. -/
def integer (s : Setting) : Check :=
  ofOwn s "int" Limit.isNumeric
    (fun ls => if ls.any Limit.isNumeric then "constrained-int" else "int") (runInteger s)

/-! ## Floats -/

/-- The float that a value is taken as, with the change. -/
def readFloat (strict : Bool) : Value → Except Cause (Binary64 × Exactness)
  | .float x => .ok (x, .exact)
  | .int i | .option _ .integer _ (.int i) _ =>
    match Binary64.ofInt? i with
    | some x => .ok (x, .close)
    | none => .error (.expected .number)
  | v =>
    if strict then .error (.expected .number)
    else
      match v with
      | .bool b => .ok (.finite false (if b then 1 else 0) 0, .loose)
      | .str s | .option _ .text _ (.str s) _ =>
        match checkFloat? s with
        | some x => .ok (x, .loose)
        | none => .error .numberUnreadable
      | _ => .error (.expected .number)

/-- Checks a float. -/
def runFloat (s : Setting) (ls : List Limit) (v : Value) : Outcome :=
  match readFloat (s.isStrict ls) v with
  | .error cause => Outcome.fault cause v
  | .ok (x, exactness) =>
    match (Value.float x).quantity?.bind (Limit.numericCause? false ls) with
    | some cause => Outcome.fault cause v
    | Option.none => Outcome.pass (.float x) exactness

/-- The check of floats. -/
def float (s : Setting) : Check :=
  ofOwn s "float" Limit.isNumeric
    (fun ls => if ls.any Limit.isNumeric then "constrained-float" else "float") (runFloat s)

/-! ## Flags -/

/-- The words that a check reads as a set flag. -/
def trueWords : List String := ["1", "on", "t", "true", "y", "yes"]

/-- The words that a check reads as an unset flag. -/
def falseWords : List String := ["0", "off", "f", "false", "n", "no"]

/-- A text with its ASCII letters made small. -/
def asciiLower (s : String) : String := String.ofList (s.toList.map Char.toLower)

/-- The flag that a text is taken as. -/
def flagOfText (s : String) : Except Cause Bool :=
  if trueWords.contains (asciiLower s) then .ok true
  else if falseWords.contains (asciiLower s) then .ok false
  else .error .flagUnreadable

/-- The flag that an integer is taken as, if it fits in a word. -/
def flagOfInteger (i : Int) : Except Cause Bool :=
  if i = 0 then .ok false
  else if i = 1 then .ok true
  else if !isWord i then .error (.expected .boolean)
  else .error .flagUnreadable

/-- The flag that a float is taken as. -/
def flagOfFloat (x : Binary64) : Except Cause Bool :=
  match integerOfFloat x with
  | .ok i => flagOfInteger i
  | .error _ => .error (.expected .boolean)

/-- The flag that a value is taken as, with the change. -/
def readFlag (strict : Bool) : Value → Except Cause (Bool × Exactness)
  | .bool b => .ok (b, .exact)
  | v =>
    if strict then .error (.expected .boolean)
    else
      match v with
      | .str s | .option _ .text _ (.str s) _ => (flagOfText s).map (·, .loose)
      | .int i | .option _ .integer _ (.int i) _ => (flagOfInteger i).map (·, .loose)
      | .float x => (flagOfFloat x).map (·, .loose)
      | _ => .error (.expected .boolean)

/-- Checks a flag. -/
def runFlag (s : Setting) (ls : List Limit) (v : Value) : Outcome :=
  match readFlag (s.isStrict ls) v with
  | .error cause => Outcome.fault cause v
  | .ok (b, exactness) => Outcome.pass (.bool b) exactness

/-- The check of flags. -/
def flag (s : Setting) : Check :=
  ofOwn s "bool" (fun _ => false) (fun _ => "bool") (runFlag s)

/-! ## Dates -/

/-- The fault of a date in the year 0. -/
def yearZero : Cause := .dateUnreadable "year 0 is out of range"

/-- The date of a moment, which has to be midnight. -/
def dateOfMoment : Except MomentFault Moment → Except Cause Date
  | .error reason => .error (.momentUnreadable reason)
  | .ok m => if m.midnight then .ok m.date else .error .timeNotZero

/-- The date that a text is taken as: a date, a moment or a timestamp. -/
def dateOfText (s : String) : Except Cause Date :=
  let bytes := s.toUTF8.toList
  match Date.readIso bytes, Date.readMoment bytes, Timestamp.read? s with
  | .ok d, _, _ => .ok d
  | _, .ok m, _ => dateOfMoment (.ok m)
  | _, _, some t => dateOfMoment t.moment
  | _, .error reason, Option.none => .error (.momentUnreadable reason)

/-- The date that a value is taken as, with the change. -/
def readDate (strict : Bool) : Value → Except Cause (Date × Exactness)
  | .date d => .ok (d, .exact)
  | v =>
    if strict then .error (.expected .date)
    else
      match v with
      | .str s | .option _ .text _ (.str s) _ => (dateOfText s).map (·, .loose)
      | .int i | .option _ .integer _ (.int i) _ =>
        if Binary64.ofInt? i = Option.none then .error (.expected .date)
        else (dateOfMoment (Timestamp.ofCount i 0)).map (·, .loose)
      | .float x => (dateOfMoment (Timestamp.ofFloat x)).map (·, .loose)
      | _ => .error (.expected .date)

/-- A bound of dates, where a text stands for the date that it writes. -/
def dateBound (bound : Value) : Value :=
  match bound.asText?.map dateOfText with
  | some (.ok d) => .date d
  | _ => bound

/-- The limits that say something of dates, their bounds as dates; a step says nothing. -/
def dateLimits (ls : List Limit) : List Limit :=
  ls.filterMap fun
    | .above b => some (.above (dateBound b))
    | .atLeast b => some (.atLeast (dateBound b))
    | .below b => some (.below (dateBound b))
    | .atMost b => some (.atMost (dateBound b))
    | .multipleOf _ => Option.none
    | l => some l

/-- Checks a date.  The year 0 can be compared with bounds but is no year. -/
def runDate (s : Setting) (ls : List Limit) (v : Value) : Outcome :=
  match readDate (s.isStrict ls) v with
  | .error cause => Outcome.fault cause v
  | .ok (d, exactness) =>
    match Limit.numericCause? true (dateLimits ls) (.finite d.toEpochDays) with
    | some cause => Outcome.fault cause v
    | Option.none =>
      if d.year = 0 then Outcome.fault yearZero v else Outcome.pass (.date d) exactness

/-- The check of dates. -/
def date (s : Setting) : Check :=
  ofOwn s "date" Limit.isNumeric (fun _ => "date") (runDate s)

/-! ## Anything and nothing -/

/-- The check that every value passes. -/
def any (s : Setting) : Check :=
  ofOwn s "any" (fun _ => false) (fun _ => "any") fun _ v => Outcome.pass v .close

/-- The check that only the absence of a value passes. -/
def none (s : Setting) : Check :=
  ofOwn s "none" (fun _ => false) (fun _ => "none") fun _ v =>
    match v with
    | .null => Outcome.pass .null
    | v => Outcome.fault (.expected .nothing) v

end Check

end WebForm
