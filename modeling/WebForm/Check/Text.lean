/-
Reading texts.

A text is taken as it is, and so is an option of a textual enumeration; a lax check
takes the text of what any other option stands for.  The limits of a text are tried
in a fixed order, and only the first that it does not keep is reported.
-/
import WebForm.Check.Limit
import WebForm.Text.Blank

namespace WebForm.Check

open WebForm.Text

/-- The text that a value is taken as, with the change. -/
def readText (strict : Bool) : Value → Except Cause (String × Exactness)
  | .str s => .ok (s, .exact)
  | .option _ .text _ (.str s) _ => .ok (s, .close)
  | .option _ _ _ v _ => if strict then .error (.expected .string) else .ok (v.text, .loose)
  | _ => .error (.expected .string)

/-- A text without the blanks around it. -/
def strip (s : String) : String := String.ofList (trim isWhite s.toList)

/-- The first of a text's own limits that it does not keep. -/
def textCause? (ls : List Limit) (s : String) : Option Cause :=
  let short := (Limit.least? ls).bind fun n =>
    if s.length < n then some (Cause.stringTooShort n) else none
  let long := (Limit.most? ls).bind fun n =>
    if n < s.length then some (Cause.stringTooLong n) else none
  let odd := (Limit.pattern? ls).bind fun p =>
    if p.accepts s then none else some (Cause.patternMismatch p.source)
  short <|> long <|> odd

/-- Checks a text. -/
def runText (s : Setting) (ls : List Limit) (v : Value) : Outcome :=
  match readText (s.isStrict ls) v with
  | .error cause => Outcome.fault cause v
  | .ok (text, exactness) =>
    let text := if s.config.strip then strip text else text
    match textCause? ls text with
    | some cause => Outcome.fault cause v
    | none => Outcome.pass (.str text) exactness

end WebForm.Check
