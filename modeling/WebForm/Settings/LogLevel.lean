/-
Levels of a log, and how a log is set up.
-/
import WebForm.Text.Case

namespace WebForm

open WebForm.Text

/-- How a log is written. -/
structure LogSetup where
  level : Nat
  /-- The log goes to the standard output. -/
  toStandardOutput : Bool
  lineFormat : String
  timeFormat : String
deriving DecidableEq

/-- Why a name is no level. -/
inductive LevelFault where
  /-- Nothing has this name. -/
  | unknown (name : String)
  /-- What has this name is a text. -/
  | notLevel (text : String)
  /-- What has this name is a table. -/
  | table (shown : String)
deriving DecidableEq

namespace LogSetup

/-- The levels by name. -/
def levels : List (String × Nat) :=
  [("CRITICAL", 50), ("FATAL", 50), ("ERROR", 40), ("WARNING", 30), ("WARN", 30), ("INFO", 20),
    ("DEBUG", 10), ("NOTSET", 0)]

/-- Names of texts beside the levels. -/
def texts : List (String × String) := [("BASIC_FORMAT", "%(levelname)s:%(name)s:%(message)s")]

/-- The table of line styles: a style by its mark, with the line that it writes by default. -/
def stylesShown : String :=
  let style (mark kind line : String) :=
    "'" ++ mark ++ "': (<class 'logging." ++ kind ++ "'>, '" ++ line ++ "')"
  "\x7b" ++ ", ".intercalate [
    style "%" "PercentStyle" "%(levelname)s:%(name)s:%(message)s",
    style "\x7b" "StrFormatStyle" "\x7blevelname\x7d:\x7bname\x7d:\x7bmessage\x7d",
    style "$" "StringTemplateStyle" "$\x7blevelname\x7d:$\x7bname\x7d:$\x7bmessage\x7d"] ++ "\x7d"

/-- Names of tables beside the levels. -/
def tables : List (String × String) := [("_STYLES", stylesShown)]

/-- The level with a name, in letters of any case. -/
def readLevel (name : String) : Except LevelFault Nat :=
  let name := upper name
  match levels.lookup name, texts.lookup name, tables.lookup name with
  | some n, _, _ => .ok n
  | none, some text, _ => .error (.notLevel text)
  | none, none, some shown => .error (.table shown)
  | none, none, none => .error (.unknown name)

/-- The log at a level. -/
def ofLevel (name : String) : Except LevelFault LogSetup :=
  (readLevel name).map fun n =>
    { level := n
      toStandardOutput := true
      lineFormat := "%(asctime)s [%(levelname)s] %(name)s: %(message)s"
      timeFormat := "%H:%M:%S" }

end LogSetup

end WebForm
