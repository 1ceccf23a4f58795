/-
Checks that look a value up: literals and the options of enumerations.

A flag, an integer or a text finds the choice of its own kind first; failing that,
a value finds what it equals as a lookup sees it, where of two equal choices the
last one counts.  Integers are looked up as words of 64 bits as soon as one of the
choices is such a word.
-/
import WebForm.Check.Scalar

namespace WebForm.Check

open WebForm.Number

/-- What can be chosen: the values that are looked for, with the values that they give. -/
abbrev Choices := List (Value × Value)

namespace Choices

/-- What the last key that passes gives. -/
def last? (choices : Choices) (pass : Value → Bool) : Option Value :=
  (choices.reverse.find? fun c => pass c.1).map (·.2)

/-- The value is an integer that fits in a word. -/
def isWordValue : Value → Bool
  | .int i => isWord i
  | _ => false

/-- The value is a flag, an integer or a text. -/
def isSimple : Value → Bool
  | .bool _ | .int _ | .str _ => true
  | _ => false

/-- Looks up a value as an integer, which has to fit in a word as soon as a key does. -/
def integer? (choices : Choices) (v : Value) : Except Rejection (Option Value) :=
  if !choices.any (fun c => isWordValue c.1) then .ok Option.none
  else
    match v.asInteger? with
    | some i =>
      if isWord i then .ok (choices.last? (· == .int i)) else Outcome.fault .integerTooLong v
    | Option.none => Outcome.fault .integerTooLong v

/-- Looks up a value among keys of its own kind, if it is a flag, an integer or a text. -/
def alike? (choices : Choices) (v : Value) : Except Rejection (Option Value) :=
  match v with
  | .bool _ | .str _ => .ok (choices.last? (· == v))
  | .int _ => choices.integer? v
  | _ => .ok Option.none

/-- What the last hashable key equal to the value gives. -/
def equal? (choices : Choices) (v : Value) : Option Value :=
  if v.isHashable then choices.last? fun key => key.isHashable && key.same v else Option.none

/-- Looks up a value: first among keys of its kind, and simple keys of another kind come last. -/
def lookup? (choices : Choices) (v : Value) : Except Rejection (Option Value) :=
  let (simple, others) := choices.partition fun c => isSimple c.1
  let unhashable := (others.find? fun c => !c.1.isHashable && c.1.same v).map (·.2)
  (choices.alike? v).map fun found =>
    found <|> equal? others v <|> unhashable <|> equal? simple v

end Choices

/-! ## Literals -/

/-- Values as a choice: with commas, and with an "or" before the last. -/
def choicesText (values : List Value) : String :=
  match values.reverse.map Value.shown with
  | [] => ""
  | [only] => only
  | last :: others => Value.commaList others.reverse ++ " or " ++ last

/-- Checks that a value is one of some values, which then takes its place. -/
def runLiteral (values : List Value) (v : Value) : Outcome :=
  (Choices.lookup? (values.map fun w => (w, w)) v).bind fun
    | some w => Outcome.pass w
    | Option.none => Outcome.fault (.notLiteral (choicesText values)) v

/-- The check that one of some values passes. -/
def literal (values : List Value) (s : Setting) : Check :=
  ofOwn s "literal" (fun _ => false)
    (fun _ => "literal[" ++ ",".intercalate (values.map Value.shown) ++ "]")
    fun _ v => runLiteral values v

/-! ## Options -/

/-- The options of an enumeration under the values that they stand for. -/
def optionChoices (e : Enumeration) : Choices :=
  e.members.filterMap fun m => (e.option? m.1).map (m.2, ·)

/-- The option that a value stands for, as a text, as an integer or by itself. -/
def lookupOption? (e : Enumeration) (v : Value) : Except Rejection (Option Value) :=
  let choices := optionChoices e
  match e.kind with
  | .text =>
    match readText false v with
    | .ok (s, _) => .ok (choices.last? (· == .str s))
    | .error _ => .ok Option.none
  | .integer =>
    match readInteger false v with
    | .ok (w, _) => choices.integer? w
    | .error _ => .ok Option.none
  | .plain =>
    (choices.lookup? v).bind fun
      | some w => .ok (some w)
      | Option.none =>
        match v with
        | .option _ .integer _ _ _ => choices.integer? v.plain
        | _ => .ok Option.none

/-- Checks an option of an enumeration. -/
def runOption (e : Enumeration) (s : Setting) (ls : List Limit) (v : Value) : Outcome :=
  if e.options.contains v then Outcome.pass v
  else if s.isStrict ls then Outcome.fault (.notInstance e.name) v
  else
    (lookupOption? e v).bind fun found =>
      let equal := ((optionChoices e).find? fun c => c.1.same v).map (·.2)
      match found <|> equal with
      | some w => Outcome.pass w .loose
      | Option.none => Outcome.fault (.notOption (choicesText (e.members.map (·.2)))) v

/-- The name of an enumeration's check in reports. -/
def optionLabel (e : Enumeration) : String :=
  (match e.kind with
    | .text => "str-enum["
    | .integer => "int-enum["
    | .plain => "enum[") ++ e.name ++ "]"

/-- The check of an enumeration's options. -/
def option (e : Enumeration) (s : Setting) : Check :=
  ofOwn s "enum" (fun _ => false) (fun _ => optionLabel e) (runOption e s)

end WebForm.Check
