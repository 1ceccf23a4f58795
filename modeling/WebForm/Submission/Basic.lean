/-
Submissions: what a form sends, read as values of the fields' types.

A submission gives each name one value, or some.  Reading it keeps the order:
first the names of the schema's fields as they are declared, then all other names
as they were sent.  A text that cannot be read stays as it is, so that the check
reports it.
-/
import WebForm.Number.Numeral
import WebForm.Schema.Kind
import WebForm.Schema.Name
import WebForm.Text.Blank

namespace WebForm

open WebForm.Number WebForm.Text

/-- What a form sends. -/
inductive Submission where
  /-- A value for each key, most of which are names; a list or a tuple gives some values. -/
  | single (entries : List (Value × Value))
  /-- Some values for each name. -/
  | multi (fields : List (String × List Value))

/-- What a caller hands in as a submission. -/
inductive Posted where
  | value (v : Value)
  | fields (fields : List (String × List Value))

namespace Submission

/-- The values that a single value stands for. -/
def spread : Value → List Value
  | .list items | .tuple items => items
  | v => [v]

/-- The values under their keys, in the order in which they were sent. -/
def entries : Submission → List (Value × List Value)
  | .single entries => entries.map fun e => (e.1, spread e.2)
  | .multi fields => fields.map fun p => (.str p.1, p.2)

/-- The values sent under a name. -/
def values? (s : Submission) (name : String) : Option (List Value) :=
  (s.entries.find? fun e => e.1.asText? = some name).map (·.2)

/-- A mapping as a submission; no other value is one. -/
def ofValue? : Value → Option Submission
  | .map entries => some (.single entries)
  | _ => none

/-- What was handed in, if it is a submission. -/
def ofPosted : Posted → Except Value Submission
  | .fields fields => .ok (.multi fields)
  | .value v =>
    match ofValue? v with
    | some s => .ok s
    | none => .error v

/-! ## Reading one value -/

/-- The words that a submission reads as a set flag. -/
def trueWords : List String := ["on", "true", "1", "yes"]

/-- The words that a submission reads as an unset flag. -/
def falseWords : List String := ["off", "false", "0", "no", ""]

/-- The flag that a text writes, whatever the case of its letters and the blanks around it. -/
def readFlag? (s : String) : Option Bool :=
  let word := lower (String.ofList (trim isSpacing s.toList))
  if trueWords.contains word then some true
  else if falseWords.contains word then some false
  else none

/-- The value that a text writes for a scalar type. -/
def readText? (target : Ty) (s : String) : Option Value :=
  match target with
  | .bool => (readFlag? s).map .bool
  | .int => (readInteger? s).map .int
  | .float => (readFloat? s).map .float
  | _ => none

/-- Reads one value for a scalar type; what cannot be read stays as it is. -/
def coerce (target : Ty) (raw : Value) : Value :=
  match raw.asText? with
  | some s => (readText? target s).getD raw
  | none => raw

/-! ## Reading a submission -/

/-- The one value of a list of one, or else the list. -/
def unwrap : List Value → Value
  | [v] => v
  | vs => .list vs

/-- What a field holds after some values were sent for it.  An empty text for a field that is
not required counts as nothing sent. -/
def readField? (f : Field) (raw : List Value) : Option Value :=
  let values := raw.map (coerce f.type.kind.scalar)
  if raw.isEmpty then none
  else if f.type.kind.multi then some (.list values)
  else
    match values with
    | [v] => if v.asText? = some "" && !f.isRequired then none else some v
    | vs => some (.list vs)

/-- The fields of a schema by their names in the form; the later of two fields of one name
counts. -/
def fieldsByName (schema : Schema) : List (String × Field) :=
  Pairs.setAll [] (schema.fields.map fun f => (f.formName schema.config, f))

/-- The key is the name of one of the fields. -/
def isName (fields : List (String × Field)) (key : Value) : Bool :=
  key.asText?.any fun name => Pairs.has fields name

/-- The values of a submission: the schema's fields first, then all other keys. -/
def parse (schema : Schema) (s : Submission) : List (Value × Value) :=
  let fields := fieldsByName schema
  let known := fields.filterMap fun p =>
    ((s.values? p.1).bind (readField? p.2)).map fun v => (.str p.1, v)
  let others := s.entries.filter fun e => !isName fields e.1
  known ++ others.map fun e => (e.1, unwrap e.2)

/-! ## Checkboxes -/

/-- A checkbox sends an unset flag before the set one; the two count as set. -/
def collapseValue : Value → Value
  | .list items =>
    if items.contains (.bool false) && items.contains (.bool true) then .bool true
    else .list items
  | v => v

/-- The values with the flags of checkboxes collapsed. -/
def collapse (data : List (Value × Value)) : List (Value × Value) :=
  data.map fun p => (p.1, collapseValue p.2)

end Submission

end WebForm
