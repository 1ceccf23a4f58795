/-
Reports: what comes of checking a submission, an object or a single field.

A whole submission is checked laxly, since all it holds are texts; an object
strictly; a single field by what it declares.
-/
import WebForm.Check.Type
import WebForm.Submission.Basic
import WebForm.Value.Dump

namespace WebForm

/-- A fault as it is reported. -/
structure Detail where
  code : String
  path : List Step
  message : String
  input : Value

/-- The report on a fault. -/
def Fault.detail (f : Fault) : Detail := ⟨f.cause.code, f.path, f.cause.message, f.input⟩

/-- The line that shows a detail. -/
def Detail.line (d : Detail) : String := Fault.lineText d.path d.message

/-- What comes of a check. -/
structure Report where
  data : Value := .null
  errors : List String := []
  details : List Detail := []
  valid : Bool := true
deriving Inhabited

/-- Why there is no report. -/
inductive ReportError where
  /-- A limit cannot be applied. -/
  | misfit (m : Misfit)
  /-- What was submitted is no mapping. -/
  | notSubmission (v : Value)
  /-- What was given has no attributes. -/
  | notObject (v : Value)
  /-- The schema has no such field. -/
  | unknownField (name schema : String)

/-- The wording for a field that the schema does not have. -/
def unknownFieldMessage (name schema : String) : String :=
  "Field '" ++ name ++ "' is not defined in " ++ schema

namespace Report

/-- The report on data with faults. -/
def ofFaults (data : Value) (faults : List Fault) : Report where
  data
  errors := faults.map Fault.line
  details := faults.map Fault.detail
  valid := false

/-- The report on data after a check. -/
def ofOutcome (data : Value) : Outcome → Except ReportError Report
  | .ok _ => .ok { data }
  | .error (.faults faults) => .ok (ofFaults data faults)
  | .error (.misfit m) => .error (.misfit m)

/-- The status and the message with which a page answers for a single field. -/
def response (r : Report) : Nat × String :=
  if r.valid then (200, "")
  else
    match r.details, r.errors with
    | d :: _, _ => (422, d.message)
    | [], e :: _ => (422, e)
    | [], [] => (422, "")

end Report

namespace Schema

/-- Reads and checks a submission. -/
def reportForm (schema : Schema) (s : Submission) : Except ReportError Report :=
  let data := Value.map (Submission.collapse (s.parse schema))
  Report.ofOutcome data (schema.check (some false) data)

/-- Reads and checks what was handed in as a submission. -/
def reportPosted (schema : Schema) (p : Posted) : Except ReportError Report :=
  match Submission.ofPosted p with
  | .ok s => schema.reportForm s
  | .error v => .error (.notSubmission v)

/-- The entries that a mapping, a record or an object is checked as.  An option is an object that
knows its value and its name, the enumeration, which has a name itself, and its place in it. -/
def objectEntries? : Value → Option (List (Value × Value))
  | .object attributes => some (attributes.map fun p => (.str p.1, p.2))
  | .option e _ name value place =>
    some [(.str "_value_", value), (.str "_name_", .str name),
      (.str "__objclass__", .object [("__name__", .str e)]), (.str "_sort_order_", .int place)]
  | v => v.dumpedEntries?

/-- Checks a mapping, a record or an object, without reading texts. -/
def reportObject (schema : Schema) (v : Value) : Except ReportError Report :=
  match objectEntries? v with
  | some entries => Report.ofOutcome v (schema.check (some true) (.map entries))
  | none => .error (.notObject v)

/-- The first field with a name in the form. -/
def field? (schema : Schema) (name : String) : Option Field :=
  schema.fields.find? fun f => f.formName schema.config == name

/-- Reads and checks the value of a single field. -/
def reportField (schema : Schema) (name : String) (v : Value) : Except ReportError Report :=
  match schema.field? name with
  | none => .error (.unknownField name schema.name)
  | some f =>
    let data := Value.ofPairs [(name, v)]
    let sent : Submission := .single [(.str name, v)]
    match Value.valueAt? (Submission.collapse (sent.parse schema)) name with
    | none => .ok { data }
    | some value =>
      Report.ofOutcome data (Outcome.under (.key name) (f.checkAlone value))

end Schema

end WebForm
