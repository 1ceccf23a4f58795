/-
The check of a schema's records.

A field is looked for under its names, the first of which counts.  A field that is
not given takes its default or is missing; a name that no field took is ignored,
kept or a fault, as the schema says.  Faults of fields come first, in the order of
the fields, then those of unknown names in the order of the data.
-/
import WebForm.Check.Added
import WebForm.Check.Collection
import WebForm.Schema.Name

namespace WebForm.Check

/-- A field with the check of its value. -/
structure FieldCheck where
  traits : FieldTraits
  run : Value → Outcome

namespace FieldCheck

/-- The name under which the data give the field. -/
def givenName? (c : Config) (entries : List (Value × Value)) (f : FieldCheck) : Option String :=
  (f.traits.readNames c).find? fun name => (Value.valueAt? entries name).isSome

/-- What the data hold for the field, or else its default. -/
def outcome (c : Config) (whole : Value) (entries : List (Value × Value)) (f : FieldCheck) :
    Outcome :=
  match f.givenName? c entries with
  | some name =>
    Outcome.under (.key name) (f.run ((Value.valueAt? entries name).getD .null))
  | none =>
    match f.traits.default with
    | some v => Outcome.pass v
    | none => Outcome.under (.key (f.traits.reportedName c)) (Outcome.fault .missing whole)

end FieldCheck

/-- The entries that no field took, in the order of the data. -/
def extraEntries (c : Config) (fields : List FieldCheck) (entries : List (Value × Value)) :
    List (Value × Value) :=
  let taken := fields.filterMap fun f => f.givenName? c entries
  entries.filter fun e => !taken.any fun name => e.1.asText? = some name

/-- The outcome of an entry that no field took, where such entries are not ignored. -/
def extraOutcome (c : Config) (e : Value × Value) : Outcome :=
  Outcome.under (keyStep e.1) <|
    match e.1.asText?, c.extras with
    | none, _ => Outcome.fault .invalidKey e.1
    | some _, .forbid => Outcome.fault .extra e.2
    | some _, _ => Outcome.pass e.2

/-- The entries that no field took, unless they are ignored. -/
def keptEntries (c : Config) (fields : List FieldCheck) (entries : List (Value × Value)) :
    List (Value × Value) :=
  match c.extras with
  | .ignore => []
  | _ => extraEntries c fields entries

/-- Checks a mapping against the fields of a schema.  A record is another value than the mapping,
however it was made. -/
def runEntries (name : String) (c : Config) (fields : List FieldCheck) (whole : Value)
    (entries : List (Value × Value)) : Outcome :=
  let kept := keptEntries c fields entries
  let outcomes :=
    fields.map (FieldCheck.outcome c whole entries) ++ kept.map (extraOutcome c)
  (Outcome.gather outcomes).map fun parts =>
    let extras := kept.filterMap fun e => e.1.asText?
    let names := fields.map (fun f => f.traits.name) ++ extras
    let written := fields.map (fun f => f.traits.writeName c) ++ extras
    let given := (fields.filter fun f => (f.givenName? c entries).isSome).length
    let r : Checked :=
      .ofParts .loose parts (.record name written (names.zip (parts.map (·.value))))
    { r with given := Checked.addGiven (some given) r.given }

/-- Checks a mapping against the fields of a schema; its own records pass as they are. -/
def runRecord (name : String) (c : Config) (fields : List FieldCheck) (v : Value) : Outcome :=
  match v with
  | .map entries => runEntries name c fields v entries
  | .record schema _ _ => if schema = name then Outcome.pass v else Outcome.fault (.notRecord name) v
  | v => Outcome.fault (.notRecord name) v

/-- The check of a schema's records. -/
def record (name : String) (c : Config) (fields : List FieldCheck) (s : Setting) : Check :=
  ofOwn s "model" (fun _ => false) (fun _ => name) fun _ v => runRecord name c fields v

end WebForm.Check
