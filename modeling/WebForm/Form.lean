/-
Forms: a schema with its options, and the error that the next page shows.

Everything that is done to a form is an action; `Form.act` tells what comes of it
and what the form is afterwards.  Only setting and clearing the error and a report
that is not valid change the error.
-/
import WebForm.Markup.Form
import WebForm.Submission.Report

namespace WebForm

open WebForm.Element (nonEmpty)

/-- A form with its pending error. -/
structure Form where
  schema : Schema
  options : Options
  buttonLabel : String
  componentElement : String
  message : String := ""
  details : List String := []

/-- What is done to a form. -/
inductive Action where
  | render (values : Value) (lang : Option String)
  /-- Renders the form inside its own element. -/
  | renderComponent (values : Value) (lang : Option String)
  | setError (message : String) (details : List String)
  | clearError
  /-- Shows the errors of a report under a heading. -/
  | showErrors (report : Report) (heading : Option String)
  | submit (data : Posted) (heading : Option String)
  | checkObject (v : Value) (heading : Option String)
  | checkField (name : String) (v : Value)

/-- What comes of an action. -/
inductive Answer where
  | nothing
  | markup (s : String)
  | report (r : Report)

/-- Why nothing comes of an action. -/
inductive FormError where
  | configuration (f : ConfigurationFault)
  | supply (f : SupplyFault)
  | report (e : ReportError)

namespace Form

/-- The heading over errors that are shown without one. -/
def defaultHeading : String := "Validation Errors"

/-- The element around a form that is not told another. -/
def defaultComponentElement : String := "cruddy-form"

/-- A form of a schema; without a method it is posted. -/
def make (schema : Schema) (options : Options) (buttonLabel : Option String)
    (componentElement : String) : Form where
  schema
  options := { options with method := some ((nonEmpty options.method).getD "post") }
  buttonLabel := (nonEmpty buttonLabel <|> nonEmpty options.buttonLabel).getD "Submit"
  componentElement

/-- The elements of the form in a language. -/
def elements (f : Form) (lang : Option String) : Except ConfigurationFault (List Element) :=
  Element.ofDefinitions (f.options.idSuffix.getD "") lang f.schema.definitions

/-- The pieces of the form's markup. -/
def pieces (f : Form) (values : Value) (lang : Option String) : Except FormError (List Piece) :=
  match f.elements lang with
  | .error e => .error (.configuration e)
  | .ok elements =>
    match Supplied.ofValue values with
    | .error e => .error (.supply e)
    | .ok supplied =>
      .ok (Markup.form elements supplied f.options f.buttonLabel f.message f.details)

/-- The markup of the form. -/
def html (f : Form) (values : Value) (lang : Option String) : Except FormError String :=
  (f.pieces values lang).map Piece.write

/-- The markup of the form inside its own element. -/
def componentHtml (f : Form) (values : Value) (lang : Option String) : Except FormError String :=
  (f.html values lang).map fun s =>
    "<" ++ f.componentElement ++ ">" ++ s ++ "</" ++ f.componentElement ++ ">"

/-- The elements of a page, and the values that it shows. -/
def shown (form : Form) (values : Value) (lang : Option String) :
    Except FormError (List Element × Supplied) :=
  match form.elements lang with
  | .error e => .error (.configuration e)
  | .ok elements =>
    match Supplied.ofValue values with
    | .error e => .error (.supply e)
    | .ok supplied => .ok (elements, supplied)

/-- A page is written from its elements and the values that it shows. -/
theorem pieces_eq (form : Form) (values : Value) (lang : Option String) :
    form.pieces values lang = (form.shown values lang).map fun p =>
      Markup.form p.1 p.2 form.options form.buttonLabel form.message form.details := by
  unfold pieces shown
  cases form.elements lang with
  | error e => rfl
  | ok elements => cases Supplied.ofValue values <;> rfl

/-- The form with an error. -/
def setError (f : Form) (message : String) (details : List String) : Form :=
  { f with message, details }

/-- The form with the errors of a report, if there are any. -/
def showReport (f : Form) (r : Report) (heading : Option String) : Form :=
  if r.valid then f else f.setError ((nonEmpty heading).getD defaultHeading) r.errors

/-- Shows what was reported. -/
def showOutcome (f : Form) (r : Except ReportError Report) (heading : Option String) :
    Form × Except FormError Answer :=
  match r with
  | .ok r => (f.showReport r heading, .ok (.report r))
  | .error e => (f, .error (.report e))

/-- What comes of an action, and the form after it. -/
def act (f : Form) : Action → Form × Except FormError Answer
  | .render values lang => (f, (f.html values lang).map .markup)
  | .renderComponent values lang => (f, (f.componentHtml values lang).map .markup)
  | .setError message details => (f.setError message details, .ok .nothing)
  | .clearError => (f.setError "" [], .ok .nothing)
  | .showErrors r heading => f.showOutcome (.ok r) heading
  | .submit data heading => f.showOutcome (f.schema.reportPosted data) heading
  | .checkObject v heading => f.showOutcome (f.schema.reportObject v) heading
  | .checkField name v =>
    (f, match f.schema.reportField name v with
      | .ok r => .ok (.report r)
      | .error e => .error (.report e))

/-- The form after some actions. -/
def run (f : Form) (actions : List Action) : Form :=
  actions.foldl (fun f a => (f.act a).1) f

end Form

end WebForm
