/-
Settings in the environment.

The names of variables count without regard to case.  A variable for the form
holds a mapping in JSON; a variable for one option has the option's name behind
two underscores, and hides what that mapping says of the option.
-/
import WebForm.Json
import WebForm.Options.Basic
import WebForm.Text.Case
import WebForm.Value.Merge

namespace WebForm.Environment

open WebForm.Text

/-- How the names of all variables start. -/
def start : String := "cruddy_form_"

/-- What parts the steps of a name. -/
def delimiter : List Char := ['_', '_']

/-- The variables by names in small letters; of two variables of one name the last counts. -/
def variablesByName (env : List (String × String)) : List (String × String) :=
  Pairs.setAll [] ((Pairs.setAll [] env).map fun p => (lower p.1, p.2))

/-- The parts of a name between pairs of underscores; `part` is the part so far, the last
character first. -/
def parts (part : List Char) : List Char → List String
  | '_' :: '_' :: rest => String.ofList part.reverse :: parts [] rest
  | c :: rest => parts (c :: part) rest
  | [] => [String.ofList part.reverse]

/-- Puts a text under a path of keys; a text on the way is no place for it. -/
def put (entries : List (Value × Value)) (path : List String) (text : String) :
    List (Value × Value) :=
  match path with
  | [] => entries
  | [key] => Value.setEntry entries (.str key) (.str text)
  | key :: rest =>
    match Value.entryOf? entries (.str key) with
    | none => Value.setEntry entries (.str key) (.map (put [] rest text))
    | some (.map inner) => Value.setEntry entries (.str key) (.map (put inner rest text))
    | some _ => entries

/-- What follows the name of a setting and the delimiter in a variable's name. -/
def behind? (setting : String) (name : String) : Option (List Char) :=
  let head := (start ++ setting).toList ++ delimiter
  if head.isPrefixOf name.toList then some (name.toList.drop head.length) else none

/-- The mapping that the variables for single options make. -/
def nested (vars : List (String × String)) : List (Value × Value) :=
  vars.foldl (fun entries p =>
    match behind? "form" p.1 with
    | some rest => put entries (parts [] rest) p.2
    | none => entries) []

/-- The name by which an option is known, without regard to case; other names stay. -/
def optionName (name : String) : String :=
  let known := Options.fields.map fun f => f.knownAs.getD f.name
  (known.find? fun k => lower k == lower name).getD name

/-- The entries under the names by which the options are known. -/
def withOptionNames (entries : List (Value × Value)) : List (Value × Value) :=
  entries.foldl (fun done e =>
    match e.1 with
    | .str name => Value.setEntry done (.str (optionName name)) e.2
    | k => Value.setEntry done k e.2) []

/-- What the environment says of the form; nothing can be read from a text that is no JSON. -/
def form? (vars : List (String × String)) : Option (Option Value) :=
  match Pairs.get? vars (start ++ "form") with
  | none =>
    let entries := nested vars
    some (if entries.isEmpty then none else some (.map (withOptionNames entries)))
  | some text =>
    match Json.read text with
    | none => none
    | some .null => some none
    | some (.map entries) =>
      some (some (.map (withOptionNames (Value.overlayEntries entries (nested vars)))))
    | some v => some (some v)

/-- A text of the environment. -/
def text? (vars : List (String × String)) (setting : String) : Option Value :=
  (Pairs.get? vars (start ++ setting)).map .str

end WebForm.Environment
