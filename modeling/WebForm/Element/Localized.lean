/-
Texts by language.

A label, hint, placeholder or endpoint is either one text for all languages or a
mapping from languages to texts; a schema uses one of the two throughout.  The
first such value decides which.
-/
import WebForm.Element.Definition
import WebForm.Element.Phrase

namespace WebForm

/-- Why a schema cannot be shown as a form. -/
inductive ConfigurationFault where
  | missingElement (field : String)
  | missingInputType (field : String)
  | missingLanguage
  | unknownLanguage (lang : String) (field : Option String)
  /-- Texts by language and other texts in one schema: the place of the value that differs from
  the first, whether the first has languages, and the fields whose values agree with it. -/
  | mixedLocalization (place : String) (localized : Bool) (confirmed : List String)
deriving DecidableEq

namespace ConfigurationFault

/-- The wording of a fault. -/
def message : ConfigurationFault → String
  | .missingElement field => "Invalid schema - element is required (field '" ++ field ++ "')"
  | .missingInputType field => "Invalid schema - inputType is required (field '" ++ field ++ "')"
  | .missingLanguage => "Language must be specified for internationalized schema"
  | .unknownLanguage lang field =>
    "Language '" ++ lang ++ "' is not available in the schema"
      ++ (match field with
        | some f => if f.isEmpty then "" else " (field '" ++ f ++ "')"
        | none => "")
  | .mixedLocalization place localized confirmed =>
    let kind (b : Bool) := if b then "localized" else "non-localized"
    let agreed := Value.commaList confirmed
    "Mixed localized and non-localized values are not allowed: '" ++ place ++ "' is "
      ++ kind (!localized) ++ " but these fields are " ++ kind localized ++ ": "
      ++ (if agreed.isEmpty then "none" else agreed)

end ConfigurationFault

namespace Value

/-- A mapping from languages to texts, with at least one. -/
def isLocalized : Value → Bool
  | .map entries => !entries.isEmpty && entries.all fun e => (asText? e.2).isSome
  | _ => false

/-- A value that declares nothing. -/
def isEmpty : Value → Bool
  | .null => true
  | .map entries => entries.isEmpty
  | _ => false

/-- The entries of a mapping. -/
def entries : Value → List (Value × Value)
  | .map es => es
  | _ => []

/-- The phrase of a value in a language; `field` is named if the language is unknown. -/
def inLanguage (v : Value) (lang : Option String) (field : Option String) :
    Except ConfigurationFault Phrase :=
  if !v.isLocalized then .ok (.ofText v.text)
  else
    match lang with
    | none => .error .missingLanguage
    | some lang =>
      if lang.isEmpty then .error .missingLanguage
      else
        match (valueAt? v.entries lang).bind phrase? with
        | some phrase => .ok phrase
        | none => .error (.unknownLanguage lang field)

end Value

namespace Definition

/-- The attributes that can be given by language. -/
def localizableNames : List String := ["label", "hint", "placeholder", "endpoint"]

/-- A value that can be given by language: where it stands, and whether it is. -/
structure LocalizableValue where
  field : String
  key : String
  localized : Bool
deriving DecidableEq

/-- All values that can be given by language, in order. -/
def localizable (definitions : List Definition) : List LocalizableValue :=
  definitions.flatMap fun d =>
    (d.attributes.filter fun a => localizableNames.contains a.1 && !a.2.isEmpty).map fun a =>
      ⟨d.name, a.1, a.2.isLocalized⟩

/-- Texts in order, without repetitions. -/
def sortedNames (names : List String) : List String :=
  (names.mergeSort fun a b => decide (a ≤ b)).eraseReps

/-- Whether the values are given by language; they have to agree. -/
def agreement (values : List LocalizableValue) : Except ConfigurationFault Bool :=
  match values with
  | [] => .ok false
  | first :: rest =>
    let agreeing := values.takeWhile fun v => v.localized == first.localized
    match rest.find? fun v => v.localized != first.localized with
    | none => .ok first.localized
    | some odd =>
      .error (.mixedLocalization (odd.field ++ "." ++ odd.key) first.localized
        (sortedNames (agreeing.map (·.field))))

/-- Whether the definitions are given by language; all have to agree. -/
def checkConsistency (definitions : List Definition) : Except ConfigurationFault Bool :=
  agreement (localizable definitions)

end Definition

end WebForm
