/-
How a type reads a submission: as one value or as many, and as which scalar.

Limits and choices with nothing are seen through; a choice between two or more
other types is read as anything, and a collection as many values of the scalar of
its first item.
-/
import WebForm.Schema.Type

namespace WebForm

/-- One or many values, and the scalar that each is read as. -/
structure Kind where
  multi : Bool
  scalar : Ty

/-- The kind of a type, with the alternatives that it offers beside nothing. -/
structure KindSurvey where
  kind : Kind
  options : List (Ty × Kind)

namespace KindSurvey

/-- A type that is its own only alternative. -/
def alone (t : Ty) (kind : Kind) : KindSurvey := ⟨kind, [(t, kind)]⟩

/-- A choice has the kind of its one alternative; between several, anything goes. -/
def settle (options : List (Ty × Kind)) : Kind :=
  match options with
  | [] => ⟨false, .none⟩
  | (t, kind) :: rest => if rest.all fun o => o.1.isSameOption t then kind else ⟨false, .any⟩

/-- A choice between alternatives. -/
def among (options : List (Ty × Kind)) : KindSurvey := ⟨settle options, options⟩

end KindSurvey

namespace Ty

mutual

/-- The kind of a type and its alternatives. -/
def surveyKind : Ty → KindSurvey
  | .none => .among []
  | .optional t => .among (surveyKind t).options
  | .choice _ ts => .among (surveyKinds ts)
  | .limited t l => .alone (.limited t l) (surveyKind t).kind
  | .many c t => .alone (.many c t) ⟨true, (surveyKind t).kind.scalar⟩
  | .positions ts => .alone (.positions ts) ⟨true, firstScalar ts⟩
  | .bare .genericList => .alone (.bare .genericList) ⟨true, .str⟩
  | t => .alone t ⟨false, t⟩

/-- All alternatives of some types. -/
def surveyKinds : List Ty → List (Ty × Kind)
  | [] => []
  | t :: ts => (surveyKind t).options ++ surveyKinds ts

/-- The scalar of the first position; a text if there is none. -/
def firstScalar : List Ty → Ty
  | [] => .str
  | t :: _ => (surveyKind t).kind.scalar

end

/-- How the type reads a submission. -/
def kind (t : Ty) : Kind := (surveyKind t).kind

end Ty

end WebForm
