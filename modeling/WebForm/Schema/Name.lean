/-
The names of a field: in the form, where it is read, and where it is written.

A declared alias names the field in all three places unless a name is declared
for reading or writing alone; a rule of the schema fills in what is not declared.
-/
import WebForm.Schema.Type
import WebForm.Text.Camel

namespace WebForm

/-- The alias that a rule makes from a name. -/
def Aliasing.apply : Aliasing → String → String
  | .camel => Text.camel
  | .upper => Text.upper

namespace FieldTraits

/-- The alias made by the schema's rule. -/
def ruledAlias? (c : Config) (f : FieldTraits) : Option String :=
  c.aliasing.map fun rule => rule.apply f.name

/-- The alias of the field. -/
def alias? (c : Config) (f : FieldTraits) : Option String := f.knownAs <|> f.ruledAlias? c

/-- The alias under which the field is read. -/
def readAlias? (c : Config) (f : FieldTraits) : Option String :=
  f.readAs <|> f.knownAs <|> f.ruledAlias? c

/-- The names under which the field is read; the first that is given counts. -/
def readNames (c : Config) (f : FieldTraits) : List String :=
  match f.readAlias? c with
  | some a => if c.byName then [a, f.name] else [a]
  | none => [f.name]

/-- The name under which a field that is not given is reported. -/
def reportedName (c : Config) (f : FieldTraits) : String := (f.readAlias? c).getD f.name

/-- The name under which the field is written out. -/
def writeName (c : Config) (f : FieldTraits) : String :=
  (f.writeAs <|> f.knownAs <|> f.ruledAlias? c).getD f.name

/-- The name of the field in the form. -/
def formName (c : Config) (f : FieldTraits) : String :=
  match f.alias? c with
  | some a => if a.isEmpty then f.name else a
  | none => f.name

/-- A field without a default has to be given. -/
def isRequired (f : FieldTraits) : Bool := f.default.isNone

end FieldTraits

end WebForm
