/-
How a type is spelled.

A choice is spelled by its name or with bars between its alternatives.  The
alternatives of a choice within a choice count as its own, one that is named twice
counts once, and one that has a name in the vocabulary of types makes a choice with
bars a named one.
-/
import WebForm.Schema.Type
import WebForm.Value.Text

namespace WebForm

/-! ## Limits -/

/-- A limit as it is noted beside a type. -/
def Limit.spelling : Limit → String
  | .strict b => "Strict(strict=" ++ Value.boolText b ++ ")"
  | .above v => "Gt(gt=" ++ v.shown ++ ")"
  | .atLeast v => "Ge(ge=" ++ v.shown ++ ")"
  | .below v => "Lt(lt=" ++ v.shown ++ ")"
  | .atMost v => "Le(le=" ++ v.shown ++ ")"
  | .multipleOf v => "MultipleOf(multiple_of=" ++ v.shown ++ ")"
  | .minLength n => "MinLen(min_length=" ++ Value.intText n ++ ")"
  | .maxLength n => "MaxLen(max_length=" ++ Value.intText n ++ ")"
  | .pattern p =>
    let source := (Value.str p.source).shown
    "_PydanticGeneralMetadata(pattern="
      ++ (match p.dialect with
        | .searching => source
        | .anchored => "re.compile(" ++ source ++ ")") ++ ")"

/-- The limits of one declaration as they are noted beside a type. -/
def Limits.spelling (l : Limits) : String :=
  let notes := l.toList.map Limit.spelling
  "FieldInfo(annotation=NoneType, required=True"
    ++ (if notes.isEmpty then "" else ", metadata=[" ++ Value.commaList notes ++ "]") ++ ")"

/-! ## Choices -/

/-- What a type is spelled from. -/
structure Spelling where
  /-- The alternatives with their own spellings; one alone if the type is no choice. -/
  options : List (Ty × String)
  /-- The type has a name in the vocabulary of types. -/
  named : Bool := false
  /-- The notes beside the type. -/
  notes : List String := []

namespace Spelling

/-- A type that is its own only alternative. -/
def alone (t : Ty) (text : String) : Spelling := { options := [(t, text)] }

/-- A type that has a name in the vocabulary of types. -/
def ofName (t : Ty) (text : String) : Spelling := { options := [(t, text)], named := true }

/-- The alternatives without those that came before. -/
def distinct (options : List (Ty × String)) : List (Ty × String) :=
  (options.foldl (fun seen o => if seen.any (fun p => p.1.isSameOption o.1) then seen else o :: seen)
    []).reverse

/-- A named choice; one of a single type and nothing has a name of its own. -/
def namedChoice (members : List String) : String :=
  match members with
  | [m, "None"] | ["None", m] => "typing.Optional[" ++ m ++ "]"
  | members =>
    "typing.Union[" ++ Value.commaList (members.map fun m => if m = "None" then "NoneType" else m)
      ++ "]"

/-- The text without the notes. -/
def bareText (s : Spelling) : String :=
  match s.options with
  | [(_, text)] => text
  | several =>
    let members := several.map (·.2)
    if s.named then namedChoice members else " | ".intercalate members

/-- The text. -/
def text (s : Spelling) : String :=
  if s.notes.isEmpty then s.bareText
  else "typing.Annotated[" ++ Value.commaList (s.bareText :: s.notes) ++ "]"

/-- The alternatives that a type brings to a choice; a type with notes is one. -/
def members (s : Spelling) : List (Ty × String) :=
  s.options.map fun o =>
    match o.1 with
    | .none => (.none, "None")
    | t => (t, if s.notes.isEmpty then o.2 else s.text)

/-- A choice between types. -/
def among (named : Bool) (types : List Spelling) : Spelling :=
  match distinct (types.flatMap members) with
  | [(.none, _)] => .alone .none "NoneType"
  | [only] => { options := [only], named := types.any (·.named) }
  | several => { options := several, named := named || types.any (·.named) }

end Spelling

namespace Ty

/-! ## Types -/

/-- The name of an unlimited collection of one type. -/
def collectionName : Collection → String
  | .list => "list"
  | .set => "set"
  | .frozenset => "frozenset"
  | .sequence => "collections.abc.Sequence"
  | .tuple => "tuple"

mutual

/-- How a type is spelled as part of another. -/
def spelling : Ty → Spelling
  | .any => .alone .any "typing.Any"
  | .none => .alone .none "None"
  | .str => .alone .str "str"
  | .int => .alone .int "int"
  | .float => .alone .float "float"
  | .bool => .alone .bool "bool"
  | .date => .alone .date "datetime.date"
  | .bare .list => .alone (.bare .list) "list"
  | .bare .genericList => .ofName (.bare .genericList) "typing.List"
  | .bare .tuple => .alone (.bare .tuple) "tuple"
  | .bare .dict => .alone (.bare .dict) "dict"
  | .many .tuple t => .alone (.many .tuple t) ("tuple[" ++ (spelling t).text ++ ", ...]")
  | .many c t => .alone (.many c t) (collectionName c ++ "[" ++ (spelling t).text ++ "]")
  | .positions [] => .alone (.positions []) "tuple[()]"
  | .positions ts =>
    .alone (.positions ts)
      ("tuple[" ++ Value.commaList ((spellings ts).map Spelling.text) ++ "]")
  | .dict k v =>
    .alone (.dict k v) ("dict[" ++ Value.commaList [(spelling k).text, (spelling v).text] ++ "]")
  | .optional t => .among true [spelling t, .alone .none "None"]
  | .choice .named ts => .among true (spellings ts)
  | .choice .barred ts => .among false (spellings ts)
  | .literal values =>
    .ofName (.literal values)
      ("typing.Literal[" ++ Value.commaList (values.map Value.shown) ++ "]")
  | .enumeration e => .alone (.enumeration e) e.name
  | .limited t l =>
    let inner := spelling t
    { options := [(.limited t l, inner.bareText)], named := true,
      notes := inner.notes ++ [l.spelling] }
  | .record ⟨name, fields, c⟩ => .alone (.record ⟨name, fields, c⟩) name

/-- How types are spelled as parts of another. -/
def spellings : List Ty → List Spelling
  | [] => []
  | t :: ts => spelling t :: spellings ts

end

/-- The text of a type that stands alone. -/
def text : Ty → String
  | .any => "Any"
  | .none => "NoneType"
  | .date => "date"
  | t => (spelling t).text

end Ty

end WebForm
