/-
The types that a schema gives its fields, and the schemas themselves.

A type is a scalar, a collection, a choice, or a schema of its own; limits can be
put on any of them.  A field joins a type with its limits, the name or names
under which it is read and written, and the attributes declared for its element.
-/
import WebForm.Pattern.Read
import WebForm.Value.Basic

namespace WebForm

/-! ## Limits -/

/-- A pattern as a declaration writes it. -/
structure PatternText where
  dialect : Pattern.Dialect
  source : String
deriving DecidableEq

/-- One limit on the values of a type. -/
inductive Limit where
  | strict (on : Bool)
  | above (bound : Value)
  | atLeast (bound : Value)
  | below (bound : Value)
  | atMost (bound : Value)
  | multipleOf (step : Value)
  | minLength (n : Nat)
  | maxLength (n : Nat)
  | pattern (p : PatternText)
deriving DecidableEq

/-- The limits that one declaration puts on a type. -/
structure Limits where
  strict : Option Bool := none
  above : Option Value := none
  atLeast : Option Value := none
  below : Option Value := none
  atMost : Option Value := none
  multipleOf : Option Value := none
  minLength : Option Nat := none
  maxLength : Option Nat := none
  pattern : Option PatternText := none
deriving DecidableEq, Inhabited

namespace Limits

/-- The limits in the order in which they are applied. -/
def toList (l : Limits) : List Limit :=
  (l.strict.map .strict).toList ++ (l.above.map .above).toList
    ++ (l.atLeast.map .atLeast).toList ++ (l.below.map .below).toList
    ++ (l.atMost.map .atMost).toList ++ (l.multipleOf.map .multipleOf).toList
    ++ (l.minLength.map .minLength).toList ++ (l.maxLength.map .maxLength).toList
    ++ (l.pattern.map .pattern).toList

end Limits

/-! ## Types -/

/-- Collections of items of one type. -/
inductive Collection where
  | list
  | set
  | frozenset
  | sequence
  | tuple
deriving DecidableEq

/-- Collections whose items are not described; `genericList` is a list of anything. -/
inductive BareCollection where
  | list
  | genericList
  | tuple
  | dict
deriving DecidableEq

/-- How a choice between types is written: by its name or with bars. -/
inductive ChoiceStyle where
  | named
  | barred
deriving DecidableEq

/-- An enumeration: its options with the values they stand for. -/
structure Enumeration where
  name : String
  kind : EnumKind
  members : List (String × Value)
deriving DecidableEq

namespace Enumeration

/-- How many options there are before a name; a name for the value of an earlier one adds none. -/
def place (e : Enumeration) (name : String) : Nat :=
  (Value.distinct ((e.members.takeWhile fun m => m.1 != name).map (·.2))).length

/-- The option with a name, as a value. -/
def option (e : Enumeration) (name : String) (value : Value) : Value :=
  .option e.name e.kind name value (e.place name)

/-- All options as values. -/
def options (e : Enumeration) : List Value := e.members.map fun m => e.option m.1 m.2

/-- The option that a name stands for: of two names with one value, the first names the option. -/
def option? (e : Enumeration) (name : String) : Option Value :=
  (e.members.lookup name).bind fun v =>
    (e.members.find? fun m => m.2.same v).map fun m => e.option m.1 m.2

end Enumeration

/-- What a field is apart from its type. -/
structure FieldTraits where
  name : String
  /-- The value of a field that is not given; a field without one is required. -/
  default : Option Value := none
  limits : Limits := {}
  /-- The declared attributes, if they are written down at all. -/
  declared : Option (List (String × Value)) := none
  knownAs : Option String := none
  /-- The name under which the field is read, if it has one of its own. -/
  readAs : Option String := none
  /-- The name under which the field is written, if it has one of its own. -/
  writeAs : Option String := none
deriving DecidableEq

/-- A field with a type. -/
structure FieldOf (τ : Type) extends FieldTraits where
  type : τ

/-- What happens to names that a schema does not know. -/
inductive Extras where
  | ignore
  | forbid
  | allow
deriving DecidableEq

/-- Rules that make an alias from a field's name. -/
inductive Aliasing where
  | camel
  | upper
deriving DecidableEq

/-- How a schema reads what it is given. -/
structure Config where
  /-- A field with an alias can be given by its name too. -/
  byName : Bool := false
  extras : Extras := .ignore
  strict : Bool := false
  /-- Blanks around a text are dropped. -/
  strip : Bool := false
  aliasing : Option Aliasing := none
deriving DecidableEq

/-- A schema whose fields have types of a kind. -/
structure SchemaOf (τ : Type) where
  name : String
  fields : List (FieldOf τ)
  config : Config := {}

/-- The types of fields. -/
inductive Ty where
  | any
  | none
  | str
  | int
  | float
  | bool
  | date
  | bare (collection : BareCollection)
  | many (collection : Collection) (item : Ty)
  /-- A tuple with a type for each position. -/
  | positions (items : List Ty)
  | dict (key value : Ty)
  /-- A value of the type, or nothing. -/
  | optional (t : Ty)
  | choice (style : ChoiceStyle) (members : List Ty)
  | literal (values : List Value)
  | enumeration (e : Enumeration)
  | limited (t : Ty) (limits : Limits)
  | record (schema : SchemaOf Ty)
deriving Inhabited

/-- A field of a schema. -/
abbrev Field := FieldOf Ty

/-- A schema. -/
abbrev Schema := SchemaOf Ty

namespace Ty

/-! ## Equality -/

mutual

/-- The two types are built alike. -/
def beq : Ty → Ty → Bool
  | .any, .any | .none, .none | .str, .str | .int, .int | .float, .float | .bool, .bool
  | .date, .date => true
  | .bare a, .bare b => a == b
  | .many c a, .many d b => c == d && beq a b
  | .positions as, .positions bs => beqItems as bs
  | .dict k a, .dict l b => beq k l && beq a b
  | .optional a, .optional b => beq a b
  | .choice s as, .choice t bs => s == t && beqItems as bs
  | .literal as, .literal bs => as == bs
  | .enumeration a, .enumeration b => a == b
  | .limited a l, .limited b m => beq a b && l == m
  | .record ⟨n, as, c⟩, .record ⟨m, bs, d⟩ => n == m && beqFields as bs && c == d
  | _, _ => false

/-- The types are built alike, one by one. -/
def beqItems : List Ty → List Ty → Bool
  | [], [] => true
  | a :: as, b :: bs => beq a b && beqItems as bs
  | _, _ => false

/-- The fields are built alike, one by one. -/
def beqFields : List (FieldOf Ty) → List (FieldOf Ty) → Bool
  | [], [] => true
  | ⟨f, a⟩ :: as, ⟨g, b⟩ :: bs => f == g && beq a b && beqFields as bs
  | _, _ => false

end

instance : BEq Ty := ⟨beq⟩

mutual

theorem eq_of_beq : ∀ {a b : Ty}, beq a b = true → a = b
  | a, b, h => by
    cases a <;> cases b <;> simp [beq] at h ⊢
    all_goals first
      | exact h
      | exact ⟨h.1, eq_of_beq h.2⟩
      | exact eqItems_of_beq h
      | exact ⟨eq_of_beq h.1, eq_of_beq h.2⟩
      | exact eq_of_beq h
      | exact ⟨h.1, eqItems_of_beq h.2⟩
      | exact ⟨eq_of_beq h.1, h.2⟩
      | skip
    case record.record s t =>
      obtain ⟨n, as, c⟩ := s
      obtain ⟨m, bs, d⟩ := t
      simp at h
      rw [h.1.1, eqFields_of_beq h.1.2, h.2]

theorem eqItems_of_beq : ∀ {a b : List Ty}, beqItems a b = true → a = b
  | [], [], _ => rfl
  | [], _ :: _, h | _ :: _, [], h => by simp [beqItems] at h
  | a :: as, b :: bs, h => by
    simp [beqItems] at h
    rw [eq_of_beq h.1, eqItems_of_beq h.2]

theorem eqFields_of_beq : ∀ {a b : List (FieldOf Ty)}, beqFields a b = true → a = b
  | [], [], _ => rfl
  | [], _ :: _, h | _ :: _, [], h => by simp [beqFields] at h
  | ⟨f, a⟩ :: as, ⟨g, b⟩ :: bs, h => by
    simp [beqFields] at h
    rw [h.1.1, eq_of_beq h.1.2, eqFields_of_beq h.2]

end

mutual

theorem beq_self : ∀ a : Ty, beq a a = true
  | .any | .none | .str | .int | .float | .bool | .date | .bare _ | .literal _
  | .enumeration _ => by simp [beq]
  | .many _ a | .optional a | .limited a _ => by simp [beq, beq_self a]
  | .positions as | .choice _ as => by simp [beq, beqItems_self as]
  | .dict k a => by simp [beq, beq_self k, beq_self a]
  | .record ⟨_, as, _⟩ => by simp [beq, beqFields_self as]

theorem beqItems_self : ∀ a : List Ty, beqItems a a = true
  | [] => by simp [beqItems]
  | a :: as => by simp [beqItems, beq_self a, beqItems_self as]

theorem beqFields_self : ∀ a : List (FieldOf Ty), beqFields a a = true
  | [] => by simp [beqFields]
  | ⟨_, a⟩ :: as => by simp [beqFields, beq_self a, beqFields_self as]

end

instance : LawfulBEq Ty where
  eq_of_beq := eq_of_beq
  rfl := beq_self _

/-! ## Literals -/

/-- The two values are one choice of a literal: of one kind, and equal. -/
def isSameChoice : Value → Value → Bool
  | .float x, .float y => (Value.float x).same (.float y)
  | a, b => a == b

/-- The values without later copies of earlier ones. -/
def distinctChoices (values : List Value) : List Value :=
  (values.foldl (fun seen v => if seen.any (isSameChoice v) then seen else v :: seen) []).reverse

/-- The literal type of some values; repetitions count once unless a set cannot hold them all. -/
def literalOf (values : List Value) : Ty :=
  .literal (if values.all Value.isHashable then distinctChoices values else values)

mutual

/-- Some part of the type is limited. -/
def hasLimits : Ty → Bool
  | .limited _ _ => true
  | .many _ t | .optional t => hasLimits t
  | .positions ts | .choice _ ts => anyLimits ts
  | .dict k v => hasLimits k || hasLimits v
  | _ => false

/-- Some part of some of the types is limited. -/
def anyLimits : List Ty → Bool
  | [] => false
  | t :: ts => hasLimits t || anyLimits ts

end

/-- The two types are one alternative of a choice.  Limited types never are, and the order of a
literal's values is free. -/
def isSameOption : Ty → Ty → Bool
  | .literal as, .literal bs => as.all bs.contains && bs.all as.contains
  | a, b => !hasLimits a && a == b

/-- The limits put on a type as a whole, the inner ones first. -/
def outerLimits : Ty → List Limit
  | .limited t l => outerLimits t ++ l.toList
  | _ => []

end Ty

/-- The limits of a field: its own, and then those put on its type as a whole. -/
def FieldOf.allLimits (f : Field) : List Limit := f.limits.toList ++ f.type.outerLimits

end WebForm
