/-
Values: what declarations hold, submissions carry and checks return.

Collections keep the order in which they were written; a set keeps the order of
its first occurrences.  `Value.same` is equality as a lookup sees it: a flag
equals the number 0 or 1, a whole float its integer, and an option of a textual
or numeric enumeration the value it stands for; sets and mappings have no order.
-/
import WebForm.Date.Basic
import WebForm.Number.Binary64
import WebForm.Pairs

namespace WebForm

open WebForm.Number

/-- How the options of an enumeration behave: as texts, as integers, or as themselves. -/
inductive EnumKind where
  | text
  | integer
  | plain
deriving DecidableEq

/-- A value of any kind. -/
inductive Value where
  | null
  | bool (b : Bool)
  | int (i : Int)
  | float (x : Binary64)
  | str (s : String)
  | list (items : List Value)
  | tuple (items : List Value)
  | set (items : List Value)
  | frozenset (items : List Value)
  | map (entries : List (Value × Value))
  | date (d : Date)
  /-- An option of an enumeration, with the value it stands for and its place among the options. -/
  | option (enumeration : String) (kind : EnumKind) (name : String) (value : Value) (place : Nat)
  /-- An object with named attributes. -/
  | object (attributes : List (String × Value))
  /-- An instance of a schema: its fields, and the names under which they are written out. -/
  | record (schema : String) (written : List String) (fields : List (String × Value))
deriving Inhabited

namespace Value

/-- A mapping with texts as keys. -/
def ofPairs (pairs : List (String × Value)) : Value := .map (pairs.map fun p => (.str p.1, p.2))

/-- The text of a text, or of an option that behaves as one. -/
def asText? : Value → Option String
  | .str s => some s
  | .option _ .text _ (.str s) _ => some s
  | _ => none

/-- The integer of an integer or a flag, or of an option that behaves as one. -/
def asInteger? : Value → Option Int
  | .int i => some i
  | .bool b => some (if b then 1 else 0)
  | .option _ .integer _ (.int i) _ => some i
  | .option _ .integer _ (.bool b) _ => some (if b then 1 else 0)
  | _ => none

/-! ## Equality, part by part -/

mutual

/-- The two values are built alike. -/
def beq : Value → Value → Bool
  | .null, .null => true
  | .bool a, .bool b => a == b
  | .int a, .int b => a == b
  | .float a, .float b => a == b
  | .str a, .str b => a == b
  | .list a, .list b => beqItems a b
  | .tuple a, .tuple b => beqItems a b
  | .set a, .set b => beqItems a b
  | .frozenset a, .frozenset b => beqItems a b
  | .map a, .map b => beqEntries a b
  | .date a, .date b => a == b
  | .option e k n a p, .option e' k' n' b p' =>
    e == e' && k == k' && n == n' && p == p' && beq a b
  | .object a, .object b => beqFields a b
  | .record s w a, .record s' w' b => s == s' && w == w' && beqFields a b
  | _, _ => false

/-- The items are built alike, one by one. -/
def beqItems : List Value → List Value → Bool
  | [], [] => true
  | a :: as, b :: bs => beq a b && beqItems as bs
  | _, _ => false

/-- The entries are built alike, one by one. -/
def beqEntries : List (Value × Value) → List (Value × Value) → Bool
  | [], [] => true
  | (k, a) :: as, (l, b) :: bs => beq k l && beq a b && beqEntries as bs
  | _, _ => false

/-- The attributes or fields are built alike, one by one. -/
def beqFields : List (String × Value) → List (String × Value) → Bool
  | [], [] => true
  | (k, a) :: as, (l, b) :: bs => k == l && beq a b && beqFields as bs
  | _, _ => false

end

instance : BEq Value := ⟨beq⟩

mutual

theorem eq_of_beq : ∀ {a b : Value}, beq a b = true → a = b
  | a, b, h => by
    cases a <;> cases b <;> simp [beq] at h ⊢
    all_goals first
      | exact h
      | exact eqItems_of_beq h
      | exact eqEntries_of_beq h
      | exact eqFields_of_beq h
      | exact ⟨h.1.1.1.1, h.1.1.1.2, h.1.1.2, eq_of_beq h.2, h.1.2⟩
      | exact ⟨h.1.1, h.1.2, eqFields_of_beq h.2⟩

theorem eqItems_of_beq : ∀ {a b : List Value}, beqItems a b = true → a = b
  | [], [], _ => rfl
  | [], _ :: _, h | _ :: _, [], h => by simp [beqItems] at h
  | a :: as, b :: bs, h => by
    simp [beqItems] at h
    rw [eq_of_beq h.1, eqItems_of_beq h.2]

theorem eqEntries_of_beq : ∀ {a b : List (Value × Value)}, beqEntries a b = true → a = b
  | [], [], _ => rfl
  | [], _ :: _, h | _ :: _, [], h => by simp [beqEntries] at h
  | (k, a) :: as, (l, b) :: bs, h => by
    simp [beqEntries] at h
    rw [eq_of_beq h.1.1, eq_of_beq h.1.2, eqEntries_of_beq h.2]

theorem eqFields_of_beq : ∀ {a b : List (String × Value)}, beqFields a b = true → a = b
  | [], [], _ => rfl
  | [], _ :: _, h | _ :: _, [], h => by simp [beqFields] at h
  | (k, a) :: as, (l, b) :: bs, h => by
    simp [beqFields] at h
    rw [h.1.1, eq_of_beq h.1.2, eqFields_of_beq h.2]

end

mutual

theorem beq_self : ∀ a : Value, beq a a = true
  | .null | .bool _ | .int _ | .float _ | .str _ | .date _ => by simp [beq]
  | .list a | .tuple a | .set a | .frozenset a => by simp [beq, beqItems_self a]
  | .map a => by simp [beq, beqEntries_self a]
  | .option _ _ _ a _ => by simp [beq, beq_self a]
  | .object a | .record _ _ a => by simp [beq, beqFields_self a]

theorem beqItems_self : ∀ a : List Value, beqItems a a = true
  | [] => by simp [beqItems]
  | a :: as => by simp [beqItems, beq_self a, beqItems_self as]

theorem beqEntries_self : ∀ a : List (Value × Value), beqEntries a a = true
  | [] => by simp [beqEntries]
  | (k, a) :: as => by simp [beqEntries, beq_self k, beq_self a, beqEntries_self as]

theorem beqFields_self : ∀ a : List (String × Value), beqFields a a = true
  | [] => by simp [beqFields]
  | (k, a) :: as => by simp [beqFields, beq_self a, beqFields_self as]

end

instance : LawfulBEq Value where
  eq_of_beq := eq_of_beq
  rfl := beq_self _

instance : DecidableEq Value := fun a b =>
  decidable_of_iff (beq a b = true) ⟨eq_of_beq, fun h => h ▸ beq_self a⟩

/-! ## Equality as a lookup sees it -/

/-- A number, or an option of a textual or numeric enumeration, as the plain value it equals;
all other values stay. -/
def plain : Value → Value
  | .float x =>
    match x.toInt? with
    | some i => .int i
    | none => .float x
  | v =>
    match v.asInteger?, v.asText? with
    | some i, _ => .int i
    | none, some s => .str s
    | none, none => v

mutual

/-- The two values are equal where they are looked up.  What is no number equals nothing. -/
def same : Value → Value → Bool
  | .float .nan, _ => false
  | .list xs, v =>
    match v with
    | .list ys => sameItems xs ys
    | _ => false
  | .tuple xs, v =>
    match v with
    | .tuple ys => sameItems xs ys
    | _ => false
  | .set xs, v | .frozenset xs, v =>
    match v with
    | .set ys | .frozenset ys => xs.length == ys.length && itemsIn xs ys
    | _ => false
  | .map es, v =>
    match v with
    | .map fs => es.length == fs.length && entriesIn es fs
    | _ => false
  | .object as, v =>
    match v with
    | .object bs => as.length == bs.length && fieldsIn as bs
    | _ => false
  | .record s _ as, v =>
    match v with
    | .record t _ bs => s == t && as.length == bs.length && fieldsIn as bs
    | _ => false
  | .option e .plain n _ _, v =>
    match v with
    | .option e' .plain n' _ _ => e == e' && n == n'
    | _ => false
  | a, b => plain a == plain b

/-- The items are equal one by one. -/
def sameItems : List Value → List Value → Bool
  | [], [] => true
  | x :: xs, y :: ys => same x y && sameItems xs ys
  | _, _ => false

/-- Every item equals some other. -/
def itemsIn : List Value → List Value → Bool
  | [], _ => true
  | x :: xs, ys => ys.any (fun y => same x y) && itemsIn xs ys

/-- Every entry equals some other. -/
def entriesIn : List (Value × Value) → List (Value × Value) → Bool
  | [], _ => true
  | (k, v) :: es, fs => fs.any (fun f => same k f.1 && same v f.2) && entriesIn es fs

/-- Every attribute or field equals some other of its name. -/
def fieldsIn : List (String × Value) → List (String × Value) → Bool
  | [], _ => true
  | (k, v) :: as, bs => bs.any (fun b => k == b.1 && same v b.2) && fieldsIn as bs

end

/-- A value that a set can hold. -/
def isHashable : Value → Bool
  | .list _ | .set _ | .map _ | .object _ | .record .. => false
  | .tuple items => hashableAll items
  | _ => true
where
  /-- Every item can be held by a set. -/
  hashableAll : List Value → Bool
    | [] => true
    | v :: vs => isHashable v && hashableAll vs

/-- The items without later copies of earlier ones. -/
def distinct (items : List Value) : List Value :=
  (items.foldl (fun seen v => if seen.any (same v) then seen else v :: seen) []).reverse

/-- Sets the value under a key: in its place if an equal key is there, else at the end. -/
def setEntry (entries : List (Value × Value)) (key value : Value) : List (Value × Value) :=
  match entries with
  | [] => [(key, value)]
  | (k, v) :: rest => if k.same key then (k, value) :: rest else (k, v) :: setEntry rest key value

/-- The mapping that comes of setting some entries in turn. -/
def ofEntries (entries : List (Value × Value)) : Value :=
  .map (entries.foldl (fun acc e => setEntry acc e.1 e.2) [])

/-- The value under a key in a mapping's entries. -/
def entryOf? (entries : List (Value × Value)) (key : Value) : Option Value :=
  (entries.find? fun e => e.1.same key).map (·.2)

/-- The value under a text, or under an option that behaves as it, in a mapping's entries. -/
def valueAt? (entries : List (Value × Value)) (key : String) : Option Value :=
  (entries.find? fun e => e.1.asText? = some key).map (·.2)

end Value

end WebForm
