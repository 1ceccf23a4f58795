/-
Checks of collections and of mappings.

A lax check takes lists, tuples and sets for one another; a strict check takes the
exact kind alone.  The items are checked in order and their faults are reported
under their index.  A list ends the check as soon as it is found too long, a set
as soon as it holds too many different items.
-/
import WebForm.Check.Added
import WebForm.Number.Numeral

namespace WebForm.Check

/-! ## Reading the items -/

/-- The items that a value holds, where lists, tuples and sets count alike; the items of a record
are its fields, each with its name. -/
def items? : Value → Option (List Value)
  | .list items | .tuple items | .set items | .frozenset items => some items
  | .record _ _ fields => some (fields.map fun f => .tuple [.str f.1, f.2])
  | _ => Option.none

/-- The number of items, where it is known before they are taken. -/
def count? : Value → Option Nat
  | .list items | .tuple items | .set items | .frozenset items => some items.length
  | _ => Option.none

/-- The value is a collection of exactly this kind. -/
def isKind : Counted → Value → Bool
  | .list, .list _ | .tuple, .tuple _ | .set, .set _ | .frozenset, .frozenset _ => true
  | _, _ => false

/-- The type that was expected of a collection. -/
def expectedOf : Counted → Expected
  | .list => .list
  | .tuple => .tuple
  | .set => .set
  | .frozenset => .frozenset
  | _ => .dictionary

/-- The items of a value that is taken as a collection of a kind, with the change. -/
def readItems (strict : Bool) (kind : Counted) (v : Value) : Except Cause (List Value × Exactness) :=
  if isKind kind v then .ok ((items? v).getD [], .exact)
  else if strict then .error (.expected (expectedOf kind))
  else
    match items? v with
    | some items => .ok (items, .loose)
    | Option.none => .error (.expected (expectedOf kind))

/-- A collection of a kind. -/
def collect : Counted → List Value → Value
  | .tuple, items => .tuple items
  | .set, items => .set (Value.distinct items)
  | .frozenset, items => .frozenset (Value.distinct items)
  | _, items => .list items

/-! ## Items in order -/

/-- The outcomes of the items, each under its index. -/
def outcomesAt (check : Value → Outcome) (first : Nat) : List Value → List Outcome
  | [] => []
  | v :: vs => Outcome.under (.index first) (check v) :: outcomesAt check (first + 1) vs

/-- The first misfit among outcomes. -/
def misfit? (rs : List Outcome) : Option Misfit :=
  rs.findSome? fun
    | .error (.misfit m) => some m
    | _ => Option.none

/-- Checks the items of a list with a greatest length. -/
def runItems (check : Value → Outcome) (most : Option Nat) (whole : Value) (items : List Value) :
    Except Rejection (List Checked) :=
  match most with
  | Option.none => Outcome.gather (outcomesAt check 0 items)
  | some n =>
    if items.length ≤ n then Outcome.gather (outcomesAt check 0 items)
    else
      match misfit? (outcomesAt check 0 (items.take (n + 1))) with
      | some m => .error (.misfit m)
      | Option.none => Outcome.fault (.tooMany .list n (count? whole)) whole

/-- A tuple's own bounds on its length: the greatest number of items that can pass, and the number
of its places if it has more items. -/
structure TupleBounds where
  most : Option Nat
  places : Option Nat

/-- Takes the items of a tuple in turn, until more of them have passed than can pass; `passed` are
those so far, the last one first, and `faults` the faults so far. -/
def runPlaces (b : TupleBounds) (whole : Value) (passed : List Checked) (faults : List Fault) :
    List Outcome → Except Rejection (List Checked)
  | [] =>
    match b.places with
    | some n => Outcome.fault (.tooMany .tuple n (count? whole)) whole
    | Option.none => if faults.isEmpty then .ok passed.reverse else .error (.faults faults)
  | .error (.misfit m) :: _ => .error (.misfit m)
  | .error (.faults fs) :: rest => runPlaces b whole passed (faults ++ fs) rest
  | .ok c :: rest =>
    match b.most with
    | some n =>
      if n ≤ passed.length then Outcome.fault (.tooMany .tuple n (count? whole)) whole
      else runPlaces b whole (c :: passed) faults rest
    | Option.none => runPlaces b whole (c :: passed) faults rest

/-- Checks the members of a set from one index on; `passed` are the members so far, the last
one first, and `faults` the faults so far. -/
def runMembers (kind : Counted) (check : Value → Outcome) (most : Option Nat) (whole : Value)
    (passed : List Checked) (faults : List Fault) (first : Nat) :
    List Value → Except Rejection (List Checked)
  | [] => if faults.isEmpty then .ok passed.reverse else .error (.faults faults)
  | v :: vs =>
    match Outcome.under (.index first) (check v) with
    | .error (.misfit m) => .error (.misfit m)
    | .error (.faults fs) => runMembers kind check most whole passed (faults ++ fs) (first + 1) vs
    | .ok c =>
      if !c.value.isHashable then
        runMembers kind check most whole passed (faults ++ [⟨.notHashable, [.index first], v⟩])
          (first + 1) vs
      else
        let count := (Value.distinct ((c :: passed).reverse.map (·.value))).length
        match most with
        | some n =>
          if n < count then Outcome.fault (.tooMany kind n Option.none) whole
          else runMembers kind check most whole (c :: passed) faults (first + 1) vs
        | Option.none => runMembers kind check most whole (c :: passed) faults (first + 1) vs

/-- The length of what came out, against a least length. -/
def keepLeast (kind : Counted) (ls : List Limit) (whole : Value) (c : Checked) : Outcome :=
  match Limit.least? ls, c.value.length? with
  | some n, some k => if k < n then Outcome.fault (.tooFew kind n k) whole else .ok c
  | _, _ => .ok c

/-- Checks a collection of a kind whose items have one check. -/
def runCollection (kind : Counted) (item : Check) (s : Setting) (ls : List Limit) (v : Value) :
    Outcome :=
  match readItems (s.isStrict ls) kind v with
  | .error cause => Outcome.fault cause v
  | .ok (items, exactness) =>
    let most := Limit.most? ls
    let parts :=
      match kind with
      | .set | .frozenset => runMembers kind (item.run []) most v [] [] 0 items
      | .tuple =>
        runPlaces ⟨most, Option.none⟩ v [] [] (outcomesAt (item.run []) 0 items)
      | _ => runItems (item.run []) most v items
    parts.bind fun cs =>
      keepLeast kind ls v (.ofParts exactness cs (collect kind (cs.map (·.value))))

/-- The name of a kind of collection in reports. -/
def kindLabel : Counted → String
  | .tuple => "tuple"
  | .set => "set"
  | .frozenset => "frozenset"
  | _ => "list"

/-- The check of a collection whose items have one check. -/
def collection (kind : Counted) (item : Check) (s : Setting) : Check :=
  ofOwn s (kindLabel kind) Limit.isLength
    (fun _ => kindLabel kind ++ "[" ++ item.label []
      ++ (if kind = .tuple then ", ...]" else "]"))
    (runCollection kind item s)

/-! ## Lists of anything -/

/-- Checks a list of anything, whose items are not looked at. -/
def runFreeList (s : Setting) (ls : List Limit) (v : Value) : Outcome :=
  match readItems (s.isStrict ls) .list v with
  | .error cause => Outcome.fault cause v
  | .ok (items, exactness) =>
    match Limit.least? ls, Limit.most? ls with
    | least, some n =>
      if n < items.length && least.all (· ≤ items.length) then
        Outcome.fault (.tooMany .list n (count? v)) v
      else keepLeast .list ls v { value := .list items, exactness }
    | _, Option.none => keepLeast .list ls v { value := .list items, exactness }

/-- The check of lists of anything. -/
def freeList (s : Setting) : Check :=
  ofOwn s "list" Limit.isLength (fun _ => "list[any]") (runFreeList s)

/-! ## Sequences -/

/-- Checks a sequence: a list or a tuple, which keeps its kind, but no text. -/
def runSequence (item : Check) (v : Value) : Outcome :=
  let parts (items : List Value) := Outcome.gather (outcomesAt (item.run []) 0 items)
  match v with
  | .list items => (parts items).map fun cs => .ofParts .exact cs (.list (cs.map (·.value)))
  | .tuple items => (parts items).map fun cs => .ofParts .exact cs (.tuple (cs.map (·.value)))
  | .str _ => Outcome.fault (.textAsSequence "str") v
  | .option e .text _ _ _ => Outcome.fault (.textAsSequence e) v
  | v => Outcome.fault (.notInstance "Sequence") v

/-- The check of sequences. -/
def sequence (item : Check) (s : Setting) : Check :=
  ofOwn s "json-or-python" (fun _ => false)
    (fun _ =>
      "json-or-python[json=list[" ++ item.label []
        ++ "],python=chain[is-instance[Sequence],function-wrap[sequence_validator()]]]")
    fun _ v => runSequence item v

/-- Checks a sequence of anything, which can be a text too. -/
def runFreeSequence (v : Value) : Outcome :=
  match v with
  | .list _ | .tuple _ | .str _ | .option _ .text _ _ _ => Outcome.pass v
  | v => Outcome.fault (.notInstance "Sequence") v

/-- The check of sequences of anything. -/
def freeSequence (s : Setting) : Check :=
  ofOwn s "json-or-python" (fun _ => false)
    (fun _ => "json-or-python[json=list[any],python=is-instance[Sequence]]")
    fun _ v => runFreeSequence v

/-! ## Tuples with a type for each position -/

/-- The outcomes of the positions: each takes the item at its place or is missing. -/
def outcomesOf (whole : Value) (first : Nat) : List Check → List Value → List Outcome
  | [], _ => []
  | _ :: cs, [] =>
    Outcome.under (.index first) (Outcome.fault .missing whole) :: outcomesOf whole (first + 1) cs []
  | c :: cs, v :: vs =>
    Outcome.under (.index first) (c.run [] v) :: outcomesOf whole (first + 1) cs vs

/-- Checks a tuple with a type for each position. -/
def runPositions (checks : List Check) (s : Setting) (ls : List Limit) (v : Value) : Outcome :=
  match readItems (s.isStrict ls) .tuple v with
  | .error cause => Outcome.fault cause v
  | .ok (items, exactness) =>
    let surplus := if checks.length < items.length then some checks.length else Option.none
    let outcomes := outcomesOf v 0 checks items
    (runPlaces ⟨Limit.most? ls, surplus⟩ v [] [] outcomes).bind fun cs =>
      keepLeast .tuple ls v (.ofParts exactness cs (.tuple (cs.map (·.value))))

/-- The check of a tuple with a type for each position. -/
def positions (checks : List Check) (s : Setting) : Check :=
  ofOwn s "tuple" Limit.isLength
    (fun _ => "tuple[" ++ Value.commaList (checks.map fun c => c.label []) ++ "]")
    (runPositions checks s)

/-! ## Mappings -/

/-- The step to a key: a text or an integer is a step itself, and any other key is one by its
text. -/
def keyStep (k : Value) : Step :=
  match k.asText?, k.asInteger? with
  | some text, _ => .key text
  | Option.none, some i =>
    if Number.isWord i then .index i else .key k.shown
  | Option.none, Option.none => .key k.shown

/-- The outcome of an entry: faults of the key stand under the key and a mark. -/
def entryOutcome (key value : Check) (entry : Value × Value) :
    List (Except Rejection (Checked ⊕ Checked)) :=
  let step := keyStep entry.1
  [(Outcome.under step (Outcome.under (.key "[key]") (key.run [] entry.1))).map .inl,
   (Outcome.under step (value.run [] entry.2)).map .inr]

/-- Keys and values that take turns, as entries. -/
def pairUp : List (Checked ⊕ Checked) → List (Checked × Checked)
  | .inl k :: .inr v :: rest => (k, v) :: pairUp rest
  | _ => []

/-- The number of entries that came out, against the limits of a mapping. -/
def keepCount (ls : List Limit) (whole : Value) (c : Checked) : Outcome :=
  let count := c.value.length?.getD 0
  match Limit.least? ls, Limit.most? ls with
  | some n, most =>
    if count < n then Outcome.fault (.tooFew .dictionary n count) whole else keepMost most count
  | Option.none, most => keepMost most count
where
  /-- The number of entries, against a greatest number. -/
  keepMost (most : Option Nat) (count : Nat) : Outcome :=
    match most with
    | some n =>
      if n < count then Outcome.fault (.tooMany .dictionary n (some count)) whole else .ok c
    | Option.none => .ok c

/-- Checks a mapping. -/
def runDict (key value : Check) (ls : List Limit) (v : Value) : Outcome :=
  match v with
  | .map entries =>
    (Outcome.gather (entries.flatMap (entryOutcome key value))).bind fun parts =>
      let pairs := pairUp parts
      let result : Value := .ofEntries (pairs.map fun p => (p.1.value, p.2.value))
      keepCount ls v (.ofParts .exact (pairs.flatMap fun p => [p.1, p.2]) result)
  | v => Outcome.fault (.expected .dictionary) v

/-- The check of mappings. -/
def dict (key value : Check) (s : Setting) : Check :=
  ofOwn s "dict" Limit.isLength
    (fun _ => "dict[" ++ key.label [] ++ "," ++ value.label [] ++ "]") (runDict key value)

end WebForm.Check
