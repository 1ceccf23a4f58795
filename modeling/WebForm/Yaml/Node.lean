/-
The nodes of a YAML document, and the values that they stand for.

A node can have a tag, which says what kind of value it is, and an anchor, under
which a later reference finds its value.  The entries of a mapping can come in part
from another mapping, below its own.
-/
import WebForm.Yaml.Scalar

namespace WebForm.Yaml

/-- What the tag of a node says of its value. -/
inductive Tag where
  | text
  | integer
  | float
  | flag
  | null
  | timestamp
  | sequence
  | mapping
  | set
  /-- A sequence of mappings of one entry each. -/
  | pairs
  /-- The kind of a plain scalar, or of the collection. -/
  | unspecific
  | unknown
deriving DecidableEq

namespace Tag

/-- The common tags by the names that follow the marks of a tag. -/
def common : List (String × Tag) :=
  [("str", .text), ("int", .integer), ("float", .float), ("bool", .flag), ("null", .null),
    ("timestamp", .timestamp), ("seq", .sequence), ("map", .mapping), ("set", .set),
    ("omap", .pairs), ("pairs", .pairs)]

/-- The tag that a text between its first mark and the next blank writes. -/
def ofText (s : String) : Tag :=
  if s = "" then .unspecific
  else
    match common.find? fun p => s = "!" ++ p.1 || s = "<tag:yaml.org,2002:" ++ p.1 ++ ">" with
    | some p => p.2
    | none => .unknown

/-- The value of a scalar with a tag. -/
def scalar (tag : Tag) (s : String) : Except Fault Value :=
  match tag with
  | .text => .ok (.str s)
  | .null => .ok .null
  | .unspecific => plainValue s
  | .flag => (readFlag s).map .bool
  | .integer => (readInteger s.toList).map .int
  | .float => (readFloat s.toList).map .float
  | .timestamp => if looksDate s.toList then (readDate s.toList).map .date else .error .timestamp
  | .sequence | .mapping | .set | .pairs | .unknown => .error .unreadable

end Tag

/-- A node: its tag, and its text, which is plain or not, or its parts. -/
inductive Node where
  | scalar (tag : Option Tag) (plain : Bool) (text : String)
  | sequence (tag : Option Tag) (items : List Node)
  | mapping (tag : Option Tag) (entries : List (Node × Node))
  | anchored (name : String) (node : Node)
  | reference (name : String)

/-- What can stand before the content of a node. -/
structure Properties where
  anchor : Option String := none
  tag : Option Tag := none

namespace Node

/-- The node where nothing is written. -/
def blank : Node := .scalar none true ""

/-- A node with a tag. -/
def withTag (tag : Option Tag) : Node → Node
  | .scalar _ plain text => .scalar tag plain text
  | .sequence _ items => .sequence tag items
  | .mapping _ entries => .mapping tag entries
  | n => n

/-- A node with the properties that stand before it. -/
def under (p : Properties) (n : Node) : Node :=
  match p.anchor with
  | some name => .anchored name (n.withTag p.tag)
  | none => n.withTag p.tag

/-- The text of a plain scalar without a tag. -/
def plainText? : Node → Option String
  | .scalar none true text => some text
  | _ => none

/-- The key of entries that come from another mapping. -/
def isMergeKey (n : Node) : Bool := n.plainText? = some "<<"

/-- A key that is a text, whatever it stands for elsewhere. -/
def isValueKey (n : Node) : Bool := n.plainText? = some "="

/-- The entries that the value of a merge key brings: those of a mapping, or of several, of
which the first wins. -/
def mergedEntries : Value → Except Fault (List (Value × Value))
  | .map entries => .ok entries
  | .list items => (items.reverse.mapM entriesOf).map List.flatten
  | _ => .error .unreadable
where
  /-- The entries of a mapping. -/
  entriesOf : Value → Except Fault (List (Value × Value))
    | .map entries => .ok entries
    | _ => .error .unreadable

/-- The values under the names of anchors. -/
abbrev Anchors := List (String × Value)

/-- The entries of a mapping, with those from other mappings apart. -/
structure Entries where
  merged : List (Value × Value) := []
  own : List (Value × Value) := []

/-- All entries: the own ones hide those from other mappings. -/
def Entries.all (entries : Entries) : List (Value × Value) := entries.merged ++ entries.own

/-- The pair that a mapping of one entry is. -/
def pairOf : Value → Except Fault Value
  | .map [(k, v)] => .ok (.tuple [k, v])
  | _ => .error .unreadable

/-- The value of a sequence with a tag. -/
def sequenceValue (tag : Option Tag) (items : List Value) : Except Fault Value :=
  match tag with
  | none | some .sequence | some .unspecific => .ok (.list items)
  | some .pairs => (items.mapM pairOf).map .list
  | some _ => .error .unreadable

/-- The value of a mapping with a tag. -/
def mappingValue (tag : Option Tag) (entries : Entries) : Except Fault Value :=
  match tag with
  | none | some .mapping | some .unspecific => .ok (Value.ofEntries entries.all)
  | some .set => .ok (.set (Value.distinct (entries.all.map (·.1))))
  | some _ => .error .unreadable

mutual

/-- The value of a node, with the anchors set so far.  A name is set once, and before it is
referred to; a key must be one that can be looked up. -/
def value (anchors : Anchors) : Node → Except Fault (Value × Anchors)
  | .scalar none false text => .ok (.str text, anchors)
  | .scalar none true text => (plainValue text).map fun v => (v, anchors)
  | .scalar (some tag) _ text => (tag.scalar text).map fun v => (v, anchors)
  | .sequence tag items => do
    let (items, anchors) ← itemValues anchors items
    return (← sequenceValue tag items, anchors)
  | .mapping tag entries => do
    let (entries, anchors) ← entryValues anchors entries
    return (← mappingValue tag entries, anchors)
  | .anchored name n => do
    let (v, anchors) ← value anchors n
    if (anchors.lookup name).isSome then throw .unreadable
    return (v, (name, v) :: anchors)
  | .reference name =>
    match anchors.lookup name with
    | some v => .ok (v, anchors)
    | none => .error .unreadable

/-- The values of items in turn. -/
def itemValues (anchors : Anchors) : List Node → Except Fault (List Value × Anchors)
  | [] => .ok ([], anchors)
  | n :: rest => do
    let (v, anchors) ← value anchors n
    let (vs, anchors) ← itemValues anchors rest
    return (v :: vs, anchors)

/-- The values of entries in turn. -/
def entryValues (anchors : Anchors) : List (Node × Node) → Except Fault (Entries × Anchors)
  | [] => .ok ({}, anchors)
  | (key, n) :: rest =>
    if key.isMergeKey then do
      let (v, anchors) ← value anchors n
      let below ← mergedEntries v
      let (entries, anchors) ← entryValues anchors rest
      return ({ entries with merged := below ++ entries.merged }, anchors)
    else do
      let (k, anchors) ←
        if key.isValueKey then pure (Value.str "=", anchors) else value anchors key
      let (v, anchors) ← value anchors n
      if !k.isHashable then throw .unreadable
      let (entries, anchors) ← entryValues anchors rest
      return ({ entries with own := (k, v) :: entries.own }, anchors)

end

end Node

end WebForm.Yaml
