/-
Patterns: regular expressions that a text has to match.

A pattern is written in one of two dialects.  A searching pattern matches when
some part of the text does, and its `$` stands at the very end; an anchored one
has to match from the start of the text, and its `$` also stands before a last
line feed.  The dialects differ as well in what counts as a word character and
as white space.
-/
import WebForm.Text.Blank
import WebForm.Text.Digit
import WebForm.Text.Letter

namespace WebForm.Pattern

open WebForm.Text

/-- How a pattern is applied. -/
inductive Dialect where
  | searching
  | anchored
deriving DecidableEq

/-- Named sets of characters. -/
inductive CharKind where
  | digit
  | word
  | space
  | letter
  | mark
  | numeral
deriving DecidableEq

/-- A word character: a letter, a numeral or a connector, and for searching patterns also a
mark, a circled letter or a joiner. -/
def isWordChar (d : Dialect) (c : Char) : Bool :=
  match d with
  | .searching =>
    letterRanges.has c || markRanges.has c || letterNumberRanges.has c || isDecimal c
      || connectorRanges.has c || circledLetterRanges.has c
      || c.toNat = 0x200c || c.toNat = 0x200d
  | .anchored => letterRanges.has c || numericRanges.has c || c = '_'

/-- The character belongs to the named set. -/
def CharKind.has (d : Dialect) (k : CharKind) (c : Char) : Bool :=
  match k with
  | .digit => isDecimal c
  | .word => isWordChar d c
  | .space => if d = .searching then isWhite c else isSpacing c
  | .letter => letterRanges.has c
  | .mark => markRanges.has c
  | .numeral => numericRanges.has c

/-- One item of a set of characters. -/
inductive ClassItem where
  | range (first last : Char)
  | kind (k : CharKind) (negated : Bool)

/-- The item holds the character. -/
def ClassItem.has (d : Dialect) (item : ClassItem) (c : Char) : Bool :=
  match item with
  | .range first last => first.toNat ≤ c.toNat && c.toNat ≤ last.toNat
  | .kind k negated => k.has d c != negated

/-- A set of characters. -/
structure CharSet where
  negated : Bool
  items : List ClassItem

/-- The set holds the character. -/
def CharSet.has (d : Dialect) (s : CharSet) (c : Char) : Bool :=
  s.items.any (·.has d c) != s.negated

/-- A condition on a place in the text. -/
inductive Place where
  | textStart
  | textEnd
  | lineStart
  | lineEnd
  /-- The end of the text, or before a line feed that ends it. -/
  | lastLineEnd
  | wordEdge (negated : Bool)
deriving DecidableEq

/-- The syntax of patterns. -/
inductive Node where
  /-- Matches nothing at all. -/
  | never
  | empty
  | chars (set : CharSet) (ignoreCase : Bool)
  | place (p : Place)
  | seq (first second : Node)
  | either (first second : Node)
  /-- At least `least` times, and at most `extra` times more if there is a bound. -/
  | repeated (body : Node) (least : Nat) (extra : Option Nat)
  | ahead (body : Node) (negated : Bool)
  | behind (body : Node) (negated : Bool)

end WebForm.Pattern

namespace WebForm

/-- A pattern: its source, its dialect and what it was read as. -/
structure Pattern where
  source : String
  dialect : Pattern.Dialect
  node : Pattern.Node

end WebForm
