/-
Plain scalars of a YAML document: texts without quotes, which end at a mark of the
layout and can go on over lines.
-/
import WebForm.Yaml.Cursor
import WebForm.Yaml.Node

namespace WebForm.Yaml

/-- A plain scalar can start here. -/
def startsPlain (inFlow : Bool) (cs : List Char) : Bool :=
  match cs with
  | [] => false
  | c :: rest =>
    !(" \t\n-?:,[]\x7b\x7d#&*!|>'\x22%@\x60".toList.contains c)
      || (!atBlank rest && (c = '-' || (!inFlow && (c = '?' || c = ':'))))

/-- The characters up to a blank or to a mark that ends a plain scalar. -/
def plainChunk (inFlow : Bool) : List Char → List Char × List Char
  | [] => ([], [])
  | c :: cs =>
    let opensValue := c = ':' &&
      (atBlank cs || (inFlow && (cs.head?.map ",[]\x7b\x7d".toList.contains).getD false))
    if c = ' ' || c = '\t' || c = '\n' || opensValue
        || (inFlow && ",?[]\x7b\x7d".toList.contains c) then ([], c :: cs)
    else
      let (chunk, rest) := plainChunk inFlow cs
      (c :: chunk, rest)

/-- The blanks between two chunks: their characters, the ends of lines, and what follows. -/
def blanksBetween : List Char → Nat → Nat → Nat → Nat × Nat × Cursor
  | [], spaces, breaks, column => (spaces, breaks, ⟨[], column⟩)
  | c :: cs, spaces, breaks, column =>
    if c = ' ' then blanksBetween cs (spaces + 1) breaks (column + 1)
    else if c = '\n' then blanksBetween cs spaces (breaks + 1) 0
    else (spaces, breaks, ⟨c :: cs, column⟩)

/-- A plain scalar, which goes on in later lines as long as they are indented by `least`. -/
def plainFrom (inFlow : Bool) (least : Nat) : Nat → List Char → List Char → List Char × List Char
  | 0, cs, done => (done, cs)
  | fuel + 1, cs, done =>
    let (chunk, rest) := plainChunk inFlow cs
    let done := done ++ chunk
    let (spaces, breaks, next) := blanksBetween rest 0 0 0
    let stops := chunk.isEmpty || next.rest.isEmpty || next.rest.head? = some '#'
      || (plainChunk inFlow next.rest).1.isEmpty
      || (if breaks = 0 then spaces = 0
          else isMarker next || (!inFlow && next.column < least))
    if stops then (done, rest)
    else
      let between := if breaks = 0 then List.replicate spaces ' ' else folded breaks
      plainFrom inFlow least fuel next.rest (done ++ between)

/-- A plain scalar. -/
def plain (inFlow : Bool) (least : Nat) (cs : List Char) : Node × List Char :=
  let (text, rest) := plainFrom inFlow least cs.length cs []
  (.scalar none true (String.ofList text), rest)

end WebForm.Yaml
