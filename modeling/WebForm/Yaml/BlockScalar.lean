/-
Block scalars of a YAML document: texts of whole lines under a header, whose ends of
lines are kept or folded.
-/
import WebForm.Yaml.Cursor
import WebForm.Yaml.Node

namespace WebForm.Yaml

/-- The header of a block scalar: whether the ends of lines at its end are kept (`+`), dropped
(`-`) or made one, and how far it is indented. -/
structure BlockHeader where
  chomping : Option Bool
  indent : Option Nat

/-- Reads the header, up to the end of the line. -/
def blockHeader? (cs : List Char) : Option (BlockHeader × List Char) :=
  let mark (c : Char) : Option Bool := if c = '+' then some true else if c = '-' then some false else none
  let digit (c : Char) : Option Nat :=
    if c.isDigit && c != '0' then some (c.toNat - 0x30) else none
  let (header, rest) : BlockHeader × List Char :=
    match cs with
    | a :: b :: rest =>
      match mark a, digit b, digit a, mark b with
      | some m, some d, _, _ | _, _, some d, some m => (⟨some m, some d⟩, rest)
      | some m, none, _, _ => (⟨some m, none⟩, b :: rest)
      | none, _, some d, none => (⟨none, some d⟩, b :: rest)
      | none, _, none, _ => (⟨none, none⟩, cs)
    | [a] =>
      match mark a, digit a with
      | some m, _ => (⟨some m, none⟩, [])
      | none, some d => (⟨none, some d⟩, [])
      | none, none => (⟨none, none⟩, cs)
    | [] => (⟨none, none⟩, [])
  let (next, crossed) := toToken false false rest 0
  if !atBlank rest then none
  else if crossed || next.rest.isEmpty then
    some (header, (rest.dropWhile (· != '\n')).drop 1)
  else none

/-- The number of leading spaces. -/
def indentOf (cs : List Char) : Nat := (cs.takeWhile (· = ' ')).length

/-- The deepest run of spaces among the lines before the first with another character, with
that line's own. -/
def deepestIndent : List Char → Nat → Nat → Nat
  | [], column, deepest => max column deepest
  | c :: cs, column, deepest =>
    if c = ' ' then deepestIndent cs (column + 1) (max deepest (column + 1))
    else if c = '\n' then deepestIndent cs 0 deepest
    else deepest

/-- The empty lines before the next line that is indented, and the rest at that line's text. -/
def emptyLines (indent : Nat) : Nat → List Char → Nat → Nat × Cursor
  | 0, cs, breaks => (breaks, ⟨cs, 0⟩)
  | fuel + 1, cs, breaks =>
    let depth := min indent (indentOf cs)
    match cs.drop depth with
    | '\n' :: rest => emptyLines indent fuel rest (breaks + 1)
    | rest => (breaks, ⟨rest, depth⟩)

/-- The lines of a block scalar; `breaks` empty lines stand before the next. -/
def blockLines (fold : Bool) (indent : Nat) (chomping : Option Bool) :
    Nat → Cursor → Nat → List Char → List Char × List Char
  | 0, c, _, done => (done, c.rest)
  | fuel + 1, c, breaks, done =>
    if c.column != indent || c.rest.isEmpty then (done, c.line)
    else
      let done := done ++ List.replicate breaks '\n'
      let line := c.rest.takeWhile (· != '\n')
      let after := c.rest.dropWhile (· != '\n')
      let ended := !after.isEmpty
      let (breaks, next) := emptyLines indent after.length (after.drop 1) 0
      let goesOn := next.column = indent && !next.rest.isEmpty
      let isText (cs : List Char) : Bool := !(cs.head? = some ' ' || cs.head? = some '\t')
      let ending : List Char := if ended then ['\n'] else []
      if goesOn then
        let joint :=
          if fold && isText c.rest && isText next.rest then (if breaks = 0 then [' '] else [])
          else ending
        blockLines fold indent chomping fuel next breaks (done ++ line ++ joint)
      else
        let last := if chomping = some false then [] else ending
        let more := if chomping = some true then List.replicate breaks '\n' else []
        (done ++ line ++ last ++ more, next.line)

/-- Reads a block scalar whose text is indented by `least` at least. -/
def blockScalar? (fold : Bool) (least : Nat) (cs : List Char) : Option (Node × List Char) :=
  (blockHeader? cs).map fun p =>
    let least := max 1 least
    let indent :=
      match p.1.indent with
      | some d => least + d - 1
      | none => max least (deepestIndent p.2 0 0)
    let (breaks, first) := emptyLines indent (p.2.length + 1) p.2 0
    let (text, rest) :=
      if first.column != indent || first.rest.isEmpty then
        (if p.1.chomping = some true then List.replicate breaks '\n' else [], first.line)
      else blockLines fold indent p.1.chomping (p.2.length + 1) first breaks []
    (.scalar none false (String.ofList text), '\n' :: rest)

end WebForm.Yaml
