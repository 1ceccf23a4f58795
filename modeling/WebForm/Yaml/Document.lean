/-
Reading a YAML document: properties and references, flow collections, block
collections, and directives and markers around the document.

Documents after the first are not read.
-/
import WebForm.Yaml.BlockScalar
import WebForm.Yaml.Plain
import WebForm.Yaml.Quoted

namespace WebForm.Yaml

/-! ## Properties and references -/

/-- A letter, a digit, a dash or an underscore, of which names consist. -/
def isNameChar (c : Char) : Bool := c.isAlphanum || c = '-' || c = '_'

/-- A name and what follows it, which must be a blank or a mark. -/
def name? (cs : List Char) : Option (String × List Char) :=
  let name := cs.takeWhile isNameChar
  let rest := cs.dropWhile isNameChar
  let ends := atBlank rest || (rest.head?.map "?:,]\x7d%@\x60".toList.contains).getD false
  if name.isEmpty || !ends then none else some (String.ofList name, rest)

/-- A character of a tag. -/
def isTagChar (c : Char) : Bool := c.isAlphanum || "-;/?:@&=+$,_.!~*\x27()[]%<>".toList.contains c

/-- Properties or a reference come next. -/
def opensProperties (cs : List Char) : Bool :=
  match cs with
  | c :: _ => c = '&' || c = '!' || c = '*'
  | [] => false

/-- Reads a reference behind its mark. -/
def reference? (cs : List Char) : Option (Node × List Char) :=
  (name? cs).map fun p => (.reference p.1, p.2)

/-- Reads an anchor and a tag in either order. -/
def properties? : Nat → Properties → List Char → Option (Properties × List Char)
  | 0, p, cs => some (p, cs)
  | fuel + 1, p, cs =>
    match cs.dropWhile (· = ' ') with
    | '&' :: rest =>
      match p.anchor, name? rest with
      | none, some (name, rest) => properties? fuel { p with anchor := some name } rest
      | _, _ => none
    | '!' :: rest =>
      let tag := rest.takeWhile fun c => !(c = ' ' || c = '\t' || c = '\n')
      if p.tag.isSome || !tag.all isTagChar then none
      else
        properties? fuel { p with tag := some (Tag.ofText (String.ofList tag)) }
          (rest.drop tag.length)
    | _ => some (p, cs)

/-! ## Flow collections -/

/-- The first characters stand in one line and are few enough to be a key. -/
def isNear (cs : List Char) (count : Nat) : Bool :=
  count ≤ 1025 && !(cs.take count).contains '\n'

/-- A mark that ends a part of a flow collection comes next. -/
def endsPart (cs : List Char) : Bool := (cs.head?.map ",:]\x7d".toList.contains).getD false

mutual

/-- Reads a node inside a flow collection, or such a collection. -/
def flowNode : Nat → List Char → Option (Node × List Char)
  | 0, _ => none
  | fuel + 1, cs =>
    match cs with
    | '[' :: rest => flowItems fuel (skip rest) []
    | '\x7b' :: rest => flowEntries fuel (skip rest) []
    | '\x22' :: _ | '\x27' :: _ => quoted? cs
    | '*' :: rest => reference? rest
    | cs =>
      if opensProperties cs then do
        let (p, rest) ← properties? 3 {} cs
        let next := skip rest
        if opensProperties next then none
        else
          let (n, rest) ← flowPart fuel next
          some (n.under p, rest)
      else if startsPlain true cs then some (plain true 0 cs)
      else none

/-- Reads the items of a flow sequence; an item with a value is a mapping of one entry. -/
def flowItems : Nat → List Char → List Node → Option (Node × List Char)
  | 0, _, _ => none
  | fuel + 1, cs, done =>
    match cs with
    | ']' :: rest => some (.sequence none done.reverse, rest)
    | cs => do
      let (item, rest) ← flowPair fuel cs
      let n : Node :=
        match item with
        | (key, some n) => .mapping none [(key, n)]
        | (n, none) => n
      match skip rest with
      | ',' :: more => flowItems fuel (skip more) (n :: done)
      | ']' :: after => some (.sequence none (n :: done).reverse, after)
      | _ => none

/-- Reads the entries of a flow mapping. -/
def flowEntries : Nat → List Char → List (Node × Node) → Option (Node × List Char)
  | 0, _, _ => none
  | fuel + 1, cs, done =>
    match cs with
    | '\x7d' :: rest => some (.mapping none done.reverse, rest)
    | cs => do
      let ((key, n), rest) ← flowPair fuel cs
      let done := (key, n.getD .blank) :: done
      match skip rest with
      | ',' :: more => flowEntries fuel (skip more) done
      | '\x7d' :: after => some (.mapping none done.reverse, after)
      | _ => none

/-- Reads a node and the value behind a colon, if there is one; behind a question mark the node
is a key in any case, and otherwise the colon has to stand near in the same line. -/
def flowPair : Nat → List Char → Option ((Node × Option Node) × List Char)
  | 0, _ => none
  | fuel + 1, cs => do
    let marked := cs.head? = some '?'
    let (key, rest) ← if marked then flowPart fuel (skip (cs.drop 1)) else flowNode fuel cs
    match skip rest with
    | ':' :: more =>
      if !marked && !isNear cs (cs.length - more.length) then none
      else
        let (n, rest) ← flowPart fuel (skip more)
        some ((key, some n), rest)
    | _ => some ((key, if marked then some .blank else none), rest)

/-- Reads a node that need not be there. -/
def flowPart : Nat → List Char → Option (Node × List Char)
  | 0, _ => none
  | fuel + 1, cs => if endsPart cs then some (.blank, cs) else flowNode fuel cs

end

/-! ## Block collections -/

/-- A node that stands within one line. -/
def nodeInLine? (line : List Char) : Option (Node × List Char) :=
  match line with
  | '[' :: _ | '\x7b' :: _ => flowNode (3 * line.length + 3) line
  | '\x22' :: _ | '\x27' :: _ => quoted? line
  | '*' :: rest => reference? rest
  | line => if startsPlain false line then some (plain false 0 line) else none

/-- A key at the start of a line: a node within the line, and a colon with a blank behind it. -/
def keyAt? (cs : List Char) : Option (Node × List Char) :=
  let line := cs.takeWhile (· != '\n')
  let later := cs.dropWhile (· != '\n')
  let node : Option (Node × List Char) :=
    match line with
    | '&' :: _ | '!' :: _ => do
      let (p, rest) ← properties? 3 {} line
      let rest := rest.dropWhile (· = ' ')
      if opensProperties rest then none
      else if rest.head? = some ':' then some (Node.blank.under p, rest)
      else
        let (n, rest) ← nodeInLine? rest
        some (n.under p, rest)
    | line => nodeInLine? line
  match node with
  | some (key, rest) =>
    match rest.dropWhile (· = ' ') with
    | ':' :: more =>
      if atBlank more && isNear line (line.length - more.length) then some (key, more ++ later)
      else none
    | _ => none
  | none => none

mutual

/-- Reads the node at a cursor.  Its later lines are indented by `least` at least, but for dashes
in the column before if `dashes` is set; `opens` says whether a block collection can open here. -/
def blockNode : Nat → Nat → Bool → Bool → Cursor → Option (Node × List Char)
  | 0, _, _, _, _ => none
  | fuel + 1, least, dashes, opens, c =>
    if isDash c.rest then if opens then blockItems fuel c [] else none
    else if isMark '?' c.rest || (keyAt? c.rest).isSome then
      if opens then blockEntries fuel c [] else none
    else
      match c.rest with
      | '&' :: _ | '!' :: _ => do
        let (p, rest) ← properties? 3 {} c.rest
        let (next, _) := toToken false false rest 0
        if opensProperties next.rest && (keyAt? next.rest).isNone then none
        else
          let (n, rest) ← nodeBehind fuel least dashes false ⟨rest, 0⟩
          some (n.under p, rest)
      | '|' :: rest => blockScalar? false least rest
      | '>' :: rest => blockScalar? true least rest
      | '[' :: _ | '\x7b' :: _ => flowNode (3 * c.rest.length + 3) c.rest
      | '\x22' :: _ | '\x27' :: _ => quoted? c.rest
      | '*' :: rest => reference? rest
      | cs => if startsPlain false cs then some (plain false least cs) else none

/-- Reads the node behind a mark or behind properties, where nothing has to follow. -/
def nodeBehind : Nat → Nat → Bool → Bool → Cursor → Option (Node × List Char)
  | 0, _, _, _, _ => none
  | fuel + 1, least, dashes, opens, behind =>
    let (next, crossed) := toToken false false behind.rest behind.column
    if next.rest.isEmpty || (crossed && isMarker next) then some (.blank, behind.rest)
    else if !crossed then blockNode fuel least dashes opens next
    else if least ≤ next.column then blockNode fuel least dashes true next
    else if dashes && next.column + 1 = least && isDash next.rest then blockItems fuel next []
    else some (.blank, behind.rest)

/-- Reads the items of a block sequence, whose dashes stand in one column. -/
def blockItems : Nat → Cursor → List Node → Option (Node × List Char)
  | 0, _, _ => none
  | fuel + 1, c, done => do
    let (n, rest) ← nodeBehind fuel (c.column + 1) false true ⟨c.rest.drop 1, c.column + 1⟩
    let (next, crossed) := toToken false false rest 0
    let all : Node := .sequence none (n :: done).reverse
    if next.rest.isEmpty then some (all, [])
    else if !crossed then none
    else if !isMarker next && next.column = c.column && isDash next.rest then
      blockItems fuel next (n :: done)
    else some (all, rest)

/-- Reads the entries of a block mapping, whose keys stand in one column. -/
def blockEntries : Nat → Cursor → List (Node × Node) → Option (Node × List Char)
  | 0, _, _ => none
  | fuel + 1, c, done => do
    let ((key, n), rest) ← if isMark '?' c.rest then markedEntry fuel c else plainEntry fuel c
    let done := (key, n) :: done
    let all : Node := .mapping none done.reverse
    let (next, crossed) := toToken false false rest 0
    if next.rest.isEmpty then some (all, [])
    else if !crossed then none
    else if isMarker next || next.column < c.column then some (all, rest)
    else if next.column = c.column then blockEntries fuel next done
    else none

/-- Reads an entry whose key stands before a colon in one line. -/
def plainEntry : Nat → Cursor → Option ((Node × Node) × List Char)
  | 0, _ => none
  | fuel + 1, c => do
    let (key, behind) ← keyAt? c.rest
    let (n, rest) ← nodeBehind fuel (c.column + 1) true false ⟨behind, 0⟩
    some ((key, n), rest)

/-- Reads an entry whose key stands behind a question mark, and whose value stands behind a colon
in the same column, if there is one. -/
def markedEntry : Nat → Cursor → Option ((Node × Node) × List Char)
  | 0, _ => none
  | fuel + 1, c => do
    let (key, rest) ← nodeBehind fuel (c.column + 1) true true ⟨c.rest.drop 1, c.column + 1⟩
    let (next, crossed) := toToken false false rest 0
    if crossed && next.column = c.column && isMark ':' next.rest then
      let (n, rest) ←
        nodeBehind fuel (c.column + 1) true true ⟨next.rest.drop 1, c.column + 1⟩
      some ((key, n), rest)
    else some ((key, .blank), rest)

end

/-! ## Documents -/

/-- A line that holds nothing more but a comment. -/
def isSpent (line : List Char) : Bool :=
  match line.dropWhile (· = ' ') with
  | [] => true
  | c :: _ => c = '#'

/-- A version of the format that can be read, with nothing behind it: its first part is 1. -/
def isVersion (line : List Char) : Bool :=
  let cs := line.dropWhile (· = ' ')
  let rest := (cs.dropWhile Char.isDigit).drop 1
  let minor := rest.takeWhile Char.isDigit
  let behind := rest.dropWhile Char.isDigit
  Number.digitsValue (cs.takeWhile Char.isDigit) = 1
    && (cs.dropWhile Char.isDigit).head? = some '.' && !minor.isEmpty
    && (behind.isEmpty || behind.head? = some ' ') && isSpent behind

/-- A directive behind its percent sign: a name, and what that name asks for. -/
def isDirective (line : List Char) : Bool :=
  let name := line.takeWhile isNameChar
  let rest := line.dropWhile isNameChar
  !name.isEmpty && (rest.isEmpty || rest.head? = some ' ')
    && (name != "YAML".toList || isVersion rest)

/-- The document behind its directives, each a line that a percent sign starts; the flag says
whether there were any. -/
def afterDirectives : Nat → Bool → List Char → Option (Cursor × Bool)
  | 0, seen, cs => some (⟨cs, 0⟩, seen)
  | fuel + 1, seen, cs =>
    let (next, _) := toToken false true cs 0
    if next.column = 0 && next.rest.head? = some '%' then
      if isDirective ((next.rest.drop 1).takeWhile (· != '\n')) then
        afterDirectives fuel true (next.rest.dropWhile (· != '\n'))
      else none
    else some (next, seen)

/-- Three dashes, which open a document. -/
def isOpening (c : Cursor) : Bool := isMarker c && c.rest.head? = some '-'

/-- Nothing but end markers follows. -/
def endsHere : Nat → List Char → Bool
  | 0, _ => false
  | fuel + 1, rest =>
    let (next, crossed) := toToken false false rest 0
    next.rest.isEmpty
      || (crossed && isMarker next && !isOpening next && endsHere fuel (next.rest.drop 3))

/-- The node of a document. -/
def node? (cs : List Char) : Option Node := do
  let (start, directed) ← afterDirectives cs.length false cs
  let opened := isOpening start
  let (first, fresh) :=
    if opened then toToken false false (start.rest.drop 3) 3 else (start, true)
  if (directed || isMarker first) && !opened then none
  else
    let read :=
      if first.rest.isEmpty || isMarker first then some (Node.blank, '\n' :: first.rest)
      else blockNode (4 * cs.length + 4) 0 false fresh first
    match read with
    | some (n, rest) => if endsHere (cs.length + 1) rest then some n else none
    | none => none

/-- The value of a document. -/
def read (s : String) : Except Fault Value :=
  let cs := lineFeeds (s.toList.dropWhile (· = '\ufeff'))
  match if cs.all isWritable then node? cs else none with
  | some n => (n.value []).map (·.1)
  | none => .error .unreadable

end WebForm.Yaml
