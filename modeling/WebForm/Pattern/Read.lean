/-
Reading of patterns.

The reader walks over the source once and keeps a stack of open groups.  Every
step takes at least one character, so the length of the source bounds the walk.
A source that is no pattern is read as one that matches nothing.
-/
import WebForm.Pattern.Syntax

namespace WebForm.Pattern

/-- Switches that a pattern may set for its later parts. -/
structure Flags where
  ignoreCase : Bool
  dotAll : Bool
  multiLine : Bool

/-- The switches at the start of a pattern. -/
def Flags.initial : Flags := ⟨false, false, false⟩

/-- What an escape stands for. -/
inductive Escape where
  | char (c : Char)
  | kind (k : CharKind) (negated : Bool)
  | place (p : Place)

/-- The value of a hexadecimal digit. -/
def hexValue? (c : Char) : Option Nat :=
  if c.isDigit then some (c.toNat - 0x30)
  else if 'a' ≤ c ∧ c ≤ 'f' then some (c.toNat - 0x61 + 10)
  else if 'A' ≤ c ∧ c ≤ 'F' then some (c.toNat - 0x41 + 10)
  else none

/-- The character with the code point that hexadecimal digits write. -/
def hexChar? (ds : List Char) : Option Char :=
  if ds.isEmpty then none
  else (ds.mapM hexValue?).map fun vs => Char.ofNat (vs.foldl (fun v d => 16 * v + d) 0)

/-- Reads the hexadecimal digits of an escape: between braces, or `width` of them. -/
def readHex (width : Nat) (cs : List Char) : Option (Escape × List Char) :=
  match cs with
  | '\x7b' :: rest =>
    let ds := rest.takeWhile (· != '\x7d')
    match rest.dropWhile (· != '\x7d') with
    | _ :: after => (hexChar? ds).map fun c => (.char c, after)
    | [] => none
  | _ =>
    let ds := cs.take width
    if ds.length = width then (hexChar? ds).map fun c => (.char c, cs.drop width) else none

/-- The named set of a property name. -/
def propertyKind? (name : List Char) : Option CharKind :=
  if name = ['L'] || name = "Letter".toList || name = "Alphabetic".toList then some .letter
  else if name = ['M'] || name = "Mark".toList then some .mark
  else if name = ['N'] || name = "Number".toList then some .numeral
  else if name = "Nd".toList then some .digit
  else none

/-- Reads the name of a property: one letter, or a word between braces. -/
def readProperty (negated : Bool) (cs : List Char) : Option (Escape × List Char) :=
  match cs with
  | '\x7b' :: rest =>
    let name := rest.takeWhile (· != '\x7d')
    match rest.dropWhile (· != '\x7d') with
    | _ :: after => (propertyKind? name).map fun k => (.kind k negated, after)
    | [] => none
  | c :: rest => (propertyKind? [c]).map fun k => (.kind k negated, rest)
  | [] => none

/-- Reads what follows a backslash. -/
def readEscape (d : Dialect) : List Char → Option (Escape × List Char)
  | [] => none
  | c :: cs =>
    match c with
    | 'd' => some (.kind .digit false, cs)
    | 'D' => some (.kind .digit true, cs)
    | 'w' => some (.kind .word false, cs)
    | 'W' => some (.kind .word true, cs)
    | 's' => some (.kind .space false, cs)
    | 'S' => some (.kind .space true, cs)
    | 't' => some (.char '\t', cs)
    | 'n' => some (.char '\n', cs)
    | 'r' => some (.char '\r', cs)
    | 'f' => some (.char '\x0c', cs)
    | 'v' => some (.char '\x0b', cs)
    | 'a' => some (.char '\x07', cs)
    | '0' => if d = .anchored then some (.char '\x00', cs) else none
    | 'b' => some (.place (.wordEdge false), cs)
    | 'B' => some (.place (.wordEdge true), cs)
    | 'A' => some (.place .textStart, cs)
    | 'Z' => if d = .anchored then some (.place .textEnd, cs) else none
    | 'z' => if d = .searching then some (.place .textEnd, cs) else none
    | 'x' => readHex 2 cs
    | 'u' => readHex 4 cs
    | 'U' => readHex 8 cs
    | 'p' => if d = .searching then readProperty false cs else none
    | 'P' => if d = .searching then readProperty true cs else none
    | c => if c.isAlphanum then none else some (.char c, cs)

/-- The ASCII ranges of a named class such as `alpha`. -/
def asciiClass? (name : List Char) : Option (List ClassItem) :=
  let lower := ClassItem.range 'a' 'z'
  let upper := ClassItem.range 'A' 'Z'
  let digit := ClassItem.range '0' '9'
  if name = "alpha".toList then some [lower, upper]
  else if name = "digit".toList then some [digit]
  else if name = "alnum".toList then some [lower, upper, digit]
  else if name = "lower".toList then some [lower]
  else if name = "upper".toList then some [upper]
  else if name = "word".toList then some [lower, upper, digit, .range '_' '_']
  else if name = "space".toList then some [.range '\t' '\r', .range ' ' ' ']
  else if name = "blank".toList then some [.range '\t' '\t', .range ' ' ' ']
  else if name = "xdigit".toList then some [digit, .range 'a' 'f', .range 'A' 'F']
  else if name = "punct".toList then
    some [.range '!' '/', .range ':' '@', .range '[' '\x60', .range '\x7b' '\x7e']
  else none

/-- Reads one character or one named set inside brackets. -/
def readClassAtom (d : Dialect) : List Char → Option (Escape × List Char)
  | [] => none
  | '\\' :: 'b' :: cs => some (.char '\x08', cs)
  | '\\' :: cs => readEscape d cs
  | c :: cs => some (.char c, cs)

/-- Reads the items of a set up to the closing bracket. -/
def readClassItems (d : Dialect) : Nat → List Char → List ClassItem → Bool →
    Option (List ClassItem × List Char)
  | 0, _, _, _ => none
  | fuel + 1, cs, items, isFirst =>
    match cs with
    | [] => none
    | ']' :: rest =>
      if isFirst then readClassItems d fuel rest (.range ']' ']' :: items) false
      else some (items, rest)
    | '[' :: ':' :: rest =>
      let name := rest.takeWhile (· != ':')
      match d, asciiClass? name, rest.dropWhile (· != ':') with
      | .searching, some more, ':' :: ']' :: after =>
        readClassItems d fuel after (more ++ items) false
      | _, _, _ => readClassItems d fuel (':' :: rest) (.range '[' '[' :: items) false
    | _ =>
      match readClassAtom d cs with
      | some (.kind k negated, rest) =>
        readClassItems d fuel rest (.kind k negated :: items) false
      | some (.char first, '-' :: rest) =>
        match rest with
        | ']' :: _ => readClassItems d fuel ('-' :: rest) (.range first first :: items) false
        | _ =>
          match readClassAtom d rest with
          | some (.char last, after) =>
            if first ≤ last then readClassItems d fuel after (.range first last :: items) false
            else none
          | _ => none
      | some (.char c, rest) => readClassItems d fuel rest (.range c c :: items) false
      | _ => none

/-- Reads a set of characters after its opening bracket. -/
def readClass (d : Dialect) (cs : List Char) : Option (CharSet × List Char) :=
  let (negated, rest) :=
    match cs with
    | '^' :: rest => (true, rest)
    | _ => (false, cs)
  (readClassItems d (rest.length + 1) rest [] true).map fun (items, after) =>
    (⟨negated, items⟩, after)

/-- Reads the bounds of a repetition between braces. -/
def readBounds (cs : List Char) : Option ((Nat × Option Nat) × List Char) :=
  let number (ds : List Char) : Nat := ds.foldl (fun v c => 10 * v + (c.toNat - 0x30)) 0
  let least := cs.takeWhile Char.isDigit
  match cs.dropWhile Char.isDigit with
  | '\x7d' :: rest => if least.isEmpty then none else some ((number least, some 0), rest)
  | ',' :: rest =>
    let most := rest.takeWhile Char.isDigit
    match rest.dropWhile Char.isDigit with
    | '\x7d' :: after =>
      if most.isEmpty then
        if least.isEmpty then none else some ((number least, none), after)
      else if number most < number least then none
      else some ((number least, some (number most - number least)), after)
    | _ => none
  | _ => none

/-- Reads the sign of a repetition. -/
def readRepetition : List Char → Option ((Nat × Option Nat) × List Char)
  | '*' :: cs => some ((0, none), cs)
  | '+' :: cs => some ((1, none), cs)
  | '?' :: cs => some ((0, some 1), cs)
  | '\x7b' :: cs => readBounds cs
  | _ => none

/-- Passes over the sign that makes a repetition reluctant or possessive, which does not
change what matches here. -/
def dropManner (d : Dialect) : List Char → List Char
  | '?' :: cs => cs
  | '+' :: cs => if d = .anchored then cs else '+' :: cs
  | cs => cs

/-- What a group is for. -/
inductive GroupUse where
  | plain
  | ahead (negated : Bool)
  | behind (negated : Bool)

/-- An open group: the alternatives before the current one, the items of the current one
with the last first, its use, and the switches to restore behind it. -/
structure Group where
  earlier : Option Node
  items : List Node
  use : GroupUse
  outer : Flags

/-- The items of the current alternative in sequence. -/
def Group.current (g : Group) : Node :=
  match g.items.reverse with
  | [] => .empty
  | n :: ns => ns.foldl .seq n

/-- Begins the next alternative. -/
def Group.next (g : Group) : Group :=
  let done :=
    match g.earlier with
    | none => g.current
    | some e => .either e g.current
  { g with earlier := some done, items := [] }

/-- The whole group. -/
def Group.close (g : Group) : Node :=
  let body :=
    match g.earlier with
    | none => g.current
    | some e => .either e g.current
  match g.use with
  | .plain => body
  | .ahead negated => .ahead body negated
  | .behind negated => .behind body negated

/-- Adds an item to the current alternative. -/
def Group.add (g : Group) (n : Node) : Group := { g with items := n :: g.items }

/-- Sets the switches that the letters name. -/
def Flags.setAll (flags : Flags) (letters : List Char) (on : Bool) : Option Flags :=
  letters.foldlM (fun f c =>
    match c with
    | 'i' => some { f with ignoreCase := on }
    | 's' => some { f with dotAll := on }
    | 'm' => some { f with multiLine := on }
    | 'u' => some f
    | 'U' => some f
    | _ => none) flags

/-- Reads switches such as `i` or `s-m`. -/
def readFlags (flags : Flags) (letters : List Char) : Option Flags :=
  let on := letters.takeWhile (· != '-')
  let off := (letters.dropWhile (· != '-')).drop 1
  (flags.setAll on true).bind fun f => f.setAll off false

/-- What the start of a group asks for: a group of a use with switches inside, or switches
for the rest of the present group. -/
inductive Opening where
  | group (use : GroupUse) (inner : Flags)
  | switch (flags : Flags)

/-- Reads the start of a group behind its parenthesis. -/
def readOpening (flags : Flags) (cs : List Char) : Option (Opening × List Char) :=
  match cs with
  | '?' :: ':' :: rest => some (.group .plain flags, rest)
  | '?' :: '=' :: rest => some (.group (.ahead false) flags, rest)
  | '?' :: '!' :: rest => some (.group (.ahead true) flags, rest)
  | '?' :: '<' :: '=' :: rest => some (.group (.behind false) flags, rest)
  | '?' :: '<' :: '!' :: rest => some (.group (.behind true) flags, rest)
  | '?' :: 'P' :: '<' :: rest => named rest
  | '?' :: '<' :: rest => named rest
  | '?' :: rest =>
    let letters := rest.takeWhile fun c => c != ')' && c != ':'
    match rest.dropWhile fun c => c != ')' && c != ':' with
    | ')' :: after => (readFlags flags letters).map fun f => (.switch f, after)
    | ':' :: after => (readFlags flags letters).map fun f => (.group .plain f, after)
    | _ => none
  | _ => some (.group .plain flags, cs)
where
  /-- A named group: the name is passed over. -/
  named (rest : List Char) : Option (Opening × List Char) :=
    match rest.dropWhile (· != '>') with
    | _ :: after => some (.group .plain flags, after)
    | [] => none

/-- The node of one character or named set. -/
def Escape.node (flags : Flags) : Escape → Node
  | .char c => .chars ⟨false, [.range c c]⟩ flags.ignoreCase
  | .kind k negated => .chars ⟨false, [.kind k negated]⟩ flags.ignoreCase
  | .place p => .place p

/-- The place that `$` stands for. -/
def dollarPlace (d : Dialect) (flags : Flags) : Place :=
  if flags.multiLine then .lineEnd
  else if d = .searching then .textEnd
  else .lastLineEnd

/-- The set of characters that a point stands for. -/
def dotSet (flags : Flags) : CharSet :=
  ⟨true, if flags.dotAll then [] else [.range '\n' '\n']⟩

/-- Repeats the last item of the group. -/
def Group.repeatLast (g : Group) (bounds : Nat × Option Nat) : Option Group :=
  match g.items with
  | [] => none
  | n :: ns => some { g with items := .repeated n bounds.1 bounds.2 :: ns }

/-- Reads a pattern inside the innermost group `g` of the open ones. -/
def readNode (d : Dialect) : Nat → List Char → Flags → Group → List Group → Option Node
  | 0, _, _, _, _ => none
  | fuel + 1, cs, flags, g, outer =>
    match readRepetition cs with
    | some (bounds, rest) =>
      (g.repeatLast bounds).bind fun g => readNode d fuel (dropManner d rest) flags g outer
    | none =>
      match cs with
      | [] => if outer.isEmpty then some g.close else none
      | '|' :: rest => readNode d fuel rest flags g.next outer
      | '(' :: rest =>
        match readOpening flags rest with
        | some (.group use inner, after) =>
          readNode d fuel after inner ⟨none, [], use, flags⟩ (g :: outer)
        | some (.switch f, after) => readNode d fuel after f g outer
        | none => none
      | ')' :: rest =>
        match outer with
        | parent :: more => readNode d fuel rest g.outer (parent.add g.close) more
        | [] => none
      | '[' :: rest =>
        match readClass d rest with
        | some (set, after) =>
          readNode d fuel after flags (g.add (.chars set flags.ignoreCase)) outer
        | none => none
      | '.' :: rest => readNode d fuel rest flags (g.add (.chars (dotSet flags) false)) outer
      | '^' :: rest =>
        let p := if flags.multiLine then Place.lineStart else Place.textStart
        readNode d fuel rest flags (g.add (.place p)) outer
      | '$' :: rest => readNode d fuel rest flags (g.add (.place (dollarPlace d flags))) outer
      | '\\' :: rest =>
        match readEscape d rest with
        | some (e, after) => readNode d fuel after flags (g.add (e.node flags)) outer
        | none => none
      | c :: rest => readNode d fuel rest flags (g.add ((Escape.char c).node flags)) outer

/-- Reads a source in a dialect. -/
def ofSource (d : Dialect) (source : String) : Pattern :=
  let cs := source.toList
  let start : Group := ⟨none, [], .plain, Flags.initial⟩
  ⟨source, d, (readNode d (cs.length + 1) cs Flags.initial start []).getD .never⟩

end WebForm.Pattern
