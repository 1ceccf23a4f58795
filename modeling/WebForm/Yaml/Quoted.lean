/-
Quoted scalars of a YAML document, in single quotes, where only the quote itself is
doubled, and in double quotes, with escapes.
-/
import WebForm.Json
import WebForm.Yaml.Cursor
import WebForm.Yaml.Node

namespace WebForm.Yaml

/-- The ends of lines and the blanks that follow, with the number of ends.  A line must not open
with a marker. -/
def quotedBreaks : List Char → Nat → Option (Nat × List Char)
  | [], breaks => some (breaks, [])
  | c :: cs, breaks =>
    if c = '\n' then if isMarker ⟨cs, 0⟩ then none else quotedBreaks cs (breaks + 1)
    else if c = ' ' || c = '\t' then quotedBreaks cs breaks
    else some (breaks, c :: cs)

/-- The characters that letters behind a backslash stand for. -/
def escapes : List (Char × Char) :=
  [('0', '\x00'), ('a', '\x07'), ('b', '\x08'), ('t', '\t'), ('\t', '\t'), ('n', '\n'),
    ('v', '\x0b'), ('f', '\x0c'), ('r', '\r'), ('e', '\x1b'), (' ', ' '), ('\x22', '\x22'),
    ('\\', '\\'), ('/', '/'), ('N', '\x85'), ('_', '\xa0'), ('L', '\u2028'), ('P', '\u2029')]

/-- The number of hexadecimal digits behind a letter. -/
def hexWidth? : Char → Option Nat
  | 'x' => some 2
  | 'u' => some 4
  | 'U' => some 8
  | _ => none

/-- The character with a code written in hexadecimal digits. -/
def hexChar? (cs : List Char) : Option Char :=
  (cs.mapM Json.hexDigit?).map fun ds => Char.ofNat (ds.foldl (fun v d => 16 * v + d) 0)

/-- The blanks before an end of a line are dropped, other blanks stay. -/
def quotedBlanks (cs : List Char) : Option (List Char × List Char) :=
  let blanks := cs.takeWhile fun c => c = ' ' || c = '\t'
  let rest := cs.dropWhile fun c => c = ' ' || c = '\t'
  match rest with
  | '\n' :: _ => (quotedBreaks rest 0).map fun p => (folded p.1, p.2)
  | _ => some (blanks, rest)

/-- Reads a scalar in single quotes up to the closing one. -/
def singleQuoted : Nat → List Char → List Char → Option (String × List Char)
  | 0, _, _ => none
  | fuel + 1, cs, done =>
    match cs with
    | [] => none
    | '\x27' :: '\x27' :: rest => singleQuoted fuel rest (done ++ ['\x27'])
    | '\x27' :: rest => some (String.ofList done, rest)
    | c :: rest =>
      if c = ' ' || c = '\t' || c = '\n' then
        match quotedBlanks (c :: rest) with
        | some (blanks, after) => singleQuoted fuel after (done ++ blanks)
        | none => none
      else singleQuoted fuel rest (done ++ [c])

/-- Reads a scalar in double quotes up to the closing one. -/
def doubleQuoted : Nat → List Char → List Char → Option (String × List Char)
  | 0, _, _ => none
  | fuel + 1, cs, done =>
    match cs with
    | [] => none
    | '\x22' :: rest => some (String.ofList done, rest)
    | '\\' :: '\n' :: rest =>
      match if isMarker ⟨rest, 0⟩ then none else quotedBreaks rest 0 with
      | some (breaks, after) => doubleQuoted fuel after (done ++ List.replicate breaks '\n')
      | none => none
    | '\\' :: c :: rest =>
      match hexWidth? c with
      | some n =>
        if rest.length < n then none
        else
          match hexChar? (rest.take n) with
          | some e => doubleQuoted fuel (rest.drop n) (done ++ [e])
          | none => none
      | none =>
        match escapes.lookup c with
        | some e => doubleQuoted fuel rest (done ++ [e])
        | none => none
    | c :: rest =>
      if c = ' ' || c = '\t' || c = '\n' then
        match quotedBlanks (c :: rest) with
        | some (blanks, after) => doubleQuoted fuel after (done ++ blanks)
        | none => none
      else doubleQuoted fuel rest (done ++ [c])

/-- Reads a quoted scalar. -/
def quoted? (cs : List Char) : Option (Node × List Char) :=
  match cs with
  | '\x22' :: rest => (doubleQuoted (rest.length + 1) rest []).map fun p => (.scalar none false p.1, p.2)
  | '\x27' :: rest => (singleQuoted (rest.length + 1) rest []).map fun p => (.scalar none false p.1, p.2)
  | _ => none

end WebForm.Yaml
