/-
Names in camel case.

The words of a name are parted by underscores.  A name that already is in camel
case stays as it is.
-/
import WebForm.Text.Case

namespace WebForm.Text

/-- Runs of letters whose form at the start of a word is another letter than the capital: letters
that join two, Georgian letters, and Greek letters with an iota. -/
def titleRuns : List CaseRun :=
  [(0x1c4, 0x1ca, 3, 1), (0x1c5, 0x1cb, 3, 0), (0x1c6, 0x1cc, 3, -1), (0x1f1, 0x1f1, 1, 1),
   (0x1f2, 0x1f2, 1, 0), (0x1f3, 0x1f3, 1, -1), (0x10d0, 0x10fa, 1, 0), (0x10fd, 0x10ff, 1, 0),
   (0x1f80, 0x1f87, 1, 8), (0x1f88, 0x1f8f, 1, 0), (0x1f90, 0x1f97, 1, 8), (0x1f98, 0x1f9f, 1, 0),
   (0x1fa0, 0x1fa7, 1, 8), (0x1fa8, 0x1faf, 1, 0), (0x1fb3, 0x1fc3, 16, 9), (0x1ff3, 0x1ff3, 1, 9),
   (0x1fbc, 0x1fcc, 16, 0), (0x1ffc, 0x1ffc, 1, 0)]

/-- A capital behind the first of those that a letter stands for; an iota stays below it. -/
def behindTitle (c : Char) : List Char :=
  if c.toNat = 0x399 then [Char.ofNat 0x345] else lowerChar c

/-- A letter as the first of a word. -/
def titleChar (c : Char) : List Char :=
  match titleRuns.find? (·.holds c.toNat) with
  | some r => [r.shift c.toNat]
  | none =>
    match upperChar c with
    | [] => []
    | u :: rest => if c.toNat = 0x149 then u :: rest else u :: rest.flatMap behindTitle

/-- A letter with case stands right before. -/
def inWord (before : List Char) : Bool := before.head?.any casedRanges.has

/-- Every word with a capital and then small letters; `before` is what stands before, nearest
first. -/
def titleFrom (before : List Char) : List Char → List Char
  | [] => []
  | c :: cs =>
    (if inWord before then lowerAt before c cs else titleChar c) ++ titleFrom (c :: before) cs

/-- An ASCII letter or digit. -/
def isAsciiAlnum (c : Char) : Bool := c.isAlphanum

/-- Drops each underscore between a letter or digit and a capital or digit. -/
def joinWords : List Char → List Char
  | a :: '_' :: b :: rest =>
    if isAsciiAlnum a && (b.isUpper || b.isDigit) then a :: joinWords (b :: rest)
    else a :: joinWords ('_' :: b :: rest)
  | c :: rest => c :: joinWords rest
  | [] => []

/-- A digit stands before a small letter. -/
def digitBeforeSmall : List Char → Bool
  | a :: b :: rest => (a.isDigit && b.isLower) || digitBeforeSmall (b :: rest)
  | _ => false

/-- The name is in camel case. -/
def isCamel (cs : List Char) : Bool :=
  match cs with
  | [] => false
  | c :: rest => c.isLower && rest.all isAsciiAlnum && !digitBeforeSmall cs

/-- Makes the first capital small if only underscores stand before it. -/
def lowerFirst : List Char → List Char
  | '_' :: rest => '_' :: lowerFirst rest
  | c :: rest => if c.isUpper then c.toLower :: rest else c :: rest
  | [] => []

/-- The name in camel case. -/
def camel (name : String) : String :=
  let cs := name.toList
  if isCamel cs then name else String.ofList (lowerFirst (joinWords (titleFrom [] cs)))

end WebForm.Text
