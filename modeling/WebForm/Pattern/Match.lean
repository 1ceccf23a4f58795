/-
Matching of patterns.

`Node.ends` computes all places where a match that begins at one of the given
places may end.  A repetition without bound is closed in as many rounds as the
text has places, since each round but the last adds one.
-/
import WebForm.Pattern.Syntax
import WebForm.Text.Case

namespace WebForm.Pattern

open WebForm.Text

/-- A mapping of case that gives one letter for one. -/
def single (change : Char → List Char) (c : Char) : Char :=
  match change c with
  | [d] => d
  | _ => c

/-- Spellings of a letter that count as the same when case is ignored. -/
def caseVariants (c : Char) : List Char :=
  let small := single lowerChar c
  let capital := single upperChar c
  [c, small, capital, single upperChar small, single lowerChar capital]

/-- The characters that a set node accepts.  When case is ignored, a set without some letters is
without their other spellings too. -/
def acceptsChar (d : Dialect) (set : CharSet) (ignoreCase : Bool) (c : Char) : Bool :=
  if ignoreCase then
    (caseVariants c).any (CharSet.has d { set with negated := false }) != set.negated
  else set.has d c

/-- There is a word character at the place. -/
def wordAt (d : Dialect) (text : Array Char) (i : Nat) : Bool :=
  match text[i]? with
  | some c => isWordChar d c
  | none => false

/-- The condition holds at the place. -/
def Place.holds (d : Dialect) (text : Array Char) (p : Place) (i : Nat) : Bool :=
  match p with
  | .textStart => i = 0
  | .textEnd => i = text.size
  | .lineStart => i = 0 || text[i - 1]? = some '\n'
  | .lineEnd => i = text.size || text[i]? = some '\n'
  | .lastLineEnd => i = text.size || (i + 1 = text.size && text[i]? = some '\n')
  | .wordEdge negated =>
    (d = .searching || text.size != 0) &&
    ((0 < i && wordAt d text (i - 1)) != wordAt d text i) != negated

/-- Adds places that are not there yet. -/
def merge (seen more : List Nat) : List Nat :=
  more.foldl (fun acc i => if acc.contains i then acc else i :: acc) seen

/-- The places reached by at most `rounds` steps. -/
def closure (step : List Nat → List Nat) : Nat → List Nat → List Nat
  | 0, seen => seen
  | rounds + 1, seen =>
    let next := merge seen (step seen)
    if next.length = seen.length then seen else closure step rounds next

/-- The places reached by exactly `n` steps. -/
def iterate (step : List Nat → List Nat) : Nat → List Nat → List Nat
  | 0, seen => seen
  | n + 1, seen => if seen.isEmpty then [] else iterate step n (step seen)

/-- All places where a match that begins at one of `starts` may end. -/
def Node.ends (d : Dialect) (text : Array Char) : Node → List Nat → List Nat
  | .never, _ => []
  | .empty, starts => starts
  | .chars set ignoreCase, starts =>
    (starts.filter fun i =>
      match text[i]? with
      | some c => acceptsChar d set ignoreCase c
      | none => false).map (· + 1)
  | .place p, starts => starts.filter (p.holds d text)
  | .seq a b, starts => b.ends d text (a.ends d text starts)
  | .either a b, starts => merge (a.ends d text starts) (b.ends d text starts)
  | .repeated body least extra, starts =>
    let step := fun places => body.ends d text places
    let begun := iterate step least starts
    match extra with
    | none => closure step (text.size + 1) begun
    | some n => closure step (min n (text.size + 1)) begun
  | .ahead body negated, starts =>
    starts.filter fun i => (body.ends d text [i]).isEmpty = negated
  | .behind body negated, starts =>
    starts.filter fun i =>
      ((List.range (i + 1)).any fun j => (body.ends d text [j]).contains i) != negated

end WebForm.Pattern

namespace WebForm.Pattern

/-- The text matches the pattern. -/
def accepts (p : Pattern) (s : String) : Bool :=
  let text := s.toList.toArray
  let starts :=
    match p.dialect with
    | .searching => List.range (text.size + 1)
    | .anchored => [0]
  !(p.node.ends p.dialect text starts).isEmpty

end WebForm.Pattern
