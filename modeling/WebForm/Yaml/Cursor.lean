/-
Places in a YAML document, and the blanks and comments between its tokens.

A cursor knows the column of the next character as long as it stands at the first
token of a line or behind the dashes that open it; that is all that the layout
rules ask for.
-/
namespace WebForm.Yaml

/-- A place in the document. -/
structure Cursor where
  rest : List Char
  column : Nat

/-- The line at whose first token the cursor stands, with its indentation, and all later lines. -/
def Cursor.line (c : Cursor) : List Char := List.replicate c.column ' ' ++ c.rest

/-- The end of the document, a blank or a line feed comes next. -/
def atBlank (cs : List Char) : Bool :=
  match cs with
  | [] => true
  | c :: _ => c = ' ' || c = '\t' || c = '\n'

/-- Goes to the next token, over blanks and comments; also tells whether a line ended. -/
def toToken (inComment crossed : Bool) : List Char → Nat → Cursor × Bool
  | [], column => (⟨[], column⟩, crossed)
  | c :: cs, column =>
    if c = '\n' then toToken false true cs 0
    else if inComment then toToken true crossed cs (column + 1)
    else if c = ' ' then toToken false crossed cs (column + 1)
    else if c = '#' then toToken true crossed cs (column + 1)
    else (⟨c :: cs, column⟩, crossed)

/-- The next token, wherever it stands. -/
def skip (cs : List Char) : List Char := (toToken false false cs 0).1.rest

/-- Three dashes or dots at the start of a line, which part documents. -/
def isMarker (c : Cursor) : Bool :=
  c.column = 0 &&
    match c.rest with
    | '-' :: '-' :: '-' :: rest => atBlank rest
    | '.' :: '.' :: '.' :: rest => atBlank rest
    | _ => false

/-- A character with a blank behind it comes next. -/
def isMark (mark : Char) (cs : List Char) : Bool :=
  match cs with
  | c :: rest => c = mark && atBlank rest
  | [] => false

/-- A dash that opens an item comes next. -/
def isDash (cs : List Char) : Bool := isMark '-' cs

/-- A character that can be written in a document. -/
def isWritable (c : Char) : Bool :=
  let n := c.toNat
  n = 0x9 || n = 0xa || n = 0xd || (0x20 ≤ n && n ≤ 0x7e) || n = 0x85 || (0xa0 ≤ n && n ≤ 0xfffd)
    || 0x10000 ≤ n

/-- The document with a line feed at every end of a line. -/
def lineFeeds : List Char → List Char
  | '\r' :: '\n' :: rest => '\n' :: lineFeeds rest
  | c :: rest =>
    (if c = '\r' || c = '\x85' || c = '\u2028' || c = '\u2029' then '\n' else c) :: lineFeeds rest
  | [] => []

/-- Ends of lines inside a scalar: one becomes a space, of more all but the first stay. -/
def folded (breaks : Nat) : List Char :=
  if breaks ≤ 1 then [' '] else List.replicate (breaks - 1) '\n'

end WebForm.Yaml
