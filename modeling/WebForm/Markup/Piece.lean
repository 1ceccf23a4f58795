/-
Markup as pieces: text that the form writes, and holes that hold supplied values.
-/

namespace WebForm

/-- A piece of markup. -/
inductive Piece where
  /-- Text that the form writes itself. -/
  | fixed (s : String)
  /-- A supplied value, escaped. -/
  | hole (s : String)
deriving DecidableEq

namespace Piece

/-- The text of a piece. -/
def text : Piece → String
  | .fixed s => s
  | .hole s => s

/-- The piece with an empty hole. -/
def shape : Piece → Piece
  | .fixed s => .fixed s
  | .hole _ => .hole ""

/-- The text of all pieces. -/
def write (pieces : List Piece) : String := String.join (pieces.map text)

@[simp] theorem write_nil : write [] = "" := rfl

@[simp] theorem write_cons (p : Piece) (ps : List Piece) : write (p :: ps) = p.text ++ write ps := by
  simp [write]

@[simp] theorem write_append (ps qs : List Piece) : write (ps ++ qs) = write ps ++ write qs := by
  simp [write]

end Piece

end WebForm
