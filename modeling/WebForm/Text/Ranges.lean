/-
Sets of characters as lists of code point ranges.

The tables of this library (digits, letters, blanks, characters that can be
shown) are lists of closed ranges; this file holds the one test on them.
-/

namespace WebForm.Text

/-- A set of code points as closed ranges. -/
abbrev Ranges := List (Nat × Nat)

/-- The code point of `c` lies in one of the ranges. -/
def Ranges.has (table : Ranges) (c : Char) : Bool :=
  table.any fun r => r.1 ≤ c.toNat && c.toNat ≤ r.2

end WebForm.Text
