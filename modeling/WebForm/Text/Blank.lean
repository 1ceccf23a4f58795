/-
Blank characters, in the three senses that readers of text use.

ASCII blanks surround numerals.  White space is the Unicode property.  Spacing
adds the four ASCII separators U+001C to U+001F to it, and is what strips a
submitted word.
-/
import WebForm.Text.Ranges

namespace WebForm.Text

/-- Tab, line feed, vertical tab, form feed, carriage return and space. -/
def isAsciiBlank (c : Char) : Bool :=
  c.toNat == 0x20 || (0x9 ≤ c.toNat && c.toNat ≤ 0xd)

/-- The code points with the Unicode property White_Space. -/
def whiteRanges : Ranges :=
  [(0x9, 0xd), (0x20, 0x20), (0x85, 0x85), (0xa0, 0xa0), (0x1680, 0x1680), (0x2000, 0x200a),
   (0x2028, 0x2029), (0x202f, 0x202f), (0x205f, 0x205f), (0x3000, 0x3000)]

/-- Unicode white space. -/
def isWhite (c : Char) : Bool := whiteRanges.has c

/-- White space or one of the information separators U+001C to U+001F. -/
def isSpacing (c : Char) : Bool :=
  isWhite c || (0x1c ≤ c.toNat && c.toNat ≤ 0x1f)

/-- Drops the characters that satisfy `p` at both ends. -/
def trim (p : Char → Bool) (cs : List Char) : List Char :=
  ((cs.dropWhile p).reverse.dropWhile p).reverse

theorem isSpacing_of_isWhite {c : Char} (h : isWhite c = true) : isSpacing c = true := by
  simp [isSpacing, h]

end WebForm.Text
