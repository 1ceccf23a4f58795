/-
Character references for text inside markup.

`escape` replaces the five characters that markup gives a meaning by references,
`unescape` reads these five references back.  Main statements: `unescape` undoes
`escape`, and an escaped text holds none of `<`, `>` and the two quotes.
-/

namespace WebForm.Text

/-- The reference that stands for a character, or the character itself. -/
def escapeChar (c : Char) : List Char :=
  if c = '&' then ['&', 'a', 'm', 'p', ';']
  else if c = '<' then ['&', 'l', 't', ';']
  else if c = '>' then ['&', 'g', 't', ';']
  else if c = '\x22' then ['&', 'q', 'u', 'o', 't', ';']
  else if c = '\x27' then ['&', '#', 'x', '2', '7', ';']
  else [c]

/-- Escapes every character of a list. -/
def escapeChars (cs : List Char) : List Char := cs.flatMap escapeChar

/-- The text with the five characters replaced by their references. -/
def escape (s : String) : String := String.ofList (escapeChars s.toList)

/-- Reads the five references back, and leaves every other character. -/
def unescapeChars : List Char → List Char
  | '&' :: 'a' :: 'm' :: 'p' :: ';' :: cs => '&' :: unescapeChars cs
  | '&' :: 'l' :: 't' :: ';' :: cs => '<' :: unescapeChars cs
  | '&' :: 'g' :: 't' :: ';' :: cs => '>' :: unescapeChars cs
  | '&' :: 'q' :: 'u' :: 'o' :: 't' :: ';' :: cs => '\x22' :: unescapeChars cs
  | '&' :: '#' :: 'x' :: '2' :: '7' :: ';' :: cs => '\x27' :: unescapeChars cs
  | c :: cs => c :: unescapeChars cs
  | [] => []

/-- The text that was escaped. -/
def unescape (s : String) : String := String.ofList (unescapeChars s.toList)

/-- The characters that markup gives a meaning, the ampersand apart. -/
def isMarkupChar (c : Char) : Bool := c = '<' || c = '>' || c = '\x22' || c = '\x27'

theorem unescapeChars_cons_of_ne {c : Char} (h : c ≠ '&') (cs : List Char) :
    unescapeChars (c :: cs) = c :: unescapeChars cs := by
  rw [unescapeChars] <;> grind

/-- A reference reads back as its character, whatever follows. -/
theorem unescapeChars_escapeChar_append (c : Char) (rest : List Char) :
    unescapeChars (escapeChar c ++ rest) = c :: unescapeChars rest := by
  unfold escapeChar
  split
  · simp [unescapeChars, *]
  split
  · simp [unescapeChars, *]
  split
  · simp [unescapeChars, *]
  split
  · simp [unescapeChars, *]
  split
  · simp [unescapeChars, *]
  · exact unescapeChars_cons_of_ne (by assumption) rest

theorem unescapeChars_escapeChars (cs : List Char) : unescapeChars (escapeChars cs) = cs := by
  induction cs with
  | nil => rfl
  | cons c cs ih =>
    change unescapeChars (escapeChar c ++ escapeChars cs) = c :: cs
    rw [unescapeChars_escapeChar_append, ih]

theorem unescape_escape (s : String) : unescape (escape s) = s := by
  simp [unescape, escape, unescapeChars_escapeChars]

theorem isMarkupChar_of_mem_escapeChar {c d : Char} (h : d ∈ escapeChar c) :
    isMarkupChar d = false := by
  unfold escapeChar at h
  unfold isMarkupChar
  split at h
  · simp at h; rcases h with rfl | rfl | rfl | rfl | rfl <;> decide
  split at h
  · simp at h; rcases h with rfl | rfl | rfl | rfl <;> decide
  split at h
  · simp at h; rcases h with rfl | rfl | rfl | rfl <;> decide
  split at h
  · simp at h; rcases h with rfl | rfl | rfl | rfl | rfl | rfl <;> decide
  split at h
  · simp at h; rcases h with rfl | rfl | rfl | rfl | rfl | rfl <;> decide
  · simp at h; subst h; simp_all

theorem isMarkupChar_of_mem_escapeChars {cs : List Char} {d : Char} (h : d ∈ escapeChars cs) :
    isMarkupChar d = false := by
  obtain ⟨c, _, hd⟩ := List.mem_flatMap.1 h
  exact isMarkupChar_of_mem_escapeChar hd

end WebForm.Text
