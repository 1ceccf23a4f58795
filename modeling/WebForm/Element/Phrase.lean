/-
Phrases: texts of an element that are written in another form than they are read.

A text by language can be an option of an enumeration.  It counts as the text that
the option stands for, and is written by the option's name.
-/
import WebForm.Value.Text

namespace WebForm

/-- A text, and the form in which it is written. -/
structure Phrase where
  content : String
  written : String
deriving DecidableEq, Inhabited

namespace Phrase

/-- A text that is written as it is. -/
def ofText (s : String) : Phrase := ⟨s, s⟩

/-- The phrase has no text. -/
def isEmpty (p : Phrase) : Bool := p.content.isEmpty

/-- A phrase that is there and has a text. -/
def nonEmpty? (p : Option Phrase) : Option Phrase := p.filter fun p => !p.isEmpty

end Phrase

/-- The phrase of a text, or of an option that behaves as one. -/
def Value.phrase? (v : Value) : Option Phrase := v.asText?.map fun s => ⟨s, v.text⟩

end WebForm
