/-
What the texts of faults are made of.

Every fault has a message, and a message is a fixed wording around a few texts that the
declaration supplies: a bound, a pattern, the choices, a name (`Cause.texts`).  What is said
about a message should therefore follow from what is said about those texts.

A `Vocabulary` is a class of texts for which this works.  It holds every text without the
brackets of a tag, and all that is joined of its members:

    (∀ t ∈ cause.texts, voc.Has t) → voc.Has cause.message

which is `Vocabulary.message`, one theorem for all causes and for all vocabularies.  A fixed
wording is in every vocabulary because no wording has a bracket in it, and this is where a new
message would have to be looked at.

Two vocabularies matter.  One holds all texts, and is used where a statement is about
something else than the wording, so that one account of all faults serves both.  The other
holds the plain texts alone, which cannot open or close a tag when they are put into markup.

Numerals and dates come up in messages all the time, and none of them has a bracket, however
large the number is: a digit is a digit, and a numeral has only signs, points and zeros
besides.
-/
import WebForm.Check.Lookup

namespace WebForm

/-- A text without the brackets of a tag. -/
def isPlain (s : String) : Bool := s.toList.all fun c => c != '<' && c != '>'

theorem isPlain_append (s t : String) : isPlain (s ++ t) = (isPlain s && isPlain t) := by
  simp [isPlain]

theorem isPlain_of_all {cs : List Char} (h : cs.all (fun c => c != '<' && c != '>') = true) :
    isPlain (String.ofList cs) = true := by
  rw [isPlain, String.toList_ofList]
  exact h

theorem isPlain_ofList {cs : List Char} (h : ∀ c ∈ cs, c ≠ '<' ∧ c ≠ '>') :
    isPlain (String.ofList cs) = true := by
  apply isPlain_of_all
  simp only [List.all_eq_true, Bool.and_eq_true, bne_iff_ne]
  exact h

/-- A class of texts that holds the plain ones and what is joined of its members. -/
structure Vocabulary where
  Has : String → Prop
  plain : ∀ {s : String}, isPlain s = true → Has s
  append : ∀ {s t : String}, Has s → Has t → Has (s ++ t)

namespace Vocabulary

/-- All texts. -/
def all : Vocabulary where
  Has _ := True
  plain _ := trivial
  append _ _ := trivial

/-- The texts without brackets. -/
def plainTexts : Vocabulary where
  Has s := isPlain s = true
  plain h := h
  append hs ht := by rw [isPlain_append, hs, ht]; rfl

variable (voc : Vocabulary)

theorem intercalate {sep : String} (hsep : voc.Has sep) :
    ∀ {ts : List String}, (∀ t ∈ ts, voc.Has t) → voc.Has (sep.intercalate ts)
  | [], _ => voc.plain (by rw [String.intercalate_nil]; decide)
  | [t], h => by
      rw [String.intercalate_singleton]
      exact h t List.mem_cons_self
  | t :: u :: rest, h => by
      rw [String.intercalate_cons_cons]
      have hrest := intercalate hsep fun x hx => h x (List.mem_cons_of_mem _ hx)
      exact voc.append (voc.append (h t List.mem_cons_self) hsep) hrest

theorem fixed {cs : List Char} (h : cs.all (fun c => c != '<' && c != '>') = true) :
    voc.Has (String.ofList cs) := voc.plain (isPlain_of_all h)

theorem within {before after : List Char} (hb : before.all (fun c => c != '<' && c != '>') = true)
    (ha : after.all (fun c => c != '<' && c != '>') = true) {t : String} (ht : voc.Has t) :
    voc.Has (String.ofList before ++ t ++ String.ofList after) :=
  voc.append (voc.append (voc.fixed hb) ht) (voc.fixed ha)

/-- Texts with a fixed wording between them. -/
theorem joined {sep : List Char} (hsep : sep.all (fun c => c != '<' && c != '>') = true) {α : Type}
    {f : α → String} {xs : List α} (h : ∀ x ∈ xs, voc.Has (f x)) :
    voc.Has ((String.ofList sep).intercalate (xs.map f)) := by
  apply voc.intercalate (voc.fixed hsep)
  intro t ht
  obtain ⟨x, hx, rfl⟩ := List.mem_map.mp ht
  exact h x hx

end Vocabulary

/-! ## Numbers and dates are plain -/

theorem ne_bracket_of_isDigit {c : Char} (h : c.isDigit = true) : c ≠ '<' ∧ c ≠ '>' := by
  constructor
  · rintro rfl
    exact absurd h (by decide)
  · rintro rfl
    exact absurd h (by decide)

theorem ne_bracket_of_mem_toDigits {n : Nat} {c : Char} (h : c ∈ Nat.toDigits 10 n) :
    c ≠ '<' ∧ c ≠ '>' :=
  ne_bracket_of_isDigit (Nat.isDigit_of_mem_toDigits (by decide) (by decide) h)

theorem ne_bracket_of_mem_replicate {n : Nat} {c : Char} (h : c ∈ List.replicate n '0') :
    c ≠ '<' ∧ c ≠ '>' := by
  rw [List.eq_of_mem_replicate h]
  decide

theorem isPlain_intText (i : Int) : isPlain (Value.intText i) = true := by
  have digits := isPlain_ofList fun c => ne_bracket_of_mem_toDigits (n := i.natAbs) (c := c)
  unfold Value.intText
  split
  · rw [isPlain_append, digits]
    decide
  · exact digits

theorem isPlain_padded (width n : Nat) : isPlain (Date.padded width n) = true := by
  apply isPlain_ofList
  intro c hc
  rcases List.mem_append.mp hc with h | h
  · exact ne_bracket_of_mem_replicate h
  · exact ne_bracket_of_mem_toDigits h

theorem isPlain_dateText (d : Date) : isPlain d.text = true := by
  simp only [Date.text, isPlain_append, isPlain_padded]
  decide

theorem isPlain_positional {digits : List Char} (h : ∀ c ∈ digits, c ≠ '<' ∧ c ≠ '>')
    (exponent : Int) : isPlain (Number.Binary64.positional digits exponent) = true := by
  unfold Number.Binary64.positional
  dsimp only
  split
  · apply isPlain_ofList
    intro c hc
    exact (List.mem_append.mp hc).elim (h c) ne_bracket_of_mem_replicate
  · split
    · simp only [isPlain_append, Bool.and_eq_true]
      refine ⟨⟨isPlain_ofList fun c hc => h c (List.mem_of_mem_take hc), by decide⟩, ?_⟩
      exact isPlain_ofList fun c hc => h c (List.mem_of_mem_drop hc)
    · simp only [isPlain_append, Bool.and_eq_true]
      refine ⟨by decide, isPlain_ofList fun c hc => ?_⟩
      exact (List.mem_append.mp hc).elim ne_bracket_of_mem_replicate (h c)

theorem isPlain_plainText (x : Number.Binary64) : isPlain x.plainText = true := by
  match x with
  | .nan => decide
  | .infinite true => decide
  | .infinite false => decide
  | .finite n m e =>
      have sign : isPlain (if n then "-" else "") = true := by cases n <;> decide
      simp only [Number.Binary64.plainText]
      split
      · rw [isPlain_append, sign]
        decide
      · rw [isPlain_append, sign]
        exact isPlain_positional (fun c => ne_bracket_of_mem_toDigits) _

/-! ## Messages

Where a cause brings no text of its own, its message is looked at as a whole; most of these
are constants and are decided. -/

/-- The texts that a cause brings into its message. -/
def Cause.texts : Cause → List String
  | .patternMismatch t | .notAbove t | .notAtLeast t | .notBelow t | .notAtMost t | .notMultiple t
  | .notOption t | .notLiteral t | .notInstance t | .notRecord t | .textAsSequence t
  | .dateUnreadable t => [t]
  | _ => []

theorem isPlain_countText (n : Nat) {thing : String} (h : isPlain thing = true) :
    isPlain (Cause.countText n thing) = true := by
  have plural : isPlain (if n = 1 then "" else "s") = true := by split <;> decide
  simp only [Cause.countText, isPlain_append, isPlain_intText, h, plural]
  decide

theorem isPlain_counted (what : Counted) : isPlain what.text = true := by
  cases what <;> exact isPlain_of_all rfl

theorem isPlain_momentFault (reason : MomentFault) : isPlain reason.message = true := by
  cases reason <;> exact isPlain_of_all rfl

theorem isPlain_expected (what : Expected) : isPlain what.wording.2 = true := by
  cases what <;> exact isPlain_of_all rfl

/-- A message without texts of its own is plain. -/
theorem Cause.isPlain_message {cause : Cause} (h : cause.texts = []) :
    isPlain cause.message = true := by
  have character := fun n => isPlain_countText n (isPlain_of_all rfl : isPlain "character" = true)
  have item := fun n => isPlain_countText n (isPlain_of_all rfl : isPlain "item" = true)
  have after : isPlain " after validation, not " = true := isPlain_of_all rfl
  have fewest : isPlain " should have at least " = true := isPlain_of_all rfl
  have most : isPlain " should have at most " = true := isPlain_of_all rfl
  cases cause with
  | expected what =>
      show isPlain ("Input should be " ++ what.wording.2) = true
      rw [isPlain_append, isPlain_expected, Bool.and_true]
      exact isPlain_of_all rfl
  | momentUnreadable reason =>
      show isPlain ("Input should be a valid date or datetime, " ++ reason.message) = true
      rw [isPlain_append, isPlain_momentFault, Bool.and_true]
      exact isPlain_of_all rfl
  | stringTooShort n =>
      show isPlain ("String should have at least " ++ Cause.countText n "character") = true
      rw [isPlain_append, character, Bool.and_true]
      exact isPlain_of_all rfl
  | stringTooLong n =>
      show isPlain ("String should have at most " ++ Cause.countText n "character") = true
      rw [isPlain_append, character, Bool.and_true]
      exact isPlain_of_all rfl
  | tooFew what n actual =>
      show isPlain (what.text ++ " should have at least " ++ Cause.countText n "item"
        ++ " after validation, not " ++ Value.intText actual) = true
      simp only [isPlain_append, isPlain_counted, isPlain_intText, item, after, fewest,
        Bool.and_self]
  | tooMany what n actual =>
      have count : ∀ t, isPlain t = true → isPlain (what.text ++ " should have at most "
          ++ Cause.countText n "item" ++ " after validation, not " ++ t) = true := by
        intro t ht
        simp only [isPlain_append, isPlain_counted, item, after, most, ht, Bool.and_self]
      cases actual with
      | none => exact count "more" (isPlain_of_all rfl)
      | some k => exact count _ (isPlain_intText k)
  | missing | extra | invalidKey | integerUnreadable | integerTooLong | integerFraction | notFinite
  | numberUnreadable | flagUnreadable | notHashable | timeNotZero => exact isPlain_of_all rfl
  | patternMismatch | notAbove | notAtLeast | notBelow | notAtMost | notMultiple | notOption
  | notLiteral | notInstance | notRecord | textAsSequence | dateUnreadable =>
      exact absurd h (List.cons_ne_nil _ _)

/-- A message belongs to a vocabulary when the texts that the cause brings do. -/
theorem Vocabulary.message (voc : Vocabulary) {cause : Cause}
    (h : ∀ t ∈ cause.texts, voc.Has t) : voc.Has cause.message := by
  match cause with
  | .patternMismatch t | .textAsSequence t =>
      exact voc.append (voc.append (voc.plain (isPlain_of_all rfl)) (h t List.mem_cons_self))
        (voc.plain (isPlain_of_all rfl))
  | .notAbove t | .notAtLeast t | .notBelow t | .notAtMost t | .notMultiple t | .notOption t
  | .notLiteral t | .notInstance t | .notRecord t | .dateUnreadable t =>
      exact voc.append (voc.plain (isPlain_of_all rfl)) (h t List.mem_cons_self)
  | .missing | .extra | .invalidKey | .expected _ | .stringTooShort _ | .stringTooLong _
  | .integerUnreadable | .integerTooLong | .integerFraction | .notFinite | .numberUnreadable
  | .flagUnreadable | .tooFew .. | .tooMany .. | .notHashable | .momentUnreadable _
  | .timeNotZero => exact voc.plain (Cause.isPlain_message rfl)

end WebForm
