/-
Supplied values fill holes and change nothing else.

The markup of a form is a list of pieces.  Most are text of the form's own; some are holes,
and a hole holds the text of a value that was supplied to the page.  `values_fill_holes`
compares two pages of one form in one language, for any two sets of values that are supplied
for the same names and that supply the text `true` for the same names:

    ps.map Piece.shape = ps'.map Piece.shape

so that the two pages are one list of pieces apart from what is in the holes.  The condition
on `true` is about boxes, for a box is marked by that text, and a mark is not a hole.

The second half says what a hole is.  It stands in a `value` attribute, or between the tags of
a text area, of an element of the form, and what fills it is empty or the escaped text of the
value that is supplied for that element.  Such a text holds no character that markup gives a
meaning, and it reads back as the value's text (`Holds.text`).  So a supplied value can end
neither the attribute nor the element in which it stands, and a browser reads there what was
supplied.

Nothing is said of the labels, hints and texts that the form declares.  These are written as
they are.
-/
import Mathlib.Data.List.Basic
import WebForm.Form
import WebForm.Proofs.Supply

namespace WebForm

open WebForm.Text

/-! ## Pieces up to the texts of their holes

Which pieces are written depends on whether a value is supplied and on whether it marks a box,
and not on what it is. -/

/-- Two tables hold texts for the same names, and the text of a marked box for the same names. -/
structure Supplied.Alike (values values' : Supplied) : Prop where
  given : ∀ name, (Pairs.get? values name).isSome = (Pairs.get? values' name).isSome
  marked : ∀ name, Pairs.get? values name = some "true" ↔ Pairs.get? values' name = some "true"

namespace Element

/-- The attribute with its hole emptied. -/
def TagAttribute.shape (a : TagAttribute) : TagAttribute := { a with value := a.value.map Piece.shape }

theorem TagAttribute.map_shape_pieces (a : TagAttribute) :
    a.pieces.map Piece.shape = a.shape.pieces := by
  obtain ⟨name, value⟩ := a
  cases value with
  | none => rfl
  | some v => rfl

theorem shape_shownAttributes (e : Element) {shown shown' : Option String}
    (h : shown.isSome = shown'.isSome) :
    (e.shownAttributes shown).map (fun p => (p.1, p.2.shape))
      = (e.shownAttributes shown').map fun p => (p.1, p.2.shape) := by
  unfold shownAttributes
  cases shown with
  | none =>
      cases shown' with
      | none => rfl
      | some v' => cases h
  | some v =>
      cases shown' with
      | none => cases h
      | some v' =>
          simp only [Pairs.map_set]
          rfl

theorem isMarked_eq {values values' : Supplied} (h : values.Alike values') (e : Element) :
    e.isMarked values = e.isMarked values' := by
  unfold isMarked
  cases e.stateName? with
  | none => rfl
  | some name =>
      have hname : (Pairs.get? values name == some "true") = (Pairs.get? values' name == some "true") := by
        rw [Bool.eq_iff_iff, beq_iff_eq, beq_iff_eq]
        exact h.marked name
      rw [Option.bind_some, Option.bind_some, hname]

theorem shape_tagAttributes {values values' : Supplied} (h : values.Alike values') (e : Element)
    {shown shown' : Option String} (hshown : shown.isSome = shown'.isSome) :
    (e.tagAttributes shown values).map TagAttribute.shape
      = (e.tagAttributes shown' values').map TagAttribute.shape := by
  have named : ∀ shown : Option String,
      (((e.shownAttributes shown).filter fun p => lower p.1 != "checked").map
        (fun p => (⟨lower p.1, some p.2⟩ : TagAttribute))).map TagAttribute.shape
      = (((e.shownAttributes shown).map fun p => (p.1, p.2.shape)).filter
          fun p => lower p.1 != "checked").map fun p => ⟨lower p.1, some p.2⟩ := by
    intro shown
    rw [List.filter_map, List.map_map, List.map_map]
    rfl
  unfold tagAttributes
  simp only [List.map_append]
  rw [named shown, named shown', e.shape_shownAttributes hshown, isMarked_eq h e]

theorem shape_pieces {values values' : Supplied} (h : values.Alike values') (e : Element)
    {shown shown' : Option String} (hshown : shown.isSome = shown'.isSome) :
    (e.pieces shown values).map Piece.shape = (e.pieces shown' values').map Piece.shape := by
  have attributes : ∀ (as : List TagAttribute), (as.flatMap TagAttribute.pieces).map Piece.shape
      = (as.map TagAttribute.shape).flatMap TagAttribute.pieces := by
    intro as
    induction as with
    | nil => rfl
    | cons a as ih =>
        rw [List.flatMap_cons, List.map_append, ih, a.map_shape_pieces]
        rfl
  have content : (e.content values).map Piece.shape = (e.content values').map Piece.shape := by
    unfold Element.content
    split <;> rfl
  unfold pieces
  simp only [List.map_append]
  rw [attributes, attributes, shape_tagAttributes h e hshown, content]

end Element

/-- The form's pieces are the same up to the texts of their holes. -/
theorem Markup.shape_form {values values' : Supplied} (h : values.Alike values')
    (elements : List Element) (o : Options) (buttonLabel message : String) (details : List String) :
    (Markup.form elements values o buttonLabel message details).map Piece.shape
      = (Markup.form elements values' o buttonLabel message details).map Piece.shape := by
  have fields : (elements.flatMap (suppliedField values o)).map Piece.shape
      = (elements.flatMap (suppliedField values' o)).map Piece.shape := by
    rw [List.map_flatMap, List.map_flatMap]
    refine List.flatMap_congr fun e _ => ?_
    unfold suppliedField Element.fieldPieces
    simp only [List.map_append]
    rw [Element.shape_pieces h e (h.given e.name)]
  unfold Markup.form
  simp only [List.map_append]
  rw [fields]

/-! ## Where holes stand

`Framed` is a condition on every hole of a list together with the pieces around it.  It is
kept when lists are joined, because the pieces at the seams are never holes: every part of a
form begins and ends with text of its own. -/

/-- Every hole stands between two pieces that go with its text. -/
def Framed (P : Piece → String → Piece → Prop) (ps : List Piece) : Prop :=
  ∀ before t after, ps = before ++ .hole t :: after →
    ∃ a x y b, before = a ++ [x] ∧ after = y :: b ∧ P x t y

namespace Framed

variable {P : Piece → String → Piece → Prop}

theorem nil : Framed P [] := by
  intro before t after h
  cases before <;> cases h

theorem append {xs ys : List Piece} (hx : Framed P xs) (hy : Framed P ys) : Framed P (xs ++ ys) := by
  intro before t after h
  rcases List.append_eq_append_iff.mp h with ⟨as, hbefore, hys⟩ | ⟨bs, hxs, hrest⟩
  · obtain ⟨a, x, y, b, rfl, rfl, hP⟩ := hy as t after hys
    exact ⟨xs ++ a, x, y, b, by rw [hbefore, List.append_assoc], rfl, hP⟩
  · cases bs with
    | nil =>
        -- the second list would start with a hole, which has nothing before it
        obtain ⟨a, x, y, b, hnil, _, _⟩ := hy [] t after hrest.symm
        cases a <;> cases hnil
    | cons p bs =>
        cases hrest
        obtain ⟨a, x, y, b, rfl, hafter, hP⟩ := hx before t bs hxs
        exact ⟨a, x, y, b ++ ys, rfl, by rw [hafter]; rfl, hP⟩

theorem fixed (s : String) : Framed P [.fixed s] := by
  intro before t after h
  cases before with
  | nil => cases h
  | cons p before => cases before <;> cases h

theorem cons {s : String} {ps : List Piece} (h : Framed P ps) : Framed P (.fixed s :: ps) :=
  (fixed s).append h

theorem triple {x y t : String} (h : P (.fixed x) t (.fixed y)) :
    Framed P [.fixed x, .hole t, .fixed y] := by
  intro before u after heq
  match before, heq with
  | [], heq => cases heq
  | [p], heq =>
      cases heq
      exact ⟨[], _, _, [], rfl, rfl, h⟩
  | [p, q], heq => cases heq
  | p :: q :: r :: before, heq =>
      simp only [List.cons_append, List.cons.injEq] at heq
      cases before <;> cases heq.2.2.2

theorem flatMap {α : Type} {f : α → List Piece} {xs : List α} (h : ∀ x ∈ xs, Framed P (f x)) :
    Framed P (xs.flatMap f) := by
  induction xs with
  | nil => exact nil
  | cons x xs ih =>
      obtain ⟨hx, hxs⟩ := List.forall_mem_cons.mp h
      rw [List.flatMap_cons]
      exact hx.append (ih hxs)

end Framed

/-- A hole holds the text of the value that is supplied for an element, in its `value` attribute
or in the content of a text area; a text area without a value is empty. -/
def Form.Holds (elements : List Element) (values : Value) (x : Piece) (t : String) (y : Piece) :
    Prop :=
  (x = .fixed " value=\x22" ∧ y = .fixed "\x22" ∧ ∃ e ∈ elements, ∃ v,
      Supplied.valueFor? values e.name = some v ∧ t = escape v.attributeText) ∨
  (x = .fixed ">" ∧ y = .fixed "</textarea>" ∧ ∃ e ∈ elements, e.element = "textarea" ∧
      t = ((e.stateName?.bind (Supplied.valueFor? values)).map
        fun v => escape v.attributeText).getD "")

namespace Element

theorem lower_value : lower "value" = "value" := by decide +kernel

theorem hole_of_mem_tagAttributes {e : Element} {shown : Option String} {values : Supplied}
    {a : TagAttribute} (ha : a ∈ e.tagAttributes shown values) :
    (∃ s, a.value = some (.fixed s)) ∨ a.value = none ∨
      ∃ t, shown = some t ∧ a = ⟨"value", some (.hole t)⟩ := by
  unfold tagAttributes at ha
  simp only [List.mem_append, List.mem_singleton, List.mem_map, List.mem_filter] at ha
  rcases ha with ((rfl | ⟨p, ⟨hp, _⟩, rfl⟩) | ⟨flag, _, rfl⟩) | hmark
  · exact Or.inl ⟨e.name, rfl⟩
  · have declared : ∀ q ∈ e.attributes.map (fun p => (p.1, Piece.fixed p.2.written)),
        ∃ s, q.2 = .fixed s := by
      intro q hq
      obtain ⟨r, _, rfl⟩ := List.mem_map.mp hq
      exact ⟨_, rfl⟩
    unfold shownAttributes at hp
    cases shown with
    | none =>
        obtain ⟨s, hs⟩ := declared p hp
        exact Or.inl ⟨s, by rw [hs]⟩
    | some t =>
        rcases Pairs.mem_of_mem_set hp with hp | rfl
        · obtain ⟨s, hs⟩ := declared p hp
          exact Or.inl ⟨s, by rw [hs]⟩
        · exact Or.inr (Or.inr ⟨t, rfl, by rw [lower_value]⟩)
  · exact Or.inr (Or.inl rfl)
  · split at hmark
    · rw [List.mem_singleton.mp hmark]
      exact Or.inr (Or.inl rfl)
    · exact absurd hmark List.not_mem_nil

end Element

namespace Form

variable {elements : List Element} {values : Value} {supplied : Supplied}

theorem framed_attributes (hsupplied : Supplied.ofValue values = .ok supplied) {e : Element}
    (he : e ∈ elements) :
    Framed (Holds elements values)
      ((e.tagAttributes (Pairs.get? supplied e.name) supplied).flatMap
        Element.TagAttribute.pieces) := by
  refine Framed.flatMap fun a ha => ?_
  rcases Element.hole_of_mem_tagAttributes ha with ⟨s, hs⟩ | hnone | ⟨t, ht, rfl⟩
  · unfold Element.TagAttribute.pieces
    rw [hs]
    exact (Framed.fixed _).cons.cons
  · unfold Element.TagAttribute.pieces
    rw [hnone]
    exact Framed.fixed _
  · rw [Supplied.get?_ofValue hsupplied] at ht
    obtain ⟨v, hv, rfl⟩ := Option.map_eq_some_iff.mp ht
    exact Framed.triple (Or.inl ⟨rfl, rfl, e, he, v, hv, rfl⟩)

theorem framed_end (hsupplied : Supplied.ofValue values = .ok supplied) {e : Element}
    (he : e ∈ elements) :
    Framed (Holds elements values) (.fixed e.tagEnd :: e.content supplied) := by
  unfold Element.content
  by_cases harea : e.element = "textarea"
  · rw [if_pos harea]
    have hend : e.tagEnd = ">" := by
      unfold Element.tagEnd Element.isCheckbox
      rw [harea]
      rfl
    rw [hend]
    refine Framed.triple (Or.inr ⟨rfl, rfl, e, he, harea, ?_⟩)
    cases e.stateName? with
    | none => rfl
    | some name =>
        rw [Option.bind_some, Option.bind_some, Supplied.get?_ofValue hsupplied]
        rfl
  · rw [if_neg harea]
    exact Framed.fixed _

/-- Every hole of a form holds the text of a supplied value. -/
theorem framed_form (hsupplied : Supplied.ofValue values = .ok supplied) (o : Options)
    (buttonLabel message : String) (details : List String) :
    Framed (Holds elements values)
      (Markup.form elements supplied o buttonLabel message details) := by
  have fields : Framed (Holds elements values)
      (elements.flatMap (Markup.suppliedField supplied o)) := by
    refine Framed.flatMap fun e he => ?_
    unfold Markup.suppliedField Element.fieldPieces Element.pieces
    have tag := (framed_attributes hsupplied he).append (framed_end hsupplied he)
    have after : Framed (Holds elements values)
        [.fixed (e.after o), .fixed (Element.hintMarkup e.hint), .fixed "</div>"] :=
      (Framed.fixed _).cons.cons
    simpa [List.append_assoc] using ((tag.append after).cons).cons.cons
  have stop : Framed (Holds elements values)
      [.fixed "\n", .fixed (Markup.errors message details),
        .fixed (Markup.fieldset o.fieldset o.legend).2, .fixed (Markup.submitButton buttonLabel none),
        .fixed "\n</form>"] :=
    (Framed.fixed _).cons.cons.cons.cons
  unfold Markup.form
  exact ((fields.append stop).cons).cons.cons.cons

/-- What fills a hole is empty or the escaped text of a supplied value: it holds no character that
markup gives a meaning, and reads back as the value's text. -/
theorem Holds.text {x y : Piece} {t : String} (h : Holds elements values x t y) :
    t = "" ∨ ∃ name v, Supplied.valueFor? values name = some v ∧ t = escape v.attributeText ∧
      (∀ c ∈ t.toList, isMarkupChar c = false) ∧ unescape t = v.attributeText := by
  have filled : ∀ {name : String} {v : Value}, Supplied.valueFor? values name = some v →
      t = escape v.attributeText → t = "" ∨ ∃ name v, Supplied.valueFor? values name = some v ∧
        t = escape v.attributeText ∧ (∀ c ∈ t.toList, isMarkupChar c = false) ∧
        unescape t = v.attributeText := by
    rintro name v hv rfl
    exact Or.inr ⟨name, v, hv, rfl, fun c hc => Supplied.isMarkupChar_of_mem_textOf hc,
      Supplied.unescape_textOf v⟩
  rcases h with ⟨_, _, e, _, v, hv, ht⟩ | ⟨_, _, e, _, _, ht⟩
  · exact filled hv ht
  · cases hvalue : e.stateName?.bind (Supplied.valueFor? values) with
    | none =>
        rw [hvalue] at ht
        exact Or.inl ht
    | some v =>
        rw [hvalue] at ht
        obtain ⟨name, _, hv⟩ := Option.bind_eq_some_iff.mp hvalue
        exact filled hv ht

theorem alike_of_valueFor {values' : Value} {supplied' : Supplied}
    (hsupplied : Supplied.ofValue values = .ok supplied)
    (hsupplied' : Supplied.ofValue values' = .ok supplied')
    (hgiven : ∀ name, (Supplied.valueFor? values name).isSome
      = (Supplied.valueFor? values' name).isSome)
    (hmarked : ∀ name, (Supplied.valueFor? values name).map Value.attributeText = some "true"
      ↔ (Supplied.valueFor? values' name).map Value.attributeText = some "true") :
    supplied.Alike supplied' := by
  have mark : ∀ v : Option Value, v.map Supplied.textOf = some "true"
      ↔ v.map Value.attributeText = some "true" := by
    intro v
    cases v with
    | none =>
        rw [Option.map_none, Option.map_none]
    | some v =>
        have htrue : Supplied.textOf (.str "true") = "true" := by decide +kernel
        rw [Option.map_some, Option.map_some, Option.some.injEq, Option.some.injEq]
        constructor
        · intro h
          exact Supplied.textOf_eq_iff.mp (h.trans htrue.symm)
        · intro h
          exact (Supplied.textOf_eq_iff (w := .str "true")).mpr h |>.trans htrue
  constructor
  · intro name
    rw [Supplied.get?_ofValue hsupplied, Supplied.get?_ofValue hsupplied', Option.isSome_map,
      Option.isSome_map]
    exact hgiven name
  · intro name
    rw [Supplied.get?_ofValue hsupplied, Supplied.get?_ofValue hsupplied', mark, mark]
    exact hmarked name

theorem pieces_of_html {f : Form} {lang : Option String} {out : String}
    (h : f.html values lang = .ok out) :
    ∃ elements supplied, f.elements lang = .ok elements ∧ Supplied.ofValue values = .ok supplied ∧
      f.pieces values lang
        = .ok (Markup.form elements supplied f.options f.buttonLabel f.message f.details) ∧
      out = Piece.write
        (Markup.form elements supplied f.options f.buttonLabel f.message f.details) := by
  unfold html at h
  cases hpieces : f.pieces values lang with
  | error e =>
      rw [hpieces] at h
      cases h
  | ok ps =>
      rw [hpieces] at h
      cases h
      unfold pieces at hpieces
      split at hpieces
      · cases hpieces
      · rename_i elements helements
        split at hpieces
        · cases hpieces
        · rename_i supplied hsupplied
          cases hpieces
          exact ⟨elements, supplied, helements, hsupplied, rfl, rfl⟩

/-- Two sets of values that are supplied for the same names, and that supply the text `true` for
the same names, give one markup apart from the holes.  Each hole holds the text of a value that
is supplied where it stands, escaped. -/
theorem values_fill_holes {f : Form} {values' : Value} {lang : Option String} {out out' : String}
    (h : f.html values lang = .ok out) (h' : f.html values' lang = .ok out')
    (hgiven : ∀ name, (Supplied.valueFor? values name).isSome
      = (Supplied.valueFor? values' name).isSome)
    (hmarked : ∀ name, (Supplied.valueFor? values name).map Value.attributeText = some "true"
      ↔ (Supplied.valueFor? values' name).map Value.attributeText = some "true") :
    ∃ elements ps ps', f.elements lang = .ok elements ∧
      f.pieces values lang = .ok ps ∧ f.pieces values' lang = .ok ps' ∧
      out = Piece.write ps ∧ out' = Piece.write ps' ∧
      ps.map Piece.shape = ps'.map Piece.shape ∧
      Framed (Holds elements values) ps ∧ Framed (Holds elements values') ps' ∧
      ∀ t, .hole t ∈ ps → t = "" ∨ ∃ name v, Supplied.valueFor? values name = some v ∧
        t = escape v.attributeText ∧ (∀ c ∈ t.toList, isMarkupChar c = false) ∧
        unescape t = v.attributeText := by
  obtain ⟨elements, supplied, helements, hsupplied, hpieces, rfl⟩ := pieces_of_html h
  obtain ⟨elements', supplied', helements', hsupplied', hpieces', rfl⟩ := pieces_of_html h'
  obtain rfl : elements = elements' := Except.ok.inj (helements.symm.trans helements')
  have alike := alike_of_valueFor hsupplied hsupplied' hgiven hmarked
  have framed : Framed (Holds elements values) _ :=
    framed_form hsupplied f.options f.buttonLabel f.message f.details
  refine ⟨elements, _, _, helements, hpieces, hpieces', rfl, rfl,
    Markup.shape_form alike elements f.options f.buttonLabel f.message f.details, framed,
    framed_form hsupplied' f.options f.buttonLabel f.message f.details, ?_⟩
  intro t ht
  obtain ⟨before, after, hsplit⟩ := List.append_of_mem ht
  obtain ⟨_, _, _, _, _, _, hholds⟩ := framed before t after hsplit
  exact hholds.text

/-- A form with one text area. -/
def noteForm : Form where
  schema := {
    name := "Note"
    fields := [{
      name := "note", type := .str,
      declared := some [("element", .str "textarea"), ("inputType", .str "textarea")] }] }
  options := { passwordHideSvg := "", passwordShowSvg := "" }
  buttonLabel := "Submit"
  componentElement := Form.defaultComponentElement

/-- A note that looks like a tag fills the holes of the form as any other note does. -/
theorem note_fills_holes : ∃ ps ps',
    noteForm.pieces (.ofPairs [("note", .str "<b>")]) none = .ok ps ∧
    noteForm.pieces (.ofPairs [("note", .str "x")]) none = .ok ps' ∧
    ps.map Piece.shape = ps'.map Piece.shape := by
  have writes : ∀ t : String, ∃ out, noteForm.html (.ofPairs [("note", .str t)]) none = .ok out := by
    intro t
    have shown : (noteForm.elements none).toOption.isSome = true := by decide +kernel
    unfold html pieces
    rw [Supplied.ofValue_single Value.noConfusion]
    cases helements : noteForm.elements none with
    | error e =>
        rw [helements] at shown
        cases shown
    | ok elements => exact ⟨_, rfl⟩
  obtain ⟨out, h⟩ := writes "<b>"
  obtain ⟨out', h'⟩ := writes "x"
  have supplied : ∀ (t : String) name, Supplied.valueFor? (.ofPairs [("note", .str t)]) name
      = if "note" = name ∨ lower "note" = name then some (.str t) else none :=
    fun t => Supplied.valueFor?_single Value.noConfusion
  obtain ⟨_, ps, ps', _, hps, hps', _, _, hshape, _⟩ := values_fill_holes h h'
    (by intro name; rw [supplied, supplied]; split <;> rfl)
    (by
      intro name
      rw [supplied, supplied]
      split
      · exact ⟨fun heq => absurd heq (by decide), fun heq => absurd heq (by decide)⟩
      · exact Iff.rfl)
  exact ⟨ps, ps', hps, hps', hshape⟩

end Form

end WebForm
