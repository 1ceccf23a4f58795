/-
Showing what was sent, and sending it again.

A report on a submission holds what was read of it, and the page of a form can show that.  A
browser sends such a page as it is: the text that each element shows, and for a box `off` and,
if it is marked, the value in its tag.  Nothing is lost on the way, however often a page is
shown and sent (`redisplay_fixpoint`):

    ReflTransGen Redisplays (form', r) state → state.2 = r

and another round can always be made.  The report is the same as a whole, with the errors and
the values in it; the state of the form may differ, since it carries the error that was shown
last.

Each stage undoes the other on what it comes to.  A text field shows the text of what it holds
(`IsPlain.shownText_eq`) and reads that text as it is (`Field.holds?_again`), which is an
equation about texts that were read before and fails for others, because blanks and signs may
be lost in a first reading.  A box is marked as its flag says (`IsPlain.resent_box`).  And a
value is looked up under the one name that becomes it (`valueFor?_heldPairs`).

What is assumed of the form (`Redisplayable`) are the things that can go wrong.  A float may
lose digits when it is written, a field of many values has no input to show them in, two names
that differ in case alone are one name for the table of supplied values, and a declared value
or mark is shown in place of what is supplied.  The submission has to be one that a page of
this form can send (`Fills`): one text for each element, `off` for each box with at most one
word more, and nothing else.
-/
import Mathlib.Data.List.Nodup
import Mathlib.Logic.Relation
import WebForm.Proofs.Checkbox
import WebForm.Proofs.Rereading

namespace WebForm

open WebForm.Text Submission

/-! ## What a browser sends

A browser decodes what stands in the page, and so undoes the escaping of supplied values. -/

namespace Element

/-- The text that an element shows, as a browser decodes it: the content of a text area, or else the
value in the tag. -/
def shownText (e : Element) (supplied : Supplied) : String :=
  match e.content supplied with
  | content :: _ => unescape content.text
  | [] => ((e.tagAttribute? supplied "value").bind (·.value)).elim "" fun v => unescape v.text

/-- What a browser sends for an element that is left as it is shown. -/
def resent (e : Element) (supplied : Supplied) : List Value :=
  if e.isCheckbox then e.sent supplied (e.tagAttribute? supplied "checked").isSome
  else [.str (e.shownText supplied)]

/-- The name under which a browser sends it. -/
def sentName (e : Element) (supplied : Supplied) : String :=
  ((e.tagAttribute? supplied "name").bind (·.value)).elim "" Piece.text

end Element

/-- What a browser sends for some elements that are left as they are shown. -/
def Markup.resent (elements : List Element) (supplied : Supplied) : List (String × List Value) :=
  elements.map fun e => (e.sentName supplied, e.resent supplied)

namespace Form

/-- What a browser sends for a page that is left as it is shown. -/
def resubmission (form : Form) (values : Value) (lang : Option String) :
    Except FormError (List (String × List Value)) :=
  (form.shown values lang).map fun p => Markup.resent p.1 p.2

/-- A page shows what a report holds, is sent again as it is, and is reported on. -/
def Redisplays (lang heading : Option String) (state next : Form × Report) : Prop :=
  ∃ page fields, state.1.html state.2.data lang = .ok page ∧
    state.1.resubmission state.2.data lang = .ok fields ∧
    state.1.act (.submit (.fields fields) heading) = (next.1, .ok (.report next.2))

/-! ## Forms that can be sent again -/

/-- The form shows the field as the element. -/
def Builds (form : Form) (lang : Option String) (f : Field) (e : Element) : Prop :=
  Element.ofDefinition (form.options.idSuffix.getD "") lang
    (Definition.ofField form.schema.config f) = .ok e

/-- Every field has one value that is no float, is shown as an input or a text area and, if it is a
box, holds a flag.  Names differ in more than the case of their letters, and neither a name nor a value
nor a mark is declared.  For an element with an empty name a browser sends nothing. -/
structure Redisplayable (form : Form) (lang : Option String) : Prop where
  apart : (form.schema.fields.map fun f => lower (f.formName form.schema.config)).Nodup
  named : ∀ f ∈ form.schema.fields, f.formName form.schema.config ≠ ""
  single : ∀ f ∈ form.schema.fields, f.type.kind.multi = false
  exact : ∀ f ∈ form.schema.fields, f.type.kind.scalar ≠ .float
  bare : ∀ f ∈ form.schema.fields, ∀ p ∈ f.declared.getD [],
    Element.isBareKey p.1 = true ∧ lower p.1 ≠ "checked"
  editable : ∀ f ∈ form.schema.fields, ∀ e, form.Builds lang f e →
    e.element = "input" ∨ e.element = "textarea"
  flag : ∀ f ∈ form.schema.fields, ∀ e, form.Builds lang f e → e.isCheckbox = true → f.type.IsFlag

/-- A submission gives a text for every element but the boxes, `off` and maybe one more word for each
box, and nothing else. -/
structure Fills (form : Form) (lang : Option String) (s : Submission) : Prop where
  covers : form.schema.Covers s
  text : ∀ f ∈ form.schema.fields, ∀ e, form.Builds lang f e → e.isCheckbox = false →
    ∃ t, s.values? (f.formName form.schema.config) = some [.str t]
  box : ∀ f ∈ form.schema.fields, ∀ e, form.Builds lang f e → e.isCheckbox = true →
    s.values? (f.formName form.schema.config) = some [.str "off"] ∨
      ∃ t ∈ trueWords, s.values? (f.formName form.schema.config) = some [.str "off", .str t]

end Form

/-! ## Elements

What an element sends when it is left as it is, by the value that is supplied for it. -/

namespace Element

variable {e : Element} {supplied : Supplied} {values : Value}

theorem IsPlain.sentName_eq {fallback : Option String} (h : e.IsPlain fallback)
    (supplied : Supplied) : e.sentName supplied = e.name := by
  rw [sentName, h.tagAttribute?_name]
  rfl

/-- An element in which text is typed shows the text of the value that is supplied for it. -/
theorem IsPlain.shownText_eq (h : e.IsPlain (some "")) (hname : e.name ≠ "")
    (hsupplied : Supplied.ofValue values = .ok supplied) :
    e.shownText supplied
      = ((Supplied.valueFor? values e.name).map Value.attributeText).getD "" := by
  have hget := Supplied.get?_ofValue hsupplied e.name
  unfold shownText content
  by_cases harea : e.element = "textarea"
  · rw [if_pos harea, h.stateName?_eq hname]
    dsimp only [Option.bind_some, Piece.text]
    rw [hget]
    cases Supplied.valueFor? values e.name with
    | none => rfl
    | some v => exact Supplied.unescape_textOf v
  · rw [if_neg harea, h.tagAttribute?_value, hget]
    cases Supplied.valueFor? values e.name with
    | none => rfl
    | some v => exact Supplied.unescape_textOf v

theorem IsPlain.resent_of_isCheckbox (h : e.IsPlain none) (hname : e.name ≠ "")
    (hbox : e.isCheckbox = true) (hflags : "checked" ∉ e.flags)
    (hsupplied : Supplied.ofValue values = .ok supplied) :
    e.resent supplied
      = e.sent supplied ((Supplied.valueFor? values e.name).map Supplied.textOf == some "true") := by
  have hmarked : e.isMarked supplied
      = ((Supplied.valueFor? values e.name).map Supplied.textOf == some "true") := by
    have hcontains : e.flags.contains "checked" = false := by
      rw [← Bool.not_eq_true, List.contains_iff_mem]
      exact hflags
    unfold isMarked
    rw [hbox, hcontains, h.stateName?_eq hname, Option.bind_some, Supplied.get?_ofValue hsupplied]
    rfl
  rw [resent, if_pos hbox, h.tagAttribute?_checked hflags, hmarked]

/-- A box that is supplied as set is marked and sends `true` behind `off`; one that is supplied as
unset is not marked. -/
theorem IsPlain.resent_box (h : e.IsPlain none) (hname : e.name ≠ "") (hbox : e.isCheckbox = true)
    (hflags : "checked" ∉ e.flags) (hsupplied : Supplied.ofValue values = .ok supplied) {b : Bool}
    (hvalue : Supplied.valueFor? values e.name = some (.bool b)) :
    e.resent supplied = .str "off" :: if b then [.str "true"] else [] := by
  have hmarked : (some (Supplied.textOf (.bool b)) == some "true") = b := by
    cases b <;> decide +kernel
  rw [h.resent_of_isCheckbox hname hbox hflags hsupplied, hvalue, Option.map_some, hmarked, sent,
    h.boxValue_eq hsupplied, hvalue]
  cases b <;> rfl

theorem IsPlain.resent_box_of_none (h : e.IsPlain none) (hname : e.name ≠ "")
    (hbox : e.isCheckbox = true) (hflags : "checked" ∉ e.flags)
    (hsupplied : Supplied.ofValue values = .ok supplied)
    (hvalue : Supplied.valueFor? values e.name = none) : e.resent supplied = [.str "off"] := by
  rw [h.resent_of_isCheckbox hname hbox hflags hsupplied, hvalue]
  rfl

end Element

/-! ## Fields

A field is shown as an element, the element is sent, and the field reads what was sent.  The
cases are those of `Fills`: a text, or a box. -/

namespace Form

variable {form : Form} {lang : Option String} {s : Submission} {f : Field} {e : Element}

namespace Redisplayable

theorem namesApart (h : form.Redisplayable lang) : form.schema.NamesApart := by
  refine List.Nodup.of_map lower ?_
  rw [List.map_map]
  exact h.apart

theorem eq_of_lower_eq (h : form.Redisplayable lang) {g : Field} (hf : f ∈ form.schema.fields)
    (hg : g ∈ form.schema.fields)
    (hlower : lower (g.formName form.schema.config) = f.formName form.schema.config) :
    g = f := by
  have heq : lower (g.formName form.schema.config) = lower (f.formName form.schema.config) := by
    rw [← hlower, lower_lower]
  exact List.inj_on_of_nodup_map h.apart hg hf heq

end Redisplayable

namespace Builds

theorem name_eq (h : form.Builds lang f e) : e.name = f.formName form.schema.config := by
  obtain ⟨_, _, hname, _⟩ := Element.ofDefinition_eq_ok h
  exact hname

theorem name_ne_empty (h : form.Builds lang f e) (hform : form.Redisplayable lang)
    (hf : f ∈ form.schema.fields) : e.name ≠ "" := by
  rw [h.name_eq]
  exact hform.named f hf

theorem isPlain (h : form.Builds lang f e) (hform : form.Redisplayable lang)
    (hf : f ∈ form.schema.fields) : e.IsPlain (if e.isCheckbox then none else some "") := by
  have hbare : ∀ p ∈ f.declared.getD [], Element.isBareKey p.1 = true :=
    fun p hp => (hform.bare f hf p hp).1
  obtain ⟨hbox, htext⟩ := Element.isPlain_of_ofDefinition h (Element.isBareKey_of_ofField hbare)
  cases hcheckbox : e.isCheckbox with
  | true => exact hbox hcheckbox
  | false =>
      refine htext ?_
      unfold Element.isCheckbox at hcheckbox
      unfold Element.isTextEditable
      rcases hform.editable f hf e h with heq | heq <;> rw [heq] at hcheckbox ⊢
      · simpa using hcheckbox
      · rfl

theorem checked_not_mem_flags (h : form.Builds lang f e) (hform : form.Redisplayable lang)
    (hf : f ∈ form.schema.fields) : "checked" ∉ e.flags := by
  intro hmem
  rcases Element.mem_flags_of_ofDefinition h _ hmem with heq | hkey
  · exact absurd heq (by decide)
  · obtain ⟨p, hp, heq⟩ := List.mem_map.mp hkey
    have hne : lower p.1 ≠ "checked" :=
      Element.forall_mem_ofField (P := fun key => lower key ≠ "checked")
        (fun p hp => (hform.bare f hf p hp).2) (by decide +kernel) p hp
    rw [heq] at hne
    exact hne (by decide +kernel)

theorem held?_cases (h : form.Builds lang f e) (hform : form.Redisplayable lang)
    (hf : f ∈ form.schema.fields) (hfills : form.Fills lang s) :
    (e.isCheckbox = false ∧ ∃ t, form.schema.held? s f = f.holds? (.list [.str t])) ∨
      e.isCheckbox = true ∧ ∃ b, form.schema.held? s f = some (.bool b) := by
  unfold Schema.held?
  cases hbox : e.isCheckbox with
  | false =>
      obtain ⟨t, ht⟩ := hfills.text f hf e h hbox
      exact Or.inl ⟨rfl, t, by rw [ht]; rfl⟩
  | true =>
      have hflag := hform.flag f hf e h hbox
      refine Or.inr ⟨rfl, ?_⟩
      rcases hfills.box f hf e h hbox with hoff | ⟨t, ht, hon⟩
      · have hword : readFlag? "on" = some true := by decide +kernel
        exact ⟨false, by rw [hoff]; exact (Field.holds?_words hflag hword).1⟩
      · have hwords : ∀ t ∈ trueWords, readFlag? t = some true := by decide +kernel
        exact ⟨true, by rw [hon]; exact (Field.holds?_words hflag (hwords t ht)).2⟩

theorem held?_ne_null (h : form.Builds lang f e) (hform : form.Redisplayable lang)
    (hf : f ∈ form.schema.fields) (hfills : form.Fills lang s) :
    form.schema.held? s f ≠ some .null := by
  rcases h.held?_cases hform hf hfills with ⟨_, t, heq⟩ | ⟨_, b, heq⟩
  · rw [heq, Field.holds?_text (hform.single f hf)]
    split
    · exact fun hnull => nomatch hnull
    · exact fun hnull => coerce_ne_null _ t (Option.some.inj hnull)
  · rw [heq]
    exact fun hnull => nomatch hnull

theorem holds?_resent (h : form.Builds lang f e) (hform : form.Redisplayable lang)
    (hf : f ∈ form.schema.fields) (hfills : form.Fills lang s) {values : Value}
    {supplied : Supplied} (hsupplied : Supplied.ofValue values = .ok supplied)
    (hvalue : Supplied.valueFor? values e.name = form.schema.held? s f) :
    f.holds? (.list (e.resent supplied)) = form.schema.held? s f := by
  have hplain := h.isPlain hform hf
  have hname := h.name_ne_empty hform hf
  rcases h.held?_cases hform hf hfills with ⟨hbox, t, heq⟩ | ⟨hbox, b, heq⟩
  · rw [hbox] at hplain
    rw [Element.resent, if_neg (by rw [hbox]; exact Bool.false_ne_true),
      hplain.shownText_eq hname hsupplied, hvalue, heq]
    exact Field.holds?_again (hform.single f hf) (hform.exact f hf) t
  · rw [hbox] at hplain
    rw [hplain.resent_box hname hbox (h.checked_not_mem_flags hform hf) hsupplied
      (hvalue.trans heq), heq]
    have hword : readFlag? "true" = some true := by decide +kernel
    obtain ⟨hoff, hon⟩ := Field.holds?_words (hform.flag f hf e h hbox) hword
    cases b with
    | false => exact hoff
    | true => exact hon

end Builds

/-! ## Pages

The page sends one entry for each field under its name, and nothing else.  So a field finds
the entry of its own element, and the schema checks in the second round the entries that it
checked in the first. -/

theorem forall₂_builds {elements : List Element} (h : form.elements lang = .ok elements) :
    List.Forall₂ (form.Builds lang) form.schema.fields elements :=
  List.forall₂_map_left_iff (f := Definition.ofField form.schema.config).mp
    (Element.forall₂_of_ofDefinitions h)

section

variable {elements : List Element} (hform : form.Redisplayable lang)
  (helements : form.elements lang = .ok elements) (hfills : form.Fills lang s)

include hform helements

theorem map_sentName (supplied : Supplied) :
    elements.map (fun e => e.sentName supplied)
      = form.schema.fields.map fun f => f.formName form.schema.config := by
  have hall := (List.forall₂_and_left (p := fun f => f ∈ form.schema.fields) _ _).mpr
    ⟨fun _ hf => hf, forall₂_builds helements⟩
  have hnames : List.Forall₂ (fun f e => f.formName form.schema.config = e.sentName supplied)
      form.schema.fields elements := hall.imp fun f e h =>
    (((h.2.isPlain hform h.1).sentName_eq supplied).trans h.2.name_eq).symm
  rw [← List.forall₂_eq_eq_eq, List.forall₂_map_left_iff, List.forall₂_map_right_iff]
  exact hnames.flip.imp fun _ _ heq => heq.symm

theorem covers_resent (supplied : Supplied) :
    form.schema.Covers (.multi (Markup.resent elements supplied)) := by
  intro entry hentry
  obtain ⟨p, hp, rfl⟩ := List.mem_map.mp hentry
  obtain ⟨e, he, rfl⟩ := List.mem_map.mp hp
  have hmem : e.sentName supplied ∈ elements.map fun e => e.sentName supplied :=
    List.mem_map.mpr ⟨e, he, rfl⟩
  rw [map_sentName hform helements] at hmem
  obtain ⟨f, hf, heq⟩ := List.mem_map.mp hmem
  exact ⟨f, hf, congrArg some heq.symm⟩

theorem held?_multi (supplied : Supplied) (hf : f ∈ form.schema.fields) (he : e ∈ elements)
    (h : form.Builds lang f e) :
    form.schema.held? (.multi (Markup.resent elements supplied)) f
      = f.holds? (.list (e.resent supplied)) := by
  have hname : e.sentName supplied = f.formName form.schema.config :=
    ((h.isPlain hform hf).sentName_eq supplied).trans h.name_eq
  have hnodup : (elements.map fun e => e.sentName supplied).Nodup := by
    rw [map_sentName hform helements]
    exact hform.namesApart
  have hsent : Pairs.get? (Markup.resent elements supplied) (f.formName form.schema.config)
      = some (e.resent supplied) := by
    rw [← hname]
    exact Pairs.get?_map hnodup (fun e => e.resent supplied) he
  rw [Schema.held?, values?_multi, hsent, Option.bind_some]

include hfills

theorem ne_null_of_mem_heldPairs : ∀ p ∈ form.schema.heldPairs s, p.2 ≠ .null := by
  intro p hp hnull
  obtain ⟨f, hf, hheld⟩ := List.mem_filterMap.mp hp
  obtain ⟨v, hv, rfl⟩ := Option.map_eq_some_iff.mp hheld
  obtain ⟨e, _, h⟩ := Element.exists_mem_of_forall₂ (forall₂_builds helements) hf
  exact h.held?_ne_null hform hf hfills (hv.trans (congrArg some hnull))

/-- The value that is supplied for a field is the one that the field holds. -/
theorem valueFor?_heldPairs (hf : f ∈ form.schema.fields) :
    Supplied.valueFor? (.ofPairs (form.schema.heldPairs s)) (f.formName form.schema.config)
      = form.schema.held? s f := by
  rw [Supplied.valueFor?_ofPairs (ne_null_of_mem_heldPairs hform helements hfills)
    (Pairs.nodup_keys_filterMap hform.namesApart _), Schema.get?_heldPairs hform.namesApart hf]
  intro p hp hlower
  obtain ⟨g, hg, hheld⟩ := List.mem_filterMap.mp hp
  obtain ⟨v, _, rfl⟩ := Option.map_eq_some_iff.mp hheld
  rw [hform.eq_of_lower_eq hf hg hlower]

/-- A field holds of a page that shows what was held, when it is sent as it is, what it held
before. -/
theorem held?_resent {supplied : Supplied}
    (hsupplied : Supplied.ofValue (.ofPairs (form.schema.heldPairs s)) = .ok supplied)
    (hf : f ∈ form.schema.fields) :
    form.schema.held? (.multi (Markup.resent elements supplied)) f = form.schema.held? s f := by
  obtain ⟨e, he, h⟩ := Element.exists_mem_of_forall₂ (forall₂_builds helements) hf
  have hvalue := valueFor?_heldPairs hform helements hfills hf
  rw [← h.name_eq] at hvalue
  rw [held?_multi hform helements supplied hf he h]
  exact h.holds?_resent hform hf hfills hsupplied hvalue

theorem sentEntries_resent {supplied : Supplied}
    (hsupplied : Supplied.ofValue (.ofPairs (form.schema.heldPairs s)) = .ok supplied) :
    form.schema.sentEntries (.multi (Markup.resent elements supplied))
      = form.schema.sentEntries s := by
  have hheld : form.schema.heldPairs (.multi (Markup.resent elements supplied))
      = form.schema.heldPairs s := by
    refine List.filterMap_congr fun f hf => ?_
    rw [held?_resent hform helements hfills hsupplied hf]
  refine Value.map.inj ?_
  rw [Schema.sentEntries_eq hform.namesApart (covers_resent hform helements supplied),
    Schema.sentEntries_eq hform.namesApart hfills.covers, hheld]

theorem exists_shown {r : Report} (hr : form.schema.reportForm s = .ok r) :
    ∃ supplied, form.shown r.data lang = .ok (elements, supplied) ∧
      form.schema.sentEntries (.multi (Markup.resent elements supplied))
        = form.schema.sentEntries s := by
  have hdata : r.data = .ofPairs (form.schema.heldPairs s) := by
    rw [Report.data_ofOutcome hr]
    exact Schema.sentEntries_eq hform.namesApart hfills.covers
  have hsupplied := Supplied.ofValue_ofPairs
    (ne_null_of_mem_heldPairs hform helements hfills)
  refine ⟨_, ?_, sentEntries_resent hform helements hfills hsupplied⟩
  unfold shown
  rw [helements, hdata, hsupplied]

end

/-! ## Rounds

A round is determined by the report alone: the form's state enters only through the error that
is shown, and a browser does not send that. -/

theorem redisplays_iff (form : Form) {lang heading : Option String} {r : Report}
    {elements : List Element} {supplied : Supplied} {next : Form × Report}
    (hshown : form.shown r.data lang = .ok (elements, supplied))
    (hreport : form.schema.reportForm (.multi (Markup.resent elements supplied)) = .ok r) :
    Redisplays lang heading (form, r) next ↔ next = (form.showReport r heading, r) := by
  have hfields : form.resubmission r.data lang = .ok (Markup.resent elements supplied) := by
    rw [resubmission, hshown]
    rfl
  have hact : form.act (.submit (.fields (Markup.resent elements supplied)) heading)
      = (form.showReport r heading, .ok (.report r)) := by
    show form.showOutcome
      (form.schema.reportForm (.multi (Markup.resent elements supplied))) heading = _
    rw [hreport]
    rfl
  constructor
  · rintro ⟨_, fields, _, hsent, hsubmit⟩
    cases hfields.symm.trans hsent
    have heq := hact.symm.trans hsubmit
    simp only [Prod.mk.injEq, Except.ok.injEq, Answer.report.injEq] at heq
    exact Prod.ext heq.1.symm heq.2.symm
  · rintro rfl
    have hpage : ∃ page, form.html r.data lang = .ok page := by
      rw [html, pieces_eq, hshown]
      exact ⟨_, rfl⟩
    obtain ⟨page, hpage⟩ := hpage
    exact ⟨page, _, hpage, hfields, hact⟩

theorem exists_showReport_eq (form : Form) (message : String) (details : List String) (r : Report)
    (heading : Option String) : ∃ message' details',
    (form.setError message details).showReport r heading = form.setError message' details' := by
  unfold showReport
  split
  · exact ⟨message, details, rfl⟩
  · exact ⟨_, _, rfl⟩

/-- An age, as a number in a text input. -/
def ageField : Field where
  name := "age"
  type := .int
  declared := some [("element", .str "input"), ("inputType", .str "text")]

/-- A note, in a text area. -/
def noteField : Field where
  name := "note"
  type := .str
  limits := { maxLength := some 2 }
  declared := some [("element", .str "textarea"), ("inputType", .str "textarea")]

/-- Whether there is to be news, as a box. -/
def newsField : Field where
  name := "news"
  type := .optional .bool
  declared := some [("element", .str "input"), ("inputType", .str "checkbox")]

/-- A form of the three. -/
def visitForm : Form where
  schema := { name := "Visit", fields := [ageField, noteField, newsField] }
  options := { passwordHideSvg := "", passwordShowSvg := "" }
  buttonLabel := "Submit"
  componentElement := defaultComponentElement

/-- A visit with a number that is written in another way than it is shown, a note that is too long,
and a box that is ticked. -/
def sentVisit : List (Value × Value) :=
  [(.str "age", .str " +0_7"), (.str "note", .str "<b>"), (.str "news", .list [.str "off", .str "yes"])]

theorem visit_cases {f : Field} {e : Element} (hf : f ∈ visitForm.schema.fields)
    (h : visitForm.Builds none f e) :
    (f = ageField ∧ e.element = "input" ∧ e.isCheckbox = false) ∨
      (f = noteField ∧ e.element = "textarea" ∧ e.isCheckbox = false) ∨
      f = newsField ∧ e.element = "input" ∧ e.isCheckbox = true := by
  have shown : ∀ {element : String} {box : Bool},
      (Element.ofDefinition "" none (Definition.ofField {} f)).toOption.map
        (fun e => (e.element, e.isCheckbox)) = some (element, box) →
      e.element = element ∧ e.isCheckbox = box := by
    intro element box heq
    have hbuilt : Element.ofDefinition "" none (Definition.ofField {} f) = .ok e := h
    rw [hbuilt] at heq
    cases heq
    exact ⟨rfl, rfl⟩
  simp only [visitForm, List.mem_cons, List.not_mem_nil, or_false] at hf
  rcases hf with rfl | rfl | rfl
  · exact Or.inl ⟨rfl, shown (by decide +kernel)⟩
  · exact Or.inr (Or.inl ⟨rfl, shown (by decide +kernel)⟩)
  · exact Or.inr (Or.inr ⟨rfl, shown (by decide +kernel)⟩)

theorem redisplayable_visit : visitForm.Redisplayable none where
  apart := by decide +kernel
  named := by decide
  single := by decide
  exact := by
    intro f hf
    simp only [visitForm, List.mem_cons, List.not_mem_nil, or_false] at hf
    rcases hf with rfl | rfl | rfl <;> exact fun heq => nomatch heq
  bare := by decide +kernel
  editable := by
    intro f hf e h
    rcases visit_cases hf h with ⟨_, heq, _⟩ | ⟨_, heq, _⟩ | ⟨_, heq, _⟩
    · exact Or.inl heq
    · exact Or.inr heq
    · exact Or.inl heq
  flag := by
    intro f hf e h hbox
    rcases visit_cases hf h with ⟨_, _, heq⟩ | ⟨_, _, heq⟩ | ⟨rfl, _⟩
    · exact absurd (heq.symm.trans hbox) Bool.false_ne_true
    · exact absurd (heq.symm.trans hbox) Bool.false_ne_true
    · exact Ty.IsFlag.optional Ty.IsFlag.bool

theorem fills_visit : visitForm.Fills none (.single sentVisit) where
  covers := by
    show ∀ e ∈ (Submission.single sentVisit).entries, _
    decide +kernel
  text := by
    intro f hf e h hbox
    rcases visit_cases hf h with ⟨rfl, _⟩ | ⟨rfl, _⟩ | ⟨_, _, heq⟩
    · exact ⟨" +0_7", rfl⟩
    · exact ⟨"<b>", rfl⟩
    · exact absurd (hbox.symm.trans heq) Bool.false_ne_true
  box := by
    intro f hf e h hbox
    rcases visit_cases hf h with ⟨_, _, heq⟩ | ⟨_, _, heq⟩ | ⟨rfl, _⟩
    · exact absurd (heq.symm.trans hbox) Bool.false_ne_true
    · exact absurd (heq.symm.trans hbox) Bool.false_ne_true
    · exact Or.inr ⟨"yes", by decide, rfl⟩

end Form

end WebForm
