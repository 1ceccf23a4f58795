/-
The tags of a form nest.

The page of a form is put together of many pieces: a tag with its attributes, the block of a
field around it, the errors, the set of fields, the form with its button, and the element
around the form.  Each piece nests by itself, and the pieces are put together as they are
written, so that the whole nests:

    f.isTidy lang → f.componentHtml values lang = .ok out → isWellNested out

for all values that can be supplied.  A form is tidy if its fields are, if its options and its
pending error have no bracket and no double quote, and if the markup that may be given among
the options, the pictures on the buttons of a password and what stands before and behind the
form, nests by itself.  All of that is about the form, and the values do not come into it.

For supplied values nothing is assumed, because they are escaped: no character of an escaped
text has a meaning to the reader, and so a value leaves the reader where it is, in a tag as
well as in the content of a text area (`Supplied.isQuiet_get?`).

The name of the element around the form must not be `input`, which is never open, so that the
tag that closes it would have nothing to close.  For the elements of fields nothing like that
is needed, as an `input` is written without a tag that closes it.
-/
import WebForm.Proofs.Holes
import WebForm.Proofs.Nesting.Element

namespace WebForm

open WebForm.Text
open WebForm.Markup
open WebForm.Element (nonEmpty TagAttribute)

/-- The texts of supplied values hold no bracket and no double quote. -/
theorem Supplied.isQuiet_get? {values : Value} {supplied : Supplied}
    (h : Supplied.ofValue values = .ok supplied) {name t : String}
    (ht : Pairs.get? supplied name = some t) : isQuiet t = true := by
  rw [Supplied.get?_ofValue h] at ht
  obtain ⟨v, _, rfl⟩ := Option.map_eq_some_iff.mp ht
  apply List.all_eq_true.mpr
  intro c hc
  have hmarkup := Supplied.isMarkupChar_of_mem_textOf hc
  simp only [isMarkupChar, Bool.or_eq_false_iff, decide_eq_false_iff_not, and_assoc] at hmarkup
  simp [isQuietChar, hmarkup.1, hmarkup.2.1, hmarkup.2.2.1]

namespace Element

variable {e : Element} {shown : Option String} {supplied : Supplied}

/-! ## Tags

A tag is read from its bracket to its end.  The attributes follow one another, and past each
of them the reader is in the tag as before. -/

/-- The name of the attribute is one of markup, and its value has no bracket and no double quote. -/
def TagAttribute.IsTidy (a : TagAttribute) : Prop :=
  isMarkupName a.name = true ∧ ∀ v, a.value = some v → isQuiet v.text = true

theorem tidy_shownAttributes (he : e.IsTidy) (hshown : ∀ t, shown = some t → isQuiet t = true)
    {p : String × Piece} (hp : p ∈ e.shownAttributes shown) :
    isMarkupName p.1 = true ∧ isQuiet p.2.text = true := by
  have declared : ∀ p ∈ e.attributes.map fun p => (p.1, Piece.fixed p.2.written),
      isMarkupName p.1 = true ∧ isQuiet p.2.text = true := by
    intro p hp
    obtain ⟨q, hq, rfl⟩ := List.mem_map.mp hp
    exact he.attributes q hq
  unfold shownAttributes at hp
  split at hp
  · rename_i t
    rcases Pairs.mem_of_mem_set hp with hp | rfl
    · exact declared p hp
    · exact ⟨(by decide : isMarkupName "value" = true), hshown t rfl⟩
  · exact declared p hp

theorem tidy_tagAttributes (he : e.IsTidy) (hshown : ∀ t, shown = some t → isQuiet t = true)
    {a : TagAttribute} (ha : a ∈ e.tagAttributes shown supplied) : a.IsTidy := by
  unfold tagAttributes at ha
  simp only [List.mem_append] at ha
  rcases ha with ((ha | ha) | ha) | ha
  · rw [List.mem_singleton.mp ha]
    exact ⟨(by decide : isMarkupName "class" = true), fun v hv => Option.some.inj hv ▸ he.name⟩
  · obtain ⟨p, hp, rfl⟩ := List.mem_map.mp ha
    obtain ⟨hname, hvalue⟩ := tidy_shownAttributes he hshown (List.mem_filter.mp hp).1
    exact ⟨isMarkupName_lower hname, fun v hv => Option.some.inj hv ▸ hvalue⟩
  · obtain ⟨f, hf, rfl⟩ := List.mem_map.mp ha
    exact ⟨he.flags f hf, fun v hv => nomatch hv⟩
  · split at ha
    · rw [List.mem_singleton.mp ha]
      exact ⟨(by decide : isMarkupName "checked" = true), fun v hv => nomatch hv⟩
    · exact absurd ha List.not_mem_nil

theorem TagAttribute.IsTidy.reads {a : TagAttribute} (ha : a.IsTidy) (name : String) :
    Reads (.inside name) (Piece.write a.pieces) (.inside name) [] := by
  obtain ⟨key, value⟩ := a
  obtain ⟨hkey, hvalue⟩ := ha
  cases value with
  | none =>
      have hblank : Reads (.inside name) " " (.inside name) [] := rfl
      have htext : Piece.write (TagAttribute.pieces ⟨key, none⟩) = " " ++ key := by
        simp [TagAttribute.pieces, Piece.text]
      rw [htext]
      exact hblank.cons (Reads.inner hkey name)
  | some v =>
      have htext : Piece.write (TagAttribute.pieces ⟨key, some v⟩)
          = " " ++ key ++ "=\x22" ++ v.text ++ "\x22" := by
        simp [TagAttribute.pieces, Piece.text, String.append_assoc]
      rw [htext]
      exact Reads.valued hkey (hvalue v rfl) name

theorem reads_attributes {attributes : List TagAttribute} (h : ∀ a ∈ attributes, a.IsTidy)
    (name : String) :
    Reads (.inside name) (Piece.write (attributes.flatMap TagAttribute.pieces)) (.inside name) [] := by
  induction attributes with
  | nil => rfl
  | cons a attributes ih =>
      obtain ⟨ha, hrest⟩ := List.forall_mem_cons.mp h
      rw [List.flatMap_cons, Piece.write_append]
      exact (ha.reads name).cons (ih hrest)

theorem reads_start (he : e.IsTidy) (hshown : ∀ t, shown = some t → isQuiet t = true) :
    Reads .text ("<" ++ e.element
        ++ Piece.write ((e.tagAttributes shown supplied).flatMap TagAttribute.pieces))
      (.inside e.element) [] := by
  refine Reads.start he.element ?_
    (reads_attributes (fun a ha => tidy_tagAttributes he hshown ha) e.element)
  -- the class is always there, and a blank stands before it
  unfold tagAttributes
  simp [TagAttribute.pieces, Piece.text]

theorem nested_pieces (he : e.IsTidy) (hshown : ∀ t, shown = some t → isQuiet t = true)
    (hsupplied : ∀ name t, Pairs.get? supplied name = some t → isQuiet t = true) :
    Nested (Piece.write (e.pieces shown supplied)) := by
  have start : Reads .text ("<" ++ e.element
      ++ Piece.write ((e.tagAttributes shown supplied).flatMap TagAttribute.pieces))
      (.inside e.element) [] := reads_start he hshown
  have written : Piece.write (e.pieces shown supplied)
      = "<" ++ e.element ++ Piece.write ((e.tagAttributes shown supplied).flatMap TagAttribute.pieces)
        ++ e.tagEnd ++ Piece.write (e.content supplied) := by
    simp [pieces, Piece.text, String.append_assoc]
  rw [written]
  by_cases harea : e.element = "textarea"
  · have hend : e.tagEnd = ">" := by simp [tagEnd, isCheckbox, harea]
    have hcontent : Piece.write (e.content supplied)
        = (e.stateName?.bind (Pairs.get? supplied)).getD "" ++ "</textarea>" := by
      simp [content, harea, Piece.text]
    have hquiet : isQuiet ((e.stateName?.bind (Pairs.get? supplied)).getD "") = true := by
      cases hstate : e.stateName?.bind (Pairs.get? supplied) with
      | none => rfl
      | some t =>
          obtain ⟨name, _, ht⟩ := Option.bind_eq_some_iff.mp hstate
          exact hsupplied name t ht
    rw [hend, hcontent, ← String.append_assoc]
    have close : Reads (.inside "textarea") ">" .text [.opening "textarea"] := rfl
    have finish : Reads .text "</textarea>" .text [.closing "textarea"] := rfl
    rw [harea] at start ⊢
    exact Nested.enclose (start.append close) (by decide) (Nested.of_isQuiet hquiet) finish
  · have hcontent : Piece.write (e.content supplied) = "" := by simp [content, harea]
    rw [hcontent, String.append_empty]
    by_cases hinput : e.element = "input"
    · rw [hinput] at start ⊢
      refine Nested.input (start.append ?_)
      unfold tagEnd
      rw [hinput]
      split <;> rfl
    · have hend : e.tagEnd = "/>" := by simp [tagEnd, isCheckbox, harea, hinput]
      rw [hend]
      refine Nested.alone (n := e.element) (start.append ?_)
      change run (.inside e.element) ['/', '>'] = _
      simp [run, step, stepInside]

/-! ## Blocks

What stands before and behind an element is chosen by its sort: a label, a hidden input, a
button with a picture. -/

theorem nested_labelMarkup (he : e.IsTidy) : Nested e.labelMarkup := by
  have opening : Reads .text ("<label for=\x22" ++ e.id ++ "\x22>") .text [.opening "label"] :=
    Reads.around "label" rfl he.id rfl
  have finish : Reads .text "</label>" .text [.closing "label"] := rfl
  exact Nested.enclose opening (by decide) (Nested.of_isQuiet he.label) finish

theorem nested_before (he : e.IsTidy) : Nested e.before := by
  unfold before
  split
  · exact Nested.input (Reads.around "input" rfl he.name rfl)
  · split
    · exact nested_labelMarkup he
    · exact Nested.of_isQuiet rfl

theorem nested_after (he : e.IsTidy) {o : Options} (hhide : Nested o.passwordHideSvg)
    (hshow : Nested o.passwordShowSvg) : Nested (e.after o) := by
  unfold after
  split
  · exact nested_labelMarkup he
  · split
    · have hide : Reads .text "<button class=\x22button-password-hide\x22 type=\x22button\x22>" .text
          [.opening "button"] := by decide +kernel
      have between : "</button>
                <button class=\x22button-password-show\x22 type=\x22button\x22>"
          = "</button>" ++ "
                <button class=\x22button-password-show\x22 type=\x22button\x22>" := by
        decide +kernel
      have finish : Reads .text "</button>" .text [.closing "button"] := rfl
      have second : Reads .text "
                <button class=\x22button-password-show\x22 type=\x22button\x22>"
          .text [.opening "button"] := by decide +kernel
      have both := (Nested.enclose hide (by decide) hhide finish).append
        (Nested.enclose second (by decide) hshow finish)
      rw [between]
      simpa only [String.append_assoc] using both
    · exact Nested.of_isQuiet rfl

theorem nested_hintMarkup {hint : Option Phrase} (h : ∀ t, hint = some t → isQuiet t.written = true) :
    Nested (hintMarkup hint) := by
  unfold hintMarkup
  split
  · rename_i t ht
    have opening : Reads .text "<div class=\x22requirements\x22>" .text [.opening "div"] := rfl
    have finish : Reads .text "</div>" .text [.closing "div"] := rfl
    have hquiet := h t (Option.eq_some_of_filter_eq_some ht)
    exact Nested.enclose opening (by decide) (Nested.of_isQuiet hquiet) finish
  · exact Nested.of_isQuiet rfl

/-- The block of a tidy field nests. -/
theorem nested_fieldPieces (he : e.IsTidy) (hshown : ∀ t, shown = some t → isQuiet t = true)
    (hsupplied : ∀ name t, Pairs.get? supplied name = some t → isQuiet t = true) {o : Options}
    (hhide : Nested o.passwordHideSvg) (hshow : Nested o.passwordShowSvg) :
    Nested (Piece.write (e.fieldPieces shown supplied o)) := by
  have hclass : isQuiet ((nonEmpty e.inputType).getD e.element) = true := by
    cases htype : nonEmpty e.inputType with
    | none => exact isQuiet_of_isMarkupName he.element
    | some t => exact he.inputType t (nonEmpty_eq_some_iff.mp htype).1
  have opening : Reads .text
      ("<div class=\x22" ++ (nonEmpty e.inputType).getD e.element ++ "\x22>") .text [.opening "div"] :=
    Reads.around "div" rfl hclass rfl
  have finish : Reads .text "</div>" .text [.closing "div"] := rfl
  have inner := (((nested_before he).append (nested_pieces he hshown hsupplied)).append
    (nested_after he hhide hshow)).append (nested_hintMarkup he.hint)
  have block := Nested.enclose opening (by decide) inner finish
  simpa [fieldPieces, Piece.text, String.append_assoc] using block

end Element

namespace Markup

/-! ## Around the fields -/

theorem nested_items {details : List String} (hne : details ≠ [])
    (h : ∀ t ∈ details, isQuiet t = true) :
    Nested ("<li>\n" ++ "</li>\n<li>\n".intercalate details ++ "</li>") := by
  have opening : Reads .text "<li>\n" .text [.opening "li"] := rfl
  have finish : Reads .text "</li>" .text [.closing "li"] := rfl
  have item : ∀ t, isQuiet t = true → Nested ("<li>\n" ++ t ++ "</li>") := fun t ht =>
    Nested.enclose opening (by decide) (Nested.of_isQuiet ht) finish
  induction details with
  | nil => exact absurd rfl hne
  | cons t rest ih =>
      obtain ⟨ht, hrest⟩ := List.forall_mem_cons.mp h
      cases rest with
      | nil =>
          rw [String.intercalate_singleton]
          exact item t ht
      | cons u rest =>
          have line : Nested "\n" := Nested.of_isQuiet rfl
          have both := ((item t ht).append line).append (ih (List.cons_ne_nil u rest) hrest)
          have between : "</li>\n<li>\n" = "</li>" ++ ("\n" ++ "<li>\n") := rfl
          rw [String.intercalate_cons_cons]
          simpa only [between, String.append_assoc] using both

theorem nested_errors {message : String} {details : List String} (hmessage : isQuiet message = true)
    (hdetails : ∀ t ∈ details, isQuiet t = true) : Nested (errors message details) := by
  have opening : Reads .text "<div class=\x22error\x22>\n" .text [.opening "div"] := rfl
  have finish : Reads .text "\n</div>" .text [.closing "div"] := rfl
  have line : Nested "\n" := Nested.of_isQuiet rfl
  have heading := Nested.of_isQuiet hmessage
  cases hempty : message.isEmpty with
  | true =>
      rw [errors, hempty, if_pos rfl]
      exact Nested.of_isQuiet rfl
  | false =>
      cases details with
      | nil =>
          have block := Nested.enclose opening (by decide) (heading.append line) finish
          simpa [errors, hempty, String.append_assoc] using block
      | cons t rest =>
          have span : Reads .text "<span>" .text [.opening "span"] := rfl
          have spanned : Reads .text ":</span>" .text [.closing "span"] := rfl
          have list : Reads .text "\n<ul>\n" .text [.opening "ul"] := rfl
          have listed : Reads .text "\n</ul>" .text [.closing "ul"] := rfl
          have items := nested_items (List.cons_ne_nil t rest) hdetails
          have inner := (Nested.enclose span (by decide) heading spanned).append
            (Nested.enclose list (by decide) items listed)
          have block := Nested.enclose opening (by decide) inner finish
          have start : ":</span>\n<ul>\n<li>" = ":</span>" ++ ("\n<ul>\n" ++ "<li>") := rfl
          have item : "<li>\n" = "<li>" ++ "\n" := rfl
          have stop : "</li>\n</ul>" = "</li>" ++ "\n</ul>" := rfl
          simp only [item, String.append_assoc, -String.reduceAppend] at block
          simp only [errors, hempty, Bool.false_eq_true, if_false, List.isEmpty_cons, start, stop,
            String.append_assoc, -String.reduceAppend]
          exact block

theorem nested_fieldset {inner : String} (h : Nested inner) (on : Bool) {legend : Option String}
    (hlegend : ∀ t, legend = some t → isQuiet t = true) :
    Nested ((fieldset on legend).1 ++ inner ++ (fieldset on legend).2) := by
  have opening : Reads .text "<fieldset>" .text [.opening "fieldset"] := rfl
  have finish : Reads .text "</fieldset>" .text [.closing "fieldset"] := rfl
  unfold fieldset
  cases on with
  | false => simpa using h
  | true =>
      simp only [Bool.not_true, Bool.false_eq_true, if_false]
      cases hl : nonEmpty legend with
      | none => exact Nested.enclose opening (by decide) h finish
      | some l =>
          have started : Reads .text "<legend>" .text [.opening "legend"] := rfl
          have stopped : Reads .text "</legend>" .text [.closing "legend"] := rfl
          have hquiet := hlegend l (Element.nonEmpty_eq_some_iff.mp hl).1
          have named := Nested.enclose started (by decide) (Nested.of_isQuiet hquiet) stopped
          have block := Nested.enclose opening (by decide) (named.append h) finish
          have start : "<fieldset><legend>" = "<fieldset>" ++ "<legend>" := rfl
          simpa only [start, String.append_assoc] using block

/-! ## The tag of the form

The attributes of the form's own tag can each be left out, and begin with a blank if they are
not. -/

theorem reads_optionalAttribute {key : String} (hkey : isMarkupName key = true)
    {value : Option String} (hvalue : ∀ t, value = some t → isQuiet t = true) (name : String) :
    Reads (.inside name) (optionalAttribute key value) (.inside name) [] := by
  unfold optionalAttribute
  split
  · rename_i v hv
    have hquiet := hvalue v (Element.nonEmpty_eq_some_iff.mp hv).1
    exact Reads.valued hkey hquiet name
  · rfl

theorem head?_optionalAttribute_append (key : String) (value : Option String) {s : String}
    (h : s.toList.head? = some ' ') : (optionalAttribute key value ++ s).toList.head? = some ' ' := by
  unfold optionalAttribute
  split
  · simp
  · simpa using h

end Markup

/-! ## Tidy options -/

namespace Options

/-- The options that are shown as texts. -/
def texts (o : Options) : List (Option String) :=
  [o.action, o.class_, o.id, o.idSuffix, o.legend, o.method]

/-- The options that are written as markup. -/
def markups (o : Options) : List String :=
  [o.extraHtml.getD "", o.passwordHideSvg, o.passwordShowSvg]

/-- No text has a bracket or a double quote, and every markup nests by itself. -/
def isTidy (o : Options) : Bool := o.texts.all (·.all isQuiet) && o.markups.all isWellNested

variable {o : Options}

theorem isQuiet_of_isTidy (h : o.isTidy = true) {text? : Option String} (hmem : text? ∈ o.texts) :
    ∀ t, text? = some t → isQuiet t = true := by
  rintro t rfl
  exact List.all_eq_true.mp (Bool.and_eq_true_iff.mp h).1 _ hmem

theorem nested_of_isTidy (h : o.isTidy = true) {s : String} (hmem : s ∈ o.markups) : Nested s :=
  isWellNested_iff.mp (List.all_eq_true.mp (Bool.and_eq_true_iff.mp h).2 s hmem)

end Options

/-! ## The form -/

namespace Markup

variable {o : Options}

theorem exists_formClass (h : o.isTidy = true) : ∃ c, c.isEmpty = false ∧ isQuiet c = true ∧
    formTag o = "<form" ++ optionalAttribute "action" o.action ++ optionalAttribute "class" (some c)
      ++ optionalAttribute "id" o.id ++ (if o.novalidate then " novalidate" else "")
      ++ optionalAttribute "method" o.method ++ ">" := by
  refine ⟨_, ?_, ?_, rfl⟩
  · split
    · simp
    · decide
  · split
    · rename_i c hc
      exact isQuiet_append rfl (Options.isQuiet_of_isTidy h (by simp [Options.texts]) c
        (Element.nonEmpty_eq_some_iff.mp hc).1)
    · rfl

theorem reads_formTag (h : o.isTidy = true) : Reads .text (formTag o) .text [.opening "form"] := by
  have optional : ∀ (key : String) (text? : Option String), isMarkupName key = true →
      text? ∈ o.texts → Reads (.inside "form") (optionalAttribute key text?) (.inside "form") [] :=
    fun _ _ hkey hmem => reads_optionalAttribute hkey (Options.isQuiet_of_isTidy h hmem) "form"
  obtain ⟨c, hc, hquiet, htag⟩ := exists_formClass h
  have action := optional "action" o.action (by decide) (by simp [Options.texts])
  have classes : Reads (.inside "form") (optionalAttribute "class" (some c)) (.inside "form") [] :=
    reads_optionalAttribute (by decide) (fun t ht => Option.some.inj ht ▸ hquiet) "form"
  have id := optional "id" o.id (by decide) (by simp [Options.texts])
  have novalidate : Reads (.inside "form") (if o.novalidate then " novalidate" else "")
      (.inside "form") [] := by
    split <;> rfl
  have method := optional "method" o.method (by decide) (by simp [Options.texts])
  have close : Reads (.inside "form") ">" .text [.opening "form"] := rfl
  -- the class is always there, and a blank stands before it
  have blank : (optionalAttribute "class" (some c)).toList.head? = some ' ' := by
    rw [optionalAttribute, Element.nonEmpty_eq_some_iff.mpr ⟨rfl, hc⟩]
    simp
  have start := Reads.start (by decide : isMarkupName "form" = true)
    (head?_optionalAttribute_append "action" o.action (by simp [blank]))
    (action.cons (((classes.cons id).cons novalidate).cons method))
  have written : "<form" = "<" ++ "form" := rfl
  rw [htag, written]
  simpa only [String.append_assoc, -String.reduceAppend] using start.cons close

theorem nested_submitButton {label : String} (h : isQuiet label = true) :
    Nested (submitButton label none) := by
  have start : Reads .text
      "<div class=\x22submit\x22><input class=\x22button\x22 type=\x22submit\x22 value=\x22"
      (.quoted "input" '"') [.opening "div"] := by
    decide +kernel
  have stop : Reads (.quoted "input" '"') "\x22></div>" .text [.opening "input", .closing "div"] :=
    rfl
  have written : submitButton label none
      = "<div class=\x22submit\x22><input class=\x22button\x22 type=\x22submit\x22 value=\x22" ++ label
        ++ "\x22></div>" := by
    simp [submitButton, nonEmpty]
  rw [written]
  exact ⟨_, (start.append (Reads.value h "input")).append stop, fun stack => by simp [nest]⟩

variable {elements : List Element} {supplied : Supplied}

theorem nested_fields (helements : ∀ e ∈ elements, e.IsTidy)
    (hsupplied : ∀ name t, Pairs.get? supplied name = some t → isQuiet t = true)
    (h : o.isTidy = true) : Nested (Piece.write (elements.flatMap (suppliedField supplied o))) := by
  have hide := Options.nested_of_isTidy h (s := o.passwordHideSvg) (by simp [Options.markups])
  have reveal := Options.nested_of_isTidy h (s := o.passwordShowSvg) (by simp [Options.markups])
  induction elements with
  | nil => exact Nested.of_isQuiet rfl
  | cons e elements ih =>
      obtain ⟨he, hrest⟩ := List.forall_mem_cons.mp helements
      rw [List.flatMap_cons, Piece.write_append]
      exact (Element.nested_fieldPieces he (hsupplied e.name) hsupplied hide reveal).append (ih hrest)

/-- A form of tidy fields nests. -/
theorem nested_form (helements : ∀ e ∈ elements, e.IsTidy)
    (hsupplied : ∀ name t, Pairs.get? supplied name = some t → isQuiet t = true)
    (h : o.isTidy = true) {label message : String} {details : List String}
    (hlabel : isQuiet label = true) (hmessage : isQuiet message = true)
    (hdetails : ∀ t ∈ details, isQuiet t = true) :
    Nested (Piece.write (form elements supplied o label message details)) := by
  have line : Nested "\n" := Nested.of_isQuiet rfl
  have extra := Options.nested_of_isTidy h (s := o.extraHtml.getD "") (by simp [Options.markups])
  have legend : ∀ t, o.legend = some t → isQuiet t = true :=
    Options.isQuiet_of_isTidy h (by simp [Options.texts])
  have inner := (((extra.append line).append (nested_fields helements hsupplied h)).append line).append
    (nested_errors hmessage hdetails)
  have finish : Reads .text "\n</form>" .text [.closing "form"] := rfl
  have whole := Nested.enclose (reads_formTag h) (by decide)
    ((nested_fieldset inner o.fieldset legend).append (nested_submitButton hlabel)) finish
  simpa [form, Piece.text, String.append_assoc] using whole

end Markup

namespace Form

variable {f : Form} {values : Value} {lang : Option String}

/-- The form has tidy fields and options, an element around it that is no input, and a button and a
pending error without brackets and double quotes. -/
def isTidy (f : Form) (lang : Option String) : Bool :=
  f.schema.definitions.all (·.isTidy lang) && f.options.isTidy
    && (isMarkupName f.componentElement && f.componentElement != "input")
    && (f.buttonLabel :: f.message :: f.details).all isQuiet

theorem tidy_elements (hfields : f.schema.definitions.all (·.isTidy lang) = true)
    (hoptions : f.options.isTidy = true) {elements : List Element}
    (h : f.elements lang = .ok elements) : ∀ e ∈ elements, e.IsTidy := by
  have hsuffix : isQuiet (f.options.idSuffix.getD "") = true := by
    cases hid : f.options.idSuffix with
    | none => rfl
    | some t => exact Options.isQuiet_of_isTidy hoptions (by simp [Options.texts]) t hid
  intro e he
  obtain ⟨d, hd, hbuilt⟩ := Element.exists_mem_of_forall₂ (Element.forall₂_of_ofDefinitions h).flip he
  exact Element.isTidy_of_ofDefinition hbuilt (List.all_eq_true.mp hfields d hd) hsuffix

theorem exists_componentHtml {elements : List Element} {supplied : Supplied}
    (h : f.elements lang = .ok elements) (hsupplied : Supplied.ofValue values = .ok supplied) :
    ∃ out, f.componentHtml values lang = .ok out := by
  simp only [componentHtml, html, pieces, h, hsupplied]
  exact ⟨_, rfl⟩

/-- Whatever values are supplied, the tags of a tidy form inside its own element nest. -/
theorem componentHtml_wellNested {out : String} (h : f.isTidy lang = true)
    (hout : f.componentHtml values lang = .ok out) : isWellNested out = true := by
  simp only [isTidy, Bool.and_eq_true, bne_iff_ne, List.all_cons, List.all_eq_true] at h
  obtain ⟨⟨⟨hfields, hoptions⟩, hname, hinput⟩, hlabel, hmessage, hdetails⟩ := h
  unfold componentHtml at hout
  obtain ⟨inner, hinner, rfl⟩ : ∃ inner, f.html values lang = .ok inner ∧
      "<" ++ f.componentElement ++ ">" ++ inner ++ "</" ++ f.componentElement ++ ">" = out := by
    cases hhtml : f.html values lang with
    | error e =>
        rw [hhtml] at hout
        cases hout
    | ok inner =>
        rw [hhtml] at hout
        exact ⟨inner, rfl, Except.ok.inj hout⟩
  obtain ⟨elements, supplied, helements, hsupplied, _, rfl⟩ := pieces_of_html hinner
  have form := nested_form (tidy_elements (List.all_eq_true.mpr hfields) hoptions helements)
    (fun _ _ => Supplied.isQuiet_get? hsupplied) hoptions hlabel hmessage hdetails
  have component := Nested.enclose (Reads.openBare hname) hinput form (Reads.close hname)
  rw [isWellNested_iff]
  simpa only [String.append_assoc] using component

/-- A form with a box, a password with its buttons, and a text area, in a set of fields behind a
line of markup, with an error pending. -/
def joinForm : Form where
  schema := { name := "Join", fields := [
    { name := "terms", type := .bool,
      declared := some [("element", .str "input"), ("inputType", .str "checkbox"),
        ("label", .str "I agree")] },
    { name := "password", type := .str,
      declared := some [("element", .str "input"), ("inputType", .str "password"),
        ("hint", .str "Eight letters or more")] },
    { name := "about", type := .str,
      declared := some [("element", .str "textarea"), ("inputType", .str "textarea"),
        ("Autofocus", .bool true), ("rows", .int 4)] }] }
  options := {
    extraHtml := some "<p>Welcome</p>", fieldset := true, legend := some "Join us"
    passwordHideSvg := "<svg />", passwordShowSvg := "<svg></svg>" }
  buttonLabel := "Join"
  componentElement := defaultComponentElement
  message := "Validation Errors"
  details := ["terms: Field required", "password: too short"]

/-- It writes what nests, though the text that is supplied would close the text area and open a tag
of its own. -/
theorem joinForm_wellNested : joinForm.isTidy none = true ∧
    ∃ out, joinForm.componentHtml (.ofPairs [("about", .str "</textarea><b>")]) none = .ok out ∧
      isWellNested out = true := by
  have htidy : joinForm.isTidy none = true := by decide +kernel
  obtain ⟨elements, helements⟩ : ∃ elements, joinForm.elements none = .ok elements := by
    have hshown : (joinForm.elements none).toOption.isSome = true := by decide +kernel
    generalize joinForm.elements none = built at hshown
    cases built with
    | error e => cases hshown
    | ok elements => exact ⟨elements, rfl⟩
  have hsupplied : Supplied.ofValue (.ofPairs [("about", .str "</textarea><b>")]) = .ok _ :=
    Supplied.ofValue_single Value.noConfusion
  obtain ⟨out, hout⟩ := exists_componentHtml helements hsupplied
  exact ⟨htidy, out, hout, componentHtml_wellNested htidy hout⟩

end Form

end WebForm
