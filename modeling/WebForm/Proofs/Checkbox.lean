/-
Checkboxes, from the page to the report.

A checkbox sends `off` from a hidden input and, when it is ticked, the value in its own tag.
That value is the supplied one, so that a box which is supplied as set sends `true`, and one
without a supplied value sends `on`.  A box that is supplied as unset sends `false`: then
ticking it does not set the flag, and what is read is a list of two unset flags, which is
refused.  A box is faithful if it is not ticked after it was shown as unset.

`boxes_round_trip` says of any boxes of a form, and any choice of ticks, that what a
submission of the page is read as for a box is whether the box is ticked exactly when the box
is faithful:

    valueAt? (read submission) box.name = some (.bool (ticked box.name)) ↔ Faithful shown ticked

The submission may hold anything besides.  Errors at the name of a box are decided as well:
there is none exactly if the box is faithful and the limits of its field take the flag, and a
field without limits takes both.  That the submission is reported on at all is assumed for
fields with limits, which may meet a value that they cannot be applied to, and proved for the
others.

A `Box` is a field that holds a flag, with the element that the form makes of it and no name
or value declared: a declared value would be what a ticked box sends, and a field with a
declared name would be sent under a name under which the form does not read it.
-/
import WebForm.Proofs.Endpoint
import WebForm.Proofs.ErrorBlock
import WebForm.Proofs.Flag
import WebForm.Proofs.Tag

namespace WebForm

open WebForm.Text

/-! ## What a browser sends

The browser sees a tag and sends the value that stands in it.  The supplied value is written
there, escaped, and read back as it was. -/

namespace Element

/-- A hidden input before a box. -/
def hiddenInput (name value : String) : String :=
  " <input type=\x22hidden\x22 name=\x22" ++ name ++ "\x22 value=\x22" ++ value ++ "\x22>"

/-- The value that a ticked box sends: the one in its tag, as a browser reads it, or `on`. -/
def boxValue (e : Element) (supplied : Supplied) : String :=
  match e.tagAttribute? supplied "value" with
  | some a => unescape ((a.value.map Piece.text).getD "")
  | none => "on"

/-- What a browser sends for a box: the value of the hidden input, and its own if it is ticked. -/
def sent (e : Element) (supplied : Supplied) (ticked : Bool) : List Value :=
  .str "off" :: if ticked then [.str (e.boxValue supplied)] else []

theorem before_of_isCheckbox {e : Element} (h : e.isCheckbox = true) :
    e.before = hiddenInput e.name "off" := by
  unfold before hiddenInput
  rw [if_pos h]
  simp [String.append_assoc]

variable {e : Element} {supplied : Supplied}

theorem IsPlain.boxValue_eq {values : Value} (h : e.IsPlain none)
    (hsupplied : Supplied.ofValue values = .ok supplied) :
    e.boxValue supplied
      = ((Supplied.valueFor? values e.name).map Value.attributeText).getD "on" := by
  unfold boxValue
  rw [h.tagAttribute?_value, Supplied.get?_ofValue hsupplied]
  cases Supplied.valueFor? values e.name with
  | none => rfl
  | some v => exact Supplied.unescape_textOf v

end Element

/-! ## What a form reads

A field that holds a flag collapses what is sent for it: `off` alone is unset, and `off` with
a word that sets the flag is set.  Two words that do not set it stay a list, and no flag is a
list. -/

/-- A box says what was chosen, unless it is shown as unset and then ticked. -/
def Faithful (shown : Option Value) (ticked : Bool) : Prop :=
  ticked = true → shown ≠ some (.bool false)

theorem Submission.coerce_word {word : String} {b : Bool} (h : readFlag? word = some b) :
    coerce .bool (.str word) = .bool b := by
  show (Option.map Value.bool (readFlag? word)).getD (.str word) = .bool b
  rw [h]
  rfl

/-- A field that holds a flag reads `off` and one more word as whether the word sets the flag; two
words that do not are no flag. -/
theorem Field.holds?_words {f : Field} (h : f.type.IsFlag) {word : String} {b : Bool}
    (hword : Submission.readFlag? word = some b) :
    f.holds? (.list [.str "off"]) = some (.bool false) ∧
      f.holds? (.list [.str "off", .str word])
        = some (if b then .bool true else .list [.bool false, .bool false]) := by
  have hoff : Submission.readFlag? "off" = some false := by decide +kernel
  have both : Submission.collapseValue (.list [.bool false, .bool true]) = .bool true := by
    decide +kernel
  have neither : Submission.collapseValue (.list [.bool false, .bool false])
      = .list [.bool false, .bool false] := by
    decide +kernel
  unfold Field.holds? Submission.readField?
  rw [h.kind_eq]
  constructor
  · simp only [Submission.spread, List.map_cons, List.map_nil, Submission.coerce_word hoff]
    rfl
  · simp only [Submission.spread, List.map_cons, List.map_nil, Submission.coerce_word hoff,
      Submission.coerce_word hword]
    cases b with
    | true => exact congrArg some both
    | false => exact congrArg some neither

namespace Element

variable {e : Element} {supplied : Supplied} {values : Value}

theorem IsPlain.readFlag?_boxValue (h : e.IsPlain none)
    (hsupplied : Supplied.ofValue values = .ok supplied)
    (hgiven : ∀ v, Supplied.valueFor? values e.name = some v → ∃ shown, v = .bool shown) :
    ∃ b, Submission.readFlag? (e.boxValue supplied) = some b ∧
      (b = false ↔ Supplied.valueFor? values e.name = some (.bool false)) := by
  rw [h.boxValue_eq hsupplied]
  cases hshown : Supplied.valueFor? values e.name with
  | none =>
      refine ⟨true, ?_, by simp⟩
      show Submission.readFlag? "on" = some true
      decide +kernel
  | some v =>
      obtain ⟨shown, rfl⟩ := hgiven v hshown
      refine ⟨shown, ?_, by simp⟩
      cases shown with
      | true =>
          show Submission.readFlag? "true" = some true
          decide +kernel
      | false =>
          show Submission.readFlag? "false" = some false
          decide +kernel

theorem IsPlain.holds?_sent {f : Field} (h : e.IsPlain none)
    (hf : f.type.IsFlag) (hsupplied : Supplied.ofValue values = .ok supplied)
    (hgiven : ∀ v, Supplied.valueFor? values e.name = some v → ∃ shown, v = .bool shown)
    (ticked : Bool) :
    (Faithful (Supplied.valueFor? values e.name) ticked ∧
      f.holds? (.list (e.sent supplied ticked)) = some (.bool ticked)) ∨
    (¬Faithful (Supplied.valueFor? values e.name) ticked ∧
      f.holds? (.list (e.sent supplied ticked)) = some (.list [.bool false, .bool false])) := by
  obtain ⟨b, hb, hshown⟩ := h.readFlag?_boxValue hsupplied hgiven
  obtain ⟨hoff, hword⟩ := Field.holds?_words hf hb
  unfold Faithful sent
  cases ticked with
  | false => exact Or.inl ⟨fun hticked => absurd hticked Bool.false_ne_true, hoff⟩
  | true =>
      cases b with
      | true =>
          refine Or.inl ⟨fun _ hunset => ?_, hword⟩
          exact absurd (hshown.mpr hunset).symm Bool.false_ne_true
      | false => exact Or.inr ⟨fun hset => hset rfl (hshown.mp rfl), hword⟩

end Element

/-! ## Reports

A free field, without limits of its own, takes both flags. -/

/-- The limits of a field take a flag, as a submission is checked. -/
def Field.Takes (c : Config) (f : Field) (b : Bool) : Prop :=
  Outcome.faults (f.checkIn (some false) c (.bool b)) = []

theorem Field.takes_of_isFree {f : Field} (h : f.type.IsFlag) (hfree : f.isFree = true) (c : Config)
    (b : Bool) : f.Takes c b := by
  obtain ⟨r, hr⟩ := Field.checkIn_bool_eq_ok h hfree (some false) c b
  unfold Field.Takes
  rw [hr]
  rfl

/-! ## Boxes of a form

A box of the page, through all of this: from the tag that stands on the page to what the
report says at its name. -/

namespace Form

/-- A flag that a form shows as a checkbox, for which neither a value nor a name is declared. -/
structure Box (form : Form) (lang : Option String) where
  field : Field
  element : Element
  owns : form.schema.Owns field element.name
  flag : field.type.IsFlag
  bare : ∀ p ∈ field.declared.getD [], Element.isBareKey p.1 = true
  built : Element.ofDefinition (form.options.idSuffix.getD "") lang
    (Definition.ofField form.schema.config field) = .ok element
  checkbox : element.isCheckbox = true

namespace Box

variable {form : Form} {lang : Option String} {values : Value} {supplied : Supplied}
  {s : Submission} {ticked : Bool}

theorem isPlain (b : form.Box lang) : b.element.IsPlain none :=
  (Element.isPlain_of_ofDefinition b.built (Element.isBareKey_of_ofField b.bare)).1 b.checkbox

theorem infix_pieces (b : form.Box lang) (hsupplied : Supplied.ofValue values = .ok supplied)
    {ps : List Piece} (h : form.pieces values lang = .ok ps) :
    b.element.fieldPieces (Pairs.get? supplied b.element.name) supplied form.options <:+: ps := by
  unfold pieces at h
  cases helements : form.elements lang with
  | error e =>
      rw [helements] at h
      cases h
  | ok elements =>
      rw [helements, hsupplied] at h
      cases h
      have hmem : b.element ∈ elements :=
        Element.mem_of_ofDefinitions helements (List.mem_map.mpr ⟨_, b.owns.mem, rfl⟩) b.built
      have hfields : Markup.suppliedField supplied form.options b.element
          <:+: elements.flatMap (Markup.suppliedField supplied form.options) := by
        obtain ⟨before, after, hsplit⟩ := List.append_of_mem hmem
        rw [hsplit, List.flatMap_append, List.flatMap_cons]
        exact List.infix_append' _ _ _
      exact hfields.trans ⟨_, _, rfl⟩

theorem valueAt?_sentEntries (b : form.Box lang)
    (hsent : s.values? b.element.name = some (b.element.sent supplied ticked)) :
    Value.valueAt? (form.schema.sentEntries s) b.element.name
      = b.field.holds? (.list (b.element.sent supplied ticked)) :=
  b.owns.valueAt?_sentEntries hsent

theorem round_trip (b : form.Box lang) (hsupplied : Supplied.ofValue values = .ok supplied)
    (hgiven : ∀ v, Supplied.valueFor? values b.element.name = some v → ∃ shown, v = .bool shown)
    (hkeys : ∀ e ∈ s.entries, e.1.asText?.isSome = true)
    (hsent : s.values? b.element.name = some (b.element.sent supplied ticked)) {r : Report}
    (hr : form.schema.reportForm s = .ok r) :
    (Value.valueAt? r.data.entries b.element.name = some (.bool ticked)
      ↔ Faithful (Supplied.valueFor? values b.element.name) ticked) ∧
    (r.detailsAt b.element.name = []
      ↔ Faithful (Supplied.valueFor? values b.element.name) ticked
        ∧ b.field.Takes form.schema.config ticked) := by
  have hdata : r.data.entries = form.schema.sentEntries s := by
    rw [Report.data_ofOutcome hr]
    rfl
  have hdetails : ∀ x, b.field.holds? (.list (b.element.sent supplied ticked)) = some x →
      (r.detailsAt b.element.name = []
        ↔ Outcome.faults (b.field.checkIn (some false) form.schema.config x) = []) := by
    intro x hx
    rw [b.owns.detailsAt_of_holds (v := .list (b.element.sent supplied ticked)) hkeys hsent hr hx,
      Outcome.faults_under, List.map_map,
      List.map_eq_nil_iff]
  rw [hdata, b.valueAt?_sentEntries hsent]
  rcases b.isPlain.holds?_sent b.flag hsupplied hgiven ticked with ⟨hfaithful, hx⟩ | ⟨hfaithful, hx⟩
  · rw [hx, hdetails _ hx]
    exact ⟨⟨fun _ => hfaithful, fun _ => rfl⟩, ⟨fun h => ⟨hfaithful, h⟩, fun h => h.2⟩⟩
  · rw [hx, hdetails _ hx, Field.checkIn_list_eq b.flag]
    refine ⟨⟨fun h => ?_, fun h => absurd h hfaithful⟩, ⟨fun h => ?_, fun h => absurd h.1 hfaithful⟩⟩
    · cases h
    · cases h

theorem fits (b : form.Box lang) (hfree : b.field.isFree = true)
    (hsupplied : Supplied.ofValue values = .ok supplied)
    (hgiven : ∀ v, Supplied.valueFor? values b.element.name = some v → ∃ shown, v = .bool shown)
    (hsent : s.values? b.element.name = some (b.element.sent supplied ticked)) :
    form.schema.Fits s b.field := by
  have held : ∀ x, b.field.holds? (.list (b.element.sent supplied ticked)) = some x →
      (form.schema.Fits s b.field
        ↔ ¬Outcome.IsMisfit (b.field.checkIn (some false) form.schema.config x)) := by
    intro x hx
    have hentries := b.valueAt?_sentEntries hsent
    rw [hx, ← b.owns.read] at hentries
    unfold Schema.Fits
    rw [Check.FieldCheck.outcome_of_present hentries, Outcome.isMisfit_under_iff]
    rfl
  rcases b.isPlain.holds?_sent b.flag hsupplied hgiven ticked with ⟨_, hx⟩ | ⟨_, hx⟩
  · rw [held _ hx]
    obtain ⟨r, hok⟩ := Field.checkIn_bool_eq_ok b.flag hfree (some false) form.schema.config ticked
    rw [hok]
    exact Outcome.not_isMisfit_ok _
  · rw [held _ hx, Field.checkIn_list_eq b.flag]
    exact Outcome.not_isMisfit_faults _

end Box

/-- Whatever a submission holds besides, what a box of the page sends is read as whether the box is
ticked exactly when the box is faithful.  Then the limits of its field are all that can make an error
at its name, and a field without limits takes both flags.  Such a box never keeps a submission from
being reported on. -/
theorem boxes_round_trip {form : Form} {lang : Option String} {values : Value} {supplied : Supplied}
    {data : Posted} {s : Submission} (boxes : List (form.Box lang)) (ticked : String → Bool)
    (heading : Option String) (hsupplied : Supplied.ofValue values = .ok supplied)
    (hgiven : ∀ b ∈ boxes, ∀ v, Supplied.valueFor? values b.element.name = some v →
      ∃ shown, v = .bool shown)
    (hdata : Submission.ofPosted data = .ok s)
    (hkeys : ∀ e ∈ s.entries, e.1.asText?.isSome = true)
    (hsent : ∀ b ∈ boxes, s.values? b.element.name
      = some (b.element.sent supplied (ticked b.element.name))) :
    (∀ b ∈ boxes, b.element.before = Element.hiddenInput b.element.name "off" ∧
      b.element.tagAttribute? supplied "name" = some ⟨"name", some (.fixed b.element.name)⟩ ∧
      ∀ ps, form.pieces values lang = .ok ps →
        b.element.fieldPieces (Pairs.get? supplied b.element.name) supplied form.options <:+: ps) ∧
    (∀ form' r, form.act (.submit data heading) = (form', .ok (.report r)) → ∀ b ∈ boxes,
      (Value.valueAt? r.data.entries b.element.name = some (.bool (ticked b.element.name))
        ↔ Faithful (Supplied.valueFor? values b.element.name) (ticked b.element.name)) ∧
      (r.detailsAt b.element.name = []
        ↔ Faithful (Supplied.valueFor? values b.element.name) (ticked b.element.name)
          ∧ b.field.Takes form.schema.config (ticked b.element.name)) ∧
      (b.field.isFree = true → b.field.Takes form.schema.config (ticked b.element.name))) ∧
    ((∀ g ∈ form.schema.fields,
        form.schema.Fits s g ∨ ∃ b ∈ boxes, b.field = g ∧ Field.isFree g = true) →
      ∃ form' r, form.act (.submit data heading) = (form', .ok (.report r))) := by
  refine ⟨?_, ?_, ?_⟩
  · intro b _
    exact ⟨Element.before_of_isCheckbox b.checkbox, b.isPlain.tagAttribute?_name,
      fun _ => b.infix_pieces hsupplied⟩
  · intro form' r h b hb
    obtain ⟨hr, _⟩ := report_of_submit hdata h
    obtain ⟨hvalue, hdetails⟩ := b.round_trip hsupplied (hgiven b hb) hkeys (hsent b hb) hr
    exact ⟨hvalue, hdetails, fun hfree => Field.takes_of_isFree b.flag hfree _ _⟩
  · intro hfits
    have fits : ∀ g ∈ form.schema.fields, form.schema.Fits s g := by
      intro g hg
      rcases hfits g hg with hfit | ⟨b, hb, rfl, hfree⟩
      · exact hfit
      · exact b.fits hfree hsupplied (hgiven b hb) (hsent b hb)
    obtain ⟨r, hr⟩ := Schema.exists_reportForm_iff.mpr fits
    refine ⟨form.showReport r heading, r, ?_⟩
    show form.showOutcome (form.schema.reportPosted data) heading = _
    unfold Schema.reportPosted
    rw [hdata]
    dsimp only
    rw [hr]
    rfl

/-- A field that asks whether to subscribe, as a checkbox. -/
def subscribeField : Field where
  name := "subscribe"
  type := .bool
  declared := some [("element", .str "input"), ("inputType", .str "checkbox")]

/-- A form of that field. -/
def subscribeForm : Form where
  schema := { name := "Signup", fields := [subscribeField] }
  options := { passwordHideSvg := "", passwordShowSvg := "" }
  buttonLabel := "Submit"
  componentElement := Form.defaultComponentElement

/-- Its one box. -/
def subscribeBox : subscribeForm.Box none where
  field := subscribeField
  element := {
    name := "subscribe"
    id := "subscribe_"
    element := "input"
    label := .ofText "Subscribe"
    inputType := some "checkbox"
    flags := ["required"]
    attributes := [("name", .ofText "subscribe"), ("id", .ofText "subscribe_"),
      ("type", .ofText "checkbox")] }
  owns := ⟨⟨[], [], rfl, by decide⟩, rfl, rfl⟩
  flag := .bool
  bare := by decide +kernel
  built := by decide +kernel
  checkbox := rfl

/-- A box that is shown as set and left ticked sets its flag. -/
theorem set_box_sets_flag :
    ∃ form' r, subscribeForm.act (.submit
          (.value (.ofPairs [("subscribe", .list [.str "off", .str "true"])])) none)
        = (form', .ok (.report r)) ∧
      r.detailsAt "subscribe" = [] ∧
      Value.valueAt? r.data.entries "subscribe" = some (.bool true) := by
  have hvalue : ∀ name v, Supplied.valueFor? (.ofPairs [("subscribe", .bool true)]) name = some v →
      v = .bool true := by
    intro name v hv
    rw [Supplied.valueFor?_single (by intro hnull; cases hnull)] at hv
    split at hv
    · exact (Option.some.inj hv).symm
    · cases hv
  have hsupplied : Supplied.ofValue (.ofPairs [("subscribe", .bool true)])
      = .ok (.ofPairs [("subscribe", .bool true)]) :=
    Supplied.ofValue_single (by intro hnull; cases hnull)
  have hdata : Submission.ofPosted
      (.value (.ofPairs [("subscribe", .list [.str "off", .str "true"])]))
      = .ok (.single [(.str "subscribe", .list [.str "off", .str "true"])]) := rfl
  obtain ⟨_, hread, hreport⟩ := boxes_round_trip [subscribeBox] (fun _ => true) none hsupplied
    (fun b _ v hv => ⟨true, hvalue b.element.name v hv⟩) hdata (by decide)
    (by
      intro b hb
      rw [List.mem_singleton.mp hb]
      decide +kernel)
  obtain ⟨form', r, h⟩ := hreport fun g hg =>
    Or.inr ⟨subscribeBox, List.mem_cons_self, (List.mem_singleton.mp hg).symm, by
      rw [List.mem_singleton.mp hg]
      decide⟩
  obtain ⟨hflag, hdetails, hfree⟩ := hread form' r h subscribeBox List.mem_cons_self
  have hfaithful : Faithful (Supplied.valueFor? (.ofPairs [("subscribe", .bool true)]) "subscribe") true := by
    intro _ hfalse
    cases hvalue "subscribe" _ hfalse
  exact ⟨form', r, h, hdetails.mpr ⟨hfaithful, hfree (by decide)⟩, hflag.mpr hfaithful⟩

/-- A box that is shown as unset and then ticked sends two words that unset the flag, and is refused. -/
theorem unset_box_refuses_tick :
    subscribeBox.element.sent (.ofPairs [("subscribe", .bool false)]) true
        = [.str "off", .str "false"] ∧
      (subscribeForm.schema.reportPosted
          (.value (.ofPairs [("subscribe", .list [.str "off", .str "false"])]))).toOption.map
        (fun r => ((r.detailsAt "subscribe").map (·.code),
          Value.valueAt? r.data.entries "subscribe"))
        = some (["bool_type"], some (.list [.bool false, .bool false])) := by
  decide +kernel

end Form

end WebForm
