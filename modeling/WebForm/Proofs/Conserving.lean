/-
What a submission reads of a single text, and what the field's check reads of it.

A form reads the texts of a submission before it checks them, so that a text for a number goes
through two readers.  `conserves_text` says that the first takes nothing away.  Let a field be
found where it is rendered, let it be of one value, and let its check take a text that is not
empty.  Then what the submission reads of the text is one of two things:

    v = .str t ∨ v = what a lax check of the scalar alone reads of t

The field takes what was read as it would have taken the text, with the same value; the report
says nothing of it, and all that it says is said of other fields or of keys that no field took
(`PassesOver`); and no limit of the field keeps the submission from being reported on.

Where a field's type converts texts, it is seen through to a flag or a number, and a text that
passes under its limits passes without them, too (`Frees`).  So what was read of the text is
what the type's own reader reads of it.  That is why the second alternative speaks of the
scalar alone: the type's limits are kept on the way, but they do not change what is read.

A field is found where it is rendered unless it has a name for reading alone or its alias is
empty.  Both exceptions are needed.  A name for reading alone is looked for instead, and an
empty alias is rendered as the field's name and looked for as it is (`empty_alias_not_read`).
An empty text is left out since a field that is not required drops it.
-/
import WebForm.Proofs.Naming
import WebForm.Proofs.Rechecking.Scalar

namespace WebForm

open Outcome Submission

/-! ## Passing without limits

What the reader of a number, a flag or a day gives does not depend on the limits, which may
only refuse it. -/

namespace Check

variable {s : Setting} {ls : List Limit} {v : Value}

/-- A lax check passes without limits whatever it passes under some. -/
def Frees (c : Check) : Prop := ∀ ls v r, c.run ls v = .ok r → ∃ r', c.run [] v = .ok r'

theorem frees_ofOwn {sort : String} {knows : Limit → Bool} {label : List Limit → String}
    {own : List Limit → Value → Outcome}
    (h : ∀ ls v r, own ls v = .ok r → ∃ r', own [] v = .ok r') :
    (ofOwn s sort knows label own).Frees := by
  intro ls v r hr
  obtain ⟨q, hq, _⟩ := exists_of_bind_eq_ok hr
  obtain ⟨q', hq'⟩ := h _ v q hq
  exact ⟨q', by show (own [] v).bind _ = _; rw [hq']; rfl⟩

theorem frees_flag (hs : s.IsLax) : (flag s).Frees := by
  refine frees_ofOwn fun ls v r hr => ⟨r, ?_⟩
  rw [← hr]
  simp only [runFlag, hs.isStrict]

theorem frees_integer (hs : s.IsLax) : (integer s).Frees := by
  refine frees_ofOwn fun ls v r hr => ?_
  simp only [runInteger, hs.isStrict] at hr ⊢
  cases hread : readInteger false v with
  | error cause =>
      rw [hread] at hr
      cases hr
  | ok p => exact ⟨_, rfl⟩

theorem numericCause?_nil (exact : Bool) (q : Option Quantity) :
    q.bind (Limit.numericCause? exact []) = Option.none := by
  cases q <;> rfl

theorem frees_float (hs : s.IsLax) : (float s).Frees := by
  refine frees_ofOwn fun ls v r hr => ?_
  simp only [runFloat, hs.isStrict] at hr ⊢
  cases hread : readFloat false v with
  | error cause =>
      rw [hread] at hr
      cases hr
  | ok p =>
      dsimp only
      rw [numericCause?_nil]
      exact ⟨_, rfl⟩

end Check

namespace Ty

theorem isConverted_of_isRoot {b : Ty} (h : b.isRoot = true) (hmulti : b.kind.multi = false) :
    b.isConverted = true ∧ b.kind.scalar = b := by
  cases b with
  | bool | int | float => exact ⟨rfl, rfl⟩
  | bare c =>
      cases c with
      | genericList => cases hmulti
      | _ => cases h
  | many | positions => cases hmulti
  | _ => cases h

theorem frees_of_isConverted {b : Ty} (h : b.isConverted = true) {s : Setting} (hs : s.IsLax) :
    (b.reading s).core.Frees := by
  cases b with
  | bool => exact Check.frees_flag hs
  | int => exact Check.frees_integer hs
  | float => exact Check.frees_float hs
  | _ => cases h

theorem core_coerce {b : Ty} (h : b.isConverted = true) (s : Setting) {t : String}
    (hread : coerce b (.str t) ≠ .str t) :
    ∃ r, (b.reading s).core.run [] (coerce b (.str t)) = .ok r ∧ r.value = coerce b (.str t) := by
  cases htext : readText? b t with
  | none =>
      rw [coerce_str, htext] at hread
      exact absurd rfl hread
  | some v =>
      have hcoerce : coerce b (.str t) = v := by rw [coerce_str, htext, Option.getD_some]
      rw [hcoerce]
      cases b with
      | bool =>
          rw [readText?] at htext
          obtain ⟨x, _, rfl⟩ := Option.map_eq_some_iff.mp htext
          exact ⟨_, show (Check.flag s).run [] (.bool x) = _ from rfl, rfl⟩
      | int =>
          rw [readText?] at htext
          obtain ⟨x, _, rfl⟩ := Option.map_eq_some_iff.mp htext
          exact ⟨_, show (Check.integer s).run [] (.int x) = _ from rfl, rfl⟩
      | float =>
          rw [readText?] at htext
          obtain ⟨x, _, rfl⟩ := Option.map_eq_some_iff.mp htext
          refine ⟨{ value := .float x }, ?_, rfl⟩
          show (Check.runFloat s [] (.float x)).bind _ = _
          unfold Check.runFloat Check.readFloat
          dsimp only
          rw [Check.numericCause?_nil]
          rfl
      | _ => cases h

theorem check_eq_core {b : Ty} (h : b.isRoot = true) (s : Setting) :
    (b.check s).run [] = (b.reading s).core.run [] := by
  rw [check, reading_of_isRoot h]
  rfl

/-- What a type of one value reads of a text before the check is the text itself, or what a lax check
of the scalar alone reads of it, if the type takes the text under any limits. -/
theorem coerce_eq_or_check {t : Ty} (hmulti : t.kind.multi = false) {s : Setting} (hs : s.IsLax)
    {x : String} {ls : List Limit} {r : Checked} (hr : (t.reading s).core.run ls (.str x) = .ok r) :
    coerce t.kind.scalar (.str x) = .str x ∨
      ∃ r', (t.kind.scalar.check s).run [] (.str x) = .ok r' ∧
        r'.value = coerce t.kind.scalar (.str x) := by
  cases hread : t.kind.isRead with
  | false => exact Or.inl (coerce_of_not_isConverted (Bool.or_eq_false_iff.mp hread).2 x)
  | true =>
      obtain ⟨b, hroot, hkind, limits, hunder⟩ := (reading_hasRoots t s).core hread
      have hkind : b.kind = t.kind := hkind
      rw [← hkind] at hmulti ⊢
      obtain ⟨hconverted, hscalar⟩ := isConverted_of_isRoot hroot hmulti
      rw [hscalar, check_eq_core hroot]
      have hstr : Value.str x ≠ .null := fun heq => nomatch heq
      rw [hunder.run_eq ls hstr] at hr
      obtain ⟨r', hr'⟩ := frees_of_isConverted hconverted hs _ _ _ hr
      by_cases hsame : coerce b (.str x) = .str x
      · exact Or.inl hsame
      · obtain ⟨q, hq, hvalue⟩ := core_coerce hconverted s hsame
        have hreads := root_reads hroot hs x [] r' hr'
        rw [hscalar, hq] at hreads
        obtain ⟨q', hq', heq⟩ := hreads
        cases hq'
        exact Or.inr ⟨r', hr', heq ▸ hvalue⟩

end Ty

/-! ## Fields that take a text

In a schema whose names are distinct, the value that a field holds of a submission is what
stands under its name among what is checked, and what comes of it is the field's own check of
that value. -/

theorem coerce_ne_empty {t : String} (ht : t ≠ "") (scalar : Ty) :
    coerce scalar (.str t) ≠ .str "" := by
  intro hempty
  rcases coerce_cases scalar (.str t) with heq | ⟨_, heq⟩ | ⟨_, heq⟩ | ⟨_, heq⟩
  · exact ht (Value.str.inj (heq.symm.trans hempty))
  all_goals exact nomatch heq.symm.trans hempty

namespace Field

variable {f : Field} {c : Config} {t : String} {q : Checked}

theorem readField?_of_ne_empty (hmulti : f.type.kind.multi = false) (ht : t ≠ "") :
    readField? f [.str t] = some (coerce f.type.kind.scalar (.str t)) := by
  rw [readField?_text hmulti, if_neg]
  exact fun hempty => coerce_ne_empty ht _ hempty.1

theorem holds?_of_ne_empty (hmulti : f.type.kind.multi = false) (ht : t ≠ "") :
    f.holds? (.list [.str t]) = some (coerce f.type.kind.scalar (.str t)) := by
  rw [holds?_text hmulti, if_neg]
  exact fun hempty => coerce_ne_empty ht _ hempty.1

/-- A field that takes a text takes what was read of it, with the same value. -/
theorem checkIn_coerce (hq : f.checkIn (some false) c (.str t) = .ok q) :
    ∃ q', f.checkIn (some false) c (coerce f.type.kind.scalar (.str t)) = .ok q' ∧
      q'.value = q.value :=
  f.type.reading_reads (s := { strict? := some false, config := c }) rfl t _ q hq

end Field

namespace Schema

variable {schema : Schema} {s : Submission} {f : Field}

theorem outcomeOf_eq (hnames : schema.NamesApart) (hf : f ∈ schema.fields)
    (hread : f.reportedName schema.config = f.formName schema.config) {v : Value}
    (hheld : schema.held? s f = some v) :
    schema.outcomeOf s f
      = under (.key (f.reportedName schema.config)) (f.checkIn (some false) schema.config v) := by
  have hentry := valueAt?_formName (s := s) hnames hf
  rw [hheld, ← hread] at hentry
  exact Check.FieldCheck.outcome_of_present (f := f.fieldCheck (some false) schema.config) hentry

/-- All that the report says is said of the other fields, or of keys that no field took. -/
def PassesOver (schema : Schema) (s : Submission) (f : Field) (r : Report) : Prop :=
  ∃ before after unknown, schema.fields = before ++ f :: after ∧
    r.details = (before ++ after).flatMap (schema.detailsOf s) ++ unknown ∧
    ∀ d ∈ unknown, d.code = "extra_forbidden" ∨ d.code = "invalid_key"

theorem passesOver_of_detailsOf (hf : f ∈ schema.fields) {r : Report}
    (hr : schema.reportForm s = .ok r) (hsaid : schema.detailsOf s f = []) :
    schema.PassesOver s f r := by
  obtain ⟨before, after, hfields⟩ := List.append_of_mem hf
  obtain ⟨unknown, hdetails, hunknown⟩ := details_eq hr
  refine ⟨before, after, unknown, hfields, ?_, hunknown⟩
  rw [hdetails, hfields, List.flatMap_append, List.flatMap_append, List.flatMap_cons, hsaid,
    List.nil_append]

/-- A field that is found where it is rendered, is of one value and takes a text that is sent for it
is read as the text itself, or as its scalar alone reads the text.  What is read is taken as the text
would have been, the report says nothing of the field and shows the value, and no limit of the field
ends the check. -/
theorem conserves_text (hnames : schema.NamesApart) (hf : f ∈ schema.fields)
    (hread : f.readAs = none) (halias : f.alias? schema.config ≠ some "")
    (hmulti : f.type.kind.multi = false) {t : String} (ht : t ≠ "")
    (hs : s.values? (f.formName schema.config) = some [.str t]) {q : Checked}
    (hq : f.checkIn (some false) schema.config (.str t) = .ok q) :
    ∃ v, Value.valueAt? (s.parse schema) (f.formName schema.config) = some v ∧
      (v = .str t ∨ ∃ q', (f.type.kind.scalar.check
        { strict? := some false, config := schema.config }).run [] (.str t) = .ok q' ∧
          q'.value = v) ∧
      (∃ q', f.checkIn (some false) schema.config v = .ok q' ∧ q'.value = q.value) ∧
      (∀ r, schema.reportForm s = .ok r →
        schema.PassesOver s f r ∧
          (schema.Owns f (f.formName schema.config) →
            (∀ e ∈ s.entries, e.1.asText?.isSome = true) →
              r.detailsAt (f.formName schema.config) = []) ∧
          ∃ entries, r.data = .map entries ∧
            Value.valueAt? entries (f.formName schema.config) = some v) ∧
      ((∀ g ∈ schema.fields, g ≠ f → schema.Fits s g) → ∃ r, schema.reportForm s = .ok r) := by
  have hfirst := FieldTraits.reportedName_eq_formName hread halias
  have hheld : schema.held? s f = some (coerce f.type.kind.scalar (.str t)) := by
    unfold held?
    rw [hs, Option.bind_some, Field.holds?_of_ne_empty hmulti ht]
  obtain ⟨q', hq', hvalue⟩ := Field.checkIn_coerce hq
  have houtcome := outcomeOf_eq hnames hf hfirst hheld
  rw [hq'] at houtcome
  have hsaid : schema.detailsOf s f = [] := by
    rw [detailsOf, houtcome]
    rfl
  have hentry := valueAt?_formName (s := s) hnames hf
  rw [hheld] at hentry
  refine ⟨coerce f.type.kind.scalar (.str t), ?_, Ty.coerce_eq_or_check hmulti ?_ hq,
    ⟨q', hq', hvalue⟩, fun r hr => ⟨passesOver_of_detailsOf hf hr hsaid, fun howns hkeys => ?_,
      _, Report.data_ofOutcome hr, hentry⟩, fun hfits => ?_⟩
  · rw [valueAt?_parse (get?_fieldsByName_formName hnames hf), hs]
    exact Field.readField?_of_ne_empty hmulti ht
  · rfl
  · have hs' : s.values? (f.formName schema.config) = some (spread (.list [.str t])) := hs
    rw [howns.detailsAt_of_holds hkeys hs' hr (Field.holds?_of_ne_empty hmulti ht), hq']
    rfl
  · refine exists_reportForm_iff.mpr fun g hg => ?_
    by_cases heq : g = f
    · rw [heq]
      show ¬IsMisfit (schema.outcomeOf s f)
      rw [houtcome]
      exact not_isMisfit_ok q'
    · exact hfits g hg heq

/-- A number of seats from one to nine under an alias, or nothing. -/
def seats : Field where
  name := "seats"
  type := .choice .barred [.limited .int { atMost := some (.int 9) }, .none]
  limits := { atLeast := some (.int 1) }
  knownAs := some "places"

/-- A booking of seats, with a note that can be left out. -/
def booking : Schema where
  name := "Booking"
  fields := [seats, { name := "note", type := .str, default := some (.str "") }]
  config := { byName := true }

/-- Seven seats in a text that both readers take for the number. -/
theorem booking_conserved :
    ∃ v, Value.valueAt? ((Submission.single [(.str "places", .str " +0_7")]).parse booking) "places"
        = some v ∧ (v = .str " +0_7" ∨ v = .int 7) ∧
      ∀ r, booking.reportForm (.single [(.str "places", .str " +0_7")]) = .ok r →
        booking.PassesOver (.single [(.str "places", .str " +0_7")]) seats r := by
  have hnames : booking.NamesApart := show List.Nodup _ by decide
  have hf : seats ∈ booking.fields := List.mem_cons_self
  have taken : (seats.checkIn (some false) booking.config (.str " +0_7")).toOption.map (·.value)
      = some (.int 7) := by decide +kernel
  have scalar : ((Ty.int.check { strict? := some false, config := booking.config }).run []
      (.str " +0_7")).toOption.map (·.value) = some (.int 7) := by decide +kernel
  obtain ⟨q, hq, _⟩ := exists_of_map_toOption taken
  obtain ⟨p, hp, hvalue⟩ := exists_of_map_toOption scalar
  obtain ⟨v, hv, hread, _, hreport, _⟩ := conserves_text (s := .single [(.str "places", .str " +0_7")])
    hnames hf rfl (by decide) rfl (t := " +0_7") (by decide) rfl hq
  refine ⟨v, hv, hread.imp_right fun hscalar => ?_, fun r hr => (hreport r hr).1⟩
  obtain ⟨p', hp', rfl⟩ := hscalar
  cases hp.symm.trans hp'
  exact hvalue

/-- A day under an empty alias. -/
def day : Field where
  name := "day"
  type := .str
  knownAs := some ""

/-- The field is rendered under its name and takes the text, but the text that is sent under that
name is not looked for: the field is missing under its alias. -/
theorem empty_alias_not_read :
    let schema : Schema := { name := "Plan", fields := [day] }
    schema.NamesApart ∧ day.readAs = none ∧ day.formName schema.config = "day" ∧
      day.type.kind = ⟨false, .str⟩ ∧
      (day.checkIn (some false) schema.config (.str "monday")).toOption.map (·.value)
        = some (.str "monday") ∧
      (schema.reportForm (.single [(.str "day", .str "monday")])).toOption.map
        (fun r => (r.valid, r.details.map fun d => (d.code, d.path)))
          = some (false, [("missing", [.key ""])]) := by
  refine ⟨show List.Nodup _ by decide, rfl, rfl, rfl, ?_, ?_⟩ <;> decide +kernel

end Schema

end WebForm
