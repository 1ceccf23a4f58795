/-
Reports on whatever is asked of a schema.

A schema can be asked about a submission, an object, or a value for a single field, and
`Request` is one type for all of them.  The answer is a report, and `answers_coherently` says
three things of every answer:

    a report is coherent
    if there is no report, a limit met a value to which it cannot be applied
    if the limits of the schema all fit, there is a report

A report is coherent if what it shows hangs together.  It is valid exactly if it has no
errors, and exactly if it has no details; its errors are the lines of its details, in their
order; and it responds with success if it is valid, and else with the message of the first
detail, which is not empty.

Only a request that can be made is asked about: a submission that is a mapping or has fields,
a mapping or an object, and a field that the schema has.  All others are refused before
anything is checked.

Whether the limits of a schema fit is decided on the schema alone, without any value.  It is a
sufficient condition, and where it fails there may or may not be values without a report; the
schema at the end has one.
-/
import WebForm.Proofs.Fitting.Type

namespace WebForm

/-! ## What is asked -/

/-- What is asked of a schema. -/
inductive Request where
  | form (posted : Posted)
  | object (v : Value)
  | field (name : String) (v : Value)

namespace Schema

/-- The report on what is asked. -/
def answer (schema : Schema) : Request → Except ReportError Report
  | .form posted => schema.reportPosted posted
  | .object v => schema.reportObject v
  | .field name v => schema.reportField name v

/-- A submission that is a mapping or has fields, a mapping or an object, and the value of a field
that the schema has, can be asked about. -/
def takes (schema : Schema) : Request → Bool
  | .form posted => (Submission.ofPosted posted).toOption.isSome
  | .object v => (objectEntries? v).isSome
  | .field name _ => (schema.field? name).isSome

/-- The types of all fields bear the limits that are put on them. -/
def fits (schema : Schema) : Bool := Ty.fieldsSound schema.fields

end Schema

/-! ## Coherent reports

A report is made of an outcome in one place.  What has to be added is that an outcome which
refuses has a fault to show, and that every fault has something to say. -/

theorem Cause.message_ne_empty (cause : Cause) : cause.message ≠ "" := by
  have starts : ∀ {a b : String}, a ≠ "" → a ++ b ≠ "" := fun ha h =>
    ha (String.append_eq_empty_iff.mp h).1
  cases cause with
  | tooFew what n actual | tooMany what n actual =>
      have counted : what.text ≠ "" := by cases what <;> decide
      exact starts (starts (starts (starts counted)))
  | patternMismatch text | textAsSequence text => exact starts (starts (by decide))
  | expected _ | stringTooShort _ | stringTooLong _ | notAbove _ | notAtLeast _ | notBelow _
  | notAtMost _ | notMultiple _ | notOption _ | notLiteral _ | notInstance _ | notRecord _
  | dateUnreadable _ | momentUnreadable _ => exact starts (by decide)
  | _ => decide

/-- What a report shows hangs together. -/
structure Report.Coherent (r : Report) : Prop where
  valid_iff_errors : r.valid = true ↔ r.errors = []
  valid_iff_details : r.valid = true ↔ r.details = []
  errors : r.errors = r.details.map Detail.line
  response_of_valid : r.valid = true → r.response = (200, "")
  response_of_invalid : r.valid = false →
    ∃ d, r.details.head? = some d ∧ d.message ≠ "" ∧ r.response = (422, d.message)

namespace Report

theorem coherent_of_clean (data : Value) : Coherent { data } where
  valid_iff_errors := ⟨fun _ => rfl, fun _ => rfl⟩
  valid_iff_details := ⟨fun _ => rfl, fun _ => rfl⟩
  errors := rfl
  response_of_valid _ := rfl
  response_of_invalid h := nomatch h

theorem coherent_of_ofOutcome {data : Value} {o : Outcome} {r : Report}
    (h : ofOutcome data o = .ok r) (hne : ∀ fs, o = .error (.faults fs) → fs ≠ []) :
    r.Coherent := by
  rcases ofOutcome_eq_ok_iff.mp h with ⟨c, rfl, rfl⟩ | ⟨fs, rfl, rfl⟩
  · exact coherent_of_clean data
  · cases fs with
    | nil => exact absurd rfl (hne [] rfl)
    | cons f fs =>
        exact
          { valid_iff_errors := ⟨fun h => (nomatch h), fun h => (nomatch h)⟩
            valid_iff_details := ⟨fun h => (nomatch h), fun h => (nomatch h)⟩
            errors := errors_ofOutcome h
            response_of_valid := fun h => nomatch h
            response_of_invalid := fun _ => ⟨f.detail, rfl, f.cause.message_ne_empty, rfl⟩ }

theorem misfit_of_ofOutcome {data : Value} {o : Outcome} {e : ReportError}
    (h : ofOutcome data o = .error e) : ∃ m, e = .misfit m := by
  unfold ofOutcome at h
  split at h
  · cases h
  · cases h
  · cases h
    exact ⟨_, rfl⟩

end Report

/-! ## Schemas whose limits fit -/

theorem Ty.fieldsSound_iff {fields : List Field} :
    Ty.fieldsSound fields = true
      ↔ ∀ f ∈ fields, (f.type.cast.under f.limits.toList).bears [] = true := by
  induction fields with
  | nil => exact ⟨fun _ _ h => absurd h List.not_mem_nil, fun _ => rfl⟩
  | cons f fields ih =>
      obtain ⟨traits, type⟩ := f
      rw [Ty.fieldsSound, Bool.and_eq_true, ih, List.forall_mem_cons]

namespace Schema

open Outcome

variable {schema : Schema}

theorem not_isMisfit_check (h : schema.fits = true) (strict? : Option Bool) (v : Value) :
    ¬IsMisfit (schema.check strict? v) := by
  obtain ⟨name, fields, config⟩ := schema
  have whole := (Ty.cast_holds (.record ⟨name, fields, config⟩) { strict? }).mould
  exact Check.result_of_holds whole (Bool.and_eq_true_iff.mpr ⟨h, rfl⟩) v

theorem not_isMisfit_checkAlone (h : schema.fits = true) {f : Field} (hf : f ∈ schema.fields)
    (v : Value) : ¬IsMisfit (f.checkAlone v) :=
  Check.result_of_holds ((Ty.cast_holds f.type {}).under f.limits.toList)
    (Ty.fieldsSound_iff.mp h f hf) v

theorem answer_eq (schema : Schema) {q : Request} (hq : schema.takes q = true) :
    (∃ data, schema.answer q = .ok { data }) ∨
      ∃ data o, schema.answer q = Report.ofOutcome data o ∧ Tells Account.all o ∧
        (schema.fits = true → ¬IsMisfit o) := by
  have checked : ∀ strict? v, Tells Account.all (schema.check strict? v) := fun strict? v =>
    schema.tells_check (fun _ _ => trivial) strict? v.keepsTo_all
  cases q with
  | form posted =>
      simp only [takes] at hq
      simp only [answer, reportPosted]
      cases hp : Submission.ofPosted posted with
      | error v =>
          rw [hp] at hq
          cases hq
      | ok s => exact Or.inr ⟨_, _, rfl, checked _ _, fun h => not_isMisfit_check h _ _⟩
  | object v =>
      simp only [takes] at hq
      simp only [answer, reportObject]
      obtain ⟨entries, he⟩ := Option.isSome_iff_exists.mp hq
      rw [he]
      exact Or.inr ⟨_, _, rfl, checked _ _, fun h => not_isMisfit_check h _ _⟩
  | field name v =>
      simp only [takes] at hq
      simp only [answer, reportField]
      obtain ⟨f, hf⟩ := Option.isSome_iff_exists.mp hq
      rw [hf]
      dsimp only
      split
      · exact Or.inl ⟨_, rfl⟩
      · refine Or.inr ⟨_, _, rfl, tells_under trivial (f.tells_run {} _), fun h => ?_⟩
        rw [isMisfit_under_iff]
        exact not_isMisfit_checkAlone h (List.mem_of_find?_eq_some hf) _

/-- Whatever a schema reports hangs together; it reports on everything that it can be asked about,
unless a limit meets a value to which it cannot be applied; and if its limits fit, none does. -/
theorem answers_coherently (schema : Schema) {q : Request} (hq : schema.takes q = true) :
    (∀ r, schema.answer q = .ok r → r.Coherent) ∧
    (∀ e, schema.answer q = .error e → ∃ m, e = .misfit m) ∧
    (schema.fits = true → ∃ r, schema.answer q = .ok r) := by
  rcases schema.answer_eq hq with ⟨data, h⟩ | ⟨data, o, h, htold, hfits⟩
  · rw [h]
    refine ⟨fun r hr => ?_, fun e he => (nomatch he), fun _ => ⟨_, rfl⟩⟩
    cases hr
    exact Report.coherent_of_clean data
  · rw [h]
    exact ⟨fun r hr => Report.coherent_of_ofOutcome hr fun fs hfs => (htold fs hfs).1,
      fun e he => Report.misfit_of_ofOutcome he,
      fun hsound => Report.exists_ofOutcome data (hfits hsound)⟩

/-- A vault that opens with a pin of four characters or more and takes some amount. -/
def vault : Schema where
  name := "Vault"
  fields := [
    { name := "pin", type := .str, limits := { minLength := some 4 } },
    { name := "amount", type := .optional .int, limits := { atLeast := some (.int 1) } }]

/-- The limits of the vault fit, so that a short pin is reported. -/
theorem vault_answers :
    vault.takes (.form (.value (.map [(.str "pin", .str "12"), (.str "amount", .str "many")]))) = true ∧
      ∃ r, vault.answer (.form (.value (.map [(.str "pin", .str "12"), (.str "amount", .str "many")])))
        = .ok r ∧ r.Coherent := by
  obtain ⟨coherent, _, fit⟩ := vault.answers_coherently
    (q := .form (.value (.map [(.str "pin", .str "12"), (.str "amount", .str "many")]))) rfl
  obtain ⟨r, hr⟩ := fit (by decide +kernel)
  exact ⟨rfl, r, hr, coherent r hr⟩

/-- An order of an amount, as a number or in words, of one or more. -/
def order : Schema where
  name := "Order"
  fields := [
    { name := "amount", type := .choice .named [.int, .str],
      limits := { atLeast := some (.int 1) },
      declared := some [("element", .str "input"), ("inputType", .str "text")] }]

/-- An amount in words cannot be compared with one, and there is no report. -/
theorem amount_in_words_misfits :
    order.takes (.form (.value (.map [(.str "amount", .str "many")]))) = true ∧
      order.answer (.form (.value (.map [(.str "amount", .str "many")])))
        = .error (.misfit ⟨.atLeast (.int 1), .str "many", none⟩) :=
  ⟨rfl, rfl⟩

end Schema

end WebForm
