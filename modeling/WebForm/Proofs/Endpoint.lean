/-
The endpoint for a single field against the whole form.

A page asks about one field while it is filled in, and sends the whole form at the end.  Both
are read in the same way, and then they part: the form checks the field within its schema and
laxly, the endpoint checks it alone and by what it declares.  The main result says when a
person hears the same twice.  For a field that owns its name, and texts that are sent for it,
the details of the endpoint are those of the form at the name

    ↔ schema.SpeaksAlike f s v

where two things are asked: the field's check alone finds what its check within the schema
finds in what the field holds, and a value that is dropped was not needed.
`Field.checkIn_eq_checkAlone` tells when the two checks are one, so that the second half of
the result needs no condition on the value: they agree for every field that both read alike,
unless no texts at all are sent for one that has to be given.

The details are compared as lists, with their paths, messages and codes.  That a report on the
form exists is a hypothesis, since a limit of another field may meet a value to which it
cannot be applied; `exists_reportForm_iff` says that nothing else can prevent it.

The two checks do differ.  A field that is declared strict takes an option from a text in the
form, whose check overrules the declaration, and refuses it at the endpoint
(`strict_option_refused_alone`).
-/
import WebForm.Proofs.FaultsAt
import WebForm.Proofs.Leniency
import WebForm.Proofs.Refusal.Type

namespace WebForm

/-! ## What a field holds

What is sent is read and collapsed, and what the field holds of it is a value or nothing.  Of
texts that are sent, nothing is dropped except an empty one for a field that is not required. -/

namespace Value

/-- A text. -/
def isText : Value → Bool
  | .str _ => true
  | _ => false

/-- A text or a list of texts. -/
def areTexts : Value → Bool
  | .list items => items.all isText
  | v => v.isText

theorem isText_iff {v : Value} : v.isText = true ↔ ∃ t, v = .str t := by
  constructor
  · intro h
    cases v with
    | str t => exact ⟨t, rfl⟩
    | _ => cases h
  · rintro ⟨t, rfl⟩
    rfl

end Value

/-- What a field holds when a value is sent for it; nothing if the value is dropped. -/
def Field.holds? (f : Field) (v : Value) : Option Value :=
  (Submission.readField? f (Submission.spread v)).map Submission.collapseValue

namespace Submission

theorem isText_of_mem_spread {v : Value} (h : v.areTexts = true) :
    ∀ i ∈ spread v, i.isText = true := by
  cases v with
  | list items => exact List.all_eq_true.mp h
  | str t => exact List.forall_mem_singleton.mpr rfl
  | _ => cases h

theorem isWritten_coerce (scalar : Ty) (t : String) : (coerce scalar (.str t)).isWritten = true := by
  rcases coerce_cases scalar (.str t) with heq | ⟨_, heq⟩ | ⟨_, heq⟩ | ⟨_, heq⟩ <;>
    rw [heq] <;> rfl

theorem isSent_of_holds? {f : Field} {v x : Value} (hv : v.areTexts = true)
    (h : f.holds? v = some x) : x.isSent = true := by
  obtain ⟨y, hy, rfl⟩ := Option.map_eq_some_iff.mp h
  have values : ∀ w ∈ (spread v).map (coerce f.type.kind.scalar), w.isWritten = true := by
    intro w hw
    obtain ⟨raw, hraw, rfl⟩ := List.mem_map.mp hw
    obtain ⟨t, rfl⟩ := Value.isText_iff.mp (isText_of_mem_spread hv raw hraw)
    exact isWritten_coerce _ t
  have hread : y.isSent = true := by
    rcases readField?_cases hy with rfl | heq
    · exact List.all_eq_true.mpr values
    · exact Value.isSent_of_isWritten (values y (heq ▸ List.mem_cons_self))
  rcases collapseValue_cases y with heq | heq
  · rw [heq]
    exact hread
  · rw [heq]
    rfl

end Submission

theorem Check.not_isMisfit_extraOutcome (c : Config) (e : Value × Value) :
    ¬Outcome.IsMisfit (extraOutcome c e) := by
  unfold extraOutcome
  rw [Outcome.isMisfit_under_iff]
  split
  · exact Outcome.not_isMisfit_faults _
  · exact Outcome.not_isMisfit_faults _
  · exact Outcome.not_isMisfit_ok _

namespace Schema

open Outcome

variable {schema : Schema} {f : Field} {name : String} {v : Value} {s : Submission}

/-- The entries that a schema checks when a submission is sent. -/
abbrev sentEntries (schema : Schema) (s : Submission) : List (Value × Value) :=
  Submission.collapse (s.parse schema)

/-- The limits of a field can be applied to what a submission gives for it. -/
def Fits (schema : Schema) (s : Submission) (f : Field) : Prop :=
  ¬Outcome.IsMisfit ((f.fieldCheck (some false) schema.config).outcome schema.config
    (.map (schema.sentEntries s)) (schema.sentEntries s))

/-! ## Reports on the form

A misfit of one field is a misfit of the whole, and an entry that no field takes never is one. -/

/-- A submission is reported on exactly when all limits can be applied. -/
theorem exists_reportForm_iff {schema : Schema} {s : Submission} :
    (∃ r, schema.reportForm s = .ok r) ↔ ∀ f ∈ schema.fields, schema.Fits s f := by
  constructor
  · rintro ⟨r, hr⟩ f hf
    exact not_isMisfit_outcome hf (Report.not_isMisfit_of_ofOutcome hr)
  · intro h
    apply Report.exists_ofOutcome
    rw [schema.check_map, Check.isMisfit_runEntries_iff]
    rintro ⟨o, ho, hmisfit⟩
    rcases List.mem_append.mp ho with ho | ho
    · obtain ⟨k, hk, rfl⟩ := List.mem_map.mp ho
      obtain ⟨f, hf, rfl⟩ := List.mem_map.mp hk
      exact h f hf hmisfit
    · obtain ⟨e, _, rfl⟩ := List.mem_map.mp ho
      exact Check.not_isMisfit_extraOutcome _ e hmisfit

theorem Owns.valueAt?_sentEntries (h : schema.Owns f name)
    (hs : s.values? name = some (Submission.spread v)) :
    Value.valueAt? (schema.sentEntries s) name = f.holds? v := by
  rw [Submission.valueAt?_collapse, Submission.valueAt?_parse h.get?, hs]
  rfl

theorem isText_sentEntries (hkeys : ∀ e ∈ s.entries, e.1.asText?.isSome = true) :
    ∀ e ∈ schema.sentEntries s, e.1.asText?.isSome = true := by
  intro e he
  obtain ⟨e', he', heq⟩ := Submission.mem_collapse_key he
  rw [← heq]
  rcases Submission.mem_parse_key he' with h | ⟨e'', he'', heq'⟩
  · exact h
  · rw [← heq']
    exact hkeys e'' he''

theorem isRequired_of_dropped (hv : v.areTexts = true) (hne : v ≠ .list [])
    (h : f.holds? v = none) : f.isRequired = false := by
  have hread : Submission.readField? f (Submission.spread v) = none := Option.map_eq_none_iff.mp h
  have hspread : (Submission.spread v).isEmpty = false := by
    cases v with
    | list items =>
        cases items with
        | nil => exact absurd rfl hne
        | cons i items => rfl
    | str t => rfl
    | _ => cases hv
  unfold Submission.readField? at hread
  rw [hspread] at hread
  dsimp only at hread
  split at hread
  · rename_i hempty
    exact absurd hempty Bool.false_ne_true
  · split at hread
    · cases hread
    · split at hread
      · split at hread
        · rename_i hdrop
          rw [Bool.and_eq_true, Bool.not_eq_true'] at hdrop
          exact hdrop.2
        · cases hread
      · cases hread

theorem Owns.reportField_eq (h : schema.Owns f name) :
    schema.reportField name v =
      match f.holds? v with
      | none => .ok { data := Value.ofPairs [(name, v)] }
      | some x =>
        Report.ofOutcome (Value.ofPairs [(name, v)]) (under (.key name) (f.checkAlone x)) := by
  unfold reportField
  rw [h.field?]
  dsimp only
  have held := h.valueAt?_sentEntries (Submission.values?_single name v)
  split
  · rename_i hnone
    rw [← held, hnone]
  · rename_i x hsome
    rw [← held, hsome]

theorem Owns.valid_iff (h : schema.Owns f name) {r : Report}
    (hr : schema.reportField name v = .ok r) : r.valid = true ↔ r.details = [] := by
  rw [h.reportField_eq] at hr
  cases hv : f.holds? v with
  | none =>
      rw [hv] at hr
      cases hr
      exact ⟨fun _ => rfl, fun _ => rfl⟩
  | some x =>
      rw [hv] at hr
      have told : Tells Account.all (under (.key name) (f.checkAlone x)) :=
        tells_under trivial (f.tells_run {} x)
      exact Report.valid_iff hr fun fs hfs => (told fs hfs).1

theorem Owns.detailsAt_of_holds (h : schema.Owns f name) {r : Report}
    (hkeys : ∀ e ∈ s.entries, e.1.asText?.isSome = true)
    (hs : s.values? name = some (Submission.spread v)) (hr : schema.reportForm s = .ok r) {x : Value}
    (hx : f.holds? v = some x) :
    r.detailsAt name
        = (faults (under (.key name) (f.checkIn (some false) schema.config x))).map Fault.detail := by
  have hcheck := Report.not_isMisfit_of_ofOutcome hr
  have hentries := h.valueAt?_sentEntries hs
  rw [hx, ← h.read] at hentries
  rw [Report.detailsAt_eq hr, h.filter_check (isText_sentEntries hkeys) hcheck,
    Check.FieldCheck.outcome_of_present hentries]
  show ((faults (under (.key (f.reportedName schema.config)) _)).filter _).map _ = _
  rw [h.read, filter_faults_under]
  rfl

/-! ## The details at a name

Two cases, according to whether the field holds anything. -/

/-- A submission gives the field under one of its names. -/
def isGiven (schema : Schema) (f : Field) (s : Submission) : Bool :=
  ((f.fieldCheck (some false) schema.config).givenName? schema.config
    (schema.sentEntries s)).isSome

theorem Owns.detailsAt_of_dropped (h : schema.Owns f name) {r : Report}
    (hkeys : ∀ e ∈ s.entries, e.1.asText?.isSome = true)
    (hs : s.values? name = some (Submission.spread v)) (hr : schema.reportForm s = .ok r)
    (hv : f.holds? v = none) :
    r.detailsAt name = [] ↔ f.isRequired = false ∨ schema.isGiven f s = true := by
  have hcheck := Report.not_isMisfit_of_ofOutcome hr
  have hentries := h.valueAt?_sentEntries hs
  rw [hv, ← h.read] at hentries
  have missing : (faults ((f.fieldCheck (some false) schema.config).outcome schema.config
        (.map (schema.sentEntries s)) (schema.sentEntries s))).filter
        (Fault.isAt (f.reportedName schema.config))
      = if f.isRequired && !schema.isGiven f s then
          [⟨.missing, [.key (f.reportedName schema.config)], .map (schema.sentEntries s)⟩]
        else [] := by
    rw [isGiven, Option.not_isSome]
    exact Check.FieldCheck.filter_outcome_of_absent (f := f.fieldCheck (some false) schema.config)
      hentries
  rw [Report.detailsAt_eq hr, h.filter_check (isText_sentEntries hkeys) hcheck, ← h.read, missing]
  cases f.isRequired with
  | false => simp
  | true => cases schema.isGiven f s <;> simp

/-- The endpoint and the form say the same of a value that is sent for a field: the field's check
alone finds what its check within the schema finds, and a dropped value was not needed. -/
def SpeaksAlike (schema : Schema) (f : Field) (s : Submission) (v : Value) : Prop :=
  match f.holds? v with
  | none => f.isRequired = false ∨ schema.isGiven f s = true
  | some x =>
    (faults (f.checkAlone x)).map Fault.detail
      = (faults (f.checkIn (some false) schema.config x)).map Fault.detail

theorem details_under_iff (step : Step) (o o' : Outcome) :
    (faults (under step o)).map Fault.detail = (faults (under step o')).map Fault.detail
      ↔ (faults o).map Fault.detail = (faults o').map Fault.detail := by
  have further : ∀ o : Outcome, (faults (under step o)).map Fault.detail
      = ((faults o).map Fault.detail).map fun d => { d with path := step :: d.path } := by
    intro o
    rw [faults_under, List.map_map, List.map_map]
    rfl
  rw [further, further]
  apply List.map_inj_right
  intro d d' heq
  obtain ⟨code, path, message, input⟩ := d
  obtain ⟨code', path', message', input'⟩ := d'
  simp only [Detail.mk.injEq, List.cons.injEq, true_and] at heq ⊢
  exact heq

/-- The details of the endpoint are those of the form at the name exactly when the two speak
alike.  They do for every field that both read alike, unless no texts at all are sent for one that
has to be given. -/
theorem Owns.reportField_agrees (h : schema.Owns f name) (hv : v.areTexts = true)
    (hkeys : ∀ e ∈ s.entries, e.1.asText?.isSome = true)
    (hs : s.values? name = some (Submission.spread v)) {r : Report}
    (hr : schema.reportForm s = .ok r) :
    (∀ r', schema.reportField name v = .ok r' →
      (r'.details = r.detailsAt name ↔ schema.SpeaksAlike f s v)) ∧
    (f.readsAlike schema.config = true →
      (v = .list [] → f.isRequired = false ∨ schema.isGiven f s = true) →
      ∃ r', schema.reportField name v = .ok r' ∧ r'.details = r.detailsAt name ∧
        (r'.valid = true ↔ r.detailsAt name = [])) := by
  have agrees : ∀ r', schema.reportField name v = .ok r' →
      (r'.details = r.detailsAt name ↔ schema.SpeaksAlike f s v) := by
    intro r' hr'
    rw [h.reportField_eq] at hr'
    unfold SpeaksAlike
    cases hheld : f.holds? v with
    | none =>
        rw [hheld] at hr'
        cases hr'
        rw [← h.detailsAt_of_dropped hkeys hs hr hheld]
        exact eq_comm
    | some x =>
        rw [hheld] at hr'
        rw [Report.details_ofOutcome hr', h.detailsAt_of_holds hkeys hs hr hheld]
        exact details_under_iff _ _ _
  refine ⟨agrees, ?_⟩
  intro halike hempty
  -- what both read alike is checked in one way, so that the endpoint has a report as the form has
  have both : schema.SpeaksAlike f s v ∧ ∃ r', schema.reportField name v = .ok r' := by
    rw [h.reportField_eq]
    unfold SpeaksAlike
    cases hheld : f.holds? v with
    | none =>
        refine ⟨?_, _, rfl⟩
        by_cases hnil : v = .list []
        · exact hempty hnil
        · exact Or.inl (isRequired_of_dropped hv hnil hheld)
    | some x =>
        have same := Field.checkIn_eq_checkAlone halike (Submission.isSent_of_holds? hv hheld)
        refine ⟨congrArg (fun o => (faults o).map Fault.detail) same.symm, ?_⟩
        apply Report.exists_ofOutcome
        rw [isMisfit_under_iff, ← same]
        have hcheck := not_isMisfit_outcome h.mem (Report.not_isMisfit_of_ofOutcome hr)
        have hentries := h.valueAt?_sentEntries hs
        rw [hheld, ← h.read] at hentries
        rw [Check.FieldCheck.outcome_of_present hentries, isMisfit_under_iff] at hcheck
        exact hcheck
  obtain ⟨halike, r', hr'⟩ := both
  have hdetails := (agrees r' hr').mpr halike
  refine ⟨r', hr', hdetails, ?_⟩
  rw [← hdetails]
  exact h.valid_iff hr'

/-- A person with a name of two letters or more and a favourite colour, which is declared strict. -/
def person : Schema where
  name := "Person"
  fields := [
    { name := "name", type := .str, limits := { minLength := some 2 } },
    { name := "color", type := .enumeration ⟨"Color", .plain, [("RED", .str "red")]⟩,
      limits := { strict := some true } }]

/-- A submission that names a person with one letter. -/
def sentPerson : Submission := .single [(.str "name", .str "A"), (.str "color", .str "red")]

theorem owns_name : person.Owns
    { name := "name", type := .str, limits := { minLength := some 2 } } "name" where
  alone := ⟨[], _, rfl, by decide⟩
  rendered := rfl
  read := rfl

/-- Endpoint and form refuse a short name for the same reason. -/
theorem short_name_refused :
    (person.reportForm sentPerson).toOption.map (fun r => (r.detailsAt "name").map (·.code))
        = some ["string_too_short"] ∧
      (person.reportField "name" (.str "A")).toOption.map (·.details)
        = (person.reportForm sentPerson).toOption.map (·.detailsAt "name") := by
  have codes : (person.reportForm sentPerson).toOption.map
      (fun r => (r.detailsAt "name").map (·.code)) = some ["string_too_short"] := by
    decide +kernel
  refine ⟨codes, ?_⟩
  cases hr : person.reportForm sentPerson with
  | error e =>
      rw [hr] at codes
      cases codes
  | ok r =>
      obtain ⟨_, agrees⟩ := owns_name.reportField_agrees (v := .str "A") rfl (by decide) rfl hr
      obtain ⟨r', hr', hdetails, _⟩ := agrees rfl fun h => nomatch h
      rw [hr']
      exact congrArg some hdetails

/-- A strict option that the form takes from a text is refused by the endpoint. -/
theorem strict_option_refused_alone :
    (person.reportForm sentPerson).toOption.map (fun r => (r.detailsAt "color").map (·.code))
        = some [] ∧
      (person.reportField "color" (.str "red")).toOption.map (fun r => r.details.map (·.code))
        = some ["is_instance_of"] := by
  decide +kernel

end Schema

end WebForm
