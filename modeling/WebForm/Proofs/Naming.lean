/-
The names by which a report speaks of fields.

A form renders each field under one name, and a report names fields by the names under which
they were read.  Someone who shows errors next to fields needs the two to agree: no field that
was sent may be called missing, and what is said of a field has to stand under the field's
name in the form.  `speaksFormNames_iff` says when they do, of every schema, submission and
report on it:

    schema.SpeaksFormNames s r ↔ ∀ f ∈ schema.fields, schema.FindsAtFormName s f

where a field is found at its name in the form, or nothing is wrong with it where it is found,
or it is found nowhere and need not be.  The second half is a condition on the schema.  If
names are distinct, a field is first read under the name that it has in the form, and no field
that can be left out is sent by its own name beside, then every submission that serves the
schema is spoken of in this way.  To serve is to give at least one value for each field that
has to be given.

A field is rendered and sent under one name, and read under the first of its names that the
data give.  The faults of a field that is given stand under the name where it was found
(`path_of_givenAt?`), and only a field that is found nowhere is missing, because no check says
of its own value that it is missing.  That last point is a fact about all checks, and is taken
from the module on presence.

A name for reading alone breaks the condition, and so does an empty alias
(`read_name_not_rendered`).
-/
import WebForm.Proofs.Refusal.Presence
import WebForm.Proofs.Rereading

namespace WebForm

open Outcome

/-! ## What is missing

A missing field is reported one step deep; a part that is missing within a value, deeper. -/

theorem Cause.code_eq_missing_iff (c : Cause) : c.code = "missing" ↔ c.isMissing = true := by
  cases c with
  | expected what => cases what <;> decide
  | _ => simp [Cause.code, Cause.isMissing]

/-- The detail says that a field of the schema itself is missing. -/
def Detail.IsMissingField (d : Detail) : Prop := d.code = "missing" ∧ d.path.length = 1

theorem Fault.not_isMissingField {f : Fault} (h : f.IsInner) (step : Step) :
    ¬(f.under step).detail.IsMissingField := by
  rintro ⟨hcode, hlength⟩
  have hpath : f.path = [] := List.length_eq_zero_iff.mp (Nat.succ.inj hlength)
  have hmissing : f.cause.isMissing = true := f.cause.code_eq_missing_iff.mp hcode
  rw [h hpath] at hmissing
  cases hmissing

theorem Check.code_of_extraOutcome {c : Config} {e : Value × Value} {f : Fault}
    (h : f ∈ faults (extraOutcome c e)) : f.cause = .extra ∨ f.cause = .invalidKey := by
  unfold extraOutcome at h
  rw [faults_under] at h
  obtain ⟨g, hg, rfl⟩ := List.mem_map.mp h
  split at hg
  · exact Or.inr (congrArg Fault.cause (List.mem_singleton.mp hg))
  · exact Or.inl (congrArg Fault.cause (List.mem_singleton.mp hg))
  · cases hg

/-! ## Where a field is read

The details of a report are those of the fields, in their order, and then those of the keys
that no field took. -/

theorem FieldTraits.reportedName_eq_formName {c : Config} {f : FieldTraits} (h : f.readAs = none)
    (halias : f.alias? c ≠ some "") : f.reportedName c = f.formName c := by
  have hread : f.readAlias? c = f.alias? c := by
    unfold readAlias? alias?
    rw [h]
    rfl
  unfold reportedName formName
  rw [hread]
  cases ha : f.alias? c with
  | none => rfl
  | some a =>
      have hne : a.isEmpty = false := by
        rw [Bool.eq_false_iff]
        intro hempty
        exact halias (by rw [ha, String.isEmpty_iff.mp hempty])
      simp [hne]

theorem FieldTraits.mem_readNames {c : Config} {f : FieldTraits} {name : String}
    (h : name ∈ f.readNames c) : name = f.reportedName c ∨ c.byName = true ∧ name = f.name := by
  unfold readNames at h
  unfold reportedName
  cases ha : f.readAlias? c with
  | none =>
      rw [ha] at h
      exact Or.inl (List.mem_singleton.mp h)
  | some a =>
      rw [ha] at h
      cases hby : c.byName with
      | false =>
          simp only [hby] at h
          exact Or.inl (List.mem_singleton.mp h)
      | true =>
          simp only [hby] at h
          rcases List.mem_cons.mp h with rfl | h
          · exact Or.inl rfl
          · exact Or.inr ⟨rfl, List.mem_singleton.mp h⟩

namespace Schema

variable {schema : Schema} {s : Submission} {f : Field} {r : Report}

/-- The outcome of a field when a submission is checked. -/
def outcomeOf (schema : Schema) (s : Submission) (f : Field) : Outcome :=
  (f.fieldCheck (some false) schema.config).outcome schema.config (.map (schema.sentEntries s))
    (schema.sentEntries s)

/-- What a report on a submission says of a field. -/
def detailsOf (schema : Schema) (s : Submission) (f : Field) : List Detail :=
  (faults (schema.outcomeOf s f)).map Fault.detail

/-- What a report says of a field that is missing. -/
def missingDetail (schema : Schema) (s : Submission) (f : Field) : Detail :=
  (Fault.mk .missing [.key (f.reportedName schema.config)] (.map (schema.sentEntries s))).detail

/-- The name under which a submission gives a field. -/
def givenAt? (schema : Schema) (s : Submission) (f : Field) : Option String :=
  (f.fieldCheck (some false) schema.config).givenName? schema.config (schema.sentEntries s)

/-- A submission gives at least one value under the name of each field that has to be given. -/
def Serves (schema : Schema) (s : Submission) : Prop :=
  ∀ f ∈ schema.fields, f.isRequired = true →
    ∃ v vs, s.values? (f.formName schema.config) = some (v :: vs)

/-- The report says of no field that it is missing, and whatever it says of a field stands under
the field's name in the form. -/
def SpeaksFormNames (schema : Schema) (s : Submission) (r : Report) : Prop :=
  (∀ d ∈ r.details, ¬d.IsMissingField) ∧
    ∀ f ∈ schema.fields, ∀ d ∈ schema.detailsOf s f,
      d.path.head? = some (.key (f.formName schema.config))

/-- The field is found under its name in the form, or nothing is wrong with it where it is found,
or it is found nowhere and need not be. -/
def FindsAtFormName (schema : Schema) (s : Submission) (f : Field) : Prop :=
  match schema.givenAt? s f with
  | some name => name = f.formName schema.config ∨ schema.detailsOf s f = []
  | none => f.isRequired = false

theorem details_eq (hr : schema.reportForm s = .ok r) :
    ∃ unknown, r.details = schema.fields.flatMap (schema.detailsOf s) ++ unknown ∧
      ∀ d ∈ unknown, d.code = "extra_forbidden" ∨ d.code = "invalid_key" := by
  have hcheck := Report.not_isMisfit_of_ofOutcome hr
  rw [Report.details_ofOutcome hr]
  rw [schema.check_map] at hcheck ⊢
  rw [Check.faults_runEntries hcheck]
  unfold Check.entryOutcomes
  rw [List.flatMap_append, List.map_append, List.map_map, List.flatMap_map, List.map_flatMap]
  refine ⟨_, rfl, ?_⟩
  intro d hd
  obtain ⟨g, hg, rfl⟩ := List.mem_map.mp hd
  obtain ⟨o, ho, hg⟩ := List.mem_flatMap.mp hg
  obtain ⟨e, _, rfl⟩ := List.mem_map.mp ho
  rcases Check.code_of_extraOutcome hg with h | h
  · exact Or.inl (congrArg Cause.code h)
  · exact Or.inr (congrArg Cause.code h)

/-! ## What is said of one field

A field is given under a name, or under none; the two cases are taken apart here. -/

/-- All that is said of a field that is given stands under the name where it is found. -/
theorem path_of_givenAt? {name : String} (h : schema.givenAt? s f = some name) {d : Detail}
    (hd : d ∈ schema.detailsOf s f) :
    d.path.head? = some (.key name) ∧ ¬d.IsMissingField := by
  unfold givenAt? at h
  unfold detailsOf outcomeOf Check.FieldCheck.outcome at hd
  rw [h] at hd
  dsimp only at hd
  rw [faults_under, List.map_map] at hd
  obtain ⟨g, hg, rfl⟩ := List.mem_map.mp hd
  exact ⟨rfl, Fault.not_isMissingField (f.isInner_checkIn _ _ _ g hg) _⟩

theorem detailsOf_of_absent (h : schema.givenAt? s f = none) :
    schema.detailsOf s f
      = if f.isRequired then [schema.missingDetail s f] else [] := by
  unfold givenAt? at h
  unfold detailsOf outcomeOf Check.FieldCheck.outcome FieldTraits.isRequired
  rw [h]
  dsimp only [Field.fieldCheck]
  cases f.default with
  | some v => rfl
  | none => rfl

/-- A report calls a field missing exactly when one that has to be given is not. -/
theorem exists_isMissingField_iff (hr : schema.reportForm s = .ok r) :
    (∃ d ∈ r.details, d.IsMissingField)
      ↔ ∃ f ∈ schema.fields, f.isRequired = true ∧ schema.givenAt? s f = none := by
  obtain ⟨unknown, hdetails, hunknown⟩ := details_eq hr
  constructor
  · rintro ⟨d, hd, hmissing⟩
    rw [hdetails] at hd
    rcases List.mem_append.mp hd with hd | hd
    · obtain ⟨f, hf, hd⟩ := List.mem_flatMap.mp hd
      refine ⟨f, hf, ?_⟩
      cases hgiven : schema.givenAt? s f with
      | some name => exact absurd hmissing (path_of_givenAt? hgiven hd).2
      | none =>
          rw [detailsOf_of_absent hgiven] at hd
          split at hd
          · rename_i hrequired
            exact ⟨hrequired, rfl⟩
          · cases hd
    · have hcode := hunknown d hd
      rw [hmissing.1] at hcode
      exact absurd hcode (by decide)
  · rintro ⟨f, hf, hrequired, habsent⟩
    have hsaid := detailsOf_of_absent habsent
    rw [if_pos hrequired] at hsaid
    have hmem : schema.missingDetail s f ∈ r.details := by
      rw [hdetails]
      exact List.mem_append_left _ (List.mem_flatMap.mpr ⟨f, hf, hsaid ▸ List.mem_cons_self⟩)
    exact ⟨_, hmem, rfl, rfl⟩

theorem detailsOf_at_formName_iff (h : schema.givenAt? s f ≠ none ∨ f.isRequired = false) :
    (∀ d ∈ schema.detailsOf s f, d.path.head? = some (.key (f.formName schema.config)))
      ↔ schema.FindsAtFormName s f := by
  unfold FindsAtFormName
  cases hgiven : schema.givenAt? s f with
  | some name =>
      dsimp only
      constructor
      · intro hat
        cases hsaid : schema.detailsOf s f with
        | nil => exact Or.inr rfl
        | cons d ds =>
            have hd : d ∈ schema.detailsOf s f := hsaid ▸ List.mem_cons_self
            have hstep := (path_of_givenAt? hgiven hd).1.symm.trans (hat d hd)
            exact Or.inl (Step.key.inj (Option.some.inj hstep))
      · rintro (rfl | hnil) d hd
        · exact (path_of_givenAt? hgiven hd).1
        · rw [hnil] at hd
          cases hd
  | none =>
      have hfree := h.resolve_left fun hne => hne hgiven
      rw [detailsOf_of_absent hgiven, hfree]
      exact ⟨fun _ => rfl, fun _ _ hd => nomatch hd⟩

/-! ## What a submission gives

What stands under a name among the entries that are checked is what the field of that name
holds. -/

theorem held?_of_required (hrequired : f.isRequired = true) {v : Value} {vs : List Value}
    (hs : s.values? (f.formName schema.config) = some (v :: vs)) :
    ∃ x, schema.held? s f = some x := by
  unfold held? Field.holds? Submission.readField?
  rw [hs, Option.bind_some]
  simp only [Submission.spread, List.isEmpty_cons, Bool.false_eq_true, if_false, hrequired,
    Bool.not_true, Bool.and_false]
  split
  · exact ⟨_, rfl⟩
  · split <;> exact ⟨_, rfl⟩

theorem valueAt?_formName (hnames : schema.NamesApart) (hf : f ∈ schema.fields) :
    Value.valueAt? (schema.sentEntries s) (f.formName schema.config) = schema.held? s f := by
  rw [Submission.valueAt?_collapse, Submission.valueAt?_parse (get?_fieldsByName_formName hnames hf)]
  unfold held? Field.holds?
  cases s.values? (f.formName schema.config) <;> rfl

theorem valueAt?_of_not_sent {name : String} (h : s.values? name = none) :
    Value.valueAt? (schema.sentEntries s) name = none := by
  rw [Submission.valueAt?_collapse, Option.map_eq_none_iff]
  apply Value.valueAt?_eq_none
  intro e he htext
  have hsent : ∀ e' ∈ s.entries, e'.1.asText? ≠ some name := by
    intro e' he'
    have hnone := List.find?_eq_none.mp (Option.map_eq_none_iff.mp h) e' he'
    simpa using hnone
  rcases List.mem_append.mp he with he | he
  · obtain ⟨p, _, hp⟩ := List.mem_filterMap.mp he
    obtain ⟨v, hv, rfl⟩ := Option.map_eq_some_iff.mp hp
    rw [Option.some.inj htext, h] at hv
    cases hv
  · obtain ⟨e', he', rfl⟩ := List.mem_map.mp he
    exact hsent e' (List.mem_filter.mp he').1 htext

theorem findsAtFormName (hnames : schema.NamesApart) (hserves : schema.Serves s)
    (hf : f ∈ schema.fields) (hread : f.reportedName schema.config = f.formName schema.config)
    (hother : f.isRequired = true ∨ schema.config.byName = false ∨ s.values? f.name = none) :
    schema.FindsAtFormName s f := by
  have hentry := valueAt?_formName (s := s) hnames hf
  rw [← hread] at hentry
  unfold FindsAtFormName
  cases hheld : schema.held? s f with
  | some x =>
      rw [hheld] at hentry
      have hgiven : schema.givenAt? s f = some (f.reportedName schema.config) :=
        Check.FieldCheck.givenName?_of_present (f := f.fieldCheck (some false) schema.config) hentry
      rw [hgiven]
      exact Or.inl hread
  | none =>
      rw [hheld] at hentry
      have hfree : f.isRequired = false := by
        rw [Bool.eq_false_iff]
        intro hrequired
        obtain ⟨v, vs, hs⟩ := hserves f hf hrequired
        obtain ⟨x, hx⟩ := held?_of_required hrequired hs
        rw [hheld] at hx
        cases hx
      have hother := hother.resolve_left (by rw [hfree]; decide)
      have hgiven : schema.givenAt? s f = none := by
        unfold givenAt? Check.FieldCheck.givenName?
        rw [List.find?_eq_none]
        intro name hname
        have habsent : Value.valueAt? (schema.sentEntries s) name = none := by
          rcases f.mem_readNames hname with rfl | ⟨hby, rfl⟩
          · exact hentry
          · exact valueAt?_of_not_sent (hother.resolve_left (by rw [hby]; decide))
        rw [habsent]
        decide
      rw [hgiven]
      exact hfree

/-! ## Reports -/

/-- A report speaks of the fields by their names in the form exactly when each field is found
there, as far as there is something to say of it.  It does so for every submission that serves the
schema when the first name of each field is that in the form, and no field that can be left out is
sent by its own name. -/
theorem speaksFormNames_iff (hr : schema.reportForm s = .ok r) :
    (schema.SpeaksFormNames s r ↔ ∀ f ∈ schema.fields, schema.FindsAtFormName s f) ∧
      (schema.NamesApart → schema.Serves s →
        (∀ f ∈ schema.fields, f.reportedName schema.config = f.formName schema.config ∧
          (f.isRequired = true ∨ schema.config.byName = false ∨ s.values? f.name = none)) →
        schema.SpeaksFormNames s r) := by
  have hmissing := exists_isMissingField_iff hr
  have hiff : schema.SpeaksFormNames s r ↔ ∀ f ∈ schema.fields, schema.FindsAtFormName s f := by
    constructor
    · rintro ⟨hnone, hat⟩ f hf
      refine (detailsOf_at_formName_iff ?_).mp (hat f hf)
      by_contra hlost
      rw [not_or, not_not, Bool.not_eq_false] at hlost
      obtain ⟨d, hd, hdm⟩ := hmissing.mpr ⟨f, hf, hlost.2, hlost.1⟩
      exact hnone d hd hdm
    · intro hfinds
      have hgiven : ∀ f ∈ schema.fields, schema.givenAt? s f ≠ none ∨ f.isRequired = false := by
        intro f hf
        have hfound := hfinds f hf
        unfold FindsAtFormName at hfound
        cases hat : schema.givenAt? s f with
        | some name => exact Or.inl (Option.some_ne_none name)
        | none =>
            rw [hat] at hfound
            exact Or.inr hfound
      refine ⟨fun d hd hdm => ?_, fun f hf => ?_⟩
      · obtain ⟨f, hf, hrequired, habsent⟩ := hmissing.mp ⟨d, hd, hdm⟩
        have hfree := (hgiven f hf).resolve_left fun hne => hne habsent
        rw [hrequired] at hfree
        cases hfree
      · exact (detailsOf_at_formName_iff (hgiven f hf)).mpr (hfinds f hf)
  refine ⟨hiff, fun hnames hserves hread => hiff.mpr fun f hf => ?_⟩
  exact findsAtFormName hnames hserves hf (hread f hf).1 (hread f hf).2

/-- An account with an alias for the user, another for writing the age, and a note that can be left
out; every field can be given by its own name, too. -/
def account : Schema where
  name := "Account"
  fields := [
    { name := "user", type := .str, knownAs := some "login" },
    { name := "age", type := .int, writeAs := some "years" },
    { name := "note", type := .str, default := some (.str ""), knownAs := some "remark" }]
  config := { byName := true, aliasing := some .upper }

/-- A submission that gives the fields by their names in the form. -/
def sentAccount : Submission :=
  .multi [("login", ["ada"].map .str), ("AGE", ["old"].map .str), ("other", [])]

theorem account_speaks :
    ∃ r, account.reportForm sentAccount = .ok r ∧ account.SpeaksFormNames sentAccount r ∧
      r.details.map (fun d => (d.code, d.path)) = [("int_parsing", [.key "AGE"])] := by
  have shown : (account.reportForm sentAccount).toOption.map
      (fun r => r.details.map fun d => (d.code, d.path))
        = some [("int_parsing", [.key "AGE"])] := by
    decide +kernel
  obtain ⟨r, hr, hdetails⟩ := exists_of_map_toOption shown
  refine ⟨r, hr, (speaksFormNames_iff hr).2 ?_ ?_ ?_, hdetails⟩
  · show List.Nodup _
    decide
  · intro f hf hrequired
    rcases List.mem_cons.mp hf with rfl | hf
    · exact ⟨_, _, rfl⟩
    rcases List.mem_cons.mp hf with rfl | hf
    · exact ⟨_, _, rfl⟩
    rw [List.mem_singleton.mp hf] at hrequired
    cases hrequired
  · decide

/-- An account whose user is read under another name than the form has for it, and whose age has an
alias and can be left out. -/
def renamed (byName : Bool) : Schema where
  name := "Account"
  fields := [
    { name := "user", type := .str, readAs := some "login" },
    { name := "age", type := .int, default := some (.int 0), knownAs := some "years" }]
  config := { byName }

/-- A user who is sent under the name in the form is missing, as only the name for reading is looked
for; and where own names count, too, an age that is sent by its own name is reported there. -/
theorem read_name_not_rendered :
    ((renamed false).fields.map fun f => f.formName (renamed false).config) = ["user", "years"] ∧
      ((renamed false).reportForm (.single [(.str "user", .str "ada")])).toOption.map
        (fun r => r.details.map fun d => (d.code, d.path)) = some [("missing", [.key "login"])] ∧
      ((renamed true).reportForm
          (.single [(.str "user", .str "ada"), (.str "age", .str "old")])).toOption.map
        (fun r => r.details.map fun d => (d.code, d.path))
          = some [("int_parsing", [.key "age"])] := by
  decide +kernel

end Schema

end WebForm
