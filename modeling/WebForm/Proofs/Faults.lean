/-
The faults of a check, and where a report shows them.

A check comes to a value, to a list of faults, or to a misfit: a limit that cannot be applied
to the value that it met.  Of the three, a report knows two, and there is no report on a
misfit.  This module reads an outcome through its list of faults and asks separately whether
it is a misfit, so that later statements about what is said need not look at how a check comes
to say it.

Two operations build outcomes.  `under` moves all faults one step further out, and `gather`
joins those of the parts:

    ¬IsMisfit (gather rs) → faults (gather rs) = rs.flatMap faults

The hypothesis cannot be dropped, for the faults of the parts before a misfit are lost with
it.  A schema's check is then the gathered outcomes of its fields, followed by those of the
entries that no field took (`Schema.check_map`), and a report shows the faults in that order,
one detail and one line for each (`details_ofOutcome`, `errors_ofOutcome`).

Nothing below looks into the check of a type.  `Field.checkIn` is the check of a field within
a schema, with its strictness as a parameter, and it is the form in which all later modules
speak of it.
-/
import WebForm.Submission.Report

namespace WebForm

namespace Outcome

/-! ## Outcomes

What is said of an outcome: its faults, and whether a limit could not be applied. -/

/-- The faults of an outcome; a value that passed and a misfit have none. -/
def faults {α : Type} : Except Rejection α → List Fault
  | .error (.faults fs) => fs
  | _ => []

/-- The outcome is a limit that cannot be applied. -/
def IsMisfit {α : Type} (r : Except Rejection α) : Prop := ∃ m, r = .error (.misfit m)

@[simp] theorem faults_ok {α : Type} (a : α) : faults (.ok a : Except Rejection α) = [] := rfl

@[simp] theorem faults_error {α : Type} (fs : List Fault) :
    faults (.error (.faults fs) : Except Rejection α) = fs := rfl

@[simp] theorem faults_misfit {α : Type} (m : Misfit) :
    faults (.error (.misfit m) : Except Rejection α) = [] := rfl

@[simp] theorem faults_pass (v : Value) (e : Exactness) : faults (pass v e) = [] := rfl

@[simp] theorem faults_fault {α : Type} (cause : Cause) (v : Value) :
    faults (fault cause v : Except Rejection α) = [⟨cause, [], v⟩] := rfl

theorem exists_of_map_toOption {ε α β : Type} {o : Except ε α} {g : α → β} {b : β}
    (h : o.toOption.map g = some b) : ∃ a, o = .ok a ∧ g a = b := by
  match o, h with
  | .ok a, h => exact ⟨a, rfl, Option.some.inj h⟩

theorem not_isMisfit_ok {α : Type} (a : α) : ¬IsMisfit (.ok a : Except Rejection α) := by
  rintro ⟨m, h⟩
  cases h

theorem not_isMisfit_faults {α : Type} (fs : List Fault) :
    ¬IsMisfit (.error (.faults fs) : Except Rejection α) := by
  rintro ⟨m, h⟩
  cases h

/-- What an outcome can be, once it is no misfit. -/
theorem cases_of_not_isMisfit {α : Type} {r : Except Rejection α} (h : ¬IsMisfit r) :
    (∃ a, r = .ok a) ∨ ∃ fs, r = .error (.faults fs) := by
  match r with
  | .ok a => exact Or.inl ⟨a, rfl⟩
  | .error (.faults fs) => exact Or.inr ⟨fs, rfl⟩
  | .error (.misfit m) => exact absurd ⟨m, rfl⟩ h

theorem faults_under {α : Type} (step : Step) (r : Except Rejection α) :
    faults (under step r) = (faults r).map (Fault.under step) := by
  match r with
  | .ok _ => rfl
  | .error (.faults _) => rfl
  | .error (.misfit _) => rfl

theorem isMisfit_under_iff {α : Type} (step : Step) (r : Except Rejection α) :
    IsMisfit (under step r) ↔ IsMisfit r := by
  match r with
  | .ok _ => exact Iff.rfl
  | .error (.faults _) =>
      constructor
      · intro h
        exact absurd h (not_isMisfit_faults _)
      · intro h
        exact absurd h (not_isMisfit_faults _)
  | .error (.misfit _) => exact Iff.rfl

theorem isMisfit_gather_iff {α : Type} (rs : List (Except Rejection α)) :
    IsMisfit (gather rs) ↔ ∃ r ∈ rs, IsMisfit r := by
  induction rs with
  | nil =>
      constructor
      · intro h
        exact absurd h (not_isMisfit_ok _)
      · rintro ⟨_, h, _⟩
        cases h
  | cons r rest ih =>
      simp only [List.mem_cons, exists_eq_or_imp, ← ih]
      rcases r with (fs | m) | a
      · have hr : ¬IsMisfit (.error (.faults fs) : Except Rejection α) := not_isMisfit_faults fs
        simp only [gather]
        split
        · rename_i m hm
          exact ⟨fun _ => Or.inr ⟨m, hm⟩, fun _ => ⟨m, rfl⟩⟩
        · rename_i gs hg
          rw [hg]
          exact ⟨fun h => absurd h (not_isMisfit_faults _),
            fun h => h.elim (absurd · hr) (absurd · (not_isMisfit_faults _))⟩
        · rename_i as ha
          rw [ha]
          exact ⟨fun h => absurd h (not_isMisfit_faults _),
            fun h => h.elim (absurd · hr) (absurd · (not_isMisfit_ok _))⟩
      · exact ⟨fun _ => Or.inl ⟨m, rfl⟩, fun _ => ⟨m, rfl⟩⟩
      · have hr : ¬IsMisfit (.ok a : Except Rejection α) := not_isMisfit_ok a
        simp only [gather]
        cases hrest : gather rest with
        | error e =>
            rcases e with gs | m
            · exact ⟨fun h => absurd h (not_isMisfit_faults _),
                fun h => h.elim (absurd · hr) (absurd · (not_isMisfit_faults _))⟩
            · exact ⟨fun _ => Or.inr ⟨m, rfl⟩, fun _ => ⟨m, rfl⟩⟩
        | ok as =>
            exact ⟨fun h => absurd h (not_isMisfit_ok _),
              fun h => h.elim (absurd · hr) (absurd · (not_isMisfit_ok _))⟩

/-- Without a misfit, the faults of a whole are those of its parts, in order. -/
theorem faults_gather {α : Type} {rs : List (Except Rejection α)} (h : ¬IsMisfit (gather rs)) :
    faults (gather rs) = rs.flatMap faults := by
  induction rs with
  | nil => rfl
  | cons r rest ih =>
      have hrest : ¬IsMisfit (gather rest) := by
        intro hm
        obtain ⟨q, hq, hqm⟩ := (isMisfit_gather_iff rest).mp hm
        exact h ((isMisfit_gather_iff _).mpr ⟨q, List.mem_cons_of_mem _ hq, hqm⟩)
      have key := ih hrest
      rw [List.flatMap_cons, ← key]
      match r with
      | .error (.misfit m) => exact absurd ⟨m, rfl⟩ h
      | .error (.faults fs) =>
          rcases cases_of_not_isMisfit hrest with ⟨as, ha⟩ | ⟨gs, hg⟩
          · simp [gather, ha]
          · simp [gather, hg]
      | .ok a =>
          rcases cases_of_not_isMisfit hrest with ⟨as, ha⟩ | ⟨gs, hg⟩
          · simp [gather, ha]
          · simp [gather, hg]

theorem faults_map {α β : Type} (f : α → β) (r : Except Rejection α) :
    faults (r.map f) = faults r := by
  match r with
  | .ok _ => rfl
  | .error (.faults _) => rfl
  | .error (.misfit _) => rfl

theorem isMisfit_map_iff {α β : Type} (f : α → β) (r : Except Rejection α) :
    IsMisfit (r.map f) ↔ IsMisfit r := by
  match r with
  | .ok _ =>
      exact ⟨fun h => absurd h (not_isMisfit_ok _), fun h => absurd h (not_isMisfit_ok _)⟩
  | .error (.faults _) =>
      exact ⟨fun h => absurd h (not_isMisfit_faults _), fun h => absurd h (not_isMisfit_faults _)⟩
  | .error (.misfit m) => exact ⟨fun _ => ⟨m, rfl⟩, fun _ => ⟨m, rfl⟩⟩

end Outcome

namespace Limit

@[simp] theorem split_nil (knows : Limit → Bool) : split knows [] = ([], []) := rfl

theorem mem_of_mem_split {knows : Limit → Bool} {ls : List Limit} {l : Limit}
    (h : l ∈ (split knows ls).1 ∨ l ∈ (split knows ls).2) : l ∈ ls := by
  unfold split at h
  rcases h with h | h
  · rcases List.mem_append.mp h with h | h
    · exact (List.takeWhile_sublist _).subset h
    · exact (List.dropWhile_sublist _).subset (List.mem_filter.mp h).1
  · exact (List.dropWhile_sublist _).subset (List.mem_filter.mp h).1

end Limit

/-! ## The check of a schema

Every entry of a mapping is taken by a field or by the rule for unknown names. -/

namespace Check

theorem ofOwn_run_nil (s : Setting) (sort : String) (knows : Limit → Bool)
    (label : List Limit → String) (own : List Limit → Value → Outcome) (v : Value) :
    (ofOwn s sort knows label own).run [] v = own [] v := by
  simp only [ofOwn, Limit.split_nil]
  cases own [] v with
  | error e => rfl
  | ok c => rfl

/-- The outcomes of a mapping's fields and of the entries that none of them took. -/
def entryOutcomes (c : Config) (fields : List FieldCheck) (whole : Value)
    (entries : List (Value × Value)) : List Outcome :=
  fields.map (FieldCheck.outcome c whole entries)
    ++ (keptEntries c fields entries).map (extraOutcome c)

theorem faults_runEntries {name : String} {c : Config} {fields : List FieldCheck} {whole : Value}
    {entries : List (Value × Value)}
    (h : ¬Outcome.IsMisfit (runEntries name c fields whole entries)) :
    Outcome.faults (runEntries name c fields whole entries)
      = (entryOutcomes c fields whole entries).flatMap Outcome.faults := by
  unfold runEntries at h ⊢
  rw [Outcome.isMisfit_map_iff] at h
  rw [Outcome.faults_map]
  exact Outcome.faults_gather h

theorem isMisfit_runEntries_iff (name : String) (c : Config) (fields : List FieldCheck)
    (whole : Value) (entries : List (Value × Value)) :
    Outcome.IsMisfit (runEntries name c fields whole entries)
      ↔ ∃ r ∈ entryOutcomes c fields whole entries, Outcome.IsMisfit r := by
  unfold runEntries
  rw [Outcome.isMisfit_map_iff]
  exact Outcome.isMisfit_gather_iff _

end Check

namespace Field

/-- The check of a field within a schema: as `strict?` asks, under the schema's rules. -/
def checkIn (strict? : Option Bool) (c : Config) (f : Field) (v : Value) : Outcome :=
  ((f.type.reading { strict?, config := c }).under f.limits.toList).run [] v

/-- A field with its check within a schema. -/
def fieldCheck (strict? : Option Bool) (c : Config) (f : Field) : Check.FieldCheck :=
  ⟨f.toFieldTraits, f.checkIn strict? c⟩

end Field

theorem Ty.fieldChecks_eq (fields : List Field) (strict? : Option Bool) (c : Config) :
    Ty.fieldChecks fields { strict?, config := c } = fields.map (Field.fieldCheck strict? c) := by
  induction fields with
  | nil => rfl
  | cons f rest ih =>
      obtain ⟨traits, type⟩ := f
      simp only [Ty.fieldChecks, List.map_cons, ih]
      rfl

/-- A schema checks a mapping entry by entry. -/
theorem Schema.check_map (schema : Schema) (strict? : Option Bool)
    (entries : List (Value × Value)) :
    schema.check strict? (.map entries)
      = Check.runEntries schema.name schema.config
          (schema.fields.map (Field.fieldCheck strict? schema.config)) (.map entries) entries := by
  obtain ⟨name, fields, config⟩ := schema
  rw [← Ty.fieldChecks_eq]
  simp only [check, Ty.check, Ty.reading, Reading.alone, Reading.check, Reading.under,
    List.nil_append, Check.record, Check.ofOwn_run_nil, Check.runRecord]

/-! ## Reports

A report is made of an outcome and of the data that were checked. -/

namespace Report

/-- A report on an outcome shows its faults in order, and only they make it invalid. -/
theorem ofOutcome_eq_ok_iff {data : Value} {o : Outcome} {r : Report} :
    ofOutcome data o = .ok r
      ↔ (∃ c, o = .ok c ∧ r = { data }) ∨ ∃ fs, o = .error (.faults fs) ∧ r = ofFaults data fs := by
  match o with
  | .ok c =>
      constructor
      · intro h
        cases h
        exact Or.inl ⟨c, rfl, rfl⟩
      · rintro (⟨_, _, rfl⟩ | ⟨_, h, _⟩)
        · rfl
        · cases h
  | .error (.faults fs) =>
      constructor
      · intro h
        cases h
        exact Or.inr ⟨fs, rfl, rfl⟩
      · rintro (⟨_, h, _⟩ | ⟨_, h, rfl⟩)
        · cases h
        · cases h
          rfl
  | .error (.misfit m) =>
      constructor
      · intro h
        cases h
      · rintro (⟨_, h, _⟩ | ⟨_, h, _⟩) <;> cases h

theorem details_ofOutcome {data : Value} {o : Outcome} {r : Report} (h : ofOutcome data o = .ok r) :
    r.details = (Outcome.faults o).map Fault.detail := by
  rcases ofOutcome_eq_ok_iff.mp h with ⟨c, rfl, rfl⟩ | ⟨fs, rfl, rfl⟩
  · rfl
  · rfl

theorem data_ofOutcome {data : Value} {o : Outcome} {r : Report} (h : ofOutcome data o = .ok r) :
    r.data = data := by
  rcases ofOutcome_eq_ok_iff.mp h with ⟨c, rfl, rfl⟩ | ⟨fs, rfl, rfl⟩
  · rfl
  · rfl

theorem not_isMisfit_of_ofOutcome {data : Value} {o : Outcome} {r : Report}
    (h : ofOutcome data o = .ok r) : ¬Outcome.IsMisfit o := by
  rcases ofOutcome_eq_ok_iff.mp h with ⟨c, rfl, rfl⟩ | ⟨fs, rfl, rfl⟩
  · exact Outcome.not_isMisfit_ok _
  · exact Outcome.not_isMisfit_faults _

theorem valid_iff {data : Value} {o : Outcome} {r : Report} (h : ofOutcome data o = .ok r)
    (hne : ∀ fs, o = .error (.faults fs) → fs ≠ []) : r.valid = true ↔ r.details = [] := by
  rcases ofOutcome_eq_ok_iff.mp h with ⟨c, rfl, rfl⟩ | ⟨fs, rfl, rfl⟩
  · exact ⟨fun _ => rfl, fun _ => rfl⟩
  · constructor
    · intro hvalid
      exact absurd hvalid Bool.false_ne_true
    · intro hnil
      exact absurd (List.map_eq_nil_iff.mp hnil) (hne fs rfl)

/-- A report shows a line for each detail. -/
theorem errors_ofOutcome {data : Value} {o : Outcome} {r : Report} (h : ofOutcome data o = .ok r) :
    r.errors = r.details.map Detail.line := by
  rcases ofOutcome_eq_ok_iff.mp h with ⟨c, rfl, rfl⟩ | ⟨fs, rfl, rfl⟩
  · rfl
  · show fs.map Fault.line = (fs.map Fault.detail).map Detail.line
    rw [List.map_map]
    rfl

theorem exists_ofOutcome (data : Value) {o : Outcome} (h : ¬Outcome.IsMisfit o) :
    ∃ r, ofOutcome data o = .ok r := by
  rcases Outcome.cases_of_not_isMisfit h with ⟨c, rfl⟩ | ⟨fs, rfl⟩
  · exact ⟨_, rfl⟩
  · exact ⟨_, rfl⟩

end Report

end WebForm
