/-
The faults that a schema reports at one name.

A page shows an error next to the field that it is about, and finds it by name.  This module
says what a report holds at a name.  A field that alone is rendered and read under a name owns
it, and then

    the faults of the schema's check at the name = the faults of the field's own check there

(`Owns.filter_check`), whatever else is submitted and however strictly it is checked.  A
submission decides about them by what it sends under the name.  Two hypotheses stand beside
ownership: all keys are texts, since a key that is none is reported by its text and could seem
to be the name; and the check is no misfit, since then nothing is reported.

A field may have several names under which it is read.  It is checked under the first of them
that is given, and reported there (`outcome_of_given`).  If it is not given under the name in
question it may still be given under another, and it is missing only if it is given under none
(`filter_outcome_of_absent`).

An entry that no field takes is reported under its own key, if the schema forbids such
entries.  It never stands under the first name of a field, because that name would have been
looked for; under the other names of a field it may stand, once the field has been given under
its first.
-/
import WebForm.Proofs.Faults
import WebForm.Proofs.Parsing

namespace WebForm

/-- The fault stands under a name. -/
def Fault.isAt (name : String) (f : Fault) : Bool := f.path.head? = some (.key name)

/-- The details of a report that stand under a name. -/
def Report.detailsAt (r : Report) (name : String) : List Detail :=
  r.details.filter fun d => d.path.head? = some (.key name)

/-- The field is rendered and read under the name, and no other field is. -/
structure Schema.Owns (schema : Schema) (f : Field) (name : String) : Prop where
  alone : ∃ before after, schema.fields = before ++ f :: after ∧ ∀ g ∈ before ++ after,
    g.formName schema.config ≠ name ∧ name ∉ g.readNames schema.config
  rendered : f.formName schema.config = name
  read : f.reportedName schema.config = name

/-! ## Details and faults

The first step of a fault's path decides at which name it is reported. -/

theorem Report.detailsAt_eq {data : Value} {o : Outcome} {r : Report}
    (h : Report.ofOutcome data o = .ok r) (name : String) :
    r.detailsAt name = ((Outcome.faults o).filter (Fault.isAt name)).map Fault.detail := by
  unfold detailsAt
  rw [Report.details_ofOutcome h, List.filter_map]
  rfl

namespace Outcome

variable {α : Type}

theorem filter_faults_under (name : String) (r : Except Rejection α) :
    (faults (under (.key name) r)).filter (Fault.isAt name) = faults (under (.key name) r) := by
  rw [faults_under, List.filter_eq_self]
  intro f hf
  obtain ⟨g, _, rfl⟩ := List.mem_map.mp hf
  exact decide_eq_true rfl

theorem filter_faults_under_of_ne {step : Step} {name : String} (h : step ≠ .key name)
    (r : Except Rejection α) : (faults (under step r)).filter (Fault.isAt name) = [] := by
  rw [faults_under, List.filter_eq_nil_iff]
  intro f hf
  obtain ⟨g, _, rfl⟩ := List.mem_map.mp hf
  intro hat
  exact h (Option.some.inj (of_decide_eq_true hat))

end Outcome

/-! ## The names of a field

The name under which a missing field is reported is the first under which it is looked for. -/

theorem FieldTraits.readNames_eq (c : Config) (f : FieldTraits) :
    ∃ others, f.readNames c = f.reportedName c :: others := by
  unfold FieldTraits.reportedName FieldTraits.readNames
  cases f.readAlias? c with
  | none => exact ⟨[], rfl⟩
  | some a =>
      cases c.byName with
      | true => exact ⟨[f.name], rfl⟩
      | false => exact ⟨[], rfl⟩

namespace Check

open Outcome

namespace FieldCheck

variable {c : Config} {f : FieldCheck} {whole : Value} {entries : List (Value × Value)}

theorem givenName?_of_present {x : Value}
    (h : Value.valueAt? entries (f.traits.reportedName c) = some x) :
    f.givenName? c entries = some (f.traits.reportedName c) := by
  obtain ⟨others, hnames⟩ := f.traits.readNames_eq c
  unfold givenName?
  rw [hnames, List.find?_cons_of_pos]
  rw [h]
  rfl

/-- A field is checked under the name under which it is given. -/
theorem outcome_of_given {name : String} {x : Value} (hname : f.givenName? c entries = some name)
    (h : Value.valueAt? entries name = some x) :
    f.outcome c whole entries = under (.key name) (f.run x) := by
  unfold outcome
  rw [hname]
  dsimp only
  rw [h]
  rfl

theorem outcome_of_present {x : Value}
    (h : Value.valueAt? entries (f.traits.reportedName c) = some x) :
    f.outcome c whole entries = under (.key (f.traits.reportedName c)) (f.run x) :=
  outcome_of_given (givenName?_of_present h) h

/-- A field that is not given under its first name has a fault there only if it is given under no
name at all and has to be. -/
theorem filter_outcome_of_absent
    (h : Value.valueAt? entries (f.traits.reportedName c) = Option.none) :
    (faults (f.outcome c whole entries)).filter (Fault.isAt (f.traits.reportedName c))
      = if f.traits.isRequired && (f.givenName? c entries).isNone then
          [⟨.missing, [.key (f.traits.reportedName c)], whole⟩]
        else [] := by
  unfold outcome
  cases hgiven : f.givenName? c entries with
  | some other =>
      have hne : other ≠ f.traits.reportedName c := by
        rintro rfl
        have hsome := List.find?_some hgiven
        rw [h] at hsome
        exact absurd hsome (by decide)
      rw [Option.isNone_some, Bool.and_false, if_neg Bool.false_ne_true]
      exact filter_faults_under_of_ne (fun heq => hne (Step.key.inj heq)) _
  | none =>
      unfold FieldTraits.isRequired
      cases f.traits.default with
      | some v => rfl
      | none => exact filter_faults_under _ (fault .missing whole)

theorem filter_outcome_of_not_mem {name : String} (h : name ∉ f.traits.readNames c) :
    (faults (f.outcome c whole entries)).filter (Fault.isAt name) = [] := by
  unfold outcome
  cases hgiven : f.givenName? c entries with
  | some other =>
      have hmem : other ∈ f.traits.readNames c := List.mem_of_find?_eq_some hgiven
      refine filter_faults_under_of_ne ?_ _
      intro heq
      exact h (Step.key.inj heq ▸ hmem)
  | none =>
      cases f.traits.default with
      | some v => rfl
      | none =>
          obtain ⟨others, hnames⟩ := f.traits.readNames_eq c
          refine filter_faults_under_of_ne ?_ _
          intro heq
          rw [hnames, Step.key.inj heq] at h
          exact h List.mem_cons_self

end FieldCheck

theorem keyStep_of_asText? {k : Value} {text : String} (h : k.asText? = some text) :
    keyStep k = .key text := by
  unfold keyStep
  rw [h]

theorem asText?_ne_of_givenName? {c : Config} {fields : List FieldCheck} {f : FieldCheck}
    {entries : List (Value × Value)} (hf : f ∈ fields) {name : String}
    (hname : f.givenName? c entries = some name) {e : Value × Value}
    (he : e ∈ extraEntries c fields entries) : e.1.asText? ≠ some name := by
  intro htext
  have hfree := (List.mem_filter.mp he).2
  have htaken : name ∈ fields.filterMap fun g => g.givenName? c entries :=
    List.mem_filterMap.mpr ⟨f, hf, hname⟩
  rw [Bool.not_eq_true', List.any_eq_false] at hfree
  exact hfree _ htaken (decide_eq_true htext)

theorem asText?_ne_of_mem_extraEntries {c : Config} {fields : List FieldCheck} {f : FieldCheck}
    {entries : List (Value × Value)} (hf : f ∈ fields) {e : Value × Value}
    (he : e ∈ extraEntries c fields entries) : e.1.asText? ≠ some (f.traits.reportedName c) := by
  intro hname
  have hmem := (List.mem_filter.mp he).1
  -- the entry itself shows that the field is given under the name
  have hpresent : ∃ x, Value.valueAt? entries (f.traits.reportedName c) = some x := by
    cases hv : Value.valueAt? entries (f.traits.reportedName c) with
    | some x => exact ⟨x, rfl⟩
    | none =>
        have hnone := List.find?_eq_none.mp (Option.map_eq_none_iff.mp hv) e hmem
        exact absurd (decide_eq_true hname) hnone
  obtain ⟨x, hx⟩ := hpresent
  exact asText?_ne_of_givenName? hf (FieldCheck.givenName?_of_present hx) he hname

theorem mem_extraEntries_of_mem_keptEntries {c : Config} {fields : List FieldCheck}
    {entries : List (Value × Value)} {e : Value × Value} (he : e ∈ keptEntries c fields entries) :
    e ∈ extraEntries c fields entries := by
  unfold keptEntries at he
  split at he
  · exact absurd he List.not_mem_nil
  · exact he

theorem filter_extraOutcome {c : Config} {fields : List FieldCheck} {f : FieldCheck}
    {entries : List (Value × Value)} (hf : f ∈ fields)
    (hkeys : ∀ e ∈ entries, e.1.asText?.isSome = true) {e : Value × Value}
    (he : e ∈ keptEntries c fields entries) :
    (faults (extraOutcome c e)).filter (Fault.isAt (f.traits.reportedName c)) = [] := by
  have hextra := mem_extraEntries_of_mem_keptEntries he
  obtain ⟨text, htext⟩ := Option.isSome_iff_exists.mp (hkeys e (List.mem_filter.mp hextra).1)
  refine filter_faults_under_of_ne ?_ _
  rw [keyStep_of_asText? htext]
  intro heq
  refine asText?_ne_of_mem_extraEntries hf hextra ?_
  rw [htext, Step.key.inj heq]

end Check

/-! ## Schemas

A name that is owned belongs to one field on both sides, where the page is made and where a
submission is read. -/

namespace Schema

open Outcome

variable {schema : Schema} {f : Field} {name : String}

theorem Owns.mem (h : schema.Owns f name) : f ∈ schema.fields := by
  obtain ⟨before, after, hfields, _⟩ := h.alone
  rw [hfields]
  exact List.mem_append_right _ List.mem_cons_self

theorem Owns.get? (h : schema.Owns f name) :
    Pairs.get? (Submission.fieldsByName schema) name = some f := by
  obtain ⟨before, after, hfields, hothers⟩ := h.alone
  rw [← h.rendered]
  refine Submission.get?_fieldsByName hfields ?_
  intro g hg
  rw [h.rendered]
  exact (hothers g (List.mem_append_right _ hg)).1

theorem Owns.field? (h : schema.Owns f name) : schema.field? name = some f := by
  obtain ⟨before, after, hfields, hothers⟩ := h.alone
  unfold Schema.field?
  rw [hfields, List.find?_append, List.find?_eq_none.mpr, Option.none_or, List.find?_cons_of_pos]
  · exact beq_iff_eq.mpr h.rendered
  · intro g hg heq
    exact (hothers g (List.mem_append_left _ hg)).1 (beq_iff_eq.mp heq)

/-- The faults at the name are the field's own. -/
theorem Owns.filter_check (h : schema.Owns f name) {strict? : Option Bool}
    {entries : List (Value × Value)} (hkeys : ∀ e ∈ entries, e.1.asText?.isSome = true)
    (hcheck : ¬IsMisfit (schema.check strict? (.map entries))) :
    (faults (schema.check strict? (.map entries))).filter (Fault.isAt name)
      = (faults ((f.fieldCheck strict? schema.config).outcome schema.config (.map entries)
          entries)).filter (Fault.isAt name) := by
  obtain ⟨before, after, hfields, hothers⟩ := h.alone
  rw [schema.check_map] at hcheck ⊢
  rw [Check.faults_runEntries hcheck]
  unfold Check.entryOutcomes
  have others : ∀ gs : List Field, (∀ g ∈ gs, name ∉ g.readNames schema.config) →
      ((gs.map (Field.fieldCheck strict? schema.config)).map
        (Check.FieldCheck.outcome schema.config (.map entries) entries)).flatMap
        (fun o => (faults o).filter (Fault.isAt name)) = [] := by
    intro gs hgs
    rw [List.flatMap_eq_nil_iff]
    intro o ho
    obtain ⟨k, hk, rfl⟩ := List.mem_map.mp ho
    obtain ⟨g, hg, rfl⟩ := List.mem_map.mp hk
    exact Check.FieldCheck.filter_outcome_of_not_mem (hgs g hg)
  have extras : ((Check.keptEntries schema.config
        (schema.fields.map (Field.fieldCheck strict? schema.config)) entries).map
        (Check.extraOutcome schema.config)).flatMap
        (fun o => (faults o).filter (Fault.isAt name)) = [] := by
    rw [List.flatMap_eq_nil_iff]
    intro o ho
    obtain ⟨e, he, rfl⟩ := List.mem_map.mp ho
    rw [← h.read]
    exact Check.filter_extraOutcome (f := f.fieldCheck strict? schema.config)
      (List.mem_map.mpr ⟨f, h.mem, rfl⟩) hkeys he
  rw [List.filter_flatMap, List.flatMap_append, extras, List.append_nil, hfields, List.map_append,
    List.map_append, List.map_cons, List.map_cons, List.flatMap_append, List.flatMap_cons,
    others before, others after, List.nil_append, List.append_nil]
  · intro g hg
    exact (hothers g (List.mem_append_right _ hg)).2
  · intro g hg
    exact (hothers g (List.mem_append_left _ hg)).2

theorem not_isMisfit_outcome {strict? : Option Bool} {entries : List (Value × Value)}
    (hf : f ∈ schema.fields) (hcheck : ¬IsMisfit (schema.check strict? (.map entries))) :
    ¬IsMisfit ((f.fieldCheck strict? schema.config).outcome schema.config (.map entries)
      entries) := by
  intro hm
  rw [schema.check_map, Check.isMisfit_runEntries_iff] at hcheck
  refine hcheck ⟨_, List.mem_append_left _ (List.mem_map.mpr ⟨_, ?_, rfl⟩), hm⟩
  exact List.mem_map.mpr ⟨f, hf, rfl⟩

end Schema

end WebForm
