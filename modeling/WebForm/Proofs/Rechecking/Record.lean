/-
What a check has passed, checked again: records.

A record is written out by the names under which its fields go, and the mapping that comes of
it is read by the names under which they are looked for.  A field can have several of each,
through aliases for reading and for writing, and the two need not agree.  Where they do, each
field finds its own value there (`givenName?_dumpedPairs`), and the record passes again:

    schema.isWrittenAsRead → … →
      schema.check (some true) (what the record is written out as) = .ok r'

`isWrittenAsRead` is decided on the schema.  Of the names under which fields are written, each
field is looked for under its own first, and no two are alike.  If the schema keeps names that
it does not know, such a name could be one under which a field is looked for before its own;
so the field then has to be looked for under its own name before all others.

What a record holds besides its fields stands under no field's first name
(`keyText_ne_of_mem_kept`), is there only if the schema allows it, and passes again since
nothing is checked in it.

A field that was not given has its default, which need not be a value that its check passes.
That has to be asked of the entries (`Field.SuitsIn`), together with what suits the type of
each field.

The lemmas about records in the middle of the module are not about checking again.  They say
what a mapping that passes becomes, and when a schema that forbids other names takes a
mapping.
-/
import WebForm.Proofs.FaultsAt
import WebForm.Proofs.Pairs
import WebForm.Proofs.Rechecking.Parts

namespace WebForm

open Outcome

/-- The names under which the fields are written. -/
def SchemaOf.writeNames {τ : Type} (schema : SchemaOf τ) : List String :=
  schema.fields.map fun f => f.writeName schema.config

/-- Of the names under which fields are written each field is looked for under its own first, and
no two names are alike.  If names that the schema does not know are kept, the field is looked for
under its own name before all others. -/
def SchemaOf.isWrittenAsRead {τ : Type} (schema : SchemaOf τ) : Bool :=
  schema.fields.all (fun f =>
      (f.readNames schema.config).find? schema.writeNames.contains
          == some (f.writeName schema.config)
        && (decide (schema.config.extras ≠ .allow)
          || f.writeName schema.config == f.reportedName schema.config))
    && decide schema.writeNames.Nodup

theorem Value.valueAt?_pairs (pairs : List (String × Value)) (name : String) :
    valueAt? (pairs.map fun p => (.str p.1, p.2)) name = Pairs.get? pairs name := by
  induction pairs with
  | nil => rfl
  | cons p pairs ih =>
      unfold valueAt? at ih ⊢
      rw [List.map_cons, List.find?_cons, Pairs.get?]
      by_cases h : p.1 = name
      · rw [if_pos h]
        simp [Value.asText?, h]
      · rw [if_neg h, ← ih]
        simp [Value.asText?, h]

theorem Outcome.gather_ok_of_forall {α : Type} {rs : List (Except Rejection α)}
    (h : ∀ r ∈ rs, ∃ a, r = .ok a) : ∃ as, gather rs = .ok as := by
  induction rs with
  | nil => exact ⟨[], rfl⟩
  | cons r rs ih =>
      obtain ⟨⟨a, rfl⟩, hrest⟩ := List.forall_mem_cons.mp h
      obtain ⟨as, has⟩ := ih hrest
      exact ⟨a :: as, by rw [gather, has]⟩

theorem Check.exists_runEntries {name : String} {c : Config} {fields : List FieldCheck}
    {whole : Value} {entries : List (Value × Value)}
    (h : ∀ o ∈ entryOutcomes c fields whole entries, ∃ p, o = .ok p) :
    ∃ r, runEntries name c fields whole entries = .ok r := by
  obtain ⟨parts, hparts⟩ := gather_ok_of_forall h
  exact ⟨_, congrArg (Except.map _) hparts⟩

/-! ## Fields

What comes of a field depends on what it is given, under the first of its names that is there. -/

namespace Field

variable {c : Config} {f : Field} {suits : Value → Prop} {entries : List (Value × Value)}

/-- What the entries hold for a field. -/
def given? (c : Config) (entries : List (Value × Value)) (f : Field) : Option Value :=
  (f.readNames c).findSome? (Value.valueAt? entries)

/-- What the field has passed within a schema it passes strictly, too. -/
structure Settles (c : Config) (suits : Value → Prop) (f : Field) : Prop where
  again : ∀ {v : Value} {r : Checked}, suits v → f.checkIn none c v = .ok r →
    ∃ r', f.checkIn (some true) c r.value.dump = .ok r'
  fits : ∀ v, ¬IsMisfit (f.checkIn (some true) c v)

/-- What the entries hold for the field suits it; if they hold nothing, its default passes. -/
structure SuitsIn (c : Config) (suits : Value → Prop) (entries : List (Value × Value)) (f : Field) :
    Prop where
  given : ∀ v, f.given? c entries = some v → suits v
  default : f.given? c entries = none →
    ∀ d, f.default = some d → ∃ r, f.checkIn (some true) c d.dump = .ok r

theorem suitsIn_of_given {v : Value} (h : f.given? c entries = some v) (hv : suits v) :
    f.SuitsIn c suits entries where
  given w hw := by
    rw [h] at hw
    rwa [← Option.some.inj hw]
  default hnone := by
    rw [h] at hnone
    cases hnone

theorem bind_givenName? (strict? : Option Bool) (c : Config) (entries : List (Value × Value))
    (f : Field) :
    ((f.fieldCheck strict? c).givenName? c entries).bind (Value.valueAt? entries)
      = f.given? c entries := by
  have hfound : ∀ names : List String,
      (names.find? fun name => (Value.valueAt? entries name).isSome).bind (Value.valueAt? entries)
        = names.findSome? (Value.valueAt? entries) := by
    intro names
    induction names with
    | nil => rfl
    | cons name names ih =>
        rw [List.find?_cons, List.findSome?_cons]
        cases hv : Value.valueAt? entries name with
        | some v => exact hv
        | none => exact ih
  exact hfound (f.readNames c)

theorem givenName?_eq_none {strict? : Option Bool} (h : f.given? c entries = none) :
    (f.fieldCheck strict? c).givenName? c entries = none := by
  rw [Option.eq_none_iff_forall_ne_some]
  intro name hname
  have hgiven := bind_givenName? strict? c entries f
  obtain ⟨v, hv⟩ := Option.isSome_iff_exists.mp
    (List.find?_some (p := fun name => (Value.valueAt? entries name).isSome) hname)
  rw [hname, Option.bind_some, hv, h] at hgiven
  cases hgiven

theorem outcome_of_given? {v : Value} (h : f.given? c entries = some v) (strict? : Option Bool)
    (whole : Value) :
    ∃ name, (f.fieldCheck strict? c).outcome c whole entries
      = under (.key name) (f.checkIn strict? c v) := by
  have hgiven := bind_givenName? strict? c entries f
  rw [h] at hgiven
  obtain ⟨name, hname, hv⟩ := Option.bind_eq_some_iff.mp hgiven
  exact ⟨name, Check.FieldCheck.outcome_of_given hname hv⟩

theorem exists_outcome {strict? : Option Bool}
    (h : ∀ v, f.given? c entries = some v → ∃ p, f.checkIn strict? c v = .ok p)
    (hdefault : f.given? c entries = none → f.default.isSome = true) (whole : Value) :
    ∃ p, (f.fieldCheck strict? c).outcome c whole entries = .ok p := by
  cases hgiven : f.given? c entries with
  | some v =>
      obtain ⟨p, hp⟩ := h v hgiven
      obtain ⟨name, houtcome⟩ := outcome_of_given? hgiven strict? whole
      exact ⟨p, houtcome.trans (under_eq_ok_iff.mpr hp)⟩
  | none =>
      obtain ⟨d, hd⟩ := Option.isSome_iff_exists.mp (hdefault hgiven)
      have htraits : (f.fieldCheck strict? c).traits.default = some d := hd
      refine ⟨{ value := d }, ?_⟩
      unfold Check.FieldCheck.outcome
      rw [givenName?_eq_none hgiven, htraits]
      rfl

theorem of_outcome_eq_ok {strict? : Option Bool} {whole : Value} {r : Checked}
    (h : (f.fieldCheck strict? c).outcome c whole entries = .ok r) :
    (∃ v, f.given? c entries = some v ∧ f.checkIn strict? c v = .ok r)
      ∨ f.given? c entries = none ∧ ∃ d, f.default = some d ∧ r.value = d := by
  cases hgiven : f.given? c entries with
  | some v =>
      obtain ⟨name, houtcome⟩ := outcome_of_given? hgiven strict? whole
      rw [houtcome, under_eq_ok_iff] at h
      exact Or.inl ⟨v, rfl, h⟩
  | none =>
      unfold Check.FieldCheck.outcome at h
      rw [givenName?_eq_none hgiven] at h
      dsimp only at h
      split at h
      · rename_i d hd
        cases h
        exact Or.inr ⟨rfl, d, hd, rfl⟩
      · cases h

theorem Settles.outcome_again (h : f.Settles c suits) (hsuits : f.SuitsIn c suits entries)
    {whole : Value} {r : Checked} (hr : (f.fieldCheck none c).outcome c whole entries = .ok r) :
    ∃ r', f.checkIn (some true) c r.value.dump = .ok r' := by
  rcases of_outcome_eq_ok hr with ⟨v, hv, hpass⟩ | ⟨hnone, d, hd, hvalue⟩
  · exact h.again (hsuits.given v hv) hpass
  · rw [hvalue]
    exact hsuits.default hnone d hd

end Field

/-! ## Records

A record has the values that its fields took, in the order of the fields, and behind them what
is kept besides. -/

theorem values_eq_map {β : Type} {l : List β} {outcome : β → Outcome} {value : β → Value}
    {ps : List Checked} (h : ps.map .ok = l.map outcome)
    (hvalue : ∀ b ∈ l, ∀ p, outcome b = .ok p → p.value = value b) :
    ps.map (·.value) = l.map value := by
  induction l generalizing ps with
  | nil => rw [List.map_eq_nil_iff.mp h, List.map_nil, List.map_nil]
  | cons b l ih =>
      obtain ⟨p, ps, rfl, hp, hps⟩ := List.map_eq_cons_iff.mp h
      obtain ⟨hfirst, hrest⟩ := List.forall_mem_cons.mp hvalue
      rw [List.map_cons, List.map_cons, ih hps hrest, hfirst p hp.symm]

namespace Schema

variable {schema : Schema} {entries : List (Value × Value)} {r : Checked}

/-- The fields with their checks, strict or as declared. -/
abbrev checksOf (schema : Schema) (strict? : Option Bool) : List Check.FieldCheck :=
  schema.fields.map (Field.fieldCheck strict? schema.config)

/-- What comes of a field in a mapping. -/
abbrev fieldOutcome (schema : Schema) (strict? : Option Bool) (entries : List (Value × Value))
    (f : Field) : Outcome :=
  (Field.fieldCheck strict? schema.config f).outcome schema.config (.map entries) entries

/-- What a field takes of a mapping in which it passes. -/
def taken (schema : Schema) (entries : List (Value × Value)) (f : Field) : Value :=
  ((schema.fieldOutcome none entries f).toOption.map (·.value)).getD .null

/-- The entries that a record keeps besides its fields. -/
def kept (schema : Schema) (entries : List (Value × Value)) : List (Value × Value) :=
  Check.keptEntries schema.config (schema.checksOf none) entries

/-- The text of a key. -/
def keyText (e : Value × Value) : String := e.1.asText?.getD ""

theorem extraOutcome_eq_ok {c : Config} {e : Value × Value} {p : Checked}
    (h : Check.extraOutcome c e = .ok p) :
    e.1.asText? = some (keyText e) ∧ c.extras ≠ .forbid ∧ p.value = e.2 := by
  unfold Check.extraOutcome at h
  rw [under_eq_ok_iff] at h
  unfold keyText
  cases htext : e.1.asText? with
  | none =>
      rw [htext] at h
      cases h
  | some text =>
      rw [htext] at h
      cases hextras : c.extras with
      | forbid =>
          rw [hextras] at h
          cases h
      | ignore | allow =>
          rw [hextras] at h
          cases h
          exact ⟨rfl, Extras.noConfusion, rfl⟩

/-- A mapping that passes becomes the record of what the fields take and of what is kept besides. -/
theorem of_check_eq_ok (h : schema.check none (.map entries) = .ok r) :
    (∀ f ∈ schema.fields, ∃ p, schema.fieldOutcome none entries f = .ok p ∧
      p.value = schema.taken entries f) ∧
    (∀ e ∈ schema.kept entries, e.1.asText? = some (keyText e) ∧
      schema.config.extras ≠ .forbid) ∧
    r.value = .record schema.name
      (schema.fields.map (fun f => f.writeName schema.config) ++ (schema.kept entries).map keyText)
      (schema.fields.map (fun f => (f.name, schema.taken entries f))
        ++ (schema.kept entries).map fun e => (keyText e, e.2)) := by
  rw [check_map] at h
  unfold Check.runEntries at h
  obtain ⟨parts, hparts, rfl⟩ := exists_of_map_eq_ok h
  rw [gather_eq_ok_iff] at hparts
  obtain ⟨fieldParts, keptParts, rfl, hfields, hkept⟩ := List.map_eq_append_iff.mp hparts.symm
  rw [List.map_map] at hfields
  have fieldPassed : ∀ f ∈ schema.fields, ∃ p, schema.fieldOutcome none entries f = .ok p := by
    intro f hf
    have hmem : schema.fieldOutcome none entries f ∈ fieldParts.map Except.ok := by
      rw [hfields]
      exact List.mem_map.mpr ⟨f, hf, rfl⟩
    obtain ⟨p, _, hp⟩ := List.mem_map.mp hmem
    exact ⟨p, hp.symm⟩
  have keptPassed : ∀ e ∈ schema.kept entries, ∃ p, Check.extraOutcome schema.config e = .ok p := by
    intro e he
    have hmem : Check.extraOutcome schema.config e ∈ keptParts.map Except.ok := by
      rw [hkept]
      exact List.mem_map.mpr ⟨e, he, rfl⟩
    obtain ⟨p, _, hp⟩ := List.mem_map.mp hmem
    exact ⟨p, hp.symm⟩
  have taken_eq : ∀ f p, schema.fieldOutcome none entries f = .ok p →
      p.value = schema.taken entries f := by
    intro f p hp
    unfold taken
    rw [hp]
    rfl
  have keptText : ∀ e ∈ schema.kept entries, e.1.asText? = some (keyText e) ∧
      schema.config.extras ≠ .forbid := by
    intro e he
    obtain ⟨p, hp⟩ := keptPassed e he
    exact ⟨(extraOutcome_eq_ok hp).1, (extraOutcome_eq_ok hp).2.1⟩
  refine ⟨fun f hf => ?_, keptText, ?_⟩
  · obtain ⟨p, hp⟩ := fieldPassed f hf
    exact ⟨p, hp, taken_eq f p hp⟩
  have fieldValues : fieldParts.map (·.value) = schema.fields.map (schema.taken entries) :=
    values_eq_map hfields fun f _ => taken_eq f
  have keptValues : keptParts.map (·.value) = (schema.kept entries).map (·.2) :=
    values_eq_map hkept fun e _ p hp => (extraOutcome_eq_ok hp).2.2
  have keptNames : (schema.kept entries).filterMap (fun e => e.1.asText?)
      = (schema.kept entries).map keyText := by
    rw [← List.filterMap_eq_map]
    exact List.filterMap_congr fun e he => (keptText e he).1
  dsimp only
  rw [Checked.ofParts_value, List.map_append, fieldValues, keptValues]
  show Value.record _ (_ ++ (schema.kept entries).filterMap _)
    ((_ ++ (schema.kept entries).filterMap _).zip _) = _
  rw [keptNames, List.map_map, List.map_map, List.zip_append (by simp), List.zip_map', List.zip_map']
  rfl

/-- What the record that a mapping becomes is written out as. -/
def dumpedPairs (schema : Schema) (entries : List (Value × Value)) : List (String × Value) :=
  Pairs.setAll []
    (schema.fields.map (fun f => (f.writeName schema.config, (schema.taken entries f).dump))
      ++ (schema.kept entries).map fun e => (keyText e, e.2.dump))

theorem dump_of_check (h : schema.check none (.map entries) = .ok r) :
    r.value.dump = .ofPairs (schema.dumpedPairs entries) := by
  rw [(of_check_eq_ok h).2.2, Value.dump, Value.dumpFields_eq, List.map_append, List.map_map,
    List.map_map, List.zip_append (by simp), List.zip_map', List.zip_map']
  rfl

theorem dumpedPairs_of_kept_eq_nil (hnames : schema.writeNames.Nodup)
    (hkept : schema.kept entries = []) :
    schema.dumpedPairs entries
      = schema.fields.map fun f => (f.writeName schema.config, (schema.taken entries f).dump) := by
  unfold dumpedPairs
  rw [hkept, List.map_nil, List.append_nil, Pairs.setAll_nil_of_nodup]
  rw [Pairs.keys, List.map_map]
  exact hnames

theorem get?_dumpedPairs_of_kept (hnames : schema.writeNames.Nodup) {f : Field}
    (hf : f ∈ schema.fields)
    (hkept : ∀ e ∈ schema.kept entries, keyText e ≠ f.writeName schema.config) :
    Pairs.get? (schema.dumpedPairs entries) (f.writeName schema.config)
      = some (schema.taken entries f).dump := by
  unfold dumpedPairs
  rw [Pairs.setAll_append, Pairs.get?_setAll_of_ne, Pairs.setAll_nil_of_nodup]
  · exact Pairs.get?_map hnames (fun f => (schema.taken entries f).dump) hf
  · rw [Pairs.keys, List.map_map]
    exact hnames
  · intro p hp
    obtain ⟨e, he, rfl⟩ := List.mem_map.mp hp
    exact hkept e he

theorem kept_eq_nil (h : schema.check none (.map entries) = .ok r)
    (hextras : schema.config.extras ≠ .allow) : schema.kept entries = [] := by
  cases hcase : schema.config.extras with
  | allow => exact absurd hcase hextras
  | ignore =>
      unfold kept Check.keptEntries
      rw [hcase]
  | forbid =>
      exact List.eq_nil_iff_forall_not_mem.mpr fun e he => ((of_check_eq_ok h).2.1 e he).2 hcase

/-- A schema that forbids other names takes a mapping exactly when each field passes and nothing is
left over. -/
theorem exists_check_iff (hextras : schema.config.extras = .forbid) :
    (∃ r, schema.check none (.map entries) = .ok r)
      ↔ (∀ f ∈ schema.fields, ∃ p, schema.fieldOutcome none entries f = .ok p) ∧
        schema.kept entries = [] := by
  constructor
  · rintro ⟨r, hr⟩
    have hkept := kept_eq_nil hr (by rw [hextras]; exact Extras.noConfusion)
    exact ⟨fun f hf => ((of_check_eq_ok hr).1 f hf).imp fun _ hp => hp.1, hkept⟩
  · rintro ⟨hfields, hkept⟩
    rw [check_map]
    refine Check.exists_runEntries fun o ho => ?_
    rcases List.mem_append.mp ho with ho | ho
    · rw [List.map_map] at ho
      obtain ⟨f, hf, rfl⟩ := List.mem_map.mp ho
      exact hfields f hf
    · obtain ⟨e, he, -⟩ := List.mem_map.mp ho
      have hmem : e ∈ schema.kept entries := he
      rw [hkept] at hmem
      exact absurd hmem List.not_mem_nil

/-- What a record keeps besides its fields stands under no field's first name. -/
theorem keyText_ne_of_mem_kept (h : schema.check none (.map entries) = .ok r) {e : Value × Value}
    (he : e ∈ schema.kept entries) {f : Field} (hf : f ∈ schema.fields) :
    keyText e ≠ f.reportedName schema.config := by
  intro heq
  have hmem : Field.fieldCheck none schema.config f ∈ schema.checksOf none :=
    List.mem_map.mpr ⟨f, hf, rfl⟩
  refine Check.asText?_ne_of_mem_extraEntries hmem
    (Check.mem_extraEntries_of_mem_keptEntries he) ?_
  rw [((of_check_eq_ok h).2.1 e he).1]
  exact congrArg some heq

section

variable (hnames : schema.isWrittenAsRead = true) (h : schema.check none (.map entries) = .ok r)

include hnames

theorem nodup_writeNames : schema.writeNames.Nodup :=
  of_decide_eq_true (Bool.and_eq_true_iff.mp hnames).2

theorem writeName_found {f : Field} (hf : f ∈ schema.fields) :
    (f.readNames schema.config).find? schema.writeNames.contains
        = some (f.writeName schema.config) ∧
      (schema.config.extras = .allow →
        f.writeName schema.config = f.reportedName schema.config) := by
  have hfield := List.all_eq_true.mp (Bool.and_eq_true_iff.mp hnames).1 f hf
  obtain ⟨hfound, hfirst⟩ := Bool.and_eq_true_iff.mp hfield
  refine ⟨eq_of_beq hfound, fun hallow => ?_⟩
  rcases Bool.or_eq_true_iff.mp hfirst with hextras | hfirst
  · exact absurd hallow (of_decide_eq_true hextras)
  · exact eq_of_beq hfirst

include h

theorem get?_dumpedPairs {f : Field} (hf : f ∈ schema.fields) :
    Pairs.get? (schema.dumpedPairs entries) (f.writeName schema.config)
      = some (schema.taken entries f).dump := by
  refine get?_dumpedPairs_of_kept (nodup_writeNames hnames) hf fun e he heq => ?_
  have hallow : schema.config.extras = .allow := by
    by_contra hextras
    rw [kept_eq_nil h hextras] at he
    exact absurd he List.not_mem_nil
  exact keyText_ne_of_mem_kept h he hf (heq.trans ((writeName_found hnames hf).2 hallow))

/-- In what the record is written out as, each field is found under the name under which it is
written. -/
theorem givenName?_dumpedPairs (strict? : Option Bool) {f : Field} (hf : f ∈ schema.fields) :
    (f.fieldCheck strict? schema.config).givenName? schema.config
      ((schema.dumpedPairs entries).map fun p => (.str p.1, p.2))
        = some (f.writeName schema.config) := by
  obtain ⟨hfound, hfirst⟩ := writeName_found hnames hf
  by_cases hallow : schema.config.extras = .allow
  · have hpresent := get?_dumpedPairs hnames h hf
    rw [← Value.valueAt?_pairs, hfirst hallow] at hpresent
    rw [hfirst hallow]
    exact Check.FieldCheck.givenName?_of_present (f := f.fieldCheck strict? schema.config) hpresent
  · rw [← hfound]
    refine congrArg (List.find? · (f.readNames schema.config)) (funext fun name => ?_)
    rw [Value.valueAt?_pairs, dumpedPairs_of_kept_eq_nil (nodup_writeNames hnames)
      (kept_eq_nil h hallow), Bool.eq_iff_iff]
    rw [List.contains_iff_mem]
    refine Pairs.has_iff_mem_keys.trans ?_
    rw [Pairs.keys, List.map_map]
    rfl

theorem extra_again {e : Value × Value}
    (he : e ∈ Check.keptEntries schema.config (schema.checksOf (some true))
      ((schema.dumpedPairs entries).map fun p => (.str p.1, p.2))) :
    ∃ p, Check.extraOutcome schema.config e = .ok p := by
  have hextra := Check.mem_extraEntries_of_mem_keptEntries he
  obtain ⟨p, hp, rfl⟩ := List.mem_map.mp (List.mem_filter.mp hextra).1
  cases hextras : schema.config.extras with
  | ignore =>
      unfold Check.keptEntries at he
      rw [hextras] at he
      exact absurd he List.not_mem_nil
  | allow =>
      refine ⟨{ value := p.2 }, ?_⟩
      unfold Check.extraOutcome
      rw [under_eq_ok_iff, hextras]
      rfl
  | forbid =>
      -- nothing was kept before, so that the key is one under which a field is written
      have hnone : schema.kept entries = [] := kept_eq_nil h fun hallow => by
        rw [hextras] at hallow
        cases hallow
      have hkey := hp
      rw [dumpedPairs_of_kept_eq_nil (nodup_writeNames hnames) hnone] at hkey
      obtain ⟨f, hf, rfl⟩ := List.mem_map.mp hkey
      have hmem : Field.fieldCheck (some true) schema.config f ∈ schema.checksOf (some true) :=
        List.mem_map.mpr ⟨f, hf, rfl⟩
      exact absurd rfl (Check.asText?_ne_of_givenName? hmem
        (givenName?_dumpedPairs hnames h (some true) hf) hextra)

/-- A schema that is written as it is read passes its own record again, written out and strictly. -/
theorem check_again {suits : Field → Value → Prop}
    (hsettles : ∀ f ∈ schema.fields, Field.Settles schema.config (suits f) f)
    (hsuits : ∀ f ∈ schema.fields, Field.SuitsIn schema.config (suits f) entries f) :
    ∃ r', schema.check (some true) r.value.dump = .ok r' := by
  rw [dump_of_check h, Value.ofPairs, check_map]
  refine Check.exists_runEntries fun o ho => ?_
  rcases List.mem_append.mp ho with ho | ho
  · rw [List.map_map] at ho
    obtain ⟨f, hf, rfl⟩ := List.mem_map.mp ho
    obtain ⟨p, hp, htaken⟩ := (of_check_eq_ok h).1 f hf
    obtain ⟨q, hq⟩ := (hsettles f hf).outcome_again (hsuits f hf) hp
    have hpresent := get?_dumpedPairs hnames h hf
    rw [← htaken, ← Value.valueAt?_pairs] at hpresent
    refine ⟨q, ?_⟩
    show Check.FieldCheck.outcome _ _ _ (Field.fieldCheck (some true) schema.config f) = _
    rw [Check.FieldCheck.outcome_of_given (givenName?_dumpedPairs hnames h (some true) hf) hpresent]
    exact under_eq_ok_iff.mpr hq
  · obtain ⟨e, he, rfl⟩ := List.mem_map.mp ho
    exact extra_again hnames h he

end

/-- A mapping suits a schema if what it holds suits the fields, and so does a record that came of
such a mapping. -/
def Suits (schema : Schema) (suits : Field → Value → Prop) : Value → Prop
  | .map entries => ∀ f ∈ schema.fields, Field.SuitsIn schema.config (suits f) entries f
  | .record name written fields =>
      ∃ entries r, (∀ f ∈ schema.fields, Field.SuitsIn schema.config (suits f) entries f) ∧
        schema.check none (.map entries) = .ok r ∧ r.value = .record name written fields
  | _ => True

/-- The check of a schema's records passes them again where the schema is written as it is read. -/
theorem settles_record {suits : Field → Value → Prop} {s s' : Setting}
    (hnames : schema.isWrittenAsRead = true)
    (hsettles : ∀ f ∈ schema.fields, Field.Settles schema.config (suits f) f) :
    Check.Settles ⟨false, Limit.isUnknown⟩ (schema.Suits suits)
      (Check.record schema.name schema.config (schema.checksOf none) s)
      (Check.record schema.name schema.config (schema.checksOf (some true)) s') := by
  have again : ∀ {entries : List (Value × Value)} {r : Checked},
      (∀ f ∈ schema.fields, Field.SuitsIn schema.config (suits f) entries f) →
      schema.check none (.map entries) = .ok r →
      ∃ r', Check.runRecord schema.name schema.config (schema.checksOf (some true)) r.value.dump
        = .ok r' := by
    intro entries r hsuits hr
    obtain ⟨r', hr'⟩ := check_again hnames hr hsettles hsuits
    rw [dump_of_check hr, Value.ofPairs] at hr' ⊢
    rw [check_map] at hr'
    exact ⟨r', hr'⟩
  refine Check.settles_ofOwn (fun _ h => h) (fun {ls v} _ hsuits => ?_) fun ls v => ?_
  · intro r hr
    cases v with
    | map entries =>
        have hcheck : schema.check none (.map entries) = .ok r := by
          rw [check_map]
          exact hr
        obtain ⟨r', hr'⟩ := again hsuits hcheck
        exact ⟨r', hr', fun h => nomatch h⟩
    | record name written fields =>
        obtain ⟨entries, r₀, hfields, hcheck, hvalue⟩ := hsuits
        unfold Check.runRecord at hr
        dsimp only at hr
        split at hr
        · cases hr
          obtain ⟨r', hr'⟩ := again hfields hcheck
          rw [hvalue] at hr'
          exact ⟨r', hr', fun h => nomatch h⟩
        · cases hr
    | _ => cases hr
  · unfold Check.runRecord
    split
    · rw [Check.isMisfit_runEntries_iff]
      rintro ⟨o, ho, hm⟩
      rcases List.mem_append.mp ho with ho | ho
      · rw [List.map_map] at ho
        obtain ⟨f, hf, rfl⟩ := List.mem_map.mp ho
        unfold Check.FieldCheck.outcome at hm
        dsimp only [Function.comp_apply] at hm
        split at hm
        · rw [isMisfit_under_iff] at hm
          exact (hsettles f hf).fits _ hm
        · split at hm
          · exact not_isMisfit_pass _ _ hm
          · rw [isMisfit_under_iff] at hm
            exact not_isMisfit_fault _ _ hm
      · obtain ⟨e, _, rfl⟩ := List.mem_map.mp ho
        unfold Check.extraOutcome at hm
        rw [isMisfit_under_iff] at hm
        split at hm
        · exact not_isMisfit_fault _ _ hm
        · exact not_isMisfit_fault _ _ hm
        · exact not_isMisfit_pass _ _ hm
    · split
      · exact not_isMisfit_pass _ _
      · exact not_isMisfit_fault _ _
    · exact not_isMisfit_fault _ _

end Schema

end WebForm
