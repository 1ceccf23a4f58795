/-
What a mapping says of the options of a form.

An option is named by its alias or by its own name; these are its spellings.  A mapping that
names nothing but options, with values that they take, is refused only where it names one of
them in both ways: then one of the two names is left over, and no other names are allowed.

    AreOptions pairs → ((∃ r, schema.check none (.ofPairs pairs) = .ok r) ↔ SpelledOnce pairs)

If it is taken, each option holds what is said under the one name, as its type takes it, or
else its default, whatever is said of the others (`holds_of_check`).

Two things make this work for all options at once.  No two options have a spelling in common,
so that what is said under a key is said of one option; and every default is a value that its
option takes, and stays as it is.  Both are decided for the list of options, which is fixed.

What a record of options holds is read by the types of the options: a text, a flag, one of two
methods, or nothing.  A value that an option takes comes out as one of these
(`suits_of_checkIn`), so that no case of the reading is left where a value would be lost.

The first part is about schemas in general that are checked on pairs with texts as keys: a
field is given what stands under the first of its names that is there.
-/
import Mathlib.Data.List.Nodup
import WebForm.Options.Basic
import WebForm.Proofs.Rechecking.Record
import WebForm.Proofs.Rechecking.Scalar
import WebForm.Proofs.Settings.Overlay

namespace WebForm

open Outcome

/-! ## Schemas and pairs -/

theorem Field.given?_keyed (c : Config) (pairs : List (String × Value)) (f : Field) :
    f.given? c (Value.keyed pairs) = (f.readNames c).findSome? (Pairs.get? pairs) := by
  rw [given?, (funext (Value.valueAt?_pairs pairs) :
    Value.valueAt? (Value.keyed pairs) = Pairs.get? pairs)]

theorem Field.givenName?_keyed (strict? : Option Bool) (c : Config) (pairs : List (String × Value))
    (f : Field) :
    (f.fieldCheck strict? c).givenName? c (Value.keyed pairs)
      = (f.readNames c).find? (Pairs.has pairs) := by
  have hgiven : (fun name => (Value.valueAt? (Value.keyed pairs) name).isSome) = Pairs.has pairs :=
    funext fun name => congrArg Option.isSome (Value.valueAt?_pairs pairs name)
  unfold Check.FieldCheck.givenName?
  rw [hgiven]
  rfl

theorem Schema.kept_keyed_eq_nil_iff {schema : Schema} (hextras : schema.config.extras = .forbid)
    (pairs : List (String × Value)) :
    schema.kept (Value.keyed pairs) = []
      ↔ ∀ p ∈ pairs, ∃ f ∈ schema.fields,
        (f.readNames schema.config).find? (Pairs.has pairs) = some p.1 := by
  unfold kept Check.keptEntries
  rw [hextras]
  unfold Check.extraEntries
  dsimp only
  rw [List.filter_eq_nil_iff, Value.keyed, List.forall_mem_map]
  refine forall₂_congr fun p _ => ?_
  rw [Bool.not_eq_true', Bool.not_eq_false, List.any_eq_true]
  constructor
  · rintro ⟨name, hname, heq⟩
    obtain ⟨g, hg, hgiven⟩ := List.mem_filterMap.mp hname
    obtain ⟨f, hf, rfl⟩ := List.mem_map.mp hg
    have hp : p.1 = name := Option.some.inj (of_decide_eq_true heq)
    exact ⟨f, hf, hp ▸ (Field.givenName?_keyed none _ pairs f).symm.trans hgiven⟩
  · rintro ⟨f, hf, hfind⟩
    exact ⟨p.1, List.mem_filterMap.mpr ⟨_, List.mem_map.mpr ⟨f, hf, rfl⟩,
      (Field.givenName?_keyed none _ pairs f).trans hfind⟩, decide_eq_true rfl⟩

namespace Options

/-! ## Spellings -/

/-- The spellings of an option: its alias, if it has one, and its name. -/
def spellings (f : Field) : List String := f.knownAs.toList ++ [f.name]

theorem readNames_eq : ∀ f ∈ fields, f.readNames schema.config = spellings f := by decide +kernel

theorem nodup_names : (fields.map (·.name)).Nodup := by decide +kernel

theorem eq_of_mem_spellings {f g : Field} (hf : f ∈ fields) (hg : g ∈ fields) {k : String}
    (hk : k ∈ spellings f) (hk' : k ∈ spellings g) : f = g := by
  have apart : ∀ f ∈ fields, ∀ g ∈ fields, ∀ k ∈ spellings f, k ∈ spellings g → f.name = g.name := by
    decide +kernel
  exact List.inj_on_of_nodup_map nodup_names hf hg (apart f hf g hg k hk hk')

/-- The option takes the value. -/
def Takes (f : Field) (v : Value) : Prop := ∃ q, f.checkIn none schema.config v = .ok q

instance (f : Field) (v : Value) : Decidable (Takes f v) :=
  match h : f.checkIn none schema.config v with
  | .ok q => isTrue ⟨q, h⟩
  | .error _ => isFalse fun ⟨_, hq⟩ => nomatch h.symm.trans hq

/-- What pairs say of an option, under one of its spellings. -/
def valueOf? (pairs : List (String × Value)) (f : Field) : Option Value :=
  (spellings f).findSome? (Pairs.get? pairs)

/-- The pairs name options and nothing else, with values that the options take. -/
def AreOptions (pairs : List (String × Value)) : Prop :=
  ∀ p ∈ pairs, ∃ f ∈ fields, p.1 ∈ spellings f ∧ Takes f p.2

instance (pairs : List (String × Value)) : Decidable (AreOptions pairs) :=
  inferInstanceAs (Decidable (∀ p ∈ pairs, ∃ f ∈ fields, p.1 ∈ spellings f ∧ Takes f p.2))

/-- The pairs name no option by two spellings. -/
def SpelledOnce (pairs : List (String × Value)) : Prop :=
  ∀ f ∈ fields, ∀ k ∈ spellings f, ∀ k' ∈ spellings f,
    k ∈ Pairs.keys pairs → k' ∈ Pairs.keys pairs → k = k'

/-! ## The check of options

The check of the schema passes if every option passes and no key is left over.  A key is left
over if it is a spelling of an option that was found under its other spelling. -/

section

variable {pairs : List (String × Value)} {f : Field}

theorem given?_keyed (hf : f ∈ fields) :
    f.given? schema.config (Value.keyed pairs) = valueOf? pairs f := by
  rw [Field.given?_keyed, readNames_eq f hf]
  rfl

theorem AreOptions.takes (h : AreOptions pairs) (hf : f ∈ fields) {v : Value}
    (hv : valueOf? pairs f = some v) : Takes f v := by
  obtain ⟨k, hk, hget⟩ := List.exists_of_findSome?_eq_some hv
  obtain ⟨g, hg, hkg, htakes⟩ := h (k, v) (Pairs.mem_of_get?_eq_some hget)
  rw [eq_of_mem_spellings hf hg hk hkg]
  exact htakes

theorem AreOptions.exists_fieldOutcome (h : AreOptions pairs) (hf : f ∈ fields) :
    ∃ p, schema.fieldOutcome none (Value.keyed pairs) f = .ok p := by
  have defaults : ∀ f ∈ fields, f.default.isSome = true := by decide +kernel
  refine Field.exists_outcome (fun v hv => h.takes hf ?_) (fun _ => defaults f hf) _
  rwa [given?_keyed hf] at hv

theorem AreOptions.kept_eq_nil_iff (h : AreOptions pairs) :
    schema.kept (Value.keyed pairs) = [] ↔ SpelledOnce pairs := by
  have taken : schema.kept (Value.keyed pairs) = [] ↔ ∀ p ∈ pairs, ∃ f ∈ fields,
      (spellings f).find? (Pairs.has pairs) = some p.1 := by
    rw [Schema.kept_keyed_eq_nil_iff rfl]
    refine forall₂_congr fun p _ => exists_congr fun f => and_congr_right fun hf => ?_
    rw [readNames_eq f hf]
  rw [taken]
  constructor
  · intro hall f hf k hk k' hk' hmem hmem'
    have found : ∀ k ∈ spellings f, k ∈ Pairs.keys pairs →
        (spellings f).find? (Pairs.has pairs) = some k := by
      intro k hk hmem
      obtain ⟨p, hp, rfl⟩ := List.mem_map.mp hmem
      obtain ⟨g, hg, hfind⟩ := hall p hp
      rwa [eq_of_mem_spellings hf hg hk (List.mem_of_find?_eq_some hfind)]
    exact Option.some.inj ((found k hk hmem).symm.trans (found k' hk' hmem'))
  · intro honce p hp
    obtain ⟨f, hf, hspelled, -⟩ := h p hp
    have hkey : p.1 ∈ Pairs.keys pairs := List.mem_map.mpr ⟨p, hp, rfl⟩
    refine ⟨f, hf, ?_⟩
    cases hfind : (spellings f).find? (Pairs.has pairs) with
    | none => exact absurd (Pairs.has_iff_mem_keys.mpr hkey) (List.find?_eq_none.mp hfind p.1 hspelled)
    | some k =>
        have hk := Pairs.has_iff_mem_keys.mp (List.find?_some hfind)
        rw [honce f hf k (List.mem_of_find?_eq_some hfind) p.1 hspelled hk hkey]

/-- Options that take what is said of them are taken together exactly when none is named by two
spellings. -/
theorem AreOptions.exists_check_iff (h : AreOptions pairs) :
    (∃ r, schema.check none (.ofPairs pairs) = .ok r) ↔ SpelledOnce pairs := by
  rw [← h.kept_eq_nil_iff]
  exact (Schema.exists_check_iff rfl).trans
    (and_iff_right fun f hf => h.exists_fieldOutcome hf)

theorem taken_of_check {r : Checked} (hr : schema.check none (.ofPairs pairs) = .ok r)
    (hf : f ∈ fields) :
    match valueOf? pairs f with
    | some v => ∃ q, f.checkIn none schema.config v = .ok q ∧
        schema.taken (Value.keyed pairs) f = q.value
    | none => f.default = some (schema.taken (Value.keyed pairs) f) := by
  have hr : schema.check none (.map (Value.keyed pairs)) = .ok r := hr
  obtain ⟨p, hp, hvalue⟩ := (Schema.of_check_eq_ok hr).1 f hf
  have houtcome := Field.of_outcome_eq_ok hp
  rw [given?_keyed hf] at houtcome
  rcases houtcome with ⟨v, hv, hq⟩ | ⟨hnone, d, hd, heq⟩
  · rw [hv]
    exact ⟨p, hq, hvalue.symm⟩
  · rw [hnone, ← hvalue, heq]
    exact hd

end

/-! ## Options of a record -/

/-- A value that the option can hold. -/
def Suits (f : Field) (v : Value) : Prop :=
  match f.type with
  | .bool => ∃ b, v = .bool b
  | .str => ∃ t, v = .str t
  | _ => v = .null ∨ ∃ t, v = .str t

/-- What a record of options holds for an option, as its type has it. -/
def heldAs (pairs : List (String × Value)) (f : Field) : Value :=
  match f.type with
  | .bool => .bool (flag pairs f.name)
  | .str => .str ((text? pairs f.name).getD "")
  | _ => ofText? (text? pairs f.name)

theorem toPairs_ofRecord (pairs : List (String × Value)) :
    (ofRecord pairs).toPairs = fields.map fun f => (f.name, heldAs pairs f) := rfl

theorem get?_toPairs_ofRecord {pairs : List (String × Value)} {f : Field} (hf : f ∈ fields) {v : Value}
    (hv : Pairs.get? pairs f.name = some v) (h : Suits f v) :
    Pairs.get? (ofRecord pairs).toPairs f.name = some v := by
  rw [toPairs_ofRecord, Pairs.get?_map nodup_names (heldAs pairs) hf]
  have hheld : heldAs pairs f = v := by
    unfold Suits at h
    unfold heldAs flag text?
    rw [hv]
    split at h
    · obtain ⟨b, rfl⟩ := h
      cases b <;> simp
    · obtain ⟨t, rfl⟩ := h
      rfl
    · rcases h with rfl | ⟨t, rfl⟩ <;> rfl
  rw [hheld]

/-! ## What options take -/

section

variable {s : Setting} {v : Value} {q : Checked}

theorem exists_bool_of_flag (h : (Check.flag s).run [] v = .ok q) : ∃ b, q.value = .bool b := by
  rw [Check.flag, Check.ofOwn_run_nil] at h
  unfold Check.runFlag at h
  split at h
  · cases h
  · cases h
    exact ⟨_, rfl⟩

theorem exists_str_of_text (h : (Check.text s).run [] v = .ok q) : ∃ t, q.value = .str t := by
  rw [Check.text, Check.ofOwn_run_nil] at h
  unfold Check.runText at h
  split at h
  · cases h
  · dsimp only at h
    generalize (if s.config.strip then _ else _) = t at h
    split at h
    · cases h
    · cases h
      exact ⟨t, rfl⟩

theorem exists_str_of_literal {values : List Value} (hvalues : ∀ w ∈ values, ∃ t, w = .str t)
    (h : (Check.literal values s).run [] v = .ok q) : ∃ t, q.value = .str t := by
  rw [Check.literal, Check.ofOwn_run_nil] at h
  exact hvalues _ (Check.mem_of_runLiteral h)

theorem null_or_of_nullable {c : Check} (hc : c.run [] v = .ok q → ∃ t, q.value = .str t)
    (h : c.nullable.run [] v = .ok q) : q.value = .null ∨ ∃ t, q.value = .str t := by
  by_cases hv : v = .null
  · subst hv
    cases h
    exact Or.inl rfl
  · rw [Check.run_nullable hv] at h
    exact Or.inr (hc h)

end

/-- The methods that a form can have. -/
def methods : List Value := [.str "get", .str "post"]

/-- An option holds only values that it takes. -/
theorem suits_of_checkIn {f : Field} (hf : f ∈ fields) {v : Value} {q : Checked}
    (h : f.checkIn none schema.config v = .ok q) : Suits f q.value := by
  have limits : ∀ f ∈ fields, f.limits.toList = [] := by decide +kernel
  have types : ∀ f ∈ fields,
      f.type ∈ [Ty.bool, .str, .optional .str, .optional (.literal methods)] := by decide +kernel
  have htype := types f hf
  unfold Field.checkIn at h
  rw [limits f hf] at h
  unfold Suits
  generalize f.type = type at h htype
  simp only [List.mem_cons, List.not_mem_nil, or_false] at htype
  rcases htype with rfl | rfl | rfl | rfl
  · exact exists_bool_of_flag h
  · exact exists_str_of_text h
  · exact null_or_of_nullable exists_str_of_text h
  · have texts : ∀ w ∈ methods, ∃ t, w = .str t := by simp [methods]
    exact null_or_of_nullable (exists_str_of_literal texts) h

theorem checkIn_default : ∀ f ∈ fields,
    (f.checkIn none schema.config (f.default.getD .null)).toOption.map (·.value) = f.default := by
  decide +kernel

/-- What the options hold for one of them: what is said of it, as the option takes it, or else its
default. -/
def Holds (o : Options) (f : Field) : Option Value → Prop
  | some v => ∃ q, f.checkIn none schema.config v = .ok q ∧
      Pairs.get? o.toPairs f.name = some q.value
  | none => Pairs.get? o.toPairs f.name = f.default

theorem Holds.get?_eq {o : Options} {f : Field} {v w : Value} (h : o.Holds f (some v))
    (hv : (f.checkIn none schema.config v).toOption.map (·.value) = some w) :
    Pairs.get? o.toPairs f.name = some w := by
  obtain ⟨q, hq, hget⟩ := h
  obtain ⟨_, hp, rfl⟩ := exists_of_map_toOption hv
  cases hq.symm.trans hp
  exact hget

theorem holds_of_check {pairs : List (String × Value)} {r : Checked}
    (hr : schema.check none (.ofPairs pairs) = .ok r) {f : Field} (hf : f ∈ fields) :
    (ofValue r.value).Holds f (valueOf? pairs f) := by
  have hr' : schema.check none (.map (Value.keyed pairs)) = .ok r := hr
  have held : Suits f (schema.taken (Value.keyed pairs) f) →
      Pairs.get? (ofValue r.value).toPairs f.name = some (schema.taken (Value.keyed pairs) f) := by
    intro hsuits
    rw [(Schema.of_check_eq_ok hr').2.2]
    refine get?_toPairs_ofRecord hf ?_ hsuits
    rw [Pairs.get?_append]
    have hget := Pairs.get?_map nodup_names (schema.taken (Value.keyed pairs)) hf
    exact congrArg (Option.or · _) hget
  have htaken := taken_of_check hr hf
  cases hvalue : valueOf? pairs f with
  | some v =>
      rw [hvalue] at htaken
      obtain ⟨q, hq, heq⟩ := htaken
      rw [heq] at held
      exact ⟨q, hq, held (suits_of_checkIn hf hq)⟩
  | none =>
      rw [hvalue] at htaken
      have hdefault : f.default = some (schema.taken (Value.keyed pairs) f) := htaken
      have hpassed := checkIn_default f hf
      rw [hdefault] at hpassed
      obtain ⟨q, hq, heq⟩ := exists_of_map_toOption hpassed
      show Pairs.get? _ f.name = f.default
      rw [hdefault]
      exact held (heq ▸ suits_of_checkIn hf hq)

end Options

end WebForm
