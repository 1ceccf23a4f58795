/-
Limits that fit what they are put on.

A check answers with a value or with faults.  It ends without either only where a limit meets
a value to which it cannot be applied: a length asks for a text or a collection, a bound for
something with an order in which the bound itself stands, a pattern for a text.  Whether that
can happen is a question about a type and the limits put on it, and this module and the next
answer it without a value at hand.

What decides is the shape of the value, of which there are six (`Shape`).  A limit fits a
shape if it can be applied to every value of it, and a limit that fits leaves the shape as it
is (`lands_apply`).  So limits can be tried one after the other on a shape as on a value.

A type is then cast into a mould: the limits that it bears, and the shapes in which its values
come out.  A type bears a limit if it takes the limit as its own, or if the limit fits all of
those shapes.  A check keeps to a mould, `Mould.Holds`, if under all limits that the mould
bears it comes to a result with a value of one of those shapes.  `holds_ofOwn` is the one
lemma by which a type with a reader of its own gets a mould: all that is needed is the shapes
which the reader gives.

The mould is an estimate on the safe side.  A check may come to a result under limits that its
mould does not bear, on many values or even on all of them; what cannot happen is the
opposite.
-/
import WebForm.Proofs.Rechecking.Scalar

namespace WebForm

open WebForm.Number

/-- What a value is to an added limit. -/
inductive Shape where
  | text
  | number
  | date
  | set
  /-- A collection that has a length but no order of its own. -/
  | sized
  | other
deriving DecidableEq

/-- All shapes. -/
def Shape.all : List Shape := [.text, .number, .date, .set, .sized, .other]

theorem Shape.mem_all (k : Shape) : k ∈ Shape.all := by cases k <;> decide

namespace Value

/-- The shape of a value. -/
def shape : Value → Shape
  | .set _ | .frozenset _ => .set
  | .list _ | .tuple _ | .map _ => .sized
  | .date _ => .date
  | v =>
    if v.quantity?.isSome then .number
    else if v.asText?.isSome then .text
    else .other

theorem quantity?_of_shape {v : Value} (h : v.shape = .number) : ∃ q, v.quantity? = some q := by
  unfold shape at h
  split at h
  · cases h
  · cases h
  · cases h
  · cases h
  · cases h
  · cases h
  · split at h
    · rename_i hq
      exact Option.isSome_iff_exists.mp hq
    · split at h <;> cases h

theorem asText?_of_shape {v : Value} (h : v.shape = .text) :
    ∃ s, v.asText? = some s ∧ v.quantity? = none := by
  unfold shape at h
  split at h
  · cases h
  · cases h
  · cases h
  · cases h
  · cases h
  · cases h
  · split at h
    · cases h
    · rename_i hq
      split at h
      · rename_i ht
        obtain ⟨s, hs⟩ := Option.isSome_iff_exists.mp ht
        exact ⟨s, hs, by simpa using hq⟩
      · cases h

theorem date_of_shape {v : Value} (h : v.shape = .date) : ∃ d, v = .date d := by
  unfold shape at h
  split at h
  · cases h
  · cases h
  · cases h
  · cases h
  · cases h
  · exact ⟨_, rfl⟩
  · split at h
    · cases h
    · split at h <;> cases h

theorem set_of_shape {v : Value} (h : v.shape = .set) : ∃ items, v = .set items ∨ v = .frozenset items := by
  unfold shape at h
  split at h
  · exact ⟨_, Or.inl rfl⟩
  · exact ⟨_, Or.inr rfl⟩
  · cases h
  · cases h
  · cases h
  · cases h
  · split at h
    · cases h
    · split at h <;> cases h

theorem shape_float (x : Binary64) : (Value.float x).shape = .number := by
  have hnumber : (Value.float x).quantity?.isSome = true := by
    simp only [quantity?, plain]
    cases x.toInt? with
    | some i => rfl
    | none => cases x <;> rfl
  unfold shape
  simp only [hnumber, if_true]

theorem length?_of_shape {v : Value} (h : v.shape = .text ∨ v.shape = .set ∨ v.shape = .sized) :
    v.length?.isSome = true := by
  rcases h with h | h | h
  · obtain ⟨s, hs, _⟩ := asText?_of_shape h
    unfold asText? at hs
    split at hs
    · rfl
    · rfl
    · cases hs
  · obtain ⟨items, rfl | rfl⟩ := set_of_shape h <;> rfl
  · unfold shape at h
    split at h
    · cases h
    · cases h
    · rfl
    · rfl
    · rfl
    · cases h
    · split at h
      · cases h
      · split at h <;> cases h

theorem scalarBelow?_isSome (orEqual : Bool) {a b : Value}
    (h : (a.shape = .number ∧ b.shape = .number) ∨ (a.shape = .text ∧ b.shape = .text)) :
    (a.scalarBelow? orEqual b).isSome = true := by
  unfold scalarBelow?
  dsimp only
  split
  · rfl
  · rfl
  · rfl
  · rfl
  · rfl
  · rcases h with ⟨ha, hb⟩ | ⟨ha, hb⟩
    · obtain ⟨p, hp⟩ := quantity?_of_shape ha
      obtain ⟨q, hq⟩ := quantity?_of_shape hb
      rw [hp, hq]
      rfl
    · obtain ⟨s, hs, hp⟩ := asText?_of_shape ha
      obtain ⟨t, ht, hq⟩ := asText?_of_shape hb
      rw [hs, ht, hp, hq]
      rfl

theorem below?_isSome (orEqual : Bool) {a b : Value} (h : a.shape = b.shape)
    (hk : b.shape = .text ∨ b.shape = .number ∨ b.shape = .date ∨ b.shape = .set) :
    (a.below? orEqual b).isSome = true := by
  have hscalar : a.below? orEqual b = a.scalarBelow? orEqual b := by
    cases a with
    | list items | tuple items =>
        rw [← h] at hk
        simp [shape] at hk
    | _ => simp only [below?]
  rw [hscalar]
  rcases hk with hk | hk | hk | hk
  · exact scalarBelow?_isSome orEqual (Or.inr ⟨h.trans hk, hk⟩)
  · exact scalarBelow?_isSome orEqual (Or.inl ⟨h.trans hk, hk⟩)
  · obtain ⟨d, rfl⟩ := date_of_shape (h.trans hk)
    obtain ⟨e, rfl⟩ := date_of_shape hk
    rfl
  · obtain ⟨xs, rfl | rfl⟩ := set_of_shape (h.trans hk) <;>
      obtain ⟨ys, rfl | rfl⟩ := set_of_shape hk <;> rfl

end Value

/-! ## Limits that fit

An outcome lands in some shapes if it is a result, and any value that has passed has one of
them.  Faults land everywhere. -/

namespace Outcome

/-- The outcome is a result, and what has passed has one of some shapes. -/
structure Lands (shapes : List Shape) (o : Outcome) : Prop where
  result : ¬IsMisfit o
  shape : ∀ c, o = .ok c → c.value.shape ∈ shapes

variable {shapes : List Shape}

theorem lands_ok {c : Checked} (h : c.value.shape ∈ shapes) : Lands shapes (.ok c) :=
  ⟨not_isMisfit_ok c, fun _ hc => Except.ok.inj hc ▸ h⟩

theorem lands_pass {v : Value} {e : Exactness} (h : v.shape ∈ shapes) : Lands shapes (pass v e) :=
  lands_ok h

theorem lands_faults (fs : List Fault) : Lands shapes (.error (.faults fs)) :=
  ⟨not_isMisfit_faults fs, by rintro _ ⟨⟩⟩

theorem lands_fault (cause : Cause) (v : Value) : Lands shapes (fault cause v) := lands_faults _

theorem lands_of_cause (cause : Option Cause) (v : Value) {c : Checked} (h : c.value.shape ∈ shapes) :
    Lands shapes (match cause with
      | some cause => fault cause v
      | none => .ok c) := by
  cases cause with
  | some cause => exact lands_fault cause v
  | none => exact lands_ok h

theorem lands_bind {α : Type} {r : Except Rejection α} {f : α → Outcome} (hr : ¬IsMisfit r)
    (hf : ∀ a, Lands shapes (f a)) : Lands shapes (r.bind f) := by
  rcases cases_of_not_isMisfit hr with ⟨a, rfl⟩ | ⟨fs, rfl⟩
  · exact hf a
  · exact lands_faults fs

theorem lands_map {α : Type} {r : Except Rejection α} {f : α → Checked} (hr : ¬IsMisfit r)
    (hf : ∀ a, (f a).value.shape ∈ shapes) : Lands shapes (r.map f) := by
  rcases cases_of_not_isMisfit hr with ⟨a, rfl⟩ | ⟨fs, rfl⟩
  · exact lands_ok (hf a)
  · exact lands_faults fs

end Outcome

namespace Limit

open Outcome

/-- The limit fits values of a shape. -/
def fits (k : Shape) : Limit → Bool
  | .strict _ => true
  | .minLength _ | .maxLength _ => k = .text || k = .set || k = .sized
  | .pattern _ => k = .text
  | .above b | .atLeast b | .below b | .atMost b =>
    b.shape = k && (k = .text || k = .number || k = .date || k = .set)
  | .multipleOf step => step.shape = k && k = .number

theorem boundCause?_isSome {l : Limit} {v : Value} (h : l.fits v.shape = true) :
    (l.boundCause? v).isSome = true := by
  cases l with
  | strict _ | minLength _ | maxLength _ | pattern _ => rfl
  | multipleOf step =>
      simp only [fits, Bool.and_eq_true, decide_eq_true_eq] at h
      obtain ⟨q, hq⟩ := Value.quantity?_of_shape h.2
      obtain ⟨p, hp⟩ := Value.quantity?_of_shape (h.1.trans h.2)
      simp only [boundCause?, hq, hp]
      rfl
  | above b | atLeast b =>
      simp only [fits, Bool.and_eq_true, Bool.or_eq_true, decide_eq_true_eq, or_assoc] at h
      simpa only [boundCause?, Option.isSome_map] using Value.below?_isSome _ h.1 h.2
  | below b | atMost b =>
      simp only [fits, Bool.and_eq_true, Bool.or_eq_true, decide_eq_true_eq, or_assoc] at h
      simpa only [boundCause?, Option.isSome_map] using
        Value.below?_isSome _ h.1.symm (h.1.symm ▸ h.2)

theorem runText_pattern {v : Value} (h : v.shape = .text) (s : Setting) (p : PatternText) :
    Check.runText s [.pattern p] v = fault (.patternMismatch p.source) v ∨
      ∃ t e, Check.runText s [.pattern p] v = pass (.str t) e := by
  have hread : ∀ strict, ∃ t e, Check.readText strict v = .ok (t, e) := by
    obtain ⟨t, ht, _⟩ := Value.asText?_of_shape h
    unfold Value.asText? at ht
    split at ht
    · exact fun _ => ⟨_, _, rfl⟩
    · exact fun _ => ⟨_, _, rfl⟩
    · cases ht
  obtain ⟨t, e, ht⟩ := hread (s.isStrict [.pattern p])
  have hcause : ∀ t, Check.textCause? [.pattern p] t
      = if p.accepts t then none else some (.patternMismatch p.source) := fun _ => rfl
  unfold Check.runText
  simp only [ht, hcause]
  generalize (if s.config.strip = true then Check.strip t else t) = t
  by_cases hkept : p.accepts t = true
  · exact Or.inr ⟨t, e, by rw [if_pos hkept]⟩
  · exact Or.inl (by rw [if_neg hkept])

theorem lands_bound {l : Limit} {c : Checked} (h : l.fits c.value.shape = true) (input : Value) :
    Lands [c.value.shape]
      (match l.boundCause? c.value with
        | none => .error (.misfit ⟨l, c.value, none⟩)
        | some (some cause) => fault cause input
        | some none => .ok c) := by
  obtain ⟨cause, hcause⟩ := Option.isSome_iff_exists.mp (boundCause?_isSome h)
  rw [hcause]
  cases cause with
  | some cause => exact lands_fault cause input
  | none => exact lands_ok (List.mem_singleton.mpr rfl)

theorem lands_length {c : Checked}
    (h : c.value.shape = .text ∨ c.value.shape = .set ∨ c.value.shape = .sized) (l : Limit)
    (input : Value) :
    Lands [c.value.shape]
      (match c.value.length? with
        | none => .error (.misfit ⟨l, c.value, none⟩)
        | some n =>
          match l.lengthCause? n with
          | some cause => fault cause input
          | none => .ok c) := by
  obtain ⟨n, hn⟩ := Option.isSome_iff_exists.mp (Value.length?_of_shape h)
  rw [hn]
  exact lands_of_cause (l.lengthCause? n) input (List.mem_singleton.mpr rfl)

/-- A limit that fits a value is applied to it, and leaves its shape. -/
theorem lands_apply {l : Limit} {c : Checked} (h : l.fits c.value.shape = true) (s : Setting)
    (sort : String) (input : Value) : Lands [c.value.shape] (apply s sort input l c) := by
  cases l with
  | strict on => exact lands_ok (List.mem_singleton.mpr rfl)
  | above b => exact lands_bound h input
  | atLeast b => exact lands_bound h input
  | below b => exact lands_bound h input
  | atMost b => exact lands_bound h input
  | multipleOf step => exact lands_bound h input
  | minLength n =>
      simp only [fits, Bool.or_eq_true, decide_eq_true_eq, or_assoc] at h
      exact lands_length h _ input
  | maxLength n =>
      simp only [fits, Bool.or_eq_true, decide_eq_true_eq, or_assoc] at h
      exact lands_length h _ input
  | pattern p =>
      simp only [fits, decide_eq_true_eq] at h
      unfold apply
      rcases runText_pattern h s p with hrun | ⟨t, e, hrun⟩
      · simp only [hrun]
        exact lands_fault _ _
      · simp only [hrun]
        refine lands_ok ?_
        rw [h]
        exact List.mem_singleton.mpr rfl

theorem lands_applyAll {ls : List Limit} {c : Checked} (h : ∀ l ∈ ls, l.fits c.value.shape = true)
    (s : Setting) (sort : String) (input : Value) :
    Lands [c.value.shape] (applyAll s input sort ls c) := by
  induction ls generalizing c sort with
  | nil => exact lands_ok (List.mem_singleton.mpr rfl)
  | cons l ls ih =>
      obtain ⟨hl, hls⟩ := List.forall_mem_cons.mp h
      have first := lands_apply hl s sort input
      unfold applyAll
      rcases cases_of_not_isMisfit first.result with ⟨c', hc⟩ | ⟨fs, hfs⟩
      · have hshape := List.mem_singleton.mp (first.shape c' hc)
        rw [hc, ← hshape]
        exact ih (fun l hl => hshape.symm ▸ hls l hl) _
      · rw [hfs]
        exact lands_faults fs

end Limit

/-! ## Moulds -/

/-- What a type makes of values: the limits that it bears, and the shapes that come out. -/
structure Mould where
  bears : List Limit → Bool
  gives : List Shape

namespace Mould

/-- The mould of a check that takes some limits as its own and tries the others afterwards; `sound`
says that its parts are no obstacle. -/
def own (knows : Limit → Bool) (gives : List Shape) (sound : Bool) : Mould where
  bears := fun ls => sound && (Limit.split knows ls).2.all fun l => gives.all fun k => l.fits k
  gives

/-- The check never ends without a result under limits that the mould bears. -/
structure Holds (m : Mould) (c : Check) : Prop where
  lands : ∀ {ls : List Limit}, m.bears ls = true → ∀ v, Outcome.Lands m.gives (c.run ls v)

theorem holds_ofOwn {knows : Limit → Bool} {gives : List Shape} {sound : Bool} {s : Setting}
    {sort : String} {label : List Limit → String} {run : List Limit → Value → Outcome}
    (h : sound = true → ∀ ls v, Outcome.Lands gives (run ls v)) :
    (own knows gives sound).Holds (Check.ofOwn s sort knows label run) where
  lands {ls} hls v := by
    obtain ⟨hsound, hlater⟩ := Bool.and_eq_true_iff.mp hls
    have first := h hsound (Limit.split knows ls).1 v
    unfold Check.ofOwn
    dsimp only
    rcases Outcome.cases_of_not_isMisfit first.result with ⟨c, hc⟩ | ⟨fs, hfs⟩
    · have hshape := first.shape c hc
      have hfits : ∀ l ∈ (Limit.split knows ls).2, l.fits c.value.shape = true := fun l hl =>
        List.all_eq_true.mp (List.all_eq_true.mp hlater l hl) _ hshape
      have last := Limit.lands_applyAll hfits s sort v
      rw [hc]
      refine ⟨last.result, fun c' hc' => ?_⟩
      rw [List.mem_singleton.mp (last.shape c' hc')]
      exact hshape
    · rw [hfs]
      exact Outcome.lands_faults fs

/-- The mould of a check that passes nothing as well. -/
def orNothing (m : Mould) : Mould where
  bears := m.bears
  gives := .other :: m.gives

theorem Holds.nullable {m : Mould} {c : Check} (h : m.Holds c) : m.orNothing.Holds c.nullable where
  lands {ls} hls v := by
    simp only [Check.nullable]
    split
    · exact Outcome.lands_pass List.mem_cons_self
    · have inner := h.lands hls v
      exact ⟨inner.result, fun c hc => List.mem_cons_of_mem _ (inner.shape c hc)⟩

end Mould

end WebForm
