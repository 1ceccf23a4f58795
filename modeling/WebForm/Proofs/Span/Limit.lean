/-
How long the values are that a check passes.

An element shows limits on the length of what is typed, and a check tries limits on the length
of what it reads.  To compare the two, a length has to be followed through a check from the
text to the value.  A value shows its own length, and that of the text that it is taken as; a
number, a flag or a date shows none.  A `Span` is a least and a greatest length, and a check
keeps a span on a value if

    all that the check makes of the value shows only lengths in the span, and
    no limit on the length lies beyond the span

where a least length lies beyond a span if it is above all of it, and a greatest one if it is
below.  The second part is the point of the definition: it is what a passed value says about
the limits, and for the span of a single length it says that they allow this length.

A check tries limits in two places.  Those that its type knows are tried as it reads the
value, and all others one after another on what came out.  Of several limits of one sort the
last one counts, in both places together as in each (`Fits.split`), so that
`Check.keepsIn_ofOwn` is all that is needed of a type with a reader of its own.

A text may become shorter on the way, when texts are stripped.  Then a span is kept only if it
starts with nothing (`Span.Bears`), since nothing is known about how much is left.
-/
import WebForm.Proofs.Rechecking.Collection

namespace WebForm

open Outcome

/-! ## Lengths and limits on them

Limits are split into those that a type knows and those that follow.  What is picked last from
the whole list is picked from those that follow, if any, and else from the type's own. -/

/-- A span of lengths. -/
structure Span where
  least : Nat
  most : Nat

namespace Span

/-- The length is in the span. -/
def Has (b : Span) (n : Nat) : Prop := b.least ≤ n ∧ n ≤ b.most

/-- No limit on the length lies beyond the span: the least length is not above it, and the greatest
not below. -/
def Fits (b : Span) (ls : List Limit) : Prop :=
  (∀ m, Limit.least? ls = some m → m ≤ b.most) ∧ ∀ n, Limit.most? ls = some n → b.least ≤ n

end Span

/-- The value has the length, or the text that it is taken as has it. -/
def Value.Measures (v : Value) (n : Nat) : Prop :=
  v.length? = some n ∨ ∃ t e, Check.readText false v = .ok (t, e) ∧ t.length = n

/-- All that the value shows is in the span. -/
def Value.IsIn (v : Value) (b : Span) : Prop := ∀ n, v.Measures n → b.Has n

variable {b : Span}

namespace Value

theorem isIn_str {t : String} (h : b.Has t.length) : (Value.str t).IsIn b := by
  rintro n (hn | ⟨_, _, hread, rfl⟩)
  · cases hn
    exact h
  · cases hread
    exact h

theorem isIn_of_asText? {v : Value} {t : String} (hv : v.asText? = some t) (h : b.Has t.length) :
    v.IsIn b := by
  unfold asText? at hv
  split at hv
  · cases hv
    exact isIn_str h
  · cases hv
    rintro n (hn | ⟨_, _, hread, rfl⟩)
    · cases hn
      exact h
    · cases hread
      exact h
  · cases hv

/-- A number, a flag or a date shows no length. -/
def isPoint : Value → Bool
  | .bool _ | .int _ | .float _ | .date _ => true
  | _ => false

theorem isIn_of_isPoint {v : Value} (h : v.isPoint = true) : v.IsIn b := by
  cases v with
  | bool | int | float | date =>
      rintro n (hn | ⟨_, _, hread, _⟩)
      · cases hn
      · cases hread
  | _ => cases h

theorem isIn_ofItems (kind : Counted) {items : List Value} (h : b.Has items.length) :
    (Check.ofItems kind items).IsIn b := by
  have hshown : ∀ n, (Check.ofItems kind items).Measures n → n = items.length := by
    rintro n (hn | ⟨_, _, hread, _⟩)
    · rw [Check.length?_ofItems] at hn
      exact (Option.some.inj hn).symm
    · cases kind <;> cases hread
  exact fun n hn => hshown n hn ▸ h

end Value

namespace Limit

variable {α : Type} {pick : Limit → Option α}

theorem last?_append (ls ms : List Limit) :
    last? pick (ls ++ ms) = (last? pick ms).or (last? pick ls) := by
  unfold last?
  rw [List.reverse_append, List.findSome?_append]

theorem last?_filter {take : Limit → Bool} (h : ∀ l, take l = false → pick l = none)
    (ls : List Limit) : last? pick (ls.filter take) = last? pick ls := by
  induction ls with
  | nil => rfl
  | cons l ls ih =>
      rw [← List.singleton_append, last?_append, List.filter_append, last?_append, ih]
      cases htake : take l with
      | true => rw [List.filter_cons_of_pos htake, List.filter_nil]
      | false =>
          have hnone : last? pick [l] = none := by simp [last?, h l htake]
          rw [List.filter_cons_of_neg (by rw [htake]; exact Bool.false_ne_true), hnone]
          rfl

theorem last?_split (h : ∀ l, l.isStrict = true → pick l = none) (knows : Limit → Bool)
    (ls : List Limit) :
    last? pick ls = (last? pick (split knows ls).2).or (last? pick (split knows ls).1) := by
  have hkept : ∀ l, (!l.isStrict) = false → pick l = none := fun l hl => h l (by simpa using hl)
  have hnone : ∀ ms : List Limit, last? pick (ms.filter isStrict) = none := by
    intro ms
    rw [Option.eq_none_iff_forall_ne_some]
    intro a ha
    obtain ⟨l, hl, hpick⟩ := exists_of_last?_eq_some ha
    rw [h l (List.mem_filter.mp hl).2] at hpick
    cases hpick
  unfold split
  dsimp only
  rw [last?_append, hnone, last?_filter hkept, Option.none_or, ← last?_append,
    List.takeWhile_append_dropWhile]

end Limit

namespace Span

variable {ls ms : List Limit}

theorem Fits.split {knows : Limit → Bool} (hown : b.Fits (Limit.split knows ls).1)
    (hlater : b.Fits (Limit.split knows ls).2) : b.Fits ls := by
  constructor
  · intro m hm
    rw [Limit.least?, Limit.last?_split (fun l hl => by cases l <;> first | rfl | cases hl) knows,
      Option.or_eq_some_iff] at hm
    exact hm.elim (hlater.1 m) fun h => hown.1 m h.2
  · intro n hn
    rw [Limit.most?, Limit.last?_split (fun l hl => by cases l <;> first | rfl | cases hl) knows,
      Option.or_eq_some_iff] at hn
    exact hn.elim (hlater.2 n) fun h => hown.2 n h.2

theorem Fits.of_append (h : b.Fits (ls ++ ms)) : b.Fits ms := by
  constructor
  · intro m hm
    refine h.1 m ?_
    rw [Limit.least?, Limit.last?_append, ← Limit.least?, hm]
    rfl
  · intro n hn
    refine h.2 n ?_
    rw [Limit.most?, Limit.last?_append, ← Limit.most?, hn]
    rfl

theorem Fits.cons {l : Limit} (hl : b.Fits [l]) (hls : b.Fits ls) : b.Fits (l :: ls) := by
  constructor
  · intro m hm
    rw [← List.singleton_append, Limit.least?, Limit.last?_append, Option.or_eq_some_iff] at hm
    exact hm.elim (hls.1 m) fun h => hl.1 m h.2
  · intro n hn
    rw [← List.singleton_append, Limit.most?, Limit.last?_append, Option.or_eq_some_iff] at hn
    exact hn.elim (hls.2 n) fun h => hl.2 n h.2

theorem fits_of_not_isLength (h : ∀ l ∈ ls, l.isLength = false) : b.Fits ls := by
  constructor
  · intro m hm
    obtain ⟨l, hl, hpick⟩ := Limit.exists_of_last?_eq_some hm
    cases l with
    | minLength => exact nomatch h _ hl
    | _ => cases hpick
  · intro n hn
    obtain ⟨l, hl, hpick⟩ := Limit.exists_of_last?_eq_some hn
    cases l with
    | maxLength => exact nomatch h _ hl
    | _ => cases hpick

end Span

/-! ## Checks that keep a span -/

/-- All that the check makes of the value is in the span, under limits that do not lie beyond it. -/
def Check.KeepsIn (c : Check) (b : Span) (v : Value) : Prop :=
  ∀ ls r, c.run ls v = .ok r → r.value.IsIn b ∧ b.Fits ls

/-- A text can become shorter only where the span starts with nothing. -/
def Span.Bears (b : Span) (s : Setting) : Prop := s.config.strip = true → b.least = 0

theorem Check.length_strip_le (t : String) : (Check.strip t).length ≤ t.length := by
  obtain ⟨before, after, heq, _⟩ := Text.exists_trim Text.isWhite t.toList
  have hlength := congrArg List.length heq
  rw [List.length_append, List.length_append] at hlength
  rw [Check.strip, String.length_ofList, ← String.length_toList]
  omega

theorem Check.runText_keepsIn {s : Setting} (hs : s.IsLax) (hb : b.Bears s) {v : Value} (hv : v.IsIn b)
    {ls : List Limit} {r : Checked} (hr : runText s ls v = .ok r) :
    r.value.IsIn b ∧ b.Fits ls := by
  unfold runText at hr
  rw [hs.isStrict] at hr
  cases hread : readText false v with
  | error cause =>
      rw [hread] at hr
      cases hr
  | ok p =>
      obtain ⟨t, e⟩ := p
      rw [hread] at hr
      dsimp only at hr
      have hspan : b.Has (if s.config.strip then strip t else t).length := by
        have hfull := hv t.length (Or.inr ⟨t, e, hread, rfl⟩)
        split
        · rename_i hstrip
          rw [Span.Has, hb hstrip]
          exact ⟨Nat.zero_le _, Nat.le_trans (length_strip_le t) hfull.2⟩
        · exact hfull
      generalize (if s.config.strip then strip t else t) = u at hr hspan
      cases hcause : textCause? ls u with
      | some cause =>
          rw [hcause] at hr
          cases hr
      | none =>
          rw [hcause] at hr
          cases hr
          simp only [textCause?, Option.orElse_eq_orElse, Option.orElse_eq_or, Option.or_eq_none_iff]
            at hcause
          refine ⟨Value.isIn_str hspan, fun m hm => ?_, fun n hn => ?_⟩
          · have hshort := hcause.1
            simp only [hm, Option.bind_some, ite_eq_right_iff, reduceCtorEq, imp_false, not_lt]
              at hshort
            exact Nat.le_trans hshort hspan.2
          · have hlong := hcause.2.1
            simp only [hn, Option.bind_some, ite_eq_right_iff, reduceCtorEq, imp_false, not_lt]
              at hlong
            exact Nat.le_trans hspan.1 hlong

namespace Limit

variable {s : Setting} {sort : String} {input : Value}

theorem length_of_apply {l : Limit} (hl : (∃ m, l = .minLength m) ∨ ∃ m, l = .maxLength m)
    {c r : Checked} (hr : apply s sort input l c = .ok r) :
    r = c ∧ ∃ n, c.value.length? = some n ∧ l.lengthCause? n = none := by
  rcases hl with ⟨m, rfl⟩ | ⟨m, rfl⟩
  all_goals
    unfold apply at hr
    dsimp only at hr
    split at hr
    · cases hr
    · rename_i n hn
      split at hr
      · cases hr
      · rename_i hroom
        cases hr
        exact ⟨rfl, n, hn, hroom⟩

theorem apply_keepsIn (hs : s.IsLax) (hb : b.Bears s) {l : Limit} {c r : Checked}
    (hc : c.value.IsIn b) (hr : apply s sort input l c = .ok r) :
    r.value.IsIn b ∧ b.Fits [l] := by
  have unmeasured : l.isLength = false → b.Fits [l] := fun h =>
    Span.fits_of_not_isLength (List.forall_mem_singleton.mpr h)
  cases l with
  | strict on =>
      cases hr
      exact ⟨hc, unmeasured rfl⟩
  | minLength m =>
      obtain ⟨rfl, n, hn, hroom⟩ := length_of_apply (Or.inl ⟨m, rfl⟩) hr
      simp only [lengthCause?, ite_eq_right_iff, reduceCtorEq, imp_false, not_lt] at hroom
      refine ⟨hc, fun m' hm => ?_, fun n' hn' => ?_⟩
      · cases hm
        exact Nat.le_trans hroom (hc n (Or.inl hn)).2
      · cases hn'
  | maxLength m =>
      obtain ⟨rfl, n, hn, hroom⟩ := length_of_apply (Or.inr ⟨m, rfl⟩) hr
      simp only [lengthCause?, ite_eq_right_iff, reduceCtorEq, imp_false, not_lt] at hroom
      refine ⟨hc, fun n' hn' => ?_, fun m' hm => ?_⟩
      · cases hn'
      · cases hm
        exact Nat.le_trans (hc n (Or.inl hn)).1 hroom
  | pattern p =>
      simp only [apply] at hr
      split at hr
      · rename_i q hq
        cases hr
        exact ⟨(Check.runText_keepsIn hs hb hc hq).1, unmeasured rfl⟩
      · split at hr <;> cases hr
      · cases hr
  | above | atLeast | below | atMost | multipleOf =>
      simp only [apply] at hr
      split at hr
      · cases hr
      · cases hr
      · cases hr
        exact ⟨hc, unmeasured rfl⟩

theorem applyAll_keepsIn (hs : s.IsLax) (hb : b.Bears s) {ls : List Limit} {sort : String}
    {c r : Checked} (hc : c.value.IsIn b) (hr : applyAll s input sort ls c = .ok r) :
    r.value.IsIn b ∧ b.Fits ls := by
  induction ls generalizing sort c with
  | nil =>
      cases hr
      exact ⟨hc, Span.fits_of_not_isLength fun _ h => absurd h List.not_mem_nil⟩
  | cons l ls ih =>
      rw [applyAll] at hr
      obtain ⟨q, hq, hr⟩ := exists_of_bind_eq_ok hr
      obtain ⟨hvalue, hl⟩ := apply_keepsIn hs hb hc hq
      obtain ⟨hlast, hls⟩ := ih hvalue hr
      exact ⟨hlast, hl.cons hls⟩

end Limit

theorem Limit.knows_of_mem_split {knows : Limit → Bool} {ls : List Limit} {l : Limit}
    (h : l ∈ (Limit.split knows ls).1) : l.isStrict = true ∨ knows l = true := by
  rcases List.mem_append.mp h with h | h
  · have htaken := List.mem_takeWhile_imp (p := fun l => l.isStrict || knows l) h
    exact Bool.or_eq_true_iff.mp htaken
  · exact Or.inl (List.mem_filter.mp h).2

namespace Check

variable {s : Setting} {v : Value}

/-- A check with limits of its own keeps what its own part keeps. -/
theorem keepsIn_ofOwn (hs : s.IsLax) (hb : b.Bears s) {sort : String} {knows : Limit → Bool}
    {label : List Limit → String} {own : List Limit → Value → Outcome}
    (h : ∀ ls, (∀ l ∈ ls, l.isStrict = true ∨ knows l = true) → ∀ r, own ls v = .ok r →
      r.value.IsIn b ∧ b.Fits ls) :
    (ofOwn s sort knows label own).KeepsIn b v := by
  intro ls r hr
  obtain ⟨q, hq, hr⟩ := exists_of_bind_eq_ok hr
  obtain ⟨hvalue, hmine⟩ := h _ (fun l hl => Limit.knows_of_mem_split hl) q hq
  obtain ⟨hlast, hlater⟩ := Limit.applyAll_keepsIn hs hb hvalue hr
  exact ⟨hlast, hmine.split hlater⟩

theorem keepsIn_of_unmeasured (hs : s.IsLax) (hb : b.Bears s) {sort : String} {knows : Limit → Bool}
    {label : List Limit → String} {own : List Limit → Value → Outcome}
    (hknows : ∀ l, l.isStrict = true ∨ knows l = true → l.isLength = false)
    (h : ∀ ls r, own ls v = .ok r → r.value.IsIn b) :
    (ofOwn s sort knows label own).KeepsIn b v :=
  keepsIn_ofOwn hs hb fun ls hls r hr =>
    ⟨h ls r hr, Span.fits_of_not_isLength fun l hl => hknows l (hls l hl)⟩

theorem RefusesTexts.keepsIn {c : Check} (h : c.RefusesTexts) (t : String) : c.KeepsIn b (.str t) :=
  fun ls r hr => absurd hr (h ls t r)

theorem KeepsIn.nullable {c : Check} (h : c.KeepsIn b v) (hv : v ≠ .null) : c.nullable.KeepsIn b v := by
  intro ls r hr
  rw [run_nullable hv] at hr
  exact h ls r hr

end Check

end WebForm
