/-
What a check has passed, checked again: choices.

A choice asks its alternatives in turn and keeps the best that has passed.  So what it passes
is what one of its alternatives has passed (`runAlternatives_eq_ok`), and that alternative
passes it again.  For the choice to pass it again that is enough, since it needs only one
alternative that passes (`exists_runAlternatives`).  But another alternative may be the better
one then and give another value, so that a choice between several is never firm, and knows no
limits.

A choice that comes down to one alternative is as that one is.  How many alternatives are left
is decided by the types, as repeated ones are dropped; and a choice with nothing beside an
alternative is no choice between several.  For this the alternatives are carried along next to
the reading of a type, as a list of types with their grips (`Hold`), until a choice is made of
them:

    OptionsSettle suits gs os os' →
      Settles (.among gs) suits (among os nullable s) (among os' nullable s')

The two lists of checks on the right come from one type in two settings, and the list of grips
from the type alone.  What is dropped as repeated depends on the types and not on the checks,
so that the three lists stay in step (`OptionsSettle.distinct`).

A limit on a choice as a whole stands before the limits of the type, and is known if the one
alternative that is left knows it.
-/
import WebForm.Proofs.Distinct
import WebForm.Proofs.Rechecking.Parts

namespace WebForm

namespace Check

open Outcome

variable {suits : Value → Prop} {s s' : Setting}

/-! ## Alternatives in turn -/

theorem better_value (best : Option Checked) (c : Checked) :
    (better best c).value = c.value ∨ ∃ b, best = some b ∧ (better best c).value = b.value := by
  have closer : ∀ b, (better.closer b c).value = c.value ∨ (better.closer b c).value = b.value := by
    intro b
    unfold better.closer
    split
    · exact Or.inl rfl
    · exact Or.inr rfl
  cases best with
  | none => exact Or.inl rfl
  | some b =>
      have hchosen : (better (some b) c).value = c.value ∨ (better (some b) c).value = b.value := by
        unfold better
        dsimp only
        split
        · split
          · exact closer b
          · split
            · exact Or.inl rfl
            · exact Or.inr rfl
        · exact closer b
      exact hchosen.imp_right fun h => ⟨b, rfl, h⟩

/-- What comes of alternatives is what was best before, or what one of them passes. -/
theorem runAlternatives_eq_ok {v : Value} {best : Option Checked} {faults : List Fault}
    {options : List Check} {r : Checked} (h : runAlternatives v best faults options = .ok r) :
    (∃ b, best = some b ∧ r.value = b.value)
      ∨ ∃ a ∈ options, ∃ c, a.run [] v = .ok c ∧ r.value = c.value := by
  induction options generalizing best faults with
  | nil =>
      cases best with
      | none => cases h
      | some b =>
          cases h
          exact Or.inl ⟨b, rfl, rfl⟩
  | cons a rest ih =>
      rw [runAlternatives] at h
      have later : (∃ b ∈ rest, ∃ c, b.run [] v = .ok c ∧ r.value = c.value) →
          ∃ b ∈ a :: rest, ∃ c, b.run [] v = .ok c ∧ r.value = c.value := by
        rintro ⟨b, hb, hc⟩
        exact ⟨b, List.mem_cons_of_mem a hb, hc⟩
      split at h
      · cases h
      · exact (ih h).imp_right later
      · rename_i c hc
        rw [under_eq_ok_iff] at hc
        split at h
        · cases h
          exact Or.inr ⟨a, List.mem_cons_self, c, hc, rfl⟩
        · rcases ih h with ⟨b, hb, hr⟩ | hrest
          · rw [← Option.some.inj hb] at hr
            rcases better_value best c with hbetter | ⟨b', hb', hbetter⟩
            · exact Or.inr ⟨a, List.mem_cons_self, c, hc, hr.trans hbetter⟩
            · exact Or.inl ⟨b', hb', hr.trans hbetter⟩
          · exact Or.inr (later hrest)

/-- Where no limit stands in the way, one alternative that passes is enough. -/
theorem exists_runAlternatives {v : Value} {options : List Check}
    (hfits : ∀ a ∈ options, ¬IsMisfit (a.run [] v)) {best : Option Checked} {faults : List Fault}
    (h : best.isSome = true ∨ ∃ a ∈ options, ∃ c, a.run [] v = .ok c) :
    ∃ r, runAlternatives v best faults options = .ok r := by
  induction options generalizing best faults with
  | nil =>
      rcases h with hbest | ⟨a, ha, _⟩
      · obtain ⟨b, rfl⟩ := Option.isSome_iff_exists.mp hbest
        exact ⟨_, rfl⟩
      · exact absurd ha List.not_mem_nil
  | cons a rest ih =>
      obtain ⟨hfirst, hrest⟩ := List.forall_mem_cons.mp hfits
      rw [runAlternatives]
      split
      · rename_i m hm
        exact absurd ⟨m, hm⟩ ((isMisfit_under_iff _ _).not.mpr hfirst)
      · rename_i fs hfs
        refine ih hrest (h.imp_right ?_)
        rintro ⟨b, hb, c, hc⟩
        rcases List.mem_cons.mp hb with rfl | hb
        · rw [under_eq_ok_iff.mpr hc] at hfs
          cases hfs
        · exact ⟨b, hb, c, hc⟩
      · split
        · exact ⟨_, rfl⟩
        · exact ih hrest (Or.inl rfl)

theorem not_isMisfit_runAlternatives {v : Value} {options : List Check}
    (hfits : ∀ a ∈ options, ¬IsMisfit (a.run [] v)) (best : Option Checked) (faults : List Fault) :
    ¬IsMisfit (runAlternatives v best faults options) := by
  induction options generalizing best faults with
  | nil =>
      cases best with
      | none => exact not_isMisfit_faults _
      | some b => exact not_isMisfit_ok _
  | cons a rest ih =>
      obtain ⟨hfirst, hrest⟩ := List.forall_mem_cons.mp hfits
      rw [runAlternatives]
      split
      · rename_i m hm
        exact absurd ⟨m, hm⟩ ((isMisfit_under_iff _ _).not.mpr hfirst)
      · exact ih hrest _ _
      · split
        · exact not_isMisfit_ok _
        · exact ih hrest _ _

end Check

/-! ## Alternatives with their checks -/

/-- How a type's checks take values, and how those of its alternatives do. -/
structure Hold where
  grip : Grip
  options : List (Ty × Grip)

namespace Hold

/-- A type that is its own only alternative. -/
def alone (t : Ty) (g : Grip) : Hold := ⟨g, [(t, g)]⟩

/-- A choice between alternatives: only if it comes down to one does it take values as that does. -/
def among (options : List (Ty × Grip)) : Hold :=
  let distinct := distinctBy (fun o p => p.1.isSameOption o.1) options
  let grip : Grip :=
    match distinct with
    | [] => ⟨true, Limit.isUnknown⟩
    | [only] => only.2
    | _ => ⟨false, Limit.isUnknown⟩
  ⟨grip, distinct⟩

end Hold

/-- An alternative with its checks of the first and the second time. -/
structure Alternative where
  type : Ty
  grip : Grip
  first : Check
  second : Check

/-- The alternatives are the same ones, and what the first check of each passes its second check
passes again. -/
def OptionsSettle (suits : Value → Prop) (gs : List (Ty × Grip)) (os os' : List (Ty × Check)) :
    Prop :=
  ∃ ps : List Alternative, gs = ps.map (fun p => (p.type, p.grip)) ∧
    os = ps.map (fun p => (p.type, p.first)) ∧ os' = ps.map (fun p => (p.type, p.second)) ∧
    ∀ p ∈ ps, Check.Settles p.grip suits p.first p.second

/-- What the first reading of a type passes its second reading passes again. -/
structure Reading.Settles (h : Hold) (suits : Value → Prop) (r r' : Reading) : Prop where
  core : Check.Settles h.grip suits r.core r'.core
  own : r'.own = r.own
  bears : h.grip.Bears r.own
  options : OptionsSettle suits h.options r.options r'.options
  nullable : r'.nullable = r.nullable

namespace OptionsSettle

variable {suits suits' : Value → Prop} {gs gs' : List (Ty × Grip)} {os os' qs qs' : List (Ty × Check)}

theorem nil : OptionsSettle suits [] [] [] :=
  ⟨[], rfl, rfl, rfl, fun _ h => absurd h List.not_mem_nil⟩

theorem append (h : OptionsSettle suits gs os os') (h' : OptionsSettle suits gs' qs qs') :
    OptionsSettle suits (gs ++ gs') (os ++ qs) (os' ++ qs') := by
  obtain ⟨ps, rfl, rfl, rfl, hps⟩ := h
  obtain ⟨ps', rfl, rfl, rfl, hps'⟩ := h'
  refine ⟨ps ++ ps', ?_, ?_, ?_, fun p hp => (List.mem_append.mp hp).elim (hps p) (hps' p)⟩ <;>
    rw [List.map_append]

theorem weaken (h : OptionsSettle suits gs os os') (hsuits : ∀ v, suits' v → suits v) :
    OptionsSettle suits' gs os os' := by
  obtain ⟨ps, hgs, hos, hos', hps⟩ := h
  exact ⟨ps, hgs, hos, hos', fun p hp => (hps p hp).weaken id (fun _ h => h) hsuits⟩

theorem distinct (h : OptionsSettle suits gs os os') :
    OptionsSettle suits (distinctBy (fun o p => p.1.isSameOption o.1) gs)
      (Reading.distinctOptions os) (Reading.distinctOptions os') := by
  obtain ⟨ps, rfl, rfl, rfl, hps⟩ := h
  refine ⟨distinctBy (fun p q => q.type.isSameOption p.type) ps, ?_, ?_, ?_,
    fun p hp => hps p ((distinctBy_sublist ps).subset hp)⟩
  · exact distinctBy_map _ _ _
  · exact distinctBy_map (fun o p : Ty × Check => p.1.isSameOption o.1) _ _
  · exact distinctBy_map (fun o p : Ty × Check => p.1.isSameOption o.1) _ _

end OptionsSettle

namespace Reading

open Outcome Check

variable {suits : Value → Prop} {s s' : Setting}

theorem Settles.under {h : Hold} {r r' : Reading} (hr : Settles h suits r r') {before : List Limit}
    (hb : h.grip.Bears before) : Check.Settles h.grip suits (r.under before) (r'.under before) where
  again {ls v} hls hv := by
    simp only [Reading.under]
    rw [hr.own]
    exact hr.core.again ((hb.append hr.bears).append hls) hv
  fits {ls} v hls := by
    simp only [Reading.under]
    rw [hr.own]
    exact hr.core.fits v ((hb.append hr.bears).append hls)

theorem Settles.check {h : Hold} {r r' : Reading} (hr : Settles h suits r r') :
    Check.Settles h.grip suits r.check r'.check := hr.under Grip.bears_nil

theorem settles_alone {g : Grip} {a b : Check} (t : Ty) (h : Check.Settles g suits a b) :
    Settles (.alone t g) suits (alone t a) (alone t b) where
  core := h
  own := rfl
  bears := Grip.bears_nil
  options := ⟨[⟨t, g, a, b⟩], rfl, rfl, rfl, List.forall_mem_singleton.mpr h⟩
  nullable := rfl

theorem settles_alternatives (s s' : Setting) {ps : List Alternative}
    (h : ∀ p ∈ ps, Check.Settles p.grip suits p.first p.second) :
    Check.Settles ⟨false, Limit.isUnknown⟩ suits (Check.alternatives (ps.map (·.first)) s)
      (Check.alternatives (ps.map (·.second)) s') := by
  have fits : ∀ v, ∀ a ∈ ps.map (·.second), ¬IsMisfit (a.run [] v) := by
    intro v a ha
    obtain ⟨p, hp, rfl⟩ := List.mem_map.mp ha
    exact (h p hp).fits v Grip.bears_nil
  refine settles_ofOwn (fun _ h => h) (fun {ls v} _ hv => ?_) fun ls v =>
    not_isMisfit_runAlternatives (fits v) _ _
  intro r hr
  rcases runAlternatives_eq_ok hr with ⟨b, hb, _⟩ | ⟨a, ha, c, hc, hvalue⟩
  · cases hb
  · obtain ⟨p, hp, rfl⟩ := List.mem_map.mp ha
    obtain ⟨c', hc', _⟩ := (h p hp).again Grip.bears_nil hv c hc
    rw [hvalue]
    have hone : ∃ b ∈ ps.map (·.second), ∃ c', b.run [] c.value.dump = .ok c' :=
      ⟨p.second, List.mem_map.mpr ⟨p, hp, rfl⟩, c', hc'⟩
    obtain ⟨r', hr'⟩ := exists_runAlternatives (fits c.value.dump) (Or.inr hone)
    exact ⟨r', hr', fun h => nomatch h⟩

theorem settles_among {gs : List (Ty × Grip)} {os os' : List (Ty × Check)}
    (h : OptionsSettle suits gs os os') (nullable : Bool) :
    Settles (.among gs) suits (among os nullable s) (among os' nullable s') := by
  have hdistinct := h.distinct
  refine ⟨?_, rfl, Grip.bears_nil, hdistinct, rfl⟩
  unfold among Hold.among
  dsimp only
  generalize distinctBy (fun o p : Ty × Grip => p.1.isSameOption o.1) gs = gs at hdistinct
  generalize distinctOptions os = os at hdistinct
  generalize distinctOptions os' = os' at hdistinct
  obtain ⟨ps, rfl, rfl, rfl, hps⟩ := hdistinct
  match ps, hps with
  | [], _ => exact settles_none s s'
  | [p], hps =>
      have only := hps p List.mem_cons_self
      cases nullable with
      | true => exact only.nullable
      | false => exact only
  | p :: q :: ps, hps =>
      have several := settles_alternatives s s' hps
      simp only [List.map_cons, List.map_map] at several ⊢
      cases nullable with
      | true => exact several.nullable
      | false => exact several

end Reading

end WebForm
