/-
The option that an enumeration gives for a text.

A check looks an option up by its value: a text among the texts, anything else among what is
hashable and then among the rest, and what has not been found is compared with each value in turn.
Options are found under the values of their names, and of two names with one value the first stands
for both.  For a text all of this comes down to one search through the members,

    optionOf? t   the option of the first member whose value is the text t,

in an enumeration that is clear: it stands for no integers, each name occurs once, and no value is an
option itself.  The last is what makes the values of the members decide: an option of texts equals the
text it stands for, so that a member with such a value would be found under a text that is not its
own.  An enumeration of integers is left out because a text is read as an integer there, so that one
option is found under many texts.

The two main results are the two directions.  `optionOf?_of_runOption` says that what a check gives for
a text is the option of that text, in whatever setting; `runOption_of_optionOf?` says that a lax
check gives it.  A strict one passes options alone, and reads no text.
-/
import Mathlib.Data.List.Find
import Mathlib.Data.List.Nodup
import WebForm.Proofs.Rechecking.Scalar

namespace WebForm

open Outcome

namespace Check

/-! ## Texts among choices

A text is found under a key that is taken for it.  The search may compare the text with keys that are
no texts, and then it depends on what equals a text. -/

/-- A text equals texts alone, and options that are texts. -/
theorem asText?_of_same {w : Value} {t : String} (h : w.same (.str t) = true) :
    w.asText? = some t := by
  have hplain : w.plain = .str t → w.asText? = some t := by
    intro heq
    unfold Value.plain at heq
    split at heq
    · split at heq <;> cases heq
    · split at heq
      · cases heq
      · rename_i htext
        cases heq
        exact htext
      · rw [heq]
        rfl
  have hbeq : (w.plain == (Value.str t).plain) = true → w.plain = .str t := fun heq => eq_of_beq heq
  cases w with
  | option e k n x =>
      cases k with
      | plain => simp only [Value.same, Bool.false_eq_true] at h
      | text | integer =>
          simp only [Value.same] at h
          exact hplain (hbeq h)
  | float x =>
      cases x with
      | nan => simp only [Value.same, Bool.false_eq_true] at h
      | _ =>
          simp only [Value.same] at h
          exact hplain (hbeq h)
  | null | bool | int | str | date =>
      simp only [Value.same] at h
      exact hplain (hbeq h)
  | _ => simp only [Value.same, Bool.false_eq_true] at h

theorem Choices.exists_of_lookup? {choices : Choices} {t : String} {w : Value}
    (h : choices.lookup? (.str t) = .ok (some w)) :
    ∃ k ∈ choices, k.2 = w ∧ k.1.asText? = some t := by
  -- a look-up ends twice with a comparison, each time with some of the choices
  have hequal : ∀ {cs : Choices}, equal? cs (.str t) = some w → (∀ k ∈ cs, k ∈ choices) →
      ∃ k ∈ choices, k.2 = w ∧ k.1.asText? = some t := by
    intro cs h hcs
    have hlast : cs.last? (fun key => key.isHashable && key.same (.str t)) = some w := h
    obtain ⟨k, hk, hw, hkey⟩ := exists_of_last? hlast
    exact ⟨k, hcs k hk, hw, asText?_of_same (Bool.and_eq_true_iff.mp hkey).2⟩
  unfold lookup? at h
  dsimp only at h
  obtain ⟨found, hfound, hw⟩ := exists_of_map_eq_ok h
  simp only [Option.orElse_eq_orElse, Option.orElse_eq_or, Option.or_eq_some_iff] at hw
  rcases hw with rfl | ⟨_, hw | ⟨_, hw | ⟨_, hw⟩⟩⟩
  · obtain ⟨k, hk, hw, hkey⟩ := exists_of_last? (Except.ok.inj hfound)
    refine ⟨k, hk, hw, ?_⟩
    rw [eq_of_beq hkey]
    rfl
  · exact hequal hw fun _ hk => mem_of_mem_partition (Or.inr hk)
  · obtain ⟨k, hk, hw⟩ := Option.map_eq_some_iff.mp hw
    have hsame := List.find?_some (p := fun c : Value × Value => !c.1.isHashable && c.1.same (.str t)) hk
    exact ⟨k, mem_of_mem_partition (Or.inr (List.mem_of_find?_eq_some hk)), hw,
      asText?_of_same (Bool.and_eq_true_iff.mp hsame).2⟩
  · exact hequal hw fun _ hk => mem_of_mem_partition (Or.inl hk)

end Check

/-! ## Clear enumerations

The first member with a text counts, both where a text is looked up and where a name is: two
names with one value are two names for one option. -/

namespace Enumeration

/-- An option is taken for the text that its value is: the values are no integers' and no options
themselves, and each has a name of its own. -/
structure IsClear (e : Enumeration) : Prop where
  kind : e.kind ≠ .integer
  names : (e.members.map (·.1)).Nodup
  values : ∀ m ∈ e.members, ∀ name kind option value place,
    m.2 ≠ .option name kind option value place

/-- The option that stands for a text. -/
def optionOf? (e : Enumeration) (t : String) : Option Value :=
  (e.members.find? fun m => m.2 = .str t).map fun m => e.option m.1 m.2

variable {e : Enumeration} {t : String} {m : String × Value} {w : Value}

theorem of_optionOf?_eq_some (h : e.optionOf? t = some w) :
    ∃ name, (name, .str t) ∈ e.members ∧ w = e.option name (.str t) := by
  obtain ⟨⟨name, v⟩, hm, rfl⟩ := Option.map_eq_some_iff.mp h
  have hvalue : v = .str t :=
    of_decide_eq_true (List.find?_some (p := fun m : String × Value => m.2 = .str t) hm)
  subst hvalue
  exact ⟨name, List.mem_of_find?_eq_some hm, rfl⟩

namespace IsClear

theorem eq_str (he : e.IsClear) (hm : m ∈ e.members) (h : m.2.asText? = some t) : m.2 = .str t := by
  have hvalue := he.values m hm
  unfold Value.asText? at h
  split at h
  · rename_i heq
    rw [heq, Option.some.inj h]
  · rename_i heq
    exact absurd heq (hvalue _ _ _ _ _)
  · cases h

theorem same_str_iff (he : e.IsClear) (hm : m ∈ e.members) :
    m.2.same (.str t) = true ↔ m.2 = .str t := by
  refine ⟨fun h => he.eq_str hm (Check.asText?_of_same h), fun h => ?_⟩
  rw [h]
  simp [Value.same]

theorem lookup_eq (he : e.IsClear) (hm : m ∈ e.members) : e.members.lookup m.1 = some m.2 := by
  obtain ⟨before, after, hmembers⟩ := List.append_of_mem hm
  have hnames := he.names
  rw [hmembers, List.map_append, List.map_cons] at hnames
  refine List.lookup_eq_some_iff.mpr ⟨before, after, hmembers, fun p hp => bne_iff_ne.mpr fun heq => ?_⟩
  exact List.disjoint_of_nodup_append hnames (List.mem_map_of_mem hp) (heq ▸ List.mem_cons_self)

theorem option?_eq (he : e.IsClear) (hm : m ∈ e.members) (h : m.2 = .str t) :
    e.option? m.1 = e.optionOf? t := by
  unfold option? optionOf?
  rw [he.lookup_eq hm, Option.bind_some, h]
  refine congrArg _ (List.find?_congr fun m' hm' => ?_)
  rw [Bool.eq_iff_iff, decide_eq_true_iff]
  exact he.same_str_iff hm'

theorem optionOf?_of_option? (he : e.IsClear) {name : String} {place : Nat}
    (h : e.option? name = some (.option e.name e.kind name (.str t) place)) :
    e.optionOf? t = some (.option e.name e.kind name (.str t) place) := by
  obtain ⟨v, _, hfound⟩ := Option.bind_eq_some_iff.mp h
  obtain ⟨m, hm, hoption⟩ := Option.map_eq_some_iff.mp hfound
  injection hoption with _ _ hname hvalue _
  rw [← h, ← hname]
  exact (he.option?_eq (List.mem_of_find?_eq_some hm) hvalue).symm

end IsClear

end Enumeration

/-! ## The check of a text

A check looks for the value among the options themselves before it looks among what they stand
for, and a text is none of them.  Of the two directions only the second needs the look-up to give
an answer, and `exists_lookupOption?` says that it does: a text can always be hashed. -/

namespace Check

variable {e : Enumeration} {s : Setting} {ls : List Limit} {t : String} {w : Value}

theorem optionOf?_of_optionChoices (he : e.IsClear) {k : Value × Value} (hk : k ∈ optionChoices e)
    (htext : k.1.asText? = some t) : e.optionOf? t = some k.2 := by
  obtain ⟨m, hm, hk⟩ := List.mem_filterMap.mp hk
  obtain ⟨w, hw, rfl⟩ := Option.map_eq_some_iff.mp hk
  rw [← he.option?_eq hm (he.eq_str hm htext), hw]

theorem optionOf?_of_lookupOption? (he : e.IsClear) (h : lookupOption? e (.str t) = .ok (some w)) :
    e.optionOf? t = some w := by
  unfold lookupOption? at h
  dsimp only at h
  split at h
  · obtain ⟨k, hk, rfl, hkey⟩ := Choices.exists_of_last? (Except.ok.inj h)
    refine optionOf?_of_optionChoices he hk ?_
    rw [eq_of_beq hkey]
    rfl
  · rename_i hkind
    exact absurd hkind he.kind
  · obtain ⟨found, hfound, h⟩ := exists_of_bind_eq_ok h
    cases found with
    | none => cases h
    | some w' =>
        cases h
        obtain ⟨k, hk, rfl, htext⟩ := Choices.exists_of_lookup? hfound
        exact optionOf?_of_optionChoices he hk htext

/-- A text can be looked up, whether it is found or not. -/
theorem exists_lookupOption? (he : e.IsClear) (t : String) :
    ∃ found, lookupOption? e (.str t) = .ok found := by
  unfold lookupOption?
  cases hkind : e.kind with
  | text => exact ⟨_, rfl⟩
  | integer => exact absurd hkind he.kind
  | plain =>
      dsimp only
      cases hlookup : (optionChoices e).lookup? (.str t) with
      | error r => cases hlookup
      | ok found => cases found <;> exact ⟨_, rfl⟩

theorem options_contains_str : e.options.contains (.str t) = false := by
  rw [Bool.eq_false_iff]
  intro h
  obtain ⟨m, _, hm⟩ := List.mem_map.mp (List.contains_iff_mem.mp h)
  cases hm

/-- What a check of options gives for a text is the option of the text. -/
theorem optionOf?_of_runOption (he : e.IsClear) {c : Checked}
    (h : runOption e s ls (.str t) = .ok c) : e.optionOf? t = some c.value := by
  unfold runOption at h
  rw [options_contains_str, if_neg Bool.false_ne_true] at h
  split at h
  · cases h
  · obtain ⟨found, hfound, h⟩ := exists_of_bind_eq_ok h
    dsimp only at h
    split at h
    · rename_i w hw
      cases h
      rw [Option.orElse_eq_orElse, Option.orElse_eq_or, Option.or_eq_some_iff] at hw
      rcases hw with rfl | ⟨_, hw⟩
      · exact optionOf?_of_lookupOption? he hfound
      · obtain ⟨k, hk, rfl⟩ := Option.map_eq_some_iff.mp hw
        have hsame := List.find?_some (p := fun c : Value × Value => c.1.same (.str t)) hk
        exact optionOf?_of_optionChoices he (List.mem_of_find?_eq_some hk) (asText?_of_same hsame)
    · cases h

/-- A lax check of options gives the option of a text. -/
theorem runOption_of_optionOf? (he : e.IsClear) (hs : s.IsLax) (h : e.optionOf? t = some w) :
    ∃ c, runOption e s ls (.str t) = .ok c ∧ c.value = w := by
  obtain ⟨name, hm, rfl⟩ := Enumeration.of_optionOf?_eq_some h
  obtain ⟨found, hfound⟩ := exists_lookupOption? he t
  have hkey : (Value.str t, e.option name (.str t)) ∈ optionChoices e :=
    List.mem_filterMap.mpr ⟨_, hm, by rw [he.option?_eq hm rfl, h]; rfl⟩
  have hequal : ((optionChoices e).find? fun c => c.1.same (.str t)).isSome = true :=
    List.find?_isSome.mpr ⟨_, hkey, by simp [Value.same]⟩
  obtain ⟨k, hk⟩ := Option.isSome_iff_exists.mp hequal
  have passes : ∃ c, runOption e s ls (.str t) = .ok c := by
    unfold runOption
    rw [options_contains_str, if_neg Bool.false_ne_true, hs.isStrict, if_neg Bool.false_ne_true, hfound]
    simp only [Except.bind, hk]
    cases found <;> exact ⟨_, rfl⟩
  obtain ⟨c, hc⟩ := passes
  exact ⟨c, hc, Option.some.inj ((optionOf?_of_runOption he hc).symm.trans h)⟩

end Check

end WebForm
