/-
What a refusal may say.

A check that refuses a value names at least one fault.  A fault has a message and a path to
the part that is wrong, and the texts in both have few sources: a message speaks in texts of
the declaration, and each step of a path is an index, the name of an alternative or a field,
or a key of a mapping that was handed in.  Of the value that was handed in, nothing else is
said but the names of its enumerations.

An `Account` collects what may be said, as a vocabulary for messages and a class of texts for
steps that contains it.  It is a parameter in all that follows.  With the account that allows
everything, the statements say that no refusal is without a fault; with one that allows plain
texts alone, they say that no fault brings a bracket of its own into markup.

`Outcome.Tells` is the law for one outcome,

    Tells acc r:   if r is a refusal with faults fs, then fs ≠ [] and each of them keeps to acc

and there is a lemma for each way in which outcomes are joined: one after another, under a
step, gathered from a list.  With these the checks can be looked at one by one, as they are
defined.

A value keeps to an account if its keys may be steps and the names of its enumerations may be
said, and so for all that it holds (`Value.KeepsTo`).  For limits it is the texts that a
message repeats of them (`Limit.Keep`): bounds and patterns, and no lengths, as these are
numbers.
-/
import WebForm.Check.Type
import WebForm.Proofs.Faults
import WebForm.Proofs.Wording

namespace WebForm

/-- What faults may say: the texts of their messages, and the texts of their steps. -/
structure Account extends Vocabulary where
  Step : String → Prop
  step : ∀ {s : String}, Has s → Step s

/-- Everything may be said. -/
def Account.all : Account := { Vocabulary.all with Step := fun _ => True, step := fun _ => trivial }

variable {acc : Account}

/-- The fault keeps to the account. -/
def Fault.KeepsTo (acc : Account) (f : Fault) : Prop :=
  (∀ t ∈ f.cause.texts, acc.Has t) ∧ ∀ step ∈ f.path, acc.Step step.text

/-- The texts of a limit that a message repeats. -/
def Limit.texts : Limit → List String
  | .above b | .atLeast b | .below b | .atMost b | .multipleOf b => [b.boundText]
  | .pattern p => [p.source]
  | _ => []

/-- The limits keep to the account. -/
def Limit.Keep (acc : Account) (ls : List Limit) : Prop := ∀ l ∈ ls, ∀ t ∈ l.texts, acc.Has t

/-! ## Values whose keys may be said

Values hold values, and what is asked of a value is asked of all that is in it. -/

namespace Value

mutual

/-- The keys of all mappings in the value may be steps, and the names of its enumerations may
be said. -/
def KeepsTo (acc : Account) : Value → Prop
  | .list items | .tuple items | .set items | .frozenset items => KeepItems acc items
  | .map entries => KeepEntries acc entries
  | .option e _ _ _ _ => acc.Has e
  | .record _ _ fields => KeepFields acc fields
  | _ => True

/-- All items keep to the account. -/
def KeepItems (acc : Account) : List Value → Prop
  | [] => True
  | v :: vs => KeepsTo acc v ∧ KeepItems acc vs

/-- All keys may be steps, and keys and values keep to the account. -/
def KeepEntries (acc : Account) : List (Value × Value) → Prop
  | [] => True
  | (k, v) :: rest =>
      acc.Step (Check.keyStep k).text ∧ KeepsTo acc k ∧ KeepsTo acc v ∧ KeepEntries acc rest

/-- The values of all fields keep to the account. -/
def KeepFields (acc : Account) : List (String × Value) → Prop
  | [] => True
  | (_, v) :: rest => KeepsTo acc v ∧ KeepFields acc rest

end

theorem keepItems_iff {vs : List Value} : KeepItems acc vs ↔ ∀ v ∈ vs, v.KeepsTo acc := by
  induction vs with
  | nil => exact ⟨fun _ _ h => absurd h List.not_mem_nil, fun _ => trivial⟩
  | cons v vs ih => rw [KeepItems, ih, List.forall_mem_cons]

theorem keepEntries_iff {es : List (Value × Value)} :
    KeepEntries acc es
      ↔ ∀ e ∈ es, acc.Step (Check.keyStep e.1).text ∧ e.1.KeepsTo acc ∧ e.2.KeepsTo acc := by
  induction es with
  | nil => exact ⟨fun _ _ h => absurd h List.not_mem_nil, fun _ => trivial⟩
  | cons e es ih =>
      obtain ⟨k, v⟩ := e
      rw [KeepEntries, ih, List.forall_mem_cons, and_assoc, and_assoc]

theorem keepFields_iff {fs : List (String × Value)} :
    KeepFields acc fs ↔ ∀ f ∈ fs, f.2.KeepsTo acc := by
  induction fs with
  | nil => exact ⟨fun _ _ h => absurd h List.not_mem_nil, fun _ => trivial⟩
  | cons f fs ih =>
      obtain ⟨k, v⟩ := f
      rw [KeepFields, ih, List.forall_mem_cons]

theorem KeepsTo.items {v : Value} {items : List Value} (hv : v.KeepsTo acc)
    (h : Check.items? v = some items) : ∀ i ∈ items, i.KeepsTo acc := by
  match v, hv with
  | .list vs, hv | .tuple vs, hv | .set vs, hv | .frozenset vs, hv =>
      cases h
      exact keepItems_iff.mp hv
  | .record _ _ fields, hv =>
      cases h
      intro i hi
      obtain ⟨f, hf, rfl⟩ := List.mem_map.mp hi
      exact ⟨trivial, keepFields_iff.mp hv f hf, trivial⟩
  | .null, _ | .bool _, _ | .int _, _ | .float _, _ | .str _, _ | .map _, _ | .date _, _
  | .option .., _ | .object _, _ => cases h

end Value

/-! ## Outcomes

A misfit is no refusal, and tells nothing. -/

namespace Outcome

variable {α β : Type}

/-- A refusal names at least one fault, and all its faults keep to the account. -/
def Tells (acc : Account) (r : Except Rejection α) : Prop :=
  ∀ fs, r = .error (.faults fs) → fs ≠ [] ∧ ∀ f ∈ fs, f.KeepsTo acc

theorem tells_ok (a : α) : Tells acc (.ok a : Except Rejection α) := fun _ h => nomatch h

theorem tells_misfit (m : Misfit) : Tells acc (.error (.misfit m) : Except Rejection α) :=
  fun _ h => nomatch h

theorem tells_faults {fs : List Fault} (hne : fs ≠ []) (h : ∀ f ∈ fs, f.KeepsTo acc) :
    Tells acc (.error (.faults fs) : Except Rejection α) := by
  rintro _ ⟨⟩
  exact ⟨hne, h⟩

theorem tells_pass (v : Value) (e : Exactness) : Tells acc (pass v e) := tells_ok _

theorem tells_fault {cause : Cause} (h : ∀ t ∈ cause.texts, acc.Has t) (v : Value) :
    Tells acc (fault cause v : Except Rejection α) := by
  apply tells_faults (List.cons_ne_nil _ _)
  intro f hf
  rw [List.mem_singleton.mp hf]
  exact ⟨h, fun _ hs => absurd hs List.not_mem_nil⟩

theorem tells_fixed {cause : Cause} (h : cause.texts = []) (v : Value) :
    Tells acc (fault cause v : Except Rejection α) :=
  tells_fault (by rw [h]; exact fun _ ht => absurd ht List.not_mem_nil) v

theorem tells_wording {cause : Cause} {t : String} (h : cause.texts = [t]) (ht : acc.Has t)
    (v : Value) : Tells acc (fault cause v : Except Rejection α) :=
  tells_fault (by rw [h]; exact List.forall_mem_singleton.mpr ht) v

theorem tells_under {step : Step} {r : Except Rejection α} (hs : acc.Step step.text)
    (h : Tells acc r) : Tells acc (under step r) := by
  match r, h with
  | .ok a, _ => exact tells_ok a
  | .error (.misfit m), _ => exact tells_misfit m
  | .error (.faults fs), h =>
      obtain ⟨hne, hfs⟩ := h fs rfl
      refine tells_faults (fun hnil => hne (List.map_eq_nil_iff.mp hnil)) ?_
      intro g hg
      obtain ⟨f, hf, rfl⟩ := List.mem_map.mp hg
      exact ⟨(hfs f hf).1, List.forall_mem_cons.mpr ⟨hs, (hfs f hf).2⟩⟩

theorem tells_bind {r : Except Rejection α} {f : α → Except Rejection β} (h : Tells acc r)
    (hf : ∀ a, r = .ok a → Tells acc (f a)) : Tells acc (r.bind f) := by
  match r, h, hf with
  | .ok a, _, hf => exact hf a rfl
  | .error (.misfit m), _, _ => exact tells_misfit m
  | .error (.faults fs), h, _ =>
      obtain ⟨hne, hfs⟩ := h fs rfl
      exact tells_faults hne hfs

theorem tells_map {r : Except Rejection α} (f : α → β) (h : Tells acc r) : Tells acc (r.map f) := by
  match r, h with
  | .ok a, _ => exact tells_ok _
  | .error (.misfit m), _ => exact tells_misfit m
  | .error (.faults fs), h =>
      obtain ⟨hne, hfs⟩ := h fs rfl
      exact tells_faults hne hfs

theorem tells_gather {rs : List (Except Rejection α)} (h : ∀ r ∈ rs, Tells acc r) :
    Tells acc (gather rs) := by
  induction rs with
  | nil => exact tells_ok _
  | cons r rest ih =>
      have hr := h r List.mem_cons_self
      have hrest := ih fun q hq => h q (List.mem_cons_of_mem _ hq)
      match r, hr with
      | .error (.misfit m), _ => exact tells_misfit m
      | .error (.faults fs), hr =>
          obtain ⟨hne, hfs⟩ := hr fs rfl
          simp only [gather]
          split
          · exact tells_misfit _
          · rename_i gs hg
            obtain ⟨_, hgs⟩ := hrest gs hg
            exact tells_faults (List.append_ne_nil_of_left_ne_nil hne gs)
              fun f hf => (List.mem_append.mp hf).elim (hfs f) (hgs f)
          · exact tells_faults hne hfs
      | .ok a, _ =>
          simp only [gather]
          split
          · rename_i e he
            rw [he] at hrest
            exact fun fs hfs => hrest fs (by rw [Except.error.inj hfs])
          · exact tells_ok _

end Outcome

/-! ## Limits

Bounds are written in several ways, as a date or a number or a text.  What is in the
vocabulary is one of them, and the others are numerals. -/

namespace Limit

open Outcome

theorem Keep.cons {l : Limit} {ls : List Limit} :
    Keep acc (l :: ls) ↔ (∀ t ∈ l.texts, acc.Has t) ∧ Keep acc ls := List.forall_mem_cons

theorem Keep.append {ls ms : List Limit} (h : Keep acc ls) (h' : Keep acc ms) :
    Keep acc (ls ++ ms) := fun l hl => (List.mem_append.mp hl).elim (h l) (h' l)

theorem Keep.nil : Keep acc [] := fun _ h => absurd h List.not_mem_nil

theorem Keep.split {ls : List Limit} (h : Keep acc ls) (knows : Limit → Bool) :
    Keep acc (split knows ls).1 ∧ Keep acc (split knows ls).2 :=
  ⟨fun l hl => h l (mem_of_mem_split (Or.inl hl)), fun l hl => h l (mem_of_mem_split (Or.inr hl))⟩

theorem exists_of_last?_eq_some {α : Type} {pick : Limit → Option α} {ls : List Limit} {a : α}
    (h : last? pick ls = some a) : ∃ l ∈ ls, pick l = some a := by
  obtain ⟨l, hl, hp⟩ := List.exists_of_findSome?_eq_some h
  exact ⟨l, List.mem_reverse.mp hl, hp⟩

theorem Keep.pattern {ls : List Limit} (h : Keep acc ls) {p : PatternText}
    (hp : pattern? ls = some p) : acc.Has p.source := by
  obtain ⟨l, hl, hpick⟩ := exists_of_last?_eq_some hp
  cases l with
  | pattern q =>
      cases hpick
      exact h _ hl _ List.mem_cons_self
  | strict | above | atLeast | below | atMost | multipleOf | minLength | maxLength => cases hpick

theorem has_ownBoundText {b : Value} (h : acc.Has b.boundText) : acc.Has b.ownBoundText := by
  unfold Value.ownBoundText
  split
  · exact acc.plain (isPlain_dateText _)
  · exact h

theorem has_asFloat {b : Value} (h : acc.Has b.boundText) : acc.Has (asFloat b).ownBoundText := by
  unfold asFloat
  split
  · exact acc.plain (isPlain_plainText _)
  · exact has_ownBoundText h

/-- The bound of a numeric limit. -/
theorem texts_of_ownCause? {exact : Bool} {q : Quantity} {l : Limit} {cause : Cause}
    (h : ownCause? exact q l = some cause) (hl : ∀ t ∈ l.texts, acc.Has t) :
    ∀ t ∈ cause.texts, acc.Has t := by
  have bound : ∀ b : Value, acc.Has b.boundText →
      acc.Has (if exact then b else asFloat b).ownBoundText := by
    intro b hb
    split
    · exact has_ownBoundText hb
    · exact has_asFloat hb
  cases l with
  | above b | atLeast b | below b | atMost b =>
      simp only [ownCause?] at h
      split at h
      · split at h
        · cases h
        · cases h
          exact List.forall_mem_singleton.mpr (bound b (hl _ List.mem_cons_self))
      · cases h
  | multipleOf b =>
      simp only [ownCause?] at h
      split at h
      · rename_i step _
        by_cases kept : (if exact then q.isMultiple step else q.isNearMultiple step) = true
        · rw [if_pos kept] at h
          cases h
        · rw [if_neg kept] at h
          cases h
          exact List.forall_mem_singleton.mpr (bound b (hl _ List.mem_cons_self))
      · cases h
  | strict | minLength | maxLength | pattern => cases h

theorem texts_of_numericCause? {exact : Bool} {ls : List Limit} {q : Quantity} {cause : Cause}
    (h : numericCause? exact ls q = some cause) (hls : Keep acc ls) :
    ∀ t ∈ cause.texts, acc.Has t := by
  obtain ⟨l, hl, hc⟩ := List.exists_of_findSome?_eq_some h
  obtain ⟨rank, _, hfind⟩ := List.mem_filterMap.mp hl
  exact texts_of_ownCause? hc (hls l (List.mem_reverse.mp (List.mem_of_find?_eq_some hfind)))

theorem texts_of_boundCause? {v : Value} {l : Limit} {cause : Cause}
    (h : boundCause? v l = some (some cause)) (hl : ∀ t ∈ l.texts, acc.Has t) :
    ∀ t ∈ cause.texts, acc.Has t := by
  cases l with
  | above b | atLeast b | below b | atMost b =>
      obtain ⟨kept, _, hk⟩ := Option.map_eq_some_iff.mp h
      split at hk
      · cases hk
      · cases hk
        exact hl
  | multipleOf b =>
      simp only [boundCause?] at h
      split at h
      · split at h
        · cases h
        · cases h
          exact hl
      · cases h
  | strict | minLength | maxLength | pattern => cases h

theorem texts_of_lengthCause? {n : Nat} {l : Limit} {cause : Cause}
    (h : l.lengthCause? n = some cause) : cause.texts = [] := by
  cases l with
  | minLength _ | maxLength _ =>
      simp only [lengthCause?] at h
      split at h
      · cases h
        rfl
      · cases h
  | strict | above | atLeast | below | atMost | multipleOf | pattern => cases h

end Limit

end WebForm
