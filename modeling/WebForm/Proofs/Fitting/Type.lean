/-
Types whose limits fit.

A type is cast as it is read.  Its mould, the limits put on it as a whole and the moulds of
its alternatives are found by recursion on the type from those of its parts (`Ty.cast`), along
the same lines as the reading of the type, so that there is one lemma for each step: a
collection, a mapping, a record, a choice, limits.  The main result says that the cast is
right,

    t.cast.Holds (t.reading s)

for every type and every setting: under limits that its mould bears, the check of the type
comes to a result whatever the value is.

A part is sound if its mould bears the limits that the type puts on it.  A collection with an
item that is not sound may end without a result, and so bears nothing.  A record is sound if
the type of each of its fields bears the limits of the field, and a schema is a record with a
name.

The mould of a choice has the shapes of all its alternatives, so that a limit on the choice
has to fit each of them.  There is one exception: where only one alternative is left, limits
on the choice are passed on to it, and may be among those that it takes as its own.  So the
alternatives are kept with their moulds until the choice is made, and what is dropped as
repeated is dropped from both lists alike (`OptionsHold.distinct`).
-/
import WebForm.Proofs.Distinct
import WebForm.Proofs.Endpoint
import WebForm.Proofs.Fitting.Limit
import WebForm.Proofs.Gathering
import WebForm.Proofs.Rechecking.Collection
import WebForm.Proofs.Rechecking.Choice
import WebForm.Proofs.Rechecking.Mapping

namespace WebForm

/-! ## What the checks give

Each reader of its own gives values of known shapes, under whatever limits.  Only that of
integers is left open, as it may give any shape; its own limits are such that nothing is lost
by that. -/

namespace Check

open Outcome

variable {s : Setting} {ls : List Limit} {v : Value}

theorem lands_runText : Lands [.text] (runText s ls v) where
  result := not_isMisfit_runText s ls v
  shape c hc := by
    obtain ⟨t, hvalue, _⟩ := runText_again (rfl : s.config = s.config) hc
    rw [hvalue]
    exact List.mem_singleton.mpr rfl

theorem lands_runInteger : Lands Shape.all (runInteger s ls v) where
  result := not_isMisfit_runInteger s ls v
  shape _ _ := Shape.mem_all _

theorem lands_runFloat : Lands [.number] (runFloat s ls v) where
  result := not_isMisfit_runFloat s ls v
  shape c hc := by
    obtain ⟨x, hvalue, _⟩ := runFloat_again s hc
    rw [hvalue, Value.shape_float]
    exact List.mem_singleton.mpr rfl

theorem lands_runFlag : Lands [.number] (runFlag s ls v) where
  result := not_isMisfit_runFlag s ls v
  shape c hc := by
    obtain ⟨b, hvalue, _⟩ := runFlag_again s hc
    rw [hvalue]
    exact List.mem_singleton.mpr rfl

theorem lands_runDate : Lands [.date] (runDate s ls v) where
  result := not_isMisfit_runDate s ls v
  shape c hc := by
    obtain ⟨d, hvalue, _⟩ := runDate_again s hc
    rw [hvalue]
    exact List.mem_singleton.mpr rfl

theorem lands_runLiteral (values : List Value) :
    Lands (values.map Value.shape) (runLiteral values v) where
  result := not_isMisfit_runLiteral values v
  shape _ hc := List.mem_map_of_mem (mem_of_runLiteral hc)

theorem lands_runOption (e : Enumeration) :
    Lands (e.options.map Value.shape) (runOption e s ls v) where
  result := not_isMisfit_runOption e s ls v
  shape _ hc := List.mem_map_of_mem (mem_of_runOption hc)

theorem lands_runFreeList : Lands [.sized] (runFreeList s ls v) where
  result := not_isMisfit_runFreeList s ls v
  shape c hc := by
    obtain ⟨items, hvalue, _⟩ := runFreeList_eq_ok hc
    rw [hvalue]
    exact List.mem_singleton.mpr rfl

/-! ### Collections -/

theorem lands_keepLeast {kind : Counted} {c : Checked} {shapes : List Shape}
    (h : c.value.shape ∈ shapes) : Lands shapes (keepLeast kind ls v c) where
  result := not_isMisfit_keepLeast kind ls v c
  shape _ hc := keepLeast_eq_ok hc ▸ h

theorem lands_keepCount {c : Checked} {shapes : List Shape} (h : c.value.shape ∈ shapes) :
    Lands shapes (keepCount ls v c) where
  result := not_isMisfit_keepCount ls v c
  shape _ hc := keepCount_eq_ok hc ▸ h

/-- The shape of the collections of a kind. -/
def kindShape : Counted → Shape
  | .set | .frozenset => .set
  | _ => .sized

theorem shape_collect (kind : Counted) (ws : List Value) :
    (collect kind ws).shape = kindShape kind := by
  cases kind <;> rfl

theorem lands_runCollection {item : Check} (h : ∀ v, ¬IsMisfit (item.run [] v)) (kind : Counted) :
    Lands [kindShape kind] (runCollection kind item s ls v) := by
  rw [runCollection_eq_bind]
  split
  · exact lands_fault _ v
  · refine lands_bind (not_isMisfit_runParts h kind _ v _) fun cs => lands_keepLeast ?_
    rw [Checked.ofParts_value, shape_collect]
    exact List.mem_singleton.mpr rfl

theorem lands_runSequence {item : Check} (h : ∀ v, ¬IsMisfit (item.run [] v)) :
    Lands [.sized] (runSequence item v) := by
  have parts : ∀ items, ¬IsMisfit (gather (outcomesAt (item.run []) 0 items)) := fun items =>
    not_isMisfit_gather (not_isMisfit_of_mem_outcomesAt h items 0)
  unfold runSequence
  dsimp only
  split
  · refine lands_map (parts _) fun cs => ?_
    rw [Checked.ofParts_value]
    exact List.mem_singleton.mpr rfl
  · refine lands_map (parts _) fun cs => ?_
    rw [Checked.ofParts_value]
    exact List.mem_singleton.mpr rfl
  · exact lands_fault _ _
  · exact lands_fault _ _
  · exact lands_fault _ v

theorem lands_runFreeSequence : Lands [.text, .sized, .other] (runFreeSequence v) := by
  unfold runFreeSequence
  split
  · exact lands_pass (List.mem_cons_of_mem _ List.mem_cons_self)
  · exact lands_pass (List.mem_cons_of_mem _ List.mem_cons_self)
  · exact lands_pass List.mem_cons_self
  · rename_i w _
    refine lands_pass ?_
    cases w <;>
      simp [Value.shape, Value.quantity?, Value.plain, Value.asInteger?, Value.asText?]
  · exact lands_fault _ v

theorem lands_runPositions {checks : List Check} (h : ∀ c ∈ checks, ∀ v, ¬IsMisfit (c.run [] v)) :
    Lands [.sized] (runPositions checks s ls v) := by
  unfold runPositions
  split
  · exact lands_fault _ v
  · refine lands_bind (not_isMisfit_runPlaces (not_isMisfit_of_mem_outcomesOf v h 0 _) [] [])
      fun cs => lands_keepLeast ?_
    rw [Checked.ofParts_value]
    exact List.mem_singleton.mpr rfl

theorem lands_runDict {key value : Check} (hk : ∀ v, ¬IsMisfit (key.run [] v))
    (hv : ∀ v, ¬IsMisfit (value.run [] v)) : Lands [.sized] (runDict key value ls v) := by
  have entry : ∀ e, ∀ r ∈ entryOutcome key value e, ¬IsMisfit r := by
    intro e r hr
    unfold entryOutcome at hr
    rcases List.mem_pair.mp hr with rfl | rfl
    · rw [isMisfit_map_iff, isMisfit_under_iff, isMisfit_under_iff]
      exact hk e.1
    · rw [isMisfit_map_iff, isMisfit_under_iff]
      exact hv e.2
  unfold runDict
  split
  · refine lands_bind (not_isMisfit_gather fun r hr => ?_) fun parts => lands_keepCount ?_
    · obtain ⟨e, _, hr⟩ := List.mem_flatMap.mp hr
      exact entry e r hr
    · rw [Checked.ofParts_value]
      exact List.mem_singleton.mpr rfl
  · exact lands_fault _ v

/-! ### Records and choices -/

theorem lands_runRecord {name : String} {c : Config} {fields : List FieldCheck}
    (h : ∀ f ∈ fields, ∀ v, ¬IsMisfit (f.run v)) : Lands [.other] (runRecord name c fields v) := by
  have result : ∀ whole entries, ¬IsMisfit (runEntries name c fields whole entries) := by
    intro whole entries
    rw [isMisfit_runEntries_iff]
    rintro ⟨o, ho, hm⟩
    rcases List.mem_append.mp ho with ho | ho
    · obtain ⟨f, hf, rfl⟩ := List.mem_map.mp ho
      unfold FieldCheck.outcome at hm
      split at hm
      · rw [isMisfit_under_iff] at hm
        exact h f hf _ hm
      · split at hm
        · exact not_isMisfit_pass _ _ hm
        · rw [isMisfit_under_iff] at hm
          exact not_isMisfit_fault _ _ hm
    · obtain ⟨e, _, rfl⟩ := List.mem_map.mp ho
      exact not_isMisfit_extraOutcome c e hm
  unfold runRecord
  split
  · refine ⟨result _ _, fun r hr => ?_⟩
    unfold runEntries at hr
    obtain ⟨parts, _, rfl⟩ := exists_of_map_eq_ok hr
    dsimp only
    rw [Checked.ofParts_value]
    exact List.mem_singleton.mpr rfl
  · split
    · exact lands_pass (List.mem_singleton.mpr rfl)
    · exact lands_fault _ _
  · exact lands_fault _ v

theorem lands_runAlternatives {options : List Check} {shapes : List Shape}
    (h : ∀ a ∈ options, ∀ v, Lands shapes (a.run [] v)) :
    Lands shapes (runAlternatives v Option.none [] options) where
  result := not_isMisfit_runAlternatives (fun a ha => (h a ha v).result) Option.none []
  shape r hr := by
    rcases runAlternatives_eq_ok hr with ⟨b, hb, _⟩ | ⟨a, ha, c, hc, hvalue⟩
    · cases hb
    · rw [hvalue]
      exact (h a ha v).shape c hc

/-! ### The moulds of the checks -/

theorem holds_any (s : Setting) : (Mould.own Limit.isUnknown Shape.all true).Holds (any s) :=
  Mould.holds_ofOwn fun _ _ _ => lands_pass (Shape.mem_all _)

theorem holds_none (s : Setting) :
    (Mould.own Limit.isUnknown [.other] true).Holds (Check.none s) := by
  refine Mould.holds_ofOwn fun _ _ v => ?_
  split
  · exact lands_pass (List.mem_singleton.mpr rfl)
  · exact lands_fault _ _

theorem holds_text (s : Setting) : (Mould.own Limit.isTextual [.text] true).Holds (text s) :=
  Mould.holds_ofOwn fun _ _ _ => lands_runText

theorem holds_integer (s : Setting) :
    (Mould.own Limit.isNumeric Shape.all true).Holds (integer s) :=
  Mould.holds_ofOwn fun _ _ _ => lands_runInteger

theorem holds_float (s : Setting) : (Mould.own Limit.isNumeric [.number] true).Holds (float s) :=
  Mould.holds_ofOwn fun _ _ _ => lands_runFloat

theorem holds_flag (s : Setting) : (Mould.own Limit.isUnknown [.number] true).Holds (flag s) :=
  Mould.holds_ofOwn fun _ _ _ => lands_runFlag

theorem holds_date (s : Setting) : (Mould.own Limit.isNumeric [.date] true).Holds (date s) :=
  Mould.holds_ofOwn fun _ _ _ => lands_runDate

theorem holds_literal (values : List Value) (s : Setting) :
    (Mould.own Limit.isUnknown (values.map Value.shape) true).Holds (literal values s) :=
  Mould.holds_ofOwn fun _ _ _ => lands_runLiteral values

theorem holds_option (e : Enumeration) (s : Setting) :
    (Mould.own Limit.isUnknown (e.options.map Value.shape) true).Holds (option e s) :=
  Mould.holds_ofOwn fun _ _ _ => lands_runOption e

theorem holds_freeList (sound : Bool) (s : Setting) :
    (Mould.own Limit.isLength [.sized] sound).Holds (freeList s) :=
  Mould.holds_ofOwn fun _ _ _ => lands_runFreeList

theorem holds_freeSequence (s : Setting) :
    (Mould.own Limit.isUnknown [.text, .sized, .other] true).Holds (freeSequence s) :=
  Mould.holds_ofOwn fun _ _ _ => lands_runFreeSequence

theorem result_of_holds {m : Mould} {c : Check} (h : m.Holds c) (hsound : m.bears [] = true)
    (v : Value) : ¬IsMisfit (c.run [] v) := (h.lands hsound v).result

section Parts

variable {m n : Mould} {item key value : Check} {sound : Bool}

theorem holds_collection (h : m.Holds item) (hsound : sound = true → m.bears [] = true)
    (kind : Counted) (s : Setting) :
    (Mould.own Limit.isLength [kindShape kind] sound).Holds (collection kind item s) :=
  Mould.holds_ofOwn fun hs _ _ => lands_runCollection (result_of_holds h (hsound hs)) kind

theorem holds_sequence (h : m.Holds item) (s : Setting) :
    (Mould.own Limit.isUnknown [.sized] (m.bears [])).Holds (sequence item s) :=
  Mould.holds_ofOwn fun hs _ _ => lands_runSequence (result_of_holds h hs)

theorem holds_dict (hk : m.Holds key) (hv : n.Holds value) (s : Setting) :
    (Mould.own Limit.isLength [.sized] (m.bears [] && n.bears [])).Holds (dict key value s) := by
  refine Mould.holds_ofOwn fun hs _ _ => ?_
  obtain ⟨hkey, hvalue⟩ := Bool.and_eq_true_iff.mp hs
  exact lands_runDict (result_of_holds hk hkey) (result_of_holds hv hvalue)

theorem holds_positions {checks : List Check}
    (h : sound = true → ∀ c ∈ checks, ∀ v, ¬IsMisfit (c.run [] v)) (s : Setting) :
    (Mould.own Limit.isLength [.sized] sound).Holds (positions checks s) :=
  Mould.holds_ofOwn fun hs _ _ => lands_runPositions (h hs)

theorem holds_record {fields : List FieldCheck}
    (h : sound = true → ∀ f ∈ fields, ∀ v, ¬IsMisfit (f.run v)) (name : String) (c : Config)
    (s : Setting) :
    (Mould.own Limit.isUnknown [.other] sound).Holds (record name c fields s) :=
  Mould.holds_ofOwn fun hs _ _ => lands_runRecord (h hs)

end Parts

end Check

/-! ## Casts

What is put together of parts is put together in the cast and in the reading by the same
steps. -/

/-- How a type is cast: the mould of its check without the limits put on it as a whole, those
limits, and the moulds of the alternatives that it offers beside nothing. -/
structure Cast where
  core : Mould
  own : List Limit := []
  options : List (Ty × Mould) := []
  nullable : Bool := false

namespace Cast

/-- A type that is its own only alternative. -/
def alone (t : Ty) (m : Mould) : Cast := { core := m, options := [(t, m)] }

/-- The mould of the check under more limits, before or after the type's own. -/
def under (k : Cast) (before : List Limit) : Mould where
  bears := fun ls => k.core.bears (before ++ k.own ++ ls)
  gives := k.core.gives

/-- The mould of the check of the type. -/
def mould (k : Cast) : Mould := k.under []

/-- A type that is limited as a whole, and then is its own only alternative. -/
def limited (k : Cast) (t : Ty) (ls : List Limit) : Cast :=
  let own := k.own ++ ls
  { core := k.core, own, options := [(t, { k with own }.mould)] }

/-- A choice between alternatives, and nothing if it is nullable: it bears what fits all that they
give, or if there is only one what that one bears. -/
def among (options : List (Ty × Mould)) (nullable : Bool) : Cast :=
  let distinct := distinctBy (fun o p => p.1.isSameOption o.1) options
  let core : Mould :=
    match distinct with
    | [] => .own Limit.isUnknown [.other] true
    | [only] => if nullable then only.2.orNothing else only.2
    | several =>
      let m := Mould.own Limit.isUnknown (several.flatMap fun o => o.2.gives)
        (several.all fun o => o.2.bears [])
      if nullable then m.orNothing else m
  { core, options := distinct, nullable }

end Cast

/-- The alternatives are the same ones, and the check of each keeps to its mould. -/
def OptionsHold (ms : List (Ty × Mould)) (os : List (Ty × Check)) : Prop :=
  ∃ ps : List (Ty × Mould × Check), ms = ps.map (fun p => (p.1, p.2.1)) ∧
    os = ps.map (fun p => (p.1, p.2.2)) ∧ ∀ p ∈ ps, p.2.1.Holds p.2.2

namespace OptionsHold

variable {ms ms' : List (Ty × Mould)} {os os' : List (Ty × Check)}

theorem nil : OptionsHold [] [] := ⟨[], rfl, rfl, fun _ h => absurd h List.not_mem_nil⟩

theorem append (h : OptionsHold ms os) (h' : OptionsHold ms' os') :
    OptionsHold (ms ++ ms') (os ++ os') := by
  obtain ⟨ps, rfl, rfl, hps⟩ := h
  obtain ⟨ps', rfl, rfl, hps'⟩ := h'
  refine ⟨ps ++ ps', ?_, ?_, fun p hp => (List.mem_append.mp hp).elim (hps p) (hps' p)⟩ <;>
    rw [List.map_append]

theorem distinct (h : OptionsHold ms os) :
    OptionsHold (distinctBy (fun o p => p.1.isSameOption o.1) ms) (Reading.distinctOptions os) := by
  obtain ⟨ps, rfl, rfl, hps⟩ := h
  refine ⟨distinctBy (fun p q => q.1.isSameOption p.1) ps, ?_, ?_,
    fun p hp => hps p ((distinctBy_sublist ps).subset hp)⟩
  · exact distinctBy_map _ _ _
  · exact distinctBy_map (fun o p : Ty × Check => p.1.isSameOption o.1) _ _

end OptionsHold

/-- A reading of a type keeps to its cast. -/
structure Cast.Holds (k : Cast) (r : Reading) : Prop where
  core : k.core.Holds r.core
  own : r.own = k.own
  options : OptionsHold k.options r.options
  nullable : r.nullable = k.nullable

namespace Cast

variable {k : Cast} {r : Reading}

theorem Holds.under (h : k.Holds r) (before : List Limit) :
    (k.under before).Holds (r.under before) where
  lands {ls} hls v := by
    simp only [Reading.under]
    rw [h.own]
    exact h.core.lands hls v

theorem Holds.mould (h : k.Holds r) : k.mould.Holds r.check := h.under []

theorem holds_alone {m : Mould} {c : Check} (t : Ty) (h : m.Holds c) :
    (alone t m).Holds (Reading.alone t c) where
  core := h
  own := rfl
  options := ⟨[(t, m, c)], rfl, rfl, List.forall_mem_singleton.mpr h⟩
  nullable := rfl

theorem Holds.limited (h : k.Holds r) (t : Ty) (ls : List Limit) :
    (Cast.limited k t ls).Holds
      { core := r.core, own := r.own ++ ls, options := [(t, { r with own := r.own ++ ls }.check)] } := by
  have whole : Cast.Holds { k with own := k.own ++ ls } { r with own := r.own ++ ls } :=
    ⟨h.core, congrArg (· ++ ls) h.own, h.options, h.nullable⟩
  exact ⟨whole.core, whole.own,
    ⟨[(t, _, _)], rfl, rfl, List.forall_mem_singleton.mpr whole.mould⟩, rfl⟩

theorem holds_alternatives {ps : List (Ty × Mould × Check)} (h : ∀ p ∈ ps, p.2.1.Holds p.2.2)
    (s : Setting) :
    (Mould.own Limit.isUnknown (ps.flatMap fun p => p.2.1.gives)
      (ps.all fun p => p.2.1.bears [])).Holds (Check.alternatives (ps.map (·.2.2)) s) := by
  refine Mould.holds_ofOwn fun hsound _ v => Check.lands_runAlternatives fun a ha v => ?_
  obtain ⟨p, hp, rfl⟩ := List.mem_map.mp ha
  have inner := (h p hp).lands (List.all_eq_true.mp hsound p hp) v
  exact ⟨inner.result, fun c hc => List.mem_flatMap.mpr ⟨p, hp, inner.shape c hc⟩⟩

theorem holds_among {ms : List (Ty × Mould)} {os : List (Ty × Check)} (h : OptionsHold ms os)
    (nullable : Bool) (s : Setting) : (among ms nullable).Holds (Reading.among os nullable s) := by
  have hdistinct := h.distinct
  refine ⟨?_, rfl, hdistinct, rfl⟩
  unfold among Reading.among
  dsimp only
  generalize distinctBy (fun o p : Ty × Mould => p.1.isSameOption o.1) ms = ms at hdistinct
  generalize Reading.distinctOptions os = os at hdistinct
  obtain ⟨ps, rfl, rfl, hps⟩ := hdistinct
  cases ps with
  | nil => exact Check.holds_none s
  | cons p ps =>
      cases ps with
      | nil =>
          have only := hps p List.mem_cons_self
          cases nullable with
          | true => exact only.nullable
          | false => exact only
      | cons q ps =>
          have several := holds_alternatives hps s
          simp only [List.map_cons, List.map_map, List.flatMap_cons, List.flatMap_map,
            List.all_cons, List.all_map] at several ⊢
          cases nullable with
          | true => exact several.nullable
          | false => exact several

end Cast

namespace Ty

/-! ## Types

The recursion runs through the type, the list of its alternatives and the fields of a record
at once. -/

mutual

/-- How a type is cast. -/
def cast : Ty → Cast
  | .any => .alone .any (.own Limit.isUnknown Shape.all true)
  | .none => { core := .own Limit.isUnknown [.other] true, nullable := true }
  | .str => .alone .str (.own Limit.isTextual [.text] true)
  | .int => .alone .int (.own Limit.isNumeric Shape.all true)
  | .float => .alone .float (.own Limit.isNumeric [.number] true)
  | .bool => .alone .bool (.own Limit.isUnknown [.number] true)
  | .date => .alone .date (.own Limit.isNumeric [.date] true)
  | .bare c => .alone (.bare c) (.own Limit.isLength [.sized] true)
  | .many .sequence .any =>
    .alone (.many .sequence .any) (.own Limit.isUnknown [.text, .sized, .other] true)
  | .many .sequence t =>
    .alone (.many .sequence t) (.own Limit.isUnknown [.sized] ((cast t).mould.bears []))
  | .many .list t =>
    .alone (.many .list t) (.own Limit.isLength [.sized] (t.isAny || (cast t).mould.bears []))
  | .many c t =>
    .alone (.many c t)
      (.own Limit.isLength [Check.kindShape c.counted] ((cast t).mould.bears []))
  | .positions ts => .alone (.positions ts) (.own Limit.isLength [.sized] (allSound ts))
  | .dict k v =>
    .alone (.dict k v)
      (.own Limit.isLength [.sized] ((cast k).mould.bears [] && (cast v).mould.bears []))
  | .optional t => .among (cast t).options true
  | .choice _ ts => .among (allMoulds ts) (anyNothing ts)
  | .literal values =>
    .alone (.literal values) (.own Limit.isUnknown (values.map Value.shape) true)
  | .enumeration e =>
    .alone (.enumeration e) (.own Limit.isUnknown (e.options.map Value.shape) true)
  | .limited t l => (cast t).limited (.limited t l) l.toList
  | .record ⟨name, fields, c⟩ =>
    .alone (.record ⟨name, fields, c⟩) (.own Limit.isUnknown [.other] (fieldsSound fields))

/-- The moulds of all alternatives of some types. -/
def allMoulds : List Ty → List (Ty × Mould)
  | [] => []
  | t :: ts => (cast t).options ++ allMoulds ts

/-- One of some types allows nothing. -/
def anyNothing : List Ty → Bool
  | [] => false
  | t :: ts => (cast t).nullable || anyNothing ts

/-- The moulds of some types bear what is put on them. -/
def allSound : List Ty → Bool
  | [] => true
  | t :: ts => (cast t).mould.bears [] && allSound ts

/-- The types of some fields bear the limits of the fields. -/
def fieldsSound : List (FieldOf Ty) → Bool
  | [] => true
  | ⟨f, t⟩ :: rest => ((cast t).under f.limits.toList).bears [] && fieldsSound rest

end

mutual

/-- A type is read as it is cast. -/
theorem cast_holds : ∀ (t : Ty) (s : Setting), t.cast.Holds (t.reading s)
  | .any, s => Cast.holds_alone _ (Check.holds_any s)
  | .none, s => ⟨Check.holds_none s, rfl, OptionsHold.nil, rfl⟩
  | .str, s => Cast.holds_alone _ (Check.holds_text s)
  | .int, s => Cast.holds_alone _ (Check.holds_integer s)
  | .float, s => Cast.holds_alone _ (Check.holds_float s)
  | .bool, s => Cast.holds_alone _ (Check.holds_flag s)
  | .date, s => Cast.holds_alone _ (Check.holds_date s)
  | .bare c, s => by
      have anything := Check.holds_any s
      cases c with
      | tuple =>
          exact Cast.holds_alone _ (Check.holds_collection anything (fun _ => rfl) .tuple s)
      | dict => exact Cast.holds_alone _ (Check.holds_dict anything anything s)
      | list | genericList => exact Cast.holds_alone _ (Check.holds_freeList true s)
  | .many c t, s => by
      have item := (cast_holds t s).mould
      cases c with
      | sequence =>
          by_cases hany : t = .any
          · subst hany
            exact Cast.holds_alone _ (Check.holds_freeSequence s)
          · rw [reading, cast]
            · exact Cast.holds_alone _ (Check.holds_sequence item s)
            · exact hany
            · exact hany
      | list =>
          simp only [reading, cast]
          refine Cast.holds_alone _ ?_
          cases hany : t.isAny with
          | true => exact Check.holds_freeList _ s
          | false => exact Check.holds_collection item id .list s
      | set | frozenset | tuple =>
          exact Cast.holds_alone _ (Check.holds_collection item id _ s)
  | .positions ts, s => Cast.holds_alone _ (Check.holds_positions (moulds_hold ts s).1 s)
  | .dict k v, s =>
      Cast.holds_alone _ (Check.holds_dict (cast_holds k s).mould (cast_holds v s).mould s)
  | .optional t, s => Cast.holds_among (cast_holds t s).options true s
  | .choice _ ts, s => by
      obtain ⟨_, options, nullable⟩ := moulds_hold ts s
      simp only [reading, cast]
      rw [nullable]
      exact Cast.holds_among options _ s
  | .literal values, s => Cast.holds_alone _ (Check.holds_literal values s)
  | .enumeration e, s => Cast.holds_alone _ (Check.holds_option e s)
  | .limited t l, s => (cast_holds t s).limited (.limited t l) l.toList
  | .record ⟨name, fields, c⟩, s =>
      Cast.holds_alone _
        (Check.holds_record (fields_hold fields { s with config := c }) name c s)

theorem moulds_hold : ∀ (ts : List Ty) (s : Setting),
    (allSound ts = true → ∀ c ∈ checks ts s, ∀ v, ¬Outcome.IsMisfit (c.run [] v)) ∧
    OptionsHold (allMoulds ts) (allOptions ts s) ∧ anyNullable ts s = anyNothing ts
  | [], _ => ⟨fun _ _ h => absurd h List.not_mem_nil, OptionsHold.nil, rfl⟩
  | t :: ts, s => by
      have first := cast_holds t s
      obtain ⟨results, options, nullable⟩ := moulds_hold ts s
      refine ⟨fun hsound => ?_, first.options.append options, ?_⟩
      · obtain ⟨ht, hts⟩ := Bool.and_eq_true_iff.mp hsound
        exact List.forall_mem_cons.mpr ⟨Check.result_of_holds first.mould ht, results hts⟩
      · simp only [anyNullable, anyNothing]
        rw [first.nullable, nullable]

theorem fields_hold : ∀ (fields : List (FieldOf Ty)) (s : Setting), fieldsSound fields = true →
    ∀ f ∈ fieldChecks fields s, ∀ v, ¬Outcome.IsMisfit (f.run v)
  | [], _, _ => fun _ h => absurd h List.not_mem_nil
  | ⟨f, t⟩ :: rest, s, hsound => by
      obtain ⟨ht, hrest⟩ := Bool.and_eq_true_iff.mp hsound
      have first := (cast_holds t s).under f.limits.toList
      exact List.forall_mem_cons.mpr ⟨Check.result_of_holds first ht, fields_hold rest s hrest⟩

end

end Ty

end WebForm
