/-
What the checks of wholes say.

A whole says what its parts say, one step further out.  The steps are indices, the names of
fields and of alternatives, and the keys of a mapping where the data give them; and beside
that a whole has a few words of its own, for what it is not and for having too few parts or
too many.  So for every whole there is one lemma of the form

    item.Tells acc → (collection kind item s).Tells acc

with as many hypotheses as it has sorts of parts.  The parts are values of the value that is
checked, and if it keeps to the account so do they (`keepsTo_of_readItems`).

That a refusal names a fault takes some care, because the runs gather faults while they go on,
and answer with what they have gathered at the end.  They refuse only where something was
gathered (`tells_rest`).  A choice refuses with the faults of its alternatives, and needs an
alternative for that: of a choice between none it could not be shown
(`tells_runAlternatives`).

Indices and lengths are numbers, and in every vocabulary.  The names of fields and of records
come from the declaration.  A key is a step where an entry is checked by its key, and where a
record is handed a name that it does not know; if such names are ignored, nothing is said of
them, so that only keys that are not ignored have to be steps of the account.
-/
import WebForm.Proofs.Refusal.Scalar

namespace WebForm

variable {acc : Account}

namespace Check

open Outcome

/-! ## Collections

Indices are steps of every account, since numbers are plain. -/

theorem step_index (i : Int) : acc.Step (Step.index i).text :=
  acc.step (acc.plain (isPlain_intText i))

theorem tells_outcomesAt {check : Value → Outcome} {items : List Value}
    (h : ∀ v ∈ items, Outcome.Tells acc (check v)) (first : Nat) :
    ∀ r ∈ outcomesAt check first items, Outcome.Tells acc r := by
  induction items generalizing first with
  | nil => exact fun _ hr => absurd hr List.not_mem_nil
  | cons v vs ih =>
      intro r hr
      rcases List.mem_cons.mp hr with rfl | hr
      · exact tells_under (step_index _) (h v List.mem_cons_self)
      · exact ih (fun w hw => h w (List.mem_cons_of_mem _ hw)) (first + 1) r hr

theorem tells_runItems {check : Value → Outcome} {items : List Value}
    (h : ∀ v ∈ items, Outcome.Tells acc (check v)) (most : Option Nat) (whole : Value) :
    Outcome.Tells acc (runItems check most whole items) := by
  have all := tells_gather (tells_outcomesAt h 0)
  unfold runItems
  split
  · exact all
  · split
    · exact all
    · split
      · exact tells_misfit _
      · exact tells_fixed rfl whole

/-- The faults gathered so far are told when the last item is reached. -/
theorem tells_rest {faults : List Fault} (h : ∀ f ∈ faults, f.KeepsTo acc) (passed : List Checked) :
    Outcome.Tells acc
      (if faults.isEmpty then .ok passed else .error (.faults faults)) := by
  split
  · exact tells_ok _
  · rename_i hne
    exact tells_faults (fun hnil => hne (by rw [hnil]; rfl)) h

theorem tells_runPlaces {b : TupleBounds} {whole : Value} {rs : List Outcome}
    (h : ∀ r ∈ rs, Outcome.Tells acc r) (passed : List Checked) {faults : List Fault}
    (hf : ∀ f ∈ faults, f.KeepsTo acc) : Outcome.Tells acc (runPlaces b whole passed faults rs) := by
  induction rs generalizing passed faults with
  | nil =>
      simp only [runPlaces]
      split
      · exact tells_fixed rfl whole
      · exact tells_rest hf _
  | cons r rest ih =>
      have hr := h r List.mem_cons_self
      have ih := fun passed {faults} => @ih (fun q hq => h q (List.mem_cons_of_mem _ hq)) passed faults
      match r, hr with
      | .error (.misfit m), _ => exact tells_misfit m
      | .error (.faults fs), hr =>
          obtain ⟨_, hfs⟩ := hr fs rfl
          exact ih passed fun f hf' => (List.mem_append.mp hf').elim (hf f) (hfs f)
      | .ok c, _ =>
          simp only [runPlaces]
          split
          · split
            · exact tells_fixed rfl whole
            · exact ih _ hf
          · exact ih _ hf

theorem tells_runMembers {kind : Counted} {check : Value → Outcome} {most : Option Nat}
    {whole : Value} {items : List Value} (h : ∀ v ∈ items, Outcome.Tells acc (check v))
    (passed : List Checked) {faults : List Fault} (hf : ∀ f ∈ faults, f.KeepsTo acc) (first : Nat) :
    Outcome.Tells acc (runMembers kind check most whole passed faults first items) := by
  induction items generalizing passed faults first with
  | nil => exact tells_rest hf _
  | cons v vs ih =>
      have told := tells_under (step_index first) (h v List.mem_cons_self)
      have ih := fun passed {faults} hf =>
        @ih (fun w hw => h w (List.mem_cons_of_mem _ hw)) passed faults hf (first + 1)
      simp only [runMembers]
      split
      · exact tells_misfit _
      · rename_i fs heq
        obtain ⟨_, hfs⟩ := told fs heq
        exact ih passed fun f hf' => (List.mem_append.mp hf').elim (hf f) (hfs f)
      · split
        · refine ih passed fun f hf' => (List.mem_append.mp hf').elim (hf f) fun hnew => ?_
          rw [List.mem_singleton.mp hnew]
          exact ⟨fun _ ht => absurd ht List.not_mem_nil,
            List.forall_mem_singleton.mpr (step_index first)⟩
        · split
          · split
            · exact tells_fixed rfl whole
            · exact ih _ hf
          · exact ih _ hf

theorem tells_keepLeast (kind : Counted) (ls : List Limit) (whole : Value) (c : Checked) :
    Outcome.Tells acc (keepLeast kind ls whole c) := by
  unfold keepLeast
  split
  · split
    · exact tells_fixed rfl whole
    · exact tells_ok c
  · exact tells_ok c

/-- The items that are read from a value of the account are values of the account. -/
theorem keepsTo_of_readItems {strict : Bool} {kind : Counted} {v : Value} (hv : v.KeepsTo acc)
    {items : List Value} {e : Exactness} (h : readItems strict kind v = .ok (items, e)) :
    ∀ i ∈ items, i.KeepsTo acc := by
  unfold readItems at h
  split at h
  · cases h
    cases hitems : items? v with
    | none => exact fun _ hi => absurd hi List.not_mem_nil
    | some items => exact hv.items hitems
  · split at h
    · cases h
    · split at h
      · rename_i items hitems
        cases h
        exact hv.items hitems
      · cases h

theorem texts_of_readItems {strict : Bool} {kind : Counted} {v : Value} {cause : Cause}
    (h : readItems strict kind v = .error cause) : cause.texts = [] := by
  unfold readItems at h
  split at h
  · cases h
  · split at h
    · cases h
      rfl
    · split at h
      · cases h
      · cases h
        rfl

theorem has_kindLabel (kind : Counted) : acc.Has (kindLabel kind) := by
  cases kind <;> exact acc.fixed rfl

theorem tells_collection {kind : Counted} {item : Check} (h : item.Tells acc) (s : Setting) :
    (collection kind item s).Tells acc := by
  refine tells_ofOwn ?_ ?_
  · intro _
    refine acc.append (acc.append (acc.append (has_kindLabel kind) (acc.fixed rfl))
      (h.label Limit.Keep.nil)) ?_
    split <;> exact acc.fixed rfl
  · intro ls _ v hv
    unfold runCollection
    split
    · rename_i hread
      exact tells_fixed (texts_of_readItems hread) v
    · rename_i items e hread
      have told : ∀ i ∈ items, Outcome.Tells acc (item.run [] i) := fun i hi =>
        h.run Limit.Keep.nil (keepsTo_of_readItems hv hread i hi)
      refine tells_bind ?_ fun cs _ => tells_keepLeast kind ls v _
      have none : ∀ f ∈ ([] : List Fault), f.KeepsTo acc := fun _ hf => absurd hf List.not_mem_nil
      split
      · exact tells_runMembers told [] none 0
      · exact tells_runMembers told [] none 0
      · exact tells_runPlaces (tells_outcomesAt told 0) [] none
      · exact tells_runItems told _ v

theorem tells_freeList (s : Setting) : (freeList s).Tells acc := by
  refine tells_ofOwn (fun _ => acc.fixed rfl) ?_
  intro ls _ v _
  unfold runFreeList
  split
  · rename_i hread
    exact tells_fixed (texts_of_readItems hread) v
  · split
    · split
      · exact tells_fixed rfl v
      · exact tells_keepLeast .list ls v _
    · exact tells_keepLeast .list ls v _

theorem tells_sequence {item : Check} (h : item.Tells acc) (s : Setting) :
    (sequence item s).Tells acc := by
  refine tells_ofOwn ?_ ?_
  · intro _
    exact acc.within rfl rfl (h.label Limit.Keep.nil)
  · intro ls _ v hv
    have told : ∀ items : List Value, (∀ i ∈ items, i.KeepsTo acc) →
        Outcome.Tells acc (gather (outcomesAt (item.run []) 0 items)) := fun items hitems =>
      tells_gather (tells_outcomesAt (fun i hi => h.run Limit.Keep.nil (hitems i hi)) 0)
    unfold runSequence
    dsimp only
    split
    · exact tells_map _ (told _ (Value.keepItems_iff.mp hv))
    · exact tells_map _ (told _ (Value.keepItems_iff.mp hv))
    · exact tells_wording rfl (acc.fixed rfl) _
    · exact tells_wording rfl hv _
    · exact tells_wording rfl (acc.fixed rfl) _

theorem tells_freeSequence (s : Setting) : (freeSequence s).Tells acc := by
  refine tells_ofOwn (fun _ => acc.fixed rfl) ?_
  intro ls _ v _
  unfold runFreeSequence
  split
  · exact tells_pass _ _
  · exact tells_pass _ _
  · exact tells_pass _ _
  · exact tells_pass _ _
  · exact tells_wording rfl (acc.fixed rfl) _

theorem tells_outcomesOf (whole : Value) {checks : List Check} (h : ∀ c ∈ checks, c.Tells acc)
    {items : List Value} (hitems : ∀ i ∈ items, i.KeepsTo acc) (first : Nat) :
    ∀ r ∈ outcomesOf whole first checks items, Outcome.Tells acc r := by
  induction checks generalizing items first with
  | nil => exact fun _ hr => absurd hr List.not_mem_nil
  | cons c cs ih =>
      have ih := fun {items} => @ih (fun d hd => h d (List.mem_cons_of_mem _ hd)) items
      match items, hitems with
      | [], hitems =>
          intro r hr
          rcases List.mem_cons.mp hr with rfl | hr
          · exact tells_under (step_index _) (tells_fixed rfl whole)
          · exact ih hitems _ r hr
      | v :: vs, hitems =>
          intro r hr
          rcases List.mem_cons.mp hr with rfl | hr
          · exact tells_under (step_index _)
              ((h c List.mem_cons_self).run Limit.Keep.nil (hitems v List.mem_cons_self))
          · exact ih (fun w hw => hitems w (List.mem_cons_of_mem _ hw)) _ r hr

theorem tells_positions {checks : List Check} (h : ∀ c ∈ checks, c.Tells acc) (s : Setting) :
    (positions checks s).Tells acc := by
  refine tells_ofOwn ?_ ?_
  · intro _
    exact acc.within rfl rfl (acc.joined rfl fun c hc => (h c hc).label Limit.Keep.nil)
  · intro ls _ v hv
    unfold runPositions
    split
    · rename_i hread
      exact tells_fixed (texts_of_readItems hread) v
    · rename_i items e hread
      refine tells_bind ?_ fun cs _ => tells_keepLeast .tuple ls v _
      exact tells_runPlaces (tells_outcomesOf v h (keepsTo_of_readItems hv hread) 0) []
        fun _ hf => absurd hf List.not_mem_nil

/-! ## Mappings, records and choices

A field that is missing is reported under the first of the names under which it is looked for. -/

theorem tells_keepCount (ls : List Limit) (whole : Value) (c : Checked) :
    Outcome.Tells acc (keepCount ls whole c) := by
  have keepMost : ∀ most count, Outcome.Tells acc (keepCount.keepMost whole c most count) := by
    intro most count
    unfold keepCount.keepMost
    split
    · split
      · exact tells_fixed rfl whole
      · exact tells_ok c
    · exact tells_ok c
  unfold keepCount
  dsimp only
  split
  · split
    · exact tells_fixed rfl whole
    · exact keepMost _ _
  · exact keepMost _ _

theorem tells_dict {key value : Check} (hk : key.Tells acc) (hv : value.Tells acc) (s : Setting) :
    (dict key value s).Tells acc := by
  refine tells_ofOwn ?_ ?_
  · intro _
    refine acc.append (acc.append (acc.append (acc.append ?_ (hk.label Limit.Keep.nil)) ?_)
      (hv.label Limit.Keep.nil)) ?_ <;> exact acc.fixed rfl
  · intro ls _ v hkeeps
    unfold runDict
    split
    · rename_i entries
      refine tells_bind (tells_gather ?_) fun parts _ => tells_keepCount ls _ _
      intro r hr
      obtain ⟨entry, hentry, hr⟩ := List.mem_flatMap.mp hr
      obtain ⟨hstep, hkey, hvalue⟩ := Value.keepEntries_iff.mp hkeeps entry hentry
      simp only [entryOutcome, List.mem_cons, List.not_mem_nil, or_false] at hr
      rcases hr with rfl | rfl
      · refine tells_map _ (tells_under hstep (tells_under ?_ (hk.run Limit.Keep.nil hkey)))
        exact acc.step (acc.fixed rfl)
      · exact tells_map _ (tells_under hstep (hv.run Limit.Keep.nil hvalue))
    · exact tells_fixed rfl _

/-- A field tells what it is read as, and the names under which it is read may be steps. -/
structure FieldCheck.Tells (acc : Account) (c : Config) (f : FieldCheck) : Prop where
  names : ∀ name ∈ f.traits.readNames c, acc.Has name
  run : ∀ {v : Value}, v.KeepsTo acc → Outcome.Tells acc (f.run v)

theorem reportedName_mem_readNames (c : Config) (f : FieldTraits) :
    f.reportedName c ∈ f.readNames c := by
  unfold FieldTraits.reportedName FieldTraits.readNames
  cases f.readAlias? c with
  | none => exact List.mem_cons_self
  | some a =>
      dsimp only
      split <;> exact List.mem_cons_self

theorem mem_of_valueAt? {entries : List (Value × Value)} {name : String} {v : Value}
    (h : Value.valueAt? entries name = some v) :
    ∃ e ∈ entries, e.1.asText? = some name ∧ e.2 = v := by
  obtain ⟨e, he, rfl⟩ := Option.map_eq_some_iff.mp h
  have hname := List.find?_some he
  exact ⟨e, List.mem_of_find?_eq_some he, of_decide_eq_true hname, rfl⟩

theorem tells_fieldOutcome {c : Config} {f : FieldCheck} (hf : f.Tells acc c) (whole : Value)
    {entries : List (Value × Value)} (h : ∀ e ∈ entries, e.2.KeepsTo acc) :
    Outcome.Tells acc (f.outcome c whole entries) := by
  unfold FieldCheck.outcome
  split
  · rename_i name hgiven
    have hname := hf.names name (List.mem_of_find?_eq_some hgiven)
    refine tells_under (acc.step hname) (hf.run ?_)
    cases hv : Value.valueAt? entries name with
    | none => exact trivial
    | some v =>
        obtain ⟨e, he, _, rfl⟩ := mem_of_valueAt? hv
        exact h e he
  · split
    · exact tells_pass _ _
    · exact tells_under (acc.step (hf.names _ (reportedName_mem_readNames c _))) (tells_fixed rfl whole)

theorem tells_extraOutcome (c : Config) {e : Value × Value}
    (h : acc.Step (keyStep e.1).text) : Outcome.Tells acc (extraOutcome c e) := by
  refine tells_under h ?_
  split
  · exact tells_fixed rfl _
  · exact tells_fixed rfl _
  · exact tells_pass _ _

theorem mem_of_mem_keptEntries {c : Config} {fields : List FieldCheck}
    {entries : List (Value × Value)} {e : Value × Value} (h : e ∈ keptEntries c fields entries) :
    e ∈ entries := by
  unfold keptEntries at h
  split at h
  · exact absurd h List.not_mem_nil
  · exact (List.mem_filter.mp h).1

/-- A mapping is refused in terms of its values, and of its keys where they are not ignored. -/
theorem tells_runEntries {name : String} {c : Config} {fields : List FieldCheck}
    (hfields : ∀ f ∈ fields, f.Tells acc c) (whole : Value) {entries : List (Value × Value)}
    (hvalues : ∀ e ∈ entries, e.2.KeepsTo acc)
    (hkept : ∀ e ∈ keptEntries c fields entries, acc.Step (keyStep e.1).text) :
    Outcome.Tells acc (runEntries name c fields whole entries) := by
  refine tells_map _ (tells_gather ?_)
  intro r hr
  rcases List.mem_append.mp hr with hr | hr
  · obtain ⟨f, hf, rfl⟩ := List.mem_map.mp hr
    exact tells_fieldOutcome (hfields f hf) whole hvalues
  · obtain ⟨e, he, rfl⟩ := List.mem_map.mp hr
    exact tells_extraOutcome c (hkept e he)

theorem tells_record {name : String} {c : Config} {fields : List FieldCheck} (hname : acc.Has name)
    (hfields : ∀ f ∈ fields, f.Tells acc c) (s : Setting) : (record name c fields s).Tells acc := by
  refine tells_ofOwn (fun _ => hname) ?_
  intro ls _ v hv
  unfold runRecord
  split
  · rename_i entries
    have keeps := Value.keepEntries_iff.mp (show Value.KeepEntries acc entries from hv)
    exact tells_runEntries hfields _ (fun e he => (keeps e he).2.2)
      fun e he => (keeps e (mem_of_mem_keptEntries he)).1
  · split
    · exact tells_pass _ _
    · exact tells_wording rfl hname _
  · exact tells_wording rfl hname _

/-- A choice that is not settled has an alternative left to ask, or has been refused by one. -/
theorem tells_runAlternatives {v : Value} (hv : v.KeepsTo acc) {options : List Check}
    (h : ∀ o ∈ options, o.Tells acc) (best : Option Checked) {faults : List Fault}
    (hf : ∀ f ∈ faults, f.KeepsTo acc) (hne : options ≠ [] ∨ best.isSome ∨ faults ≠ []) :
    Outcome.Tells acc (runAlternatives v best faults options) := by
  induction options generalizing best faults with
  | nil =>
      simp only [runAlternatives]
      split
      · exact tells_ok _
      · refine tells_faults ?_ hf
        exact hne.elim (absurd rfl) fun h => h.elim (fun h => nomatch h) id
  | cons o rest ih =>
      have ho := h o List.mem_cons_self
      have hstep : acc.Step (Step.key (o.label [])).text := acc.step (ho.label Limit.Keep.nil)
      have told := tells_under hstep (ho.run Limit.Keep.nil hv)
      have ih := fun best {faults} =>
        @ih (fun p hp => h p (List.mem_cons_of_mem _ hp)) best faults
      simp only [runAlternatives]
      split
      · exact tells_misfit _
      · rename_i fs heq
        obtain ⟨hfsne, hfs⟩ := told fs heq
        exact ih best (fun f hf' => (List.mem_append.mp hf').elim (hf f) (hfs f))
          (Or.inr (Or.inr (List.append_ne_nil_of_right_ne_nil _ hfsne)))
      · split
        · exact tells_ok _
        · exact ih _ hf (Or.inr (Or.inl rfl))

theorem tells_alternatives {options : List Check} (hne : options ≠ [])
    (h : ∀ o ∈ options, o.Tells acc) (s : Setting) : (alternatives options s).Tells acc := by
  refine tells_ofOwn ?_ ?_
  · intro _
    exact acc.within rfl rfl (acc.joined rfl fun o ho => (h o ho).label Limit.Keep.nil)
  · intro ls _ v hv
    exact tells_runAlternatives hv h Option.none (fun _ hf => absurd hf List.not_mem_nil)
      (Or.inl hne)

end Check

end WebForm
