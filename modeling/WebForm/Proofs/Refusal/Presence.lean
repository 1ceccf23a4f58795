/-
No check says of the value that it is given that it is missing.

What is missing is always a part: a place of a tuple or a field of a record, one step or more
below the value.  So if a report says that something is missing, it says so of a field that
was not given, or of something inside a value that was; and one can tell which by the length
of the path.  This is stated of all types,

    (t.reading s).IsInner

and of a single field as `Field.isInner_checkIn`, whatever value the field is given.

All parts of a whole stand under a step, and a step makes a path longer (`isInner_under`).
Nothing has to be known about the parts, therefore, and no induction through collections,
mappings and records is needed.  What is left are the causes that a check names itself, of
which there are many and none is that something is missing, and the types that are read as
other types, without a step: choices of one alternative and limited types.  For these the
proof goes by recursion.

A choice between several is different, as it reports its alternatives under their names, one
step down.  A fault that one alternative has for the whole value is then a fault for a part.
It makes no difference here, since the alternatives do not say that the value is missing,
either.
-/
import WebForm.Proofs.Refusal.Type

namespace WebForm

/-- What is wrong is that the value is missing. -/
def Cause.isMissing : Cause → Bool
  | .missing => true
  | _ => false

/-- The fault is not that the whole value is missing. -/
def Fault.IsInner (f : Fault) : Prop := f.path = [] → f.cause.isMissing = false

namespace Outcome

variable {α β : Type}

/-- No fault is that the whole value is missing. -/
def IsInner (r : Except Rejection α) : Prop := ∀ f ∈ faults r, f.IsInner

theorem isInner_ok (a : α) : IsInner (.ok a : Except Rejection α) :=
  fun _ h => absurd h List.not_mem_nil

theorem isInner_misfit (m : Misfit) : IsInner (.error (.misfit m) : Except Rejection α) :=
  fun _ h => absurd h List.not_mem_nil

theorem isInner_fault {cause : Cause} (h : cause.isMissing = false) (v : Value) :
    IsInner (fault cause v : Except Rejection α) := by
  intro f hf _
  rw [List.mem_singleton.mp hf]
  exact h

/-- Parts stand one step below the whole. -/
theorem isInner_under (step : Step) (r : Except Rejection α) : IsInner (under step r) := by
  intro f hf hpath
  rw [faults_under] at hf
  obtain ⟨g, _, rfl⟩ := List.mem_map.mp hf
  exact absurd hpath (List.cons_ne_nil _ _)

theorem isInner_map (f : α → β) {r : Except Rejection α} (h : IsInner r) : IsInner (r.map f) := by
  unfold IsInner
  rw [faults_map]
  exact h

theorem isInner_bind {r : Except Rejection α} {f : α → Except Rejection β} (h : IsInner r)
    (hf : ∀ a, IsInner (f a)) : IsInner (r.bind f) := by
  match r, h with
  | .ok a, _ => exact hf a
  | .error (.misfit m), _ => exact isInner_misfit m
  | .error (.faults fs), h => exact h

theorem isInner_gather {rs : List (Except Rejection α)} (h : ∀ r ∈ rs, IsInner r) :
    IsInner (gather rs) := by
  by_cases hmisfit : IsMisfit (gather rs)
  · obtain ⟨m, hm⟩ := hmisfit
    rw [hm]
    exact isInner_misfit m
  · unfold IsInner
    rw [faults_gather hmisfit]
    intro f hf
    obtain ⟨r, hr, hf⟩ := List.mem_flatMap.mp hf
    exact h r hr f hf

end Outcome

namespace Check

open Outcome

variable {cause : Cause}

/-! ## Added limits -/

theorem isMissing_of_textCause? {ls : List Limit} {t : String} (h : textCause? ls t = some cause) :
    cause.isMissing = false := by
  simp only [textCause?, Option.orElse_eq_orElse, Option.orElse_eq_or, Option.or_eq_some_iff,
    Option.bind_eq_some_iff] at h
  rcases h with ⟨n, _, hn⟩ | ⟨_, ⟨n, _, hn⟩ | ⟨_, p, _, hn⟩⟩ <;> split at hn <;> cases hn <;> rfl

theorem isInner_runText (s : Setting) (ls : List Limit) (v : Value) :
    Outcome.IsInner (runText s ls v) := by
  unfold runText
  split
  · rename_i cause h
    rw [cause_of_readText h]
    exact isInner_fault rfl v
  · dsimp only
    split
    · rename_i cause h
      exact isInner_fault (isMissing_of_textCause? h) v
    · exact isInner_ok _

theorem isMissing_of_boundCause? {v : Value} {l : Limit} (h : l.boundCause? v = some (some cause)) :
    cause.isMissing = false := by
  cases l with
  | above b | atLeast b | below b | atMost b =>
      obtain ⟨kept, _, hk⟩ := Option.map_eq_some_iff.mp h
      split at hk <;> cases hk
      rfl
  | multipleOf b =>
      simp only [Limit.boundCause?] at h
      split at h
      · split at h <;> cases h
        rfl
      · cases h
  | strict | minLength | maxLength | pattern => cases h

theorem isMissing_of_lengthCause? {n : Nat} {l : Limit} (h : l.lengthCause? n = some cause) :
    cause.isMissing = false := by
  cases l with
  | minLength _ | maxLength _ =>
      simp only [Limit.lengthCause?] at h
      split at h <;> cases h
      rfl
  | strict | above | atLeast | below | atMost | multipleOf | pattern => cases h

theorem isInner_apply (s : Setting) (sort : String) (input : Value) (l : Limit) (c : Checked) :
    Outcome.IsInner (Limit.apply s sort input l c) := by
  unfold Limit.apply
  split
  · exact isInner_ok c
  · split
    · exact isInner_misfit _
    · split
      · rename_i h
        exact isInner_fault (isMissing_of_lengthCause? h) input
      · exact isInner_ok c
  · split
    · exact isInner_misfit _
    · split
      · rename_i h
        exact isInner_fault (isMissing_of_lengthCause? h) input
      · exact isInner_ok c
  · rename_i p
    have inner := isInner_runText s [.pattern p] c.value
    split
    · exact isInner_ok _
    · rename_i fs h
      split
      · exact isInner_misfit _
      · rw [h] at inner
        exact inner
    · rename_i r _ h
      rw [h] at inner
      exact inner
  · split
    · exact isInner_misfit _
    · rename_i h
      exact isInner_fault (isMissing_of_boundCause? h) input
    · exact isInner_ok c

theorem isInner_applyAll (s : Setting) (input : Value) (ls : List Limit) (sort : String)
    (c : Checked) : Outcome.IsInner (Limit.applyAll s input sort ls c) := by
  induction ls generalizing sort c with
  | nil => exact isInner_ok c
  | cons l ls ih => exact isInner_bind (isInner_apply s sort input l c) fun c => ih _ c

/-- Of no value the check says that it is missing. -/
def IsInner (c : Check) : Prop := ∀ ls v, Outcome.IsInner (c.run ls v)

theorem isInner_ofOwn {s : Setting} {sort : String} {knows : Limit → Bool}
    {label : List Limit → String} {own : List Limit → Value → Outcome}
    (h : ∀ ls v, Outcome.IsInner (own ls v)) : (ofOwn s sort knows label own).IsInner :=
  fun _ v => isInner_bind (h _ v) fun c => isInner_applyAll s v _ _ c

theorem isInner_nullable {c : Check} (h : c.IsInner) : c.nullable.IsInner := by
  intro ls v
  simp only [nullable]
  split
  · exact isInner_ok _
  · exact h ls v

/-! ## Single values

Each reader is taken through its cases, and each of them names a cause of its own. -/

theorem isMissing_of_numericCause? {exact : Bool} {ls : List Limit} {q : Quantity}
    (h : Limit.numericCause? exact ls q = some cause) : cause.isMissing = false := by
  obtain ⟨l, _, hc⟩ := List.exists_of_findSome?_eq_some h
  cases l with
  | above b | atLeast b | below b | atMost b =>
      simp only [Limit.ownCause?] at hc
      split at hc
      · split at hc <;> cases hc
        rfl
      · cases hc
  | multipleOf b =>
      simp only [Limit.ownCause?] at hc
      split at hc
      · rename_i step _
        by_cases kept : (if exact then q.isMultiple step else q.isNearMultiple step) = true
        · rw [if_pos kept] at hc
          cases hc
        · rw [if_neg kept] at hc
          cases hc
          rfl
      · cases hc
  | strict | minLength | maxLength | pattern => cases hc

theorem isInner_text (s : Setting) : (text s).IsInner := isInner_ofOwn (isInner_runText s)

theorem isMissing_of_readInteger {strict : Bool} {v : Value} (h : readInteger strict v = .error cause) :
    cause.isMissing = false := by
  have ofText : ∀ {t : String}, integerOfText t = .error cause → cause.isMissing = false := by
    intro t ht
    unfold integerOfText at ht
    split at ht <;> cases ht <;> rfl
  have ofFloat : ∀ {x : Number.Binary64}, integerOfFloat x = .error cause →
      cause.isMissing = false := by
    intro x hx
    unfold integerOfFloat at hx
    split at hx
    · cases hx
      rfl
    · split at hx
      · cases hx
        rfl
      · split at hx <;> cases hx
        rfl
  unfold readInteger at h
  split at h
  · cases h
  · cases h
  · split at h
    · cases h
      rfl
    · split at h
      · cases h
      · exact ofText (error_of_map h)
      · exact ofText (error_of_map h)
      · exact ofFloat (error_of_map h)
      · cases h
      · cases h
        rfl

theorem isInner_integer (s : Setting) : (integer s).IsInner := by
  refine isInner_ofOwn fun ls v => ?_
  unfold runInteger
  split
  · rename_i h
    exact isInner_fault (isMissing_of_readInteger h) v
  · split
    · exact isInner_ok _
    · split
      · exact isInner_fault rfl _
      · split
        · rename_i h
          exact isInner_fault (isMissing_of_numericCause? h) v
        · exact isInner_ok _

theorem isMissing_of_readFloat {strict : Bool} {v : Value} (h : readFloat strict v = .error cause) :
    cause.isMissing = false := by
  unfold readFloat at h
  split at h
  · cases h
  · split at h <;> cases h
    rfl
  · split at h <;> cases h
    rfl
  · split at h
    · cases h
      rfl
    · split at h
      · cases h
      · split at h <;> cases h
        rfl
      · split at h <;> cases h
        rfl
      · cases h
        rfl

theorem isInner_float (s : Setting) : (float s).IsInner := by
  refine isInner_ofOwn fun ls v => ?_
  unfold runFloat
  split
  · rename_i h
    exact isInner_fault (isMissing_of_readFloat h) v
  · split
    · rename_i h
      obtain ⟨q, _, hq⟩ := Option.bind_eq_some_iff.mp h
      exact isInner_fault (isMissing_of_numericCause? hq) v
    · exact isInner_ok _

theorem isMissing_of_readFlag {strict : Bool} {v : Value} (h : readFlag strict v = .error cause) :
    cause.isMissing = false := by
  have ofText : ∀ {t : String}, flagOfText t = .error cause → cause.isMissing = false := by
    intro t ht
    unfold flagOfText at ht
    split at ht
    · cases ht
    · split at ht <;> cases ht
      rfl
  have ofInteger : ∀ {i : Int}, flagOfInteger i = .error cause → cause.isMissing = false := by
    intro i hi
    unfold flagOfInteger at hi
    split at hi
    · cases hi
    · split at hi
      · cases hi
      · split at hi <;> cases hi <;> rfl
  have ofFloat : ∀ {x : Number.Binary64}, flagOfFloat x = .error cause →
      cause.isMissing = false := by
    intro x hx
    unfold flagOfFloat at hx
    split at hx
    · exact ofInteger hx
    · cases hx
      rfl
  unfold readFlag at h
  split at h
  · cases h
  · split at h
    · cases h
      rfl
    · split at h
      · exact ofText (error_of_map h)
      · exact ofText (error_of_map h)
      · exact ofInteger (error_of_map h)
      · exact ofInteger (error_of_map h)
      · exact ofFloat (error_of_map h)
      · cases h
        rfl

theorem isInner_flag (s : Setting) : (flag s).IsInner := by
  refine isInner_ofOwn fun ls v => ?_
  unfold runFlag
  split
  · rename_i h
    exact isInner_fault (isMissing_of_readFlag h) v
  · exact isInner_ok _

theorem isMissing_of_readDate {strict : Bool} {v : Value} (h : readDate strict v = .error cause) :
    cause.isMissing = false := by
  have ofMoment : ∀ {m : Except MomentFault Moment}, dateOfMoment m = .error cause →
      cause.isMissing = false := by
    intro m hm
    unfold dateOfMoment at hm
    split at hm
    · cases hm
      rfl
    · split at hm <;> cases hm
      rfl
  have ofText : ∀ {t : String}, dateOfText t = .error cause → cause.isMissing = false := by
    intro t ht
    unfold dateOfText at ht
    dsimp only at ht
    split at ht
    · cases ht
    · exact ofMoment ht
    · exact ofMoment ht
    · cases ht
      rfl
  unfold readDate at h
  split at h
  · cases h
  · split at h
    · cases h
      rfl
    · split at h
      · exact ofText (error_of_map h)
      · exact ofText (error_of_map h)
      · split at h
        · cases h
          rfl
        · exact ofMoment (error_of_map h)
      · split at h
        · cases h
          rfl
        · exact ofMoment (error_of_map h)
      · exact ofMoment (error_of_map h)
      · cases h
        rfl

theorem isInner_date (s : Setting) : (date s).IsInner := by
  refine isInner_ofOwn fun ls v => ?_
  unfold runDate
  split
  · rename_i h
    exact isInner_fault (isMissing_of_readDate h) v
  · split
    · rename_i h
      exact isInner_fault (isMissing_of_numericCause? h) v
    · split
      · exact isInner_fault rfl v
      · exact isInner_ok _

theorem isInner_any (s : Setting) : (any s).IsInner := isInner_ofOwn fun _ _ => isInner_ok _

theorem isInner_none (s : Setting) : (Check.none s).IsInner := by
  refine isInner_ofOwn fun _ v => ?_
  split
  · exact isInner_ok _
  · exact isInner_fault rfl _

/-! ## Choices that are looked up -/

theorem isInner_lookupInteger (choices : Choices) (v : Value) :
    Outcome.IsInner (choices.integer? v) := by
  unfold Choices.integer?
  split
  · exact isInner_ok _
  · split
    · split
      · exact isInner_ok _
      · exact isInner_fault rfl v
    · exact isInner_fault rfl v

theorem isInner_lookup (choices : Choices) (v : Value) : Outcome.IsInner (choices.lookup? v) := by
  unfold Choices.lookup?
  refine isInner_map _ ?_
  unfold Choices.alike?
  split
  · exact isInner_ok _
  · exact isInner_ok _
  · exact isInner_lookupInteger choices _
  · exact isInner_ok _

theorem isInner_literal (values : List Value) (s : Setting) : (literal values s).IsInner := by
  refine isInner_ofOwn fun _ v => isInner_bind (isInner_lookup _ v) fun found => ?_
  split
  · exact isInner_ok _
  · exact isInner_fault rfl v

theorem isInner_lookupOption (e : Enumeration) (v : Value) :
    Outcome.IsInner (lookupOption? e v) := by
  unfold lookupOption?
  dsimp only
  split
  · split <;> exact isInner_ok _
  · split
    · exact isInner_lookupInteger _ _
    · exact isInner_ok _
  · refine isInner_bind (isInner_lookup _ v) fun found => ?_
    split
    · exact isInner_ok _
    · split
      · exact isInner_lookupInteger _ _
      · exact isInner_ok _

theorem isInner_option (e : Enumeration) (s : Setting) : (Check.option e s).IsInner := by
  refine isInner_ofOwn fun ls v => ?_
  unfold runOption
  split
  · exact isInner_ok _
  · split
    · exact isInner_fault rfl v
    · refine isInner_bind (isInner_lookupOption e v) fun found => ?_
      dsimp only
      split
      · exact isInner_ok _
      · exact isInner_fault rfl v

/-! ## Collections

The items have an index each.  The causes of the whole are those of a value that is no
collection and of one with too few or too many items. -/

theorem isMissing_of_readItems {strict : Bool} {kind : Counted} {v : Value}
    (h : readItems strict kind v = .error cause) : cause.isMissing = false := by
  unfold readItems at h
  split at h
  · cases h
  · split at h
    · cases h
      rfl
    · split at h <;> cases h
      rfl

theorem isInner_keepLeast (kind : Counted) (ls : List Limit) (whole : Value) (c : Checked) :
    Outcome.IsInner (keepLeast kind ls whole c) := by
  unfold keepLeast
  split
  · split
    · exact isInner_fault rfl whole
    · exact isInner_ok c
  · exact isInner_ok c

theorem isInner_of_mem_outcomesAt {check : Value → Outcome} {items : List Value} {first : Nat}
    {r : Outcome} (h : r ∈ outcomesAt check first items) : Outcome.IsInner r := by
  induction items generalizing first with
  | nil => exact absurd h List.not_mem_nil
  | cons v vs ih =>
      rcases List.mem_cons.mp h with rfl | h
      · exact isInner_under _ _
      · exact ih h

theorem isInner_runItems (check : Value → Outcome) (most : Option Nat) (whole : Value)
    (items : List Value) : Outcome.IsInner (runItems check most whole items) := by
  have all : Outcome.IsInner (gather (outcomesAt check 0 items)) :=
    isInner_gather fun r hr => isInner_of_mem_outcomesAt hr
  unfold runItems
  split
  · exact all
  · split
    · exact all
    · split
      · exact isInner_misfit _
      · exact isInner_fault rfl whole

theorem isInner_rest {faults : List Fault} (h : ∀ f ∈ faults, f.IsInner) (passed : List Checked) :
    Outcome.IsInner (if faults.isEmpty then .ok passed else .error (.faults faults)) := by
  split
  · exact isInner_ok _
  · exact h

theorem isInner_runPlaces {b : TupleBounds} {whole : Value} {rs : List Outcome}
    (h : ∀ r ∈ rs, Outcome.IsInner r) (passed : List Checked) {faults : List Fault}
    (hf : ∀ f ∈ faults, f.IsInner) : Outcome.IsInner (runPlaces b whole passed faults rs) := by
  induction rs generalizing passed faults with
  | nil =>
      simp only [runPlaces]
      split
      · exact isInner_fault rfl whole
      · exact isInner_rest hf _
  | cons r rest ih =>
      have hr := h r List.mem_cons_self
      have ih := fun passed {faults} => @ih (fun q hq => h q (List.mem_cons_of_mem _ hq)) passed faults
      cases r with
      | error rejection =>
          cases rejection with
          | misfit m => exact isInner_misfit m
          | faults fs => exact ih passed fun f hf' => (List.mem_append.mp hf').elim (hf f) (hr f)
      | ok c =>
          simp only [runPlaces]
          split
          · split
            · exact isInner_fault rfl whole
            · exact ih _ hf
          · exact ih _ hf

theorem isInner_runMembers {kind : Counted} {check : Value → Outcome} {most : Option Nat}
    {whole : Value} {items : List Value} (passed : List Checked) {faults : List Fault}
    (hf : ∀ f ∈ faults, f.IsInner) (first : Nat) :
    Outcome.IsInner (runMembers kind check most whole passed faults first items) := by
  induction items generalizing passed faults first with
  | nil => exact isInner_rest hf _
  | cons v vs ih =>
      have inner := isInner_under (.index first) (check v)
      simp only [runMembers]
      split
      · exact isInner_misfit _
      · rename_i fs heq
        rw [heq] at inner
        exact ih passed (fun f hf' => (List.mem_append.mp hf').elim (hf f) (inner f)) _
      · split
        · refine ih passed (fun f hf' => (List.mem_append.mp hf').elim (hf f) fun hnew => ?_) _
          rw [List.mem_singleton.mp hnew]
          exact fun hnil => absurd hnil (List.cons_ne_nil _ _)
        · split
          · split
            · exact isInner_fault rfl whole
            · exact ih _ hf _
          · exact ih _ hf _

theorem isInner_collection (kind : Counted) (item : Check) (s : Setting) :
    (collection kind item s).IsInner := by
  refine isInner_ofOwn fun ls v => ?_
  unfold runCollection
  split
  · rename_i h
    exact isInner_fault (isMissing_of_readItems h) v
  · rename_i items e _
    refine isInner_bind ?_ fun cs => isInner_keepLeast kind ls v _
    have none : ∀ f ∈ ([] : List Fault), f.IsInner := fun _ hf => absurd hf List.not_mem_nil
    split
    · exact isInner_runMembers [] none 0
    · exact isInner_runMembers [] none 0
    · exact isInner_runPlaces (fun r hr => isInner_of_mem_outcomesAt hr) [] none
    · exact isInner_runItems _ _ v items

theorem isInner_freeList (s : Setting) : (freeList s).IsInner := by
  refine isInner_ofOwn fun ls v => ?_
  unfold runFreeList
  split
  · rename_i h
    exact isInner_fault (isMissing_of_readItems h) v
  · split
    · split
      · exact isInner_fault rfl v
      · exact isInner_keepLeast .list ls v _
    · exact isInner_keepLeast .list ls v _

theorem isInner_sequence (item : Check) (s : Setting) : (sequence item s).IsInner := by
  refine isInner_ofOwn fun _ v => ?_
  have parts : ∀ items : List Value,
      Outcome.IsInner (gather (outcomesAt (item.run []) 0 items)) :=
    fun items => isInner_gather fun r hr => isInner_of_mem_outcomesAt hr
  unfold runSequence
  dsimp only
  split
  · exact isInner_map _ (parts _)
  · exact isInner_map _ (parts _)
  · exact isInner_fault rfl _
  · exact isInner_fault rfl _
  · exact isInner_fault rfl _

theorem isInner_freeSequence (s : Setting) : (freeSequence s).IsInner := by
  refine isInner_ofOwn fun _ v => ?_
  unfold runFreeSequence
  split <;> first | exact isInner_ok _ | exact isInner_fault rfl _

theorem isInner_of_mem_outcomesOf {whole : Value} {checks : List Check} {items : List Value}
    {first : Nat} {r : Outcome} (h : r ∈ outcomesOf whole first checks items) :
    Outcome.IsInner r := by
  induction checks generalizing items first with
  | nil => exact absurd h List.not_mem_nil
  | cons c cs ih =>
      cases items with
      | nil | cons =>
          rcases List.mem_cons.mp h with rfl | h
          · exact isInner_under _ _
          · exact ih h

theorem isInner_positions (checks : List Check) (s : Setting) : (positions checks s).IsInner := by
  refine isInner_ofOwn fun ls v => ?_
  unfold runPositions
  split
  · rename_i h
    exact isInner_fault (isMissing_of_readItems h) v
  · refine isInner_bind ?_ fun cs => isInner_keepLeast .tuple ls v _
    exact isInner_runPlaces (fun r hr => isInner_of_mem_outcomesOf hr) []
      fun _ hf => absurd hf List.not_mem_nil

/-! ## Mappings, records and choices -/

theorem isInner_keepCount (ls : List Limit) (whole : Value) (c : Checked) :
    Outcome.IsInner (keepCount ls whole c) := by
  have keepMost : ∀ most count, Outcome.IsInner (keepCount.keepMost whole c most count) := by
    intro most count
    unfold keepCount.keepMost
    split
    · split
      · exact isInner_fault rfl whole
      · exact isInner_ok c
    · exact isInner_ok c
  unfold keepCount
  dsimp only
  split
  · split
    · exact isInner_fault rfl whole
    · exact keepMost _ _
  · exact keepMost _ _

theorem isInner_dict (key value : Check) (s : Setting) : (dict key value s).IsInner := by
  refine isInner_ofOwn fun ls v => ?_
  unfold runDict
  split
  · refine isInner_bind (isInner_gather ?_) fun parts => isInner_keepCount ls _ _
    intro r hr
    obtain ⟨entry, _, hr⟩ := List.mem_flatMap.mp hr
    simp only [entryOutcome, List.mem_cons, List.not_mem_nil, or_false] at hr
    rcases hr with rfl | rfl <;> exact isInner_map _ (isInner_under _ _)
  · exact isInner_fault rfl _

theorem isInner_record (name : String) (c : Config) (fields : List FieldCheck) (s : Setting) :
    (record name c fields s).IsInner := by
  refine isInner_ofOwn fun _ v => ?_
  unfold runRecord
  split
  · refine isInner_map _ (isInner_gather fun r hr => ?_)
    rcases List.mem_append.mp hr with hr | hr
    · obtain ⟨f, _, rfl⟩ := List.mem_map.mp hr
      unfold FieldCheck.outcome
      split
      · exact isInner_under _ _
      · split
        · exact isInner_ok _
        · exact isInner_under _ _
    · obtain ⟨e, _, rfl⟩ := List.mem_map.mp hr
      exact isInner_under _ _
  · split
    · exact isInner_ok _
    · exact isInner_fault rfl _
  · exact isInner_fault rfl _

theorem isInner_runAlternatives {v : Value} {options : List Check} (best : Option Checked)
    {faults : List Fault} (hf : ∀ f ∈ faults, f.IsInner) :
    Outcome.IsInner (runAlternatives v best faults options) := by
  induction options generalizing best faults with
  | nil =>
      simp only [runAlternatives]
      split
      · exact isInner_ok _
      · exact hf
  | cons o rest ih =>
      have inner := isInner_under (.key (o.label [])) (o.run [] v)
      simp only [runAlternatives]
      split
      · exact isInner_misfit _
      · rename_i fs heq
        rw [heq] at inner
        exact ih best fun f hf' => (List.mem_append.mp hf').elim (hf f) (inner f)
      · split
        · exact isInner_ok _
        · exact ih _ hf

theorem isInner_alternatives (options : List Check) (s : Setting) :
    (alternatives options s).IsInner :=
  isInner_ofOwn fun _ _ => isInner_runAlternatives Option.none fun _ hf => absurd hf List.not_mem_nil

end Check

/-! ## Types -/

namespace Reading

/-- Neither the reading nor one of its alternatives says of a value that it is missing. -/
structure IsInner (r : Reading) : Prop where
  core : r.core.IsInner
  options : ∀ o ∈ r.options, o.2.IsInner

theorem isInner_alone (t : Ty) {c : Check} (h : c.IsInner) : (alone t c).IsInner where
  core := h
  options := List.forall_mem_singleton.mpr h

theorem isInner_among {options : List (Ty × Check)} (h : ∀ o ∈ options, o.2.IsInner)
    (nullable : Bool) (s : Setting) : (among options nullable s).IsInner := by
  have hdistinct : ∀ o ∈ distinctOptions options, o.2.IsInner := fun o ho =>
    h o (mem_of_mem_distinctOptions ho)
  refine ⟨?_, hdistinct⟩
  unfold among
  dsimp only
  split
  · exact Check.isInner_none s
  · rename_i only heq
    have honly := hdistinct only (heq ▸ List.mem_cons_self)
    split
    · exact Check.isInner_nullable honly
    · exact honly
  · split
    · exact Check.isInner_nullable (Check.isInner_alternatives _ s)
    · exact Check.isInner_alternatives _ s

end Reading

namespace Ty

mutual

theorem isInner : ∀ (t : Ty) (s : Setting), (t.reading s).IsInner
  | .any, s => Reading.isInner_alone _ (Check.isInner_any s)
  | .none, s => ⟨Check.isInner_none s, fun _ h => absurd h List.not_mem_nil⟩
  | .str, s => Reading.isInner_alone _ (Check.isInner_text s)
  | .int, s => Reading.isInner_alone _ (Check.isInner_integer s)
  | .float, s => Reading.isInner_alone _ (Check.isInner_float s)
  | .bool, s => Reading.isInner_alone _ (Check.isInner_flag s)
  | .date, s => Reading.isInner_alone _ (Check.isInner_date s)
  | .bare c, s => by
      cases c with
      | tuple => exact Reading.isInner_alone _ (Check.isInner_collection _ _ s)
      | dict => exact Reading.isInner_alone _ (Check.isInner_dict _ _ s)
      | list | genericList => exact Reading.isInner_alone _ (Check.isInner_freeList s)
  | .many c t, s => by
      cases c with
      | sequence =>
          by_cases hany : t = .any
          · subst hany
            exact Reading.isInner_alone _ (Check.isInner_freeSequence s)
          · rw [reading]
            · exact Reading.isInner_alone _ (Check.isInner_sequence _ s)
            · exact hany
      | list =>
          simp only [reading]
          refine Reading.isInner_alone _ ?_
          split
          · exact Check.isInner_freeList s
          · exact Check.isInner_collection _ _ s
      | set | frozenset | tuple => exact Reading.isInner_alone _ (Check.isInner_collection _ _ s)
  | .positions _, s => Reading.isInner_alone _ (Check.isInner_positions _ s)
  | .dict _ _, s => Reading.isInner_alone _ (Check.isInner_dict _ _ s)
  | .optional t, s => Reading.isInner_among (isInner t s).options true s
  | .choice _ ts, s => Reading.isInner_among (isInner_allOptions ts s) _ s
  | .literal values, s => Reading.isInner_alone _ (Check.isInner_literal values s)
  | .enumeration e, s => Reading.isInner_alone _ (Check.isInner_option e s)
  | .limited t l, s => by
      have inner := (isInner t s).core
      refine ⟨inner, List.forall_mem_singleton.mpr fun ls v => inner _ v⟩
  | .record ⟨_, _, _⟩, s => Reading.isInner_alone _ (Check.isInner_record _ _ _ s)

theorem isInner_allOptions : ∀ (ts : List Ty) (s : Setting), ∀ o ∈ allOptions ts s, o.2.IsInner
  | [], _ => fun _ h => absurd h List.not_mem_nil
  | t :: ts, s => List.forall_mem_append.mpr ⟨(isInner t s).options, isInner_allOptions ts s⟩

end

end Ty

/-- The check of a field does not say that the field's value is missing. -/
theorem Field.isInner_checkIn (f : Field) (strict? : Option Bool) (c : Config) (v : Value) :
    Outcome.IsInner (f.checkIn strict? c v) :=
  (Ty.isInner f.type { strict?, config := c }).core _ v

end WebForm
