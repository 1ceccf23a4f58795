/-
What a check has passed, checked again: collections.

A collection is read as items, the items are checked, and a collection is made of what passed.
Written out and checked again it goes the same way: it is a collection of the kind that is
asked for, so that it is read however strictly; its items pass again; and there are as many of
them as before, so that the limits on their number are kept.

    Settles g suits a b → Settles ⟨g.firm, isLength⟩ (SuitItems suits) (collection kind a s) …

A collection is firm if the check of its items is.  For sets that is a hypothesis, and not
only a conclusion: the items of a set are compared when the set is made, and if they changed
in being written out, two of them could become one and the set be too small
(`settles_collection`).

A list of anything, and a sequence, are never firm.  The first takes items as they are, and an
item may be written out as something else.  The second gives back the sequence that it was
given, of whatever kind.

A tuple with a type for each position has a check for each place.  What is said of it is said
of three lists at once, the places' two checks and what suits them (`PlacesSettle`), and a
place that is not filled is a fault of its own.
-/
import WebForm.Proofs.Rechecking.Parts

namespace WebForm

namespace Check

open Outcome

variable {g : Grip} {suits : Value → Prop} {a b : Check} {s s' : Setting}

/-! ## The length of what came out -/

theorem keepLeast_eq_ok {kind : Counted} {ls : List Limit} {whole : Value} {c c' : Checked}
    (h : keepLeast kind ls whole c = .ok c') : c' = c := by
  unfold keepLeast at h
  split at h
  · split at h
    · cases h
    · exact (Except.ok.inj h).symm
  · exact (Except.ok.inj h).symm

theorem keepLeast_again {kind : Counted} {ls : List Limit} {whole : Value} {c r : Checked}
    (h : keepLeast kind ls whole c = .ok r) {c' : Checked}
    (hlength : c'.value.length? = c.value.length?) (whole' : Value) :
    keepLeast kind ls whole' c' = .ok c' := by
  unfold keepLeast at h ⊢
  rw [hlength]
  split at h
  · split at h
    · cases h
    · rename_i hroom
      exact if_neg hroom
  · rfl

theorem not_isMisfit_keepLeast (kind : Counted) (ls : List Limit) (whole : Value) (c : Checked) :
    ¬IsMisfit (keepLeast kind ls whole c) := by
  unfold keepLeast
  split
  · split
    · exact not_isMisfit_fault _ whole
    · exact not_isMisfit_ok c
  · exact not_isMisfit_ok c

/-! ## Collections of a kind

Making a collection keeps the items of a list, and drops those of a set that are there before. -/

/-- A collection of a kind, with all the items. -/
def ofItems : Counted → List Value → Value
  | .tuple, ws => .tuple ws
  | .set, ws => .set ws
  | .frozenset, ws => .frozenset ws
  | _, ws => .list ws

/-- The items that a collection of a kind keeps. -/
def keptItems : Counted → List Value → List Value
  | .set, ws | .frozenset, ws => Value.distinct ws
  | _, ws => ws

/-- The collections that a type can be. -/
inductive IsCollection : Counted → Prop where
  | list : IsCollection .list
  | tuple : IsCollection .tuple
  | set : IsCollection .set
  | frozenset : IsCollection .frozenset

variable {kind : Counted}

theorem collect_eq (kind : Counted) (ws : List Value) :
    collect kind ws = ofItems kind (keptItems kind ws) := by
  cases kind <;> rfl

theorem keptItems_subset (kind : Counted) (ws : List Value) : ∀ w ∈ keptItems kind ws, w ∈ ws := by
  cases kind with
  | set | frozenset => exact Value.distinct_subset ws
  | list | tuple | dictionary | value => exact fun _ hw => hw

theorem keptItems_keptItems (kind : Counted) (ws : List Value) :
    keptItems kind (keptItems kind ws) = keptItems kind ws := by
  cases kind with
  | set | frozenset => exact Value.distinct_distinct ws
  | list | tuple | dictionary | value => rfl

theorem dump_ofItems (kind : Counted) (ws : List Value) :
    (ofItems kind ws).dump = ofItems kind (ws.map Value.dump) := by
  cases kind <;> simp [ofItems]

theorem length?_ofItems (kind : Counted) (ws : List Value) :
    (ofItems kind ws).length? = some ws.length := by
  cases kind <;> rfl

theorem IsCollection.readItems (h : IsCollection kind) (strict : Bool) (ws : List Value) :
    readItems strict kind (ofItems kind ws) = .ok (ws, .exact) := by
  cases h <;> rfl

theorem items?_of_readItems {strict : Bool} {v : Value} {items : List Value} {e : Exactness}
    (h : readItems strict kind v = .ok (items, e)) : items? v = some items ∨ items = [] := by
  unfold Check.readItems at h
  split at h
  · cases h
    cases items? v with
    | none => exact Or.inr rfl
    | some items => exact Or.inl rfl
  · split at h
    · cases h
    · split at h
      · rename_i hitems
        cases h
        exact Or.inl hitems
      · cases h

/-- The items of a collection in order, as a collection of its kind takes them. -/
def runParts (kind : Counted) (item : Check) (most : Option Nat) (whole : Value)
    (items : List Value) : Except Rejection (List Checked) :=
  match kind with
  | .set | .frozenset => runMembers kind (item.run []) most whole [] [] 0 items
  | .tuple => runPlaces ⟨most, Option.none⟩ whole [] [] (outcomesAt (item.run []) 0 items)
  | _ => runItems (item.run []) most whole items

theorem runCollection_eq_bind (item : Check) (s : Setting) (ls : List Limit) (v : Value) :
    runCollection kind item s ls v =
      match readItems (s.isStrict ls) kind v with
      | .error cause => fault cause v
      | .ok (items, e) => (runParts kind item (Limit.most? ls) v items).bind fun cs =>
          keepLeast kind ls v (.ofParts e cs (collect kind (cs.map (·.value)))) := by
  unfold runCollection
  cases readItems (s.isStrict ls) kind v with
  | error cause => rfl
  | ok r => cases kind <;> rfl

/-- When the items of a collection pass, each of them does, those of a set can be held by it, and
those that it keeps are not too many. -/
theorem runParts_eq_ok (ha : a.Accounts) {most : Option Nat} {whole : Value} {items : List Value}
    {cs : List Checked} (h : runParts kind a most whole items = .ok cs) :
    Passes (a.run []) items cs ∧
      (kind = .set ∨ kind = .frozenset → ∀ c ∈ cs, c.value.isHashable = true) ∧
      ∀ n, most = some n → (keptItems kind (cs.map (·.value))).length ≤ n := by
  have members : ∀ {cs : List Checked}, runMembers kind (a.run []) most whole [] [] 0 items = .ok cs →
      Passes (a.run []) items cs ∧ (∀ c ∈ cs, c.value.isHashable = true) ∧
        ∀ n, most = some n → (Value.distinct (cs.map (·.value))).length ≤ n := by
    intro cs h
    obtain ⟨cs, hcs, rfl, hhash, hmost⟩ := runMembers_eq_ok ha h
    refine ⟨hcs, hhash, fun n hn => ?_⟩
    cases cs with
    | nil => exact Nat.zero_le n
    | cons c cs => exact hmost n hn (List.cons_ne_nil _ _)
  have items' : ∀ {cs : List Checked}, runItems (a.run []) most whole items = .ok cs →
      Passes (a.run []) items cs ∧ ∀ n, most = some n → (cs.map (·.value)).length ≤ n := by
    intro cs h
    obtain ⟨hcs, hmost⟩ := runItems_eq_ok_iff.mp h
    refine ⟨hcs, fun n hn => ?_⟩
    rw [List.length_map, ← hcs.length_eq]
    exact hmost n hn
  cases kind with
  | set | frozenset =>
      obtain ⟨hcs, hhash, hmost⟩ := members h
      exact ⟨hcs, fun _ => hhash, hmost⟩
  | tuple =>
      obtain ⟨cs, hos, rfl, _, hmost⟩ := runPlaces_eq_ok (outcomesAt_ne_faults_nil ha items 0) h
      refine ⟨outcomesAt_eq_ok_iff.mp hos, fun hkind => (by simp at hkind), fun n hn => ?_⟩
      cases cs with
      | nil => exact Nat.zero_le n
      | cons c cs =>
          have := hmost n hn (List.cons_ne_nil _ _)
          simpa [keptItems] using this
  | list | dictionary | value =>
      obtain ⟨hcs, hmost⟩ := items' h
      exact ⟨hcs, fun hkind => (by simp at hkind), hmost⟩

theorem runParts_of_passes {most : Option Nat} {whole : Value} {items : List Value}
    {cs : List Checked} (h : Passes (a.run []) items cs)
    (hhash : kind = .set ∨ kind = .frozenset → ∀ c ∈ cs, c.value.isHashable = true)
    (hmost : ∀ n, most = some n → items.length ≤ n) :
    runParts kind a most whole items = .ok cs := by
  have hroom : ∀ n, most = some n → ([] : List Checked).length + cs.length ≤ n := by
    intro n hn
    rw [List.length_nil, Nat.zero_add, ← h.length_eq]
    exact hmost n hn
  cases kind with
  | set => exact runMembers_of_passes h (hhash (Or.inl rfl)) hroom
  | frozenset => exact runMembers_of_passes h (hhash (Or.inr rfl)) hroom
  | tuple =>
      unfold runParts
      rw [outcomesAt_eq_ok_iff.mpr h]
      exact runPlaces_of_ok rfl hroom
  | list | dictionary | value => exact runItems_eq_ok_iff.mpr ⟨h, hmost⟩

theorem not_isMisfit_runParts (h : ∀ v, ¬IsMisfit (a.run [] v)) (kind : Counted)
    (most : Option Nat) (whole : Value) (items : List Value) :
    ¬IsMisfit (runParts kind a most whole items) := by
  cases kind with
  | set | frozenset => exact not_isMisfit_runMembers h most whole [] [] 0 items
  | tuple => exact not_isMisfit_runPlaces (not_isMisfit_of_mem_outcomesAt h items 0) [] []
  | list | dictionary | value => exact not_isMisfit_runItems h most whole items

/-- The items suit their check. -/
def SuitItems (suits : Value → Prop) (v : Value) : Prop :=
  ∀ items, items? v = some items → ∀ i ∈ items, suits i

theorem settles_collection (ha : a.Accounts) (h : Settles g suits a b) (hkind : IsCollection kind)
    (hset : kind = .set ∨ kind = .frozenset → g.firm = true) :
    Settles ⟨g.firm, Limit.isLength⟩ (SuitItems suits) (collection kind a s)
      (collection kind b s') := by
  have fits : ∀ v, ¬IsMisfit (b.run [] v) := fun v => h.fits v Grip.bears_nil
  refine settles_ofOwn (fun _ h => h) (fun {ls v} _ hv => ?_) fun ls v => ?_
  · intro c hc
    rw [runCollection_eq_bind] at hc
    split at hc
    · cases hc
    · rename_i items e hread
      obtain ⟨cs, hcs, hleast⟩ := exists_of_bind_eq_ok hc
      obtain ⟨hpasses, hhash, hmost⟩ := runParts_eq_ok ha hcs
      have hsuits : ∀ i ∈ items, suits i := by
        rcases items?_of_readItems hread with hitems | rfl
        · exact hv items hitems
        · exact fun _ hi => absurd hi List.not_mem_nil
      have hagain := h.passAgain hsuits hpasses
      obtain rfl := keepLeast_eq_ok hleast
      rw [Checked.ofParts_value, collect_eq, dump_ofItems]
      -- what the collection keeps passes again, and is what it keeps then
      generalize hws : cs.map (·.value) = ws at hagain hmost hleast
      have hkept : PassAgain g.firm (b.run []) (keptItems kind ws) :=
        fun w hw => hagain w (keptItems_subset kind ws w hw)
      obtain ⟨cs', hcs', hfirm⟩ := hkept.exists_passes
      have hhash' : kind = .set ∨ kind = .frozenset → ∀ c ∈ cs', c.value.isHashable = true := by
        intro hk c hc
        have hmem : c.value ∈ ws := by
          refine keptItems_subset kind ws _ ?_
          rw [← (hfirm (hset hk)).2]
          exact List.mem_map.mpr ⟨c, hc, rfl⟩
        rw [← hws] at hmem
        obtain ⟨c₀, hc₀, heq⟩ := List.mem_map.mp hmem
        rw [← heq]
        exact hhash hk c₀ hc₀
      have hparts : runParts kind b (Limit.most? ls) (ofItems kind ((keptItems kind ws).map Value.dump))
          ((keptItems kind ws).map Value.dump) = .ok cs' := by
        refine runParts_of_passes hcs' hhash' fun n hn => ?_
        rw [List.length_map]
        exact hmost n hn
      have hcollected : (keptItems kind (cs'.map (·.value))).length = (keptItems kind ws).length := by
        have hcount : cs'.length = (keptItems kind ws).length := by
          rw [← hcs'.length_eq, List.length_map]
        cases kind with
        | set => rw [(hfirm (hset (Or.inl rfl))).2, keptItems_keptItems]
        | frozenset => rw [(hfirm (hset (Or.inr rfl))).2, keptItems_keptItems]
        | list | tuple | dictionary | value =>
            show (cs'.map (·.value)).length = _
            rw [List.length_map, hcount]
      refine ⟨.ofParts .exact cs' (collect kind (cs'.map (·.value))), ?_, fun hf => ?_⟩
      · rw [runCollection_eq_bind, hkind.readItems]
        dsimp only
        rw [hparts]
        refine keepLeast_again hleast ?_ _
        rw [Checked.ofParts_value, Checked.ofParts_value, collect_eq, collect_eq, length?_ofItems,
          length?_ofItems, hcollected]
      · rw [Checked.ofParts_value, collect_eq, (hfirm hf).1, (hfirm hf).2, keptItems_keptItems]
        exact ⟨rfl, rfl⟩
  · rw [runCollection_eq_bind]
    split
    · exact not_isMisfit_fault _ v
    · exact not_isMisfit_bind (not_isMisfit_runParts fits kind _ v _) fun cs =>
        not_isMisfit_keepLeast kind ls v _

/-! ## Lists and sequences of anything -/

theorem runFreeList_eq_ok {ls : List Limit} {v : Value} {c : Checked}
    (h : runFreeList s ls v = .ok c) : ∃ items, c.value = .list items ∧
      ∀ (s' : Setting) (items' : List Value), items'.length = items.length →
        ∃ c', runFreeList s' ls (.list items') = .ok c' ∧ c'.value = .list items' := by
  unfold runFreeList at h
  split at h
  · cases h
  · rename_i items e _
    have again : ∀ {e' : Exactness} {r : Checked},
        keepLeast .list ls v { value := .list items, exactness := e' } = .ok r →
        r.value = .list items ∧ ∀ items' : List Value, items'.length = items.length →
          keepLeast .list ls (.list items') { value := .list items', exactness := .exact }
            = .ok { value := .list items', exactness := .exact } := by
      intro e' r hr
      rw [keepLeast_eq_ok hr]
      refine ⟨rfl, fun items' hlength => keepLeast_again hr ?_ _⟩
      show some items'.length = some items.length
      rw [hlength]
    split at h
    · rename_i n hmost
      split at h
      · cases h
      · rename_i hroom
        obtain ⟨hvalue, hagain⟩ := again h
        refine ⟨items, hvalue, fun s' items' hlength =>
          ⟨{ value := .list items', exactness := .exact }, ?_, rfl⟩⟩
        unfold runFreeList
        simp only [readItems, isKind, if_true, items?, Option.getD_some, hmost]
        rw [hlength, if_neg hroom]
        exact hagain items' hlength
    · rename_i hmost
      obtain ⟨hvalue, hagain⟩ := again h
      refine ⟨items, hvalue, fun s' items' hlength =>
        ⟨{ value := .list items', exactness := .exact }, ?_, rfl⟩⟩
      unfold runFreeList
      simp only [readItems, isKind, if_true, items?, Option.getD_some, hmost]
      exact hagain items' hlength

theorem not_isMisfit_runFreeList (s : Setting) (ls : List Limit) (v : Value) :
    ¬IsMisfit (runFreeList s ls v) := by
  unfold runFreeList
  split
  · exact not_isMisfit_fault _ v
  · split
    · split
      · exact not_isMisfit_fault _ v
      · exact not_isMisfit_keepLeast _ _ v _
    · exact not_isMisfit_keepLeast _ _ v _

theorem settles_freeList : Settles ⟨false, Limit.isLength⟩ suits (freeList s) (freeList s') := by
  refine settles_ofOwn (fun _ h => h) (fun _ _ => ?_) (not_isMisfit_runFreeList s')
  intro c hc
  obtain ⟨items, hvalue, hagain⟩ := runFreeList_eq_ok hc
  obtain ⟨c', hc', _⟩ := hagain s' (items.map Value.dump) (List.length_map _)
  rw [hvalue, Value.dump_list]
  exact ⟨c', hc', fun h => nomatch h⟩

theorem settles_sequence (h : Settles g suits a b) :
    Settles ⟨false, Limit.isUnknown⟩ (SuitItems suits) (sequence a s) (sequence b s') := by
  -- the items of a list and of a tuple pass again in one way
  have again : ∀ {items : List Value} {cs : List Checked}, (∀ i ∈ items, suits i) →
      gather (outcomesAt (a.run []) 0 items) = .ok cs →
      ∃ cs', gather (outcomesAt (b.run []) 0 ((cs.map (·.value)).map Value.dump)) = .ok cs' := by
    intro items cs hsuits hcs
    obtain ⟨cs', hcs', _⟩ :=
      (h.passAgain hsuits (gather_outcomesAt_eq_ok_iff.mp hcs)).exists_passes
    exact ⟨cs', gather_outcomesAt_eq_ok_iff.mpr hcs'⟩
  refine settles_ofOwn (fun _ h => h) (fun {ls v} _ hv => ?_) fun ls v => ?_
  · intro c hc
    unfold runSequence at hc
    dsimp only at hc
    split at hc
    · obtain ⟨cs, hcs, rfl⟩ := exists_of_map_eq_ok hc
      obtain ⟨cs', hcs'⟩ := again (hv _ rfl) hcs
      rw [Checked.ofParts_value, Value.dump_list]
      simp only [runSequence, hcs']
      exact ⟨_, rfl, fun h => nomatch h⟩
    · obtain ⟨cs, hcs, rfl⟩ := exists_of_map_eq_ok hc
      obtain ⟨cs', hcs'⟩ := again (hv _ rfl) hcs
      rw [Checked.ofParts_value, Value.dump_tuple]
      simp only [runSequence, hcs']
      exact ⟨_, rfl, fun h => nomatch h⟩
    · cases hc
    · cases hc
    · cases hc
  · have fits : ∀ items, ¬IsMisfit (gather (outcomesAt (b.run []) 0 items)) := fun items =>
      not_isMisfit_gather (not_isMisfit_of_mem_outcomesAt (fun v => h.fits v Grip.bears_nil) items 0)
    unfold runSequence
    dsimp only
    split
    · rw [isMisfit_map_iff]
      exact fits _
    · rw [isMisfit_map_iff]
      exact fits _
    · exact not_isMisfit_fault _ _
    · exact not_isMisfit_fault _ _
    · exact not_isMisfit_fault _ _

theorem settles_freeSequence :
    Settles ⟨false, Limit.isUnknown⟩ suits (freeSequence s) (freeSequence s') := by
  refine settles_ofOwn (fun _ h => h) (fun _ _ => ?_) fun _ v => ?_
  · intro c hc
    unfold runFreeSequence at hc
    split at hc
    · cases hc
      simp only [Value.dump_list]
      exact ⟨_, rfl, fun h => nomatch h⟩
    · cases hc
      simp only [Value.dump_tuple]
      exact ⟨_, rfl, fun h => nomatch h⟩
    · cases hc
      exact ⟨_, rfl, fun h => nomatch h⟩
    · cases hc
      exact ⟨_, rfl, fun h => nomatch h⟩
    · cases hc
  · unfold runFreeSequence
    split
    · exact not_isMisfit_pass _ _
    · exact not_isMisfit_pass _ _
    · exact not_isMisfit_pass _ _
    · exact not_isMisfit_pass _ _
    · exact not_isMisfit_fault _ _

/-! ## Tuples with a type for each position -/

/-- The checks pass the values, each the one at its place. -/
inductive PlacesPass : List Check → List Value → List Checked → Prop where
  | nil : PlacesPass [] [] []
  | cons {a : Check} {as : List Check} {v : Value} {vs : List Value} {c : Checked}
      {cs : List Checked} (first : a.run [] v = .ok c) (rest : PlacesPass as vs cs) :
      PlacesPass (a :: as) (v :: vs) (c :: cs)

/-- Each value suits its place, as far as there are places. -/
def SuitPlaces (suits : List (Value → Prop)) (vs : List Value) : Prop :=
  ∀ p ∈ suits.zip vs, p.1 p.2

/-- What the first check of each place passes its second check passes again. -/
inductive PlacesSettle (firm : Bool) : List (Value → Prop) → List Check → List Check → Prop where
  | nil : PlacesSettle firm [] [] []
  | cons {g : Grip} {suits : Value → Prop} {a b : Check} {rest : List (Value → Prop)}
      {as bs : List Check} (first : Settles g suits a b) (firmer : firm = true → g.firm = true)
      (later : PlacesSettle firm rest as bs) :
      PlacesSettle firm (suits :: rest) (a :: as) (b :: bs)

theorem PlacesPass.length_eq {as : List Check} {vs : List Value} {cs : List Checked}
    (h : PlacesPass as vs cs) : vs.length = as.length ∧ cs.length = as.length := by
  induction h with
  | nil => exact ⟨rfl, rfl⟩
  | cons _ _ ih => exact ⟨congrArg (· + 1) ih.1, congrArg (· + 1) ih.2⟩

theorem placesPass_iff (whole : Value) {as : List Check} (first : Nat) {vs : List Value}
    {cs : List Checked} :
    outcomesOf whole first as vs = cs.map .ok ∧ vs.length ≤ as.length ↔ PlacesPass as vs cs := by
  constructor
  · rintro ⟨h, hlength⟩
    induction as generalizing first vs cs with
    | nil =>
        obtain rfl := List.eq_nil_of_length_eq_zero (Nat.le_zero.mp hlength)
        cases cs with
        | nil => exact PlacesPass.nil
        | cons c cs => cases h
    | cons a as ih =>
        cases vs with
        | nil =>
            cases cs with
            | nil => cases h
            | cons c cs => cases (List.cons.inj h).1
        | cons v vs =>
            cases cs with
            | nil => cases h
            | cons c cs =>
                obtain ⟨hfirst, hrest⟩ := List.cons.inj h
                exact PlacesPass.cons (under_eq_ok_iff.mp hfirst)
                  (ih _ hrest (Nat.le_of_succ_le_succ hlength))
  · intro h
    refine ⟨?_, Nat.le_of_eq h.length_eq.1⟩
    induction h generalizing first with
    | nil => rfl
    | cons hfirst _ ih => rw [outcomesOf, ih, under_eq_ok_iff.mpr hfirst, List.map_cons]

theorem not_isMisfit_of_mem_outcomesOf (whole : Value) {bs : List Check}
    (h : ∀ b ∈ bs, ∀ v, ¬IsMisfit (b.run [] v)) (first : Nat) (vs : List Value) :
    ∀ o ∈ outcomesOf whole first bs vs, ¬IsMisfit o := by
  induction bs generalizing first vs with
  | nil => exact fun _ ho => absurd ho List.not_mem_nil
  | cons b bs ih =>
      obtain ⟨hfirst, hrest⟩ := List.forall_mem_cons.mp h
      cases vs with
      | nil =>
          refine List.forall_mem_cons.mpr ⟨?_, ih hrest _ _⟩
          rw [isMisfit_under_iff]
          exact not_isMisfit_fault _ whole
      | cons v vs =>
          refine List.forall_mem_cons.mpr ⟨?_, ih hrest _ _⟩
          rw [isMisfit_under_iff]
          exact hfirst v

namespace PlacesSettle

variable {firm : Bool} {ss : List (Value → Prop)} {as bs : List Check}

theorem fits (h : PlacesSettle firm ss as bs) : ∀ b ∈ bs, ∀ v, ¬IsMisfit (b.run [] v) := by
  induction h with
  | nil => exact fun _ hb => absurd hb List.not_mem_nil
  | cons hfirst _ _ ih =>
      exact List.forall_mem_cons.mpr ⟨fun v => hfirst.fits v Grip.bears_nil, ih⟩

theorem weaken {less : Bool} (h : PlacesSettle firm ss as bs) (himp : less = true → firm = true) :
    PlacesSettle less ss as bs := by
  induction h with
  | nil => exact .nil
  | cons hfirst hfirmer _ ih => exact .cons hfirst (fun hless => hfirmer (himp hless)) ih

theorem again (h : PlacesSettle firm ss as bs) {vs : List Value} {cs : List Checked}
    (hv : SuitPlaces ss vs) (hp : PlacesPass as vs cs) :
    ∃ cs', PlacesPass bs ((cs.map (·.value)).map Value.dump) cs' ∧
      (firm = true → (cs.map (·.value)).map Value.dump = cs.map (·.value) ∧
        cs'.map (·.value) = cs.map (·.value)) := by
  induction h generalizing vs cs with
  | nil =>
      cases hp with
      | nil => exact ⟨[], PlacesPass.nil, fun _ => ⟨rfl, rfl⟩⟩
  | cons hfirst hfirmer _ ih =>
      cases hp with
      | cons hc hrest =>
          obtain ⟨hone, hothers⟩ := List.forall_mem_cons.mp hv
          obtain ⟨c', hc', hfirm⟩ := hfirst.again Grip.bears_nil hone _ hc
          obtain ⟨cs', hcs', hfirms⟩ := ih hothers hrest
          refine ⟨c' :: cs', PlacesPass.cons hc' hcs', fun hf => ?_⟩
          simp only [List.map_cons]
          rw [(hfirm (hfirmer hf)).1, (hfirm (hfirmer hf)).2, (hfirms hf).1, (hfirms hf).2]
          exact ⟨rfl, rfl⟩

end PlacesSettle

theorem settles_positions {firm : Bool} {ss : List (Value → Prop)} {as bs : List Check}
    (ha : ∀ a ∈ as, a.Accounts) (h : PlacesSettle firm ss as bs) :
    Settles ⟨firm, Limit.isLength⟩ (fun v => ∀ items, items? v = some items → SuitPlaces ss items)
      (positions as s) (positions bs s') := by
  refine settles_ofOwn (fun _ h => h) (fun {ls v} _ hv => ?_) fun ls v => ?_
  · intro c hc
    unfold runPositions at hc
    split at hc
    · cases hc
    · rename_i items e hread
      obtain ⟨cs, hcs, hleast⟩ := exists_of_bind_eq_ok hc
      obtain ⟨cs, hos, rfl, hplaces, hmost⟩ :=
        runPlaces_eq_ok (outcomesOf_ne_faults_nil ha v items 0) hcs
      have hroom : items.length ≤ as.length := by
        by_contra hlong
        dsimp only at hplaces
        rw [if_pos (Nat.lt_of_not_le hlong)] at hplaces
        cases hplaces
      have hpass := (placesPass_iff v 0).mp ⟨hos, hroom⟩
      have hsuits : SuitPlaces ss items := by
        rcases items?_of_readItems hread with hitems | rfl
        · exact hv items hitems
        · intro p hp
          rw [List.zip_nil_right] at hp
          exact absurd hp List.not_mem_nil
      obtain ⟨cs', hcs', hfirm⟩ := h.again hsuits hpass
      obtain rfl := keepLeast_eq_ok hleast
      have hlength : cs'.length = cs.length := by
        rw [hcs'.length_eq.2, ← hcs'.length_eq.1, List.length_map, List.length_map]
      rw [Checked.ofParts_value, Value.dump_tuple]
      refine ⟨.ofParts .exact cs' (.tuple (cs'.map (·.value))), ?_, fun hf => ?_⟩
      · have hagain := (placesPass_iff (.tuple ((cs.map (·.value)).map Value.dump)) 0).mpr hcs'
        unfold runPositions
        simp only [readItems, isKind, if_true, items?, Option.getD_some]
        rw [if_neg (Nat.not_lt.mpr hagain.2), hagain.1, runPlaces_of_ok rfl fun n hn => ?_]
        · refine keepLeast_again hleast ?_ _
          simp only [Checked.ofParts_value, Value.length?, List.length_map]
          rw [List.reverse_nil, List.nil_append, hlength]
        · rw [List.length_nil, Nat.zero_add, hlength]
          cases cs with
          | nil => exact Nat.zero_le n
          | cons c cs =>
              have := hmost n hn (List.cons_ne_nil _ _)
              rwa [List.length_nil, Nat.zero_add] at this
      · rw [Checked.ofParts_value, (hfirm hf).1, (hfirm hf).2]
        exact ⟨rfl, rfl⟩
  · unfold runPositions
    split
    · exact not_isMisfit_fault _ v
    · exact not_isMisfit_bind
        (not_isMisfit_runPlaces (not_isMisfit_of_mem_outcomesOf v h.fits 0 _) [] []) fun cs =>
        not_isMisfit_keepLeast _ ls v _

end Check

end WebForm
