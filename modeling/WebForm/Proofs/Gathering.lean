/-
What a check makes of a list of texts, when they were read one by one before.

A field of many values reads each text that is sent for it before the list is checked.  The
question is whether the check makes of the list of readings what it would have made of the
list of texts, and the answer is that it does if each item does:

    Collects.carriesList : t.Collects items → CarriesAt items s vs ws → (t.reading s).CarriesList vs ws

for every type of many values, under limits and beside nothing, where the items have the types
`items` in order.  What counts beside the items is how many there are, and how many different
ones came out, and both are the same for texts and for what they are read as.

The collections differ in how they stop.  A list stops at a count; a tuple of any length stops
at a count, too, but has faults to collect; a set counts the different members that came out
so far.  Each has a lemma of its own with the state of its loop as a parameter.  One case
stands outside: a list of anything is taken without a look at its items, so that there an item
that is carried is the item itself (`eq_of_carries_any`).

A loop that has met a fault goes on and fails at the end.  That the end is a failure needs
that no item is refused without a fault, which would leave the list of faults empty;
`Accounts` says so of a check, and every check of a type has it.
-/
import WebForm.Proofs.Carrying
import WebForm.Proofs.Refusal.Type

namespace WebForm

namespace Checked

theorem add_value (whole part : Checked) : (whole.add part).value = whole.value := by
  unfold add
  split <;> rfl

theorem ofParts_value (e : Exactness) (parts : List Checked) (v : Value) :
    (ofParts e parts v).value = v := by
  have hfold : ∀ whole : Checked, (parts.foldl add whole).value = whole.value := by
    induction parts with
    | nil => exact fun _ => rfl
    | cons part parts ih =>
        intro whole
        rw [List.foldl_cons, ih, add_value]
  exact hfold _

end Checked

namespace Outcome

/-- Parts are values as soon as other parts are, and then they are the same values. -/
def CarriesParts (o o' : Except Rejection (List Checked)) : Prop :=
  ∀ cs, o = .ok cs → ∃ cs', o' = .ok cs' ∧ cs'.map (·.value) = cs.map (·.value)

theorem CarriesParts.bind {o o' : Except Rejection (List Checked)} (h : CarriesParts o o')
    {next next' : List Checked → Outcome}
    (hnext : ∀ cs cs', cs'.map (·.value) = cs.map (·.value) → Carries (next cs) (next' cs')) :
    Carries (o.bind next) (o'.bind next') := by
  intro r hr
  match o, hr with
  | .ok cs, hr =>
      obtain ⟨cs', rfl, hvalues⟩ := h cs rfl
      exact hnext cs cs' hvalues r hr

theorem CarriesParts.map {o o' : Except Rejection (List Checked)} (h : CarriesParts o o')
    {f f' : List Checked → Checked}
    (hf : ∀ cs cs', cs'.map (·.value) = cs.map (·.value) → (f' cs').value = (f cs).value) :
    Carries (o.map f) (o'.map f') := by
  intro r hr
  match o, hr with
  | .ok cs, rfl =>
      obtain ⟨cs', rfl, hvalues⟩ := h cs rfl
      exact ⟨f' cs', rfl, hf cs cs' hvalues⟩

theorem gather_carries {os os' : List Outcome} (h : List.Forall₂ Carries os os') :
    CarriesParts (gather os) (gather os') := by
  intro cs hcs
  rw [gather_eq_ok_iff] at hcs
  subst hcs
  induction cs generalizing os' with
  | nil =>
      cases h
      exact ⟨[], rfl, rfl⟩
  | cons c cs ih =>
      rw [List.map_cons] at h
      cases h with
      | cons hc hrest =>
          obtain ⟨c', rfl, hvalue⟩ := hc c rfl
          obtain ⟨cs', hcs', hvalues⟩ := ih hrest
          refine ⟨c' :: cs', by rw [gather, hcs'], ?_⟩
          rw [List.map_cons, List.map_cons, hvalue, hvalues]

theorem under_ne_faults_nil {o : Outcome} (h : o ≠ .error (.faults [])) (step : Step) :
    under step o ≠ .error (.faults []) := by
  intro hnil
  match o, h, hnil with
  | .error (.faults fs), h, hnil =>
      have hmap : fs.map (Fault.under step) = [] := by simpa [under] using hnil
      exact h (by rw [List.map_eq_nil_iff.mp hmap])

end Outcome

namespace Check

open Outcome

/-- The check carries the items one by one. -/
abbrev CarriesItems (item : Check) (vs ws : List Value) : Prop :=
  List.Forall₂ (fun v w => Outcome.Carries (item.run [] v) (item.run [] w)) vs ws

/-- The check never refuses without a fault. -/
def Accounts (c : Check) : Prop := ∀ v, c.run [] v ≠ .error (.faults [])

theorem accounts_check (t : Ty) (s : Setting) : (t.check s).Accounts := by
  intro v h
  have told : Outcome.Tells Account.all ((t.check s).run [] v) :=
    (Ty.tells (fun _ _ => trivial) s).check.run Limit.Keep.nil (Value.keepsTo_all v)
  exact (told [] h).1 rfl

theorem outcomesAt_carries {item : Check} {vs ws : List Value} (h : item.CarriesItems vs ws)
    (first : Nat) :
    List.Forall₂ Outcome.Carries (outcomesAt (item.run []) first vs)
      (outcomesAt (item.run []) first ws) := by
  induction h generalizing first with
  | nil => exact List.Forall₂.nil
  | cons hv _ ih => exact List.Forall₂.cons (hv.under _ _) (ih _)

theorem outcomesAt_ne_faults_nil {item : Check} (h : item.Accounts) (vs : List Value) (first : Nat) :
    ∀ o ∈ outcomesAt (item.run []) first vs, o ≠ .error (.faults []) := by
  induction vs generalizing first with
  | nil => exact fun _ ho => absurd ho List.not_mem_nil
  | cons v vs ih => exact List.forall_mem_cons.mpr ⟨under_ne_faults_nil (h v) _, ih _⟩

/-! ## Lists

A list is checked item by item up to the count, and the outcomes are gathered. -/

theorem runItems_carries {item : Check} {vs ws : List Value} (h : item.CarriesItems vs ws)
    (most : Option Nat) (whole whole' : Value) :
    CarriesParts (runItems (item.run []) most whole vs) (runItems (item.run []) most whole' ws) := by
  have hgather := gather_carries (outcomesAt_carries h 0)
  unfold runItems
  cases most with
  | none => exact hgather
  | some n =>
      dsimp only
      rw [← h.length_eq]
      split
      · exact hgather
      · intro cs hcs
        split at hcs <;> cases hcs

/-! ## Tuples

The loop carries the items that have passed, and the faults; once there are faults it cannot
come to a value. -/

theorem runPlaces_ne_ok {b : TupleBounds} {whole : Value} {passed : List Checked}
    {faults : List Fault} (h : faults ≠ []) (os : List Outcome) (cs : List Checked) :
    runPlaces b whole passed faults os ≠ .ok cs := by
  induction os generalizing passed faults with
  | nil =>
      intro hcs
      simp only [runPlaces, List.isEmpty_iff, h, if_false] at hcs
      split at hcs <;> cases hcs
  | cons o os ih =>
      intro hcs
      rcases o with (fs | m) | c
      · exact ih (List.append_ne_nil_of_left_ne_nil h fs) hcs
      · cases hcs
      · simp only [runPlaces] at hcs
        split at hcs
        · split at hcs
          · cases hcs
          · exact ih h hcs
        · exact ih h hcs

theorem runPlaces_carries {os os' : List Outcome} (h : List.Forall₂ Outcome.Carries os os')
    (hne : ∀ o ∈ os, o ≠ .error (.faults [])) (b : TupleBounds) (whole whole' : Value)
    {passed passed' : List Checked} (hpassed : passed'.map (·.value) = passed.map (·.value)) :
    CarriesParts (runPlaces b whole passed [] os) (runPlaces b whole' passed' [] os') := by
  intro cs hcs
  induction h generalizing passed passed' with
  | nil =>
      simp only [runPlaces] at hcs ⊢
      split at hcs
      · cases hcs
      · cases hcs
        refine ⟨passed'.reverse, rfl, ?_⟩
        rw [List.map_reverse, List.map_reverse, hpassed]
  | @cons o o' os os' ho _ ih =>
      obtain ⟨hone, hrest⟩ := List.forall_mem_cons.mp hne
      rcases o with (fs | m) | c
      · have hfs : fs ≠ [] := fun heq => hone (by rw [heq])
        exact absurd hcs (runPlaces_ne_ok (show [] ++ fs ≠ [] from hfs) _ _)
      · cases hcs
      · obtain ⟨c', rfl, hvalue⟩ := ho c rfl
        have hlength : passed'.length = passed.length := by
          simpa using congrArg List.length hpassed
        have hmore : (c' :: passed').map (·.value) = (c :: passed).map (·.value) := by
          rw [List.map_cons, List.map_cons, hvalue, hpassed]
        simp only [runPlaces, hlength] at hcs ⊢
        split at hcs
        · split at hcs
          · cases hcs
          · rename_i hroom
            rw [if_neg hroom]
            exact ih hrest hmore hcs
        · exact ih hrest hmore hcs

/-! ## Sets

A member that equals an earlier one is not counted.  Equal values are compared, so that the
count is that of what came out and not of what was sent. -/

theorem runMembers_ne_ok {kind : Counted} {check : Value → Outcome} {most : Option Nat}
    {whole : Value} {passed : List Checked} {faults : List Fault} (h : faults ≠ []) (first : Nat)
    (vs : List Value) (cs : List Checked) :
    runMembers kind check most whole passed faults first vs ≠ .ok cs := by
  induction vs generalizing passed faults first with
  | nil =>
      intro hcs
      simp only [runMembers, List.isEmpty_iff, h, if_false] at hcs
      cases hcs
  | cons v vs ih =>
      intro hcs
      simp only [runMembers] at hcs
      split at hcs
      · cases hcs
      · exact ih (List.append_ne_nil_of_left_ne_nil h _) _ hcs
      · split at hcs
        · exact ih (List.append_ne_nil_of_left_ne_nil h _) _ hcs
        · split at hcs
          · split at hcs
            · cases hcs
            · exact ih h _ hcs
          · exact ih h _ hcs

theorem runMembers_carries {item : Check} (hitem : item.Accounts) {vs ws : List Value}
    (h : item.CarriesItems vs ws) (kind : Counted) (most : Option Nat) (whole whole' : Value)
    (first : Nat) {passed passed' : List Checked}
    (hpassed : passed'.map (·.value) = passed.map (·.value)) :
    CarriesParts (runMembers kind (item.run []) most whole passed [] first vs)
      (runMembers kind (item.run []) most whole' passed' [] first ws) := by
  intro cs hcs
  induction h generalizing passed passed' first with
  | nil =>
      cases hcs
      refine ⟨passed'.reverse, rfl, ?_⟩
      rw [List.map_reverse, List.map_reverse, hpassed]
  | @cons v w vs ws hv _ ih =>
      simp only [runMembers] at hcs
      split at hcs
      · cases hcs
      · rename_i fs hfs
        have hne : fs ≠ [] := fun heq => under_ne_faults_nil (hitem v) _ (hfs.trans (by rw [heq]))
        exact absurd hcs (runMembers_ne_ok (show [] ++ fs ≠ [] from hne) _ _ _)
      · rename_i c hc
        obtain ⟨c', hc', hvalue⟩ := hv.under (.index first) (.index first) c hc
        have hmore : (c' :: passed').map (·.value) = (c :: passed).map (·.value) := by
          rw [List.map_cons, List.map_cons, hvalue, hpassed]
        split at hcs
        · exact absurd hcs (runMembers_ne_ok (by simp) _ _ _)
        · rename_i hhashable
          simp only [runMembers, hc', hvalue]
          rw [if_neg hhashable]
          have hcount : (c' :: passed').reverse.map (·.value) = (c :: passed).reverse.map (·.value) := by
            rw [List.map_reverse, List.map_reverse, hmore]
          rw [hcount]
          split at hcs
          · split at hcs
            · cases hcs
            · rename_i hroom
              simp only [if_neg hroom]
              exact ih _ hmore hcs
          · exact ih _ hmore hcs

/-! ## Collections

Whether a list is read as a collection at all does not depend on its items. -/

theorem readItems_list_cases (strict : Bool) (kind : Counted) :
    (∃ e, ∀ items, readItems strict kind (.list items) = .ok (items, e)) ∨
      ∃ cause, ∀ items, readItems strict kind (.list items) = .error cause := by
  cases kind <;> cases strict <;>
    first
    | exact Or.inl ⟨_, fun _ => rfl⟩
    | exact Or.inr ⟨_, fun _ => rfl⟩

theorem keepLeast_carries (kind : Counted) (ls : List Limit) (whole whole' : Value) {c c' : Checked}
    (h : c'.value = c.value) :
    Outcome.Carries (keepLeast kind ls whole c) (keepLeast kind ls whole' c') := by
  intro r hr
  unfold keepLeast at hr ⊢
  rw [h]
  split at hr
  · split at hr
    · cases hr
    · rename_i hroom
      cases hr
      exact ⟨c', by rw [if_neg hroom], h⟩
  · cases hr
    exact ⟨c', rfl, h⟩

theorem carries_collection {item : Check} (hitem : item.Accounts) {vs ws : List Value}
    (h : item.CarriesItems vs ws) (kind : Counted) (s : Setting) :
    (collection kind item s).Carries (.list vs) (.list ws) := by
  refine carries_ofOwn fun ls => ?_
  unfold runCollection
  rcases readItems_list_cases (s.isStrict ls) kind with ⟨e, hread⟩ | ⟨cause, hread⟩
  · rw [hread, hread]
    dsimp only
    refine CarriesParts.bind ?_ fun cs cs' hvalues => ?_
    · have hplaces : CarriesParts
          (runPlaces ⟨Limit.most? ls, Option.none⟩ (.list vs) [] [] (outcomesAt (item.run []) 0 vs))
          (runPlaces ⟨Limit.most? ls, Option.none⟩ (.list ws) [] [] (outcomesAt (item.run []) 0 ws)) :=
        runPlaces_carries (outcomesAt_carries h 0) (outcomesAt_ne_faults_nil hitem vs 0) _ _ _ rfl
      cases kind with
      | set | frozenset => exact runMembers_carries hitem h _ _ _ _ 0 rfl
      | tuple => exact hplaces
      | list | dictionary | value => exact runItems_carries h _ _ _
    · exact keepLeast_carries _ _ _ _ (by rw [Checked.ofParts_value, Checked.ofParts_value, hvalues])
  · rw [hread, hread]
    exact Outcome.Carries.of_fault

theorem carries_sequence {item : Check} {vs ws : List Value} (h : item.CarriesItems vs ws)
    (s : Setting) : (sequence item s).Carries (.list vs) (.list ws) :=
  carries_ofOwn fun _ => (gather_carries (outcomesAt_carries h 0)).map fun _ _ hvalues => by
    rw [Checked.ofParts_value, Checked.ofParts_value, hvalues]

/-! ## Tuples with a type for each position

Items beyond the positions are refused, and positions without an item are missing, on both
sides alike. -/

/-- The checks carry the items at their places. -/
def CarriesPlaces (checks : List Check) (vs ws : List Value) : Prop :=
  vs.length = ws.length ∧ ∀ (i : Nat) (c : Check) (v w : Value), checks[i]? = some c →
    vs[i]? = some v → ws[i]? = some w → Outcome.Carries (c.run [] v) (c.run [] w)

theorem outcomesOf_carries {checks : List Check} {vs ws : List Value}
    (h : CarriesPlaces checks vs ws) (whole whole' : Value) (first : Nat) :
    List.Forall₂ Outcome.Carries (outcomesOf whole first checks vs)
      (outcomesOf whole' first checks ws) := by
  induction checks generalizing vs ws first with
  | nil => exact List.Forall₂.nil
  | cons c checks ih =>
      obtain ⟨hlength, hplaces⟩ := h
      match vs, ws, hlength with
      | [], [], _ =>
          refine List.Forall₂.cons (Outcome.Carries.under Outcome.Carries.of_fault _ _) (ih ⟨rfl, ?_⟩ _)
          exact fun i _ v _ _ hv _ => absurd hv (by simp)
      | v :: vs, w :: ws, hlength =>
          refine List.Forall₂.cons ((hplaces 0 c v w rfl rfl rfl).under _ _)
            (ih ⟨Nat.succ.inj hlength, ?_⟩ _)
          exact fun i c v w hc hv hw => hplaces (i + 1) c v w hc hv hw

theorem outcomesOf_ne_faults_nil {checks : List Check} (h : ∀ c ∈ checks, c.Accounts)
    (whole : Value) (vs : List Value) (first : Nat) :
    ∀ o ∈ outcomesOf whole first checks vs, o ≠ .error (.faults []) := by
  induction checks generalizing vs first with
  | nil => exact fun _ ho => absurd ho List.not_mem_nil
  | cons c checks ih =>
      obtain ⟨hc, hchecks⟩ := List.forall_mem_cons.mp h
      cases vs with
      | nil =>
          refine List.forall_mem_cons.mpr ⟨under_ne_faults_nil ?_ _, ih hchecks _ _⟩
          exact fun hnil => nomatch hnil
      | cons v vs => exact List.forall_mem_cons.mpr ⟨under_ne_faults_nil (hc v) _, ih hchecks _ _⟩

theorem carries_positions {checks : List Check} (hchecks : ∀ c ∈ checks, c.Accounts)
    {vs ws : List Value} (h : CarriesPlaces checks vs ws) (s : Setting) :
    (positions checks s).Carries (.list vs) (.list ws) := by
  refine carries_ofOwn fun ls => ?_
  unfold runPositions
  rcases readItems_list_cases (s.isStrict ls) .tuple with ⟨e, hread⟩ | ⟨cause, hread⟩
  · rw [hread, hread]
    dsimp only
    rw [← h.1]
    refine CarriesParts.bind ?_ fun cs cs' hvalues => ?_
    · exact runPlaces_carries (outcomesOf_carries h _ _ 0)
        (outcomesOf_ne_faults_nil hchecks _ _ 0) _ _ _ rfl
    · exact keepLeast_carries _ _ _ _ (by rw [Checked.ofParts_value, Checked.ofParts_value, hvalues])
  · rw [hread, hread]
    exact Outcome.Carries.of_fault

end Check

/-! ## Types of collections

Limits and a choice with nothing keep what is carried, since a list is not nothing. -/

namespace Ty

/-- The type takes many values, maybe under limits and maybe with nothing beside it, and its items
have these types in order. -/
inductive Collects : Ty → (Nat → Ty) → Prop where
  | bare {c : BareCollection} : c ≠ .dict → Collects (.bare c) fun _ => .any
  | many {c : Collection} {t : Ty} : Collects (.many c t) fun _ => t
  | positions {ts : List Ty} : Collects (.positions ts) fun i => ts.getD i .any
  | optional {t : Ty} {items : Nat → Ty} : Collects t items → Collects (.optional t) items
  | orNone {style : ChoiceStyle} {t : Ty} {items : Nat → Ty} :
      Collects t items → Collects (.choice style [t, .none]) items
  | noneOr {style : ChoiceStyle} {t : Ty} {items : Nat → Ty} :
      Collects t items → Collects (.choice style [.none, t]) items
  | limited {t : Ty} {limits : Limits} {items : Nat → Ty} :
      Collects t items → Collects (.limited t limits) items

theorem reading_of_isAny {t : Ty} (h : t.isAny = true) (s : Setting) :
    (t.reading s).core = Check.any s ∧ (t.reading s).own = [] := by
  fun_induction isAny t with
  | case1 => exact ⟨rfl, rfl⟩
  | case2 t l ih =>
      rw [Bool.and_eq_true, List.isEmpty_iff] at h
      obtain ⟨hcore, hown⟩ := ih h.1
      exact ⟨hcore, by simp [reading, hown, h.2]⟩
  | case3 => cases h

theorem eq_of_carries_any {t : Ty} (h : t.isAny = true) {s : Setting} {v w : Value}
    (hc : Outcome.Carries ((t.check s).run [] v) ((t.check s).run [] w)) : w = v := by
  obtain ⟨hcore, hown⟩ := reading_of_isAny h s
  have hrun : ∀ v, (t.check s).run [] v = .ok { value := v, exactness := .close } := by
    intro v
    simp only [check, Reading.check, Reading.under, hcore, hown]
    rfl
  rw [hrun, hrun] at hc
  obtain ⟨r', hr', hvalue⟩ := hc _ rfl
  cases hr'
  exact hvalue

/-- The check of each item carries it. -/
def CarriesAt (items : Nat → Ty) (s : Setting) (vs ws : List Value) : Prop :=
  vs.length = ws.length ∧ ∀ (i : Nat) (v w : Value), vs[i]? = some v → ws[i]? = some w →
    Outcome.Carries (((items i).check s).run [] v) (((items i).check s).run [] w)

theorem CarriesAt.items {t : Ty} {s : Setting} {vs ws : List Value}
    (h : CarriesAt (fun _ => t) s vs ws) : (t.check s).CarriesItems vs ws := by
  rw [Check.CarriesItems, List.forall₂_iff_get]
  refine ⟨h.1, fun i hv hw => h.2 i _ _ ?_ ?_⟩
  · simp [hv]
  · simp [hw]

theorem CarriesAt.eq {t : Ty} {s : Setting} {vs ws : List Value}
    (h : CarriesAt (fun _ => t) s vs ws) (hany : t.isAny = true) : ws = vs := by
  have hitems := h.items
  clear h
  induction hitems with
  | nil => rfl
  | cons hv _ ih => rw [eq_of_carries_any hany hv, ih]

theorem accounts_checks (ts : List Ty) (s : Setting) : ∀ a ∈ checks ts s, a.Accounts := by
  induction ts with
  | nil => exact fun _ h => absurd h List.not_mem_nil
  | cons t ts ih => exact List.forall_mem_cons.mpr ⟨Check.accounts_check t s, ih⟩

theorem checks_get? (ts : List Ty) (s : Setting) (i : Nat) :
    (checks ts s)[i]? = ts[i]?.map fun t => t.check s := by
  induction ts generalizing i with
  | nil => rfl
  | cons t ts ih =>
      cases i with
      | zero => rfl
      | succ i => exact ih i

end Ty

namespace Reading

/-- The reading carries a list as a whole, and as its one alternative. -/
def CarriesList (r : Reading) (vs ws : List Value) : Prop :=
  r.core.Carries (.list vs) (.list ws) ∧
    ∃ o, r.options = [o] ∧ o.2.Carries (.list vs) (.list ws)

theorem carriesList_alone {t : Ty} {c : Check} {vs ws : List Value}
    (h : c.Carries (.list vs) (.list ws)) : (alone t c).CarriesList vs ws := ⟨h, _, rfl, h⟩

theorem CarriesList.among {r : Reading} {vs ws : List Value} (h : r.CarriesList vs ws)
    (s : Setting) : (Reading.among r.options true s).CarriesList vs ws := by
  obtain ⟨_, o, hoptions, ho⟩ := h
  rw [hoptions]
  exact ⟨ho.nullable (fun heq => nomatch heq) (fun heq => nomatch heq), o, rfl, ho⟩

end Reading

namespace Ty

/-- A type of many values carries a list whose items are carried. -/
theorem Collects.carriesList {t : Ty} {items : Nat → Ty} (h : t.Collects items) {s : Setting}
    {vs ws : List Value} (hc : CarriesAt items s vs ws) : (t.reading s).CarriesList vs ws := by
  have same : ∀ {t : Ty}, t.isAny = true → CarriesAt (fun _ => t) s vs ws → ∀ c : Check,
      c.Carries (.list vs) (.list ws) := by
    intro t hany hc c
    rw [hc.eq hany]
    exact Check.Carries.refl _ _
  induction h with
  | @bare c hc' =>
      cases c with
      | dict => exact absurd rfl hc'
      | list | genericList | tuple => exact Reading.carriesList_alone (same rfl hc _)
  | @many c t =>
      have hitem := Check.accounts_check t s
      cases c with
      | sequence =>
          by_cases hany : t = .any
          · subst hany
            exact Reading.carriesList_alone (same rfl hc _)
          · rw [reading]
            · exact Reading.carriesList_alone (Check.carries_sequence hc.items s)
            · exact hany
      | list =>
          simp only [reading]
          refine Reading.carriesList_alone ?_
          split
          · rename_i hany
            exact same hany hc _
          · exact Check.carries_collection hitem hc.items _ s
      | set | frozenset | tuple =>
          exact Reading.carriesList_alone (Check.carries_collection hitem hc.items _ s)
  | @positions ts =>
      refine Reading.carriesList_alone
        (Check.carries_positions (accounts_checks ts s) ⟨hc.1, ?_⟩ s)
      intro i c v w hget hv hw
      rw [checks_get?] at hget
      obtain ⟨t, ht, rfl⟩ := Option.map_eq_some_iff.mp hget
      have hitem := hc.2 i v w hv hw
      dsimp only at hitem
      rwa [List.getD_eq_getElem?_getD, ht, Option.getD_some] at hitem
  | optional _ ih =>
      simp only [reading]
      exact (ih hc).among s
  | orNone _ ih =>
      simp only [reading, allOptions, anyNullable, List.append_nil, Bool.or_true, Bool.or_false]
      exact (ih hc).among s
  | noneOr _ ih =>
      simp only [reading, allOptions, anyNullable, List.append_nil, List.nil_append, Bool.true_or]
      exact (ih hc).among s
  | limited _ ih =>
      obtain ⟨hcore, _⟩ := ih hc
      exact ⟨hcore, _, rfl, fun _ => hcore _⟩

end Ty

/-- A field of many values carries a list whose items are carried. -/
theorem Field.checkIn_carries {f : Field} {items : Nat → Ty} (h : f.type.Collects items)
    {strict? : Option Bool} {c : Config} {vs ws : List Value}
    (hc : Ty.CarriesAt items { strict?, config := c } vs ws) :
    Outcome.Carries (f.checkIn strict? c (.list vs)) (f.checkIn strict? c (.list ws)) :=
  (h.carriesList hc).1 _

end WebForm
