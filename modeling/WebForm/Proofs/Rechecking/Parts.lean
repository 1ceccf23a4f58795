/-
What a check has passed, checked again: the parts of a whole.

A whole passes exactly when its parts do and the limits on their number are kept.  There are
three ways in which parts are run, one for lists, one for tuples and one for sets, and for
each of them this is said as an equation between the outcome of the whole and those of the
parts:

    runItems check most whole vs = .ok cs ↔ Passes check vs cs ∧ (vs are not too many)

for lists, and for tuples and sets as two implications.  `Passes` lists what comes of the
parts one by one.  A whole therefore passes again as soon as its parts pass again, written out
one by one (`Settles.passAgain`), and their number stays the same.

Only where parts are compared does it matter that they stay as they are: in a set, where equal
members are one, and among the keys of a mapping.  Written out, two members could become the
same, and then the number of members would change.  If the check of the members is firm this
cannot be.

The first part is about values that are written out, and about setting the entries of a
mapping one after another: entries whose keys are apart are set one behind the other and stay
as they are (`setEntries_eq_self`), and what is set always has keys that are apart.

For the checks of wholes to be applied to anything, no limit may meet a part to which it
cannot be applied; that goes through the three runs as well.
-/
import WebForm.Proofs.Rechecking.Scalar
import WebForm.Value.Dump

namespace WebForm

/-! ## Values written out -/

namespace Value

theorem dumpItems_eq (vs : List Value) : dumpItems vs = vs.map dump := by
  induction vs with
  | nil => rfl
  | cons v vs ih => rw [dumpItems, ih, List.map_cons]

theorem dumpEntries_eq (entries : List (Value × Value)) :
    dumpEntries entries = entries.map fun e => (e.1.dump, e.2.dump) := by
  induction entries with
  | nil => rfl
  | cons e entries ih => rw [dumpEntries, ih, List.map_cons]

theorem dumpFields_eq (fields : List (String × Value)) :
    dumpFields fields = fields.map fun f => f.2.dump := by
  induction fields with
  | nil => rfl
  | cons f fields ih => rw [dumpFields, ih, List.map_cons]

@[simp] theorem dump_list (vs : List Value) : (Value.list vs).dump = .list (vs.map dump) := by
  rw [dump, dumpItems_eq]

@[simp] theorem dump_tuple (vs : List Value) : (Value.tuple vs).dump = .tuple (vs.map dump) := by
  rw [dump, dumpItems_eq]

@[simp] theorem dump_set (vs : List Value) : (Value.set vs).dump = .set (vs.map dump) := by
  rw [dump, dumpItems_eq]

@[simp] theorem dump_frozenset (vs : List Value) :
    (Value.frozenset vs).dump = .frozenset (vs.map dump) := by
  rw [dump, dumpItems_eq]

@[simp] theorem dump_map (entries : List (Value × Value)) :
    (Value.map entries).dump = .map (entries.map fun e => (e.1.dump, e.2.dump)) := by
  rw [dump, dumpEntries_eq]

/-! ## Keys of a mapping

Keys are compared as values, so that different values may be one key. -/

theorem mem_of_mem_setEntry {entries : List (Value × Value)} {key value : Value}
    {e : Value × Value} (h : e ∈ setEntry entries key value) :
    (e.1 = key ∨ ∃ e' ∈ entries, e'.1 = e.1) ∧ (e.2 = value ∨ ∃ e' ∈ entries, e'.2 = e.2) := by
  induction entries with
  | nil =>
      rw [List.mem_singleton.mp h]
      exact ⟨Or.inl rfl, Or.inl rfl⟩
  | cons e' rest ih =>
      simp only [setEntry] at h
      split at h
      · rcases List.mem_cons.mp h with rfl | h
        · exact ⟨Or.inr ⟨e', List.mem_cons_self, rfl⟩, Or.inl rfl⟩
        · exact ⟨Or.inr ⟨e, List.mem_cons_of_mem _ h, rfl⟩, Or.inr ⟨e, List.mem_cons_of_mem _ h, rfl⟩⟩
      · rcases List.mem_cons.mp h with rfl | h
        · exact ⟨Or.inr ⟨_, List.mem_cons_self, rfl⟩, Or.inr ⟨_, List.mem_cons_self, rfl⟩⟩
        · obtain ⟨hkey, hvalue⟩ := ih h
          exact ⟨hkey.imp_right fun ⟨d, hd, heq⟩ => ⟨d, List.mem_cons_of_mem _ hd, heq⟩,
            hvalue.imp_right fun ⟨d, hd, heq⟩ => ⟨d, List.mem_cons_of_mem _ hd, heq⟩⟩

/-- The entries that come of setting some entries in turn. -/
def setEntries (entries : List (Value × Value)) : List (Value × Value) :=
  entries.foldl (fun acc e => setEntry acc e.1 e.2) []

theorem mem_of_mem_setEntries {entries : List (Value × Value)} {e : Value × Value}
    (h : e ∈ setEntries entries) :
    (∃ e' ∈ entries, e'.1 = e.1) ∧ ∃ e' ∈ entries, e'.2 = e.2 := by
  have hfold : ∀ acc : List (Value × Value),
      e ∈ entries.foldl (fun acc e => setEntry acc e.1 e.2) acc →
      ((∃ e' ∈ acc, e'.1 = e.1) ∨ ∃ e' ∈ entries, e'.1 = e.1) ∧
        ((∃ e' ∈ acc, e'.2 = e.2) ∨ ∃ e' ∈ entries, e'.2 = e.2) := by
    clear h
    induction entries with
    | nil => exact fun acc h => ⟨Or.inl ⟨e, h, rfl⟩, Or.inl ⟨e, h, rfl⟩⟩
    | cons d entries ih =>
        intro acc h
        obtain ⟨hkey, hvalue⟩ := ih _ h
        constructor
        · rcases hkey with ⟨e', he', heq⟩ | ⟨e', he', heq⟩
          · rcases (mem_of_mem_setEntry he').1 with hd | ⟨e'', he'', heq'⟩
            · exact Or.inr ⟨d, List.mem_cons_self, hd.symm.trans heq⟩
            · exact Or.inl ⟨e'', he'', heq'.trans heq⟩
          · exact Or.inr ⟨e', List.mem_cons_of_mem _ he', heq⟩
        · rcases hvalue with ⟨e', he', heq⟩ | ⟨e', he', heq⟩
          · rcases (mem_of_mem_setEntry he').2 with hd | ⟨e'', he'', heq'⟩
            · exact Or.inr ⟨d, List.mem_cons_self, hd.symm.trans heq⟩
            · exact Or.inl ⟨e'', he'', heq'.trans heq⟩
          · exact Or.inr ⟨e', List.mem_cons_of_mem _ he', heq⟩
  obtain ⟨hkey, hvalue⟩ := hfold [] h
  exact ⟨hkey.resolve_left fun ⟨_, h, _⟩ => absurd h List.not_mem_nil,
    hvalue.resolve_left fun ⟨_, h, _⟩ => absurd h List.not_mem_nil⟩

/-- No key is one that an earlier key equals. -/
abbrev KeysApart (entries : List (Value × Value)) : Prop :=
  entries.Pairwise fun e e' => e.1.same e'.1 = false

theorem KeysApart.setEntry {entries : List (Value × Value)} (h : KeysApart entries)
    (key value : Value) : KeysApart (Value.setEntry entries key value) := by
  induction h with
  | nil => exact List.pairwise_singleton _ _
  | @cons e rest hfirst hrest ih =>
      simp only [Value.setEntry]
      split
      · exact List.pairwise_cons.mpr ⟨hfirst, hrest⟩
      · rename_i hkey
        refine List.pairwise_cons.mpr ⟨fun d hd => ?_, ih⟩
        rcases (mem_of_mem_setEntry hd).1 with heq | ⟨d', hd', heq⟩
        · rw [heq]
          exact Bool.eq_false_iff.mpr hkey
        · rw [← heq]
          exact hfirst d' hd'

theorem keysApart_setEntries (entries : List (Value × Value)) : KeysApart (setEntries entries) := by
  have hfold : ∀ acc : List (Value × Value), KeysApart acc →
      KeysApart (entries.foldl (fun acc e => Value.setEntry acc e.1 e.2) acc) := by
    induction entries with
    | nil => exact fun _ h => h
    | cons e entries ih => exact fun acc h => ih _ (h.setEntry e.1 e.2)
  exact hfold [] List.Pairwise.nil

theorem setEntry_of_apart {entries : List (Value × Value)} {key : Value}
    (h : ∀ e ∈ entries, e.1.same key = false) (value : Value) :
    setEntry entries key value = entries ++ [(key, value)] := by
  induction entries with
  | nil => rfl
  | cons e rest ih =>
      obtain ⟨he, hrest⟩ := List.forall_mem_cons.mp h
      simp only [setEntry]
      rw [if_neg (by simp [he]), ih hrest, List.cons_append]

/-- Entries whose keys are apart are set one behind the other. -/
theorem setEntries_eq_self {entries : List (Value × Value)} (h : KeysApart entries) :
    setEntries entries = entries := by
  have hfold : ∀ acc : List (Value × Value), KeysApart (acc ++ entries) →
      entries.foldl (fun acc e => setEntry acc e.1 e.2) acc = acc ++ entries := by
    clear h
    induction entries with
    | nil => exact fun acc _ => (List.append_nil acc).symm
    | cons e entries ih =>
        intro acc hacc
        have hnew : ∀ d ∈ acc, d.1.same e.1 = false := fun d hd =>
          (List.pairwise_append.mp hacc).2.2 d hd e List.mem_cons_self
        rw [List.foldl_cons, setEntry_of_apart hnew, ih, List.append_assoc, List.singleton_append]
        rwa [List.append_assoc, List.singleton_append]
  exact hfold [] h

/-! ## Members of a set -/

theorem distinct_subset (vs : List Value) : ∀ v ∈ distinct vs, v ∈ vs :=
  fun _ hv => (distinctBy_sublist vs).subset hv

theorem length_distinct_le (vs : List Value) : (distinct vs).length ≤ vs.length :=
  (distinctBy_sublist vs).length_le

theorem distinct_distinct (vs : List Value) : distinct (distinct vs) = distinct vs :=
  distinctBy_distinctBy vs

end Value

/-! ## Parts that pass -/

namespace Outcome

theorem under_eq_ok_iff {α : Type} {step : Step} {o : Except Rejection α} {a : α} :
    under step o = .ok a ↔ o = .ok a := by
  match o with
  | .ok _ => exact Iff.rfl
  | .error (.misfit _) => exact Iff.rfl
  | .error (.faults _) =>
      constructor
      · intro h
        cases h
      · intro h
        cases h

end Outcome

namespace Check

open Outcome

variable {g : Grip} {suits : Value → Prop} {a b : Check}

/-- The check passes the values one by one. -/
abbrev Passes (check : Value → Outcome) (vs : List Value) (cs : List Checked) : Prop :=
  List.Forall₂ (fun v c => check v = .ok c) vs cs

/-- Values that have passed pass once more when they are written out, and if need be as they are. -/
def PassAgain (firm : Bool) (check : Value → Outcome) (ws : List Value) : Prop :=
  ∀ w ∈ ws, ∃ c, check w.dump = .ok c ∧ (firm = true → w.dump = w ∧ c.value = w)

theorem Settles.passAgain (h : Settles g suits a b) {vs : List Value} {cs : List Checked}
    (hv : ∀ v ∈ vs, suits v) (hp : Passes (a.run []) vs cs) :
    PassAgain g.firm (b.run []) (cs.map (·.value)) := by
  induction hp with
  | nil => exact fun _ hw => absurd hw List.not_mem_nil
  | cons hc _ ih =>
      obtain ⟨hfirst, hrest⟩ := List.forall_mem_cons.mp hv
      exact List.forall_mem_cons.mpr ⟨h.again Grip.bears_nil hfirst _ hc, ih hrest⟩

/-- Values that pass again give results, which for a firm check are the values. -/
theorem PassAgain.exists_passes {firm : Bool} {check : Value → Outcome} {ws : List Value}
    (h : PassAgain firm check ws) :
    ∃ cs, Passes check (ws.map Value.dump) cs ∧
      (firm = true → ws.map Value.dump = ws ∧ cs.map (·.value) = ws) := by
  induction ws with
  | nil => exact ⟨[], List.Forall₂.nil, fun _ => ⟨rfl, rfl⟩⟩
  | cons w ws ih =>
      obtain ⟨⟨c, hc, hfirm⟩, hrest⟩ := List.forall_mem_cons.mp h
      obtain ⟨cs, hcs, hfirms⟩ := ih hrest
      refine ⟨c :: cs, List.Forall₂.cons hc hcs, fun hf => ?_⟩
      rw [List.map_cons, List.map_cons, (hfirm hf).1, (hfirm hf).2, (hfirms hf).1, (hfirms hf).2]
      exact ⟨rfl, rfl⟩

theorem outcomesAt_eq_ok_iff {check : Value → Outcome} {first : Nat} {vs : List Value}
    {cs : List Checked} : outcomesAt check first vs = cs.map .ok ↔ Passes check vs cs := by
  induction vs generalizing first cs with
  | nil => cases cs <;> simp [outcomesAt]
  | cons v vs ih =>
      cases cs with
      | nil => simp [outcomesAt]
      | cons c cs =>
          rw [outcomesAt, List.map_cons, List.cons.injEq, under_eq_ok_iff, ih]
          constructor
          · rintro ⟨hc, hrest⟩
            exact List.Forall₂.cons hc hrest
          · intro h
            cases h with
            | cons hc hrest => exact ⟨hc, hrest⟩

theorem gather_outcomesAt_eq_ok_iff {check : Value → Outcome} {first : Nat} {vs : List Value}
    {cs : List Checked} : gather (outcomesAt check first vs) = .ok cs ↔ Passes check vs cs := by
  rw [gather_eq_ok_iff, outcomesAt_eq_ok_iff]

theorem not_isMisfit_of_mem_outcomesAt {check : Value → Outcome}
    (h : ∀ v, ¬IsMisfit (check v)) (vs : List Value) (first : Nat) :
    ∀ o ∈ outcomesAt check first vs, ¬IsMisfit o := by
  induction vs generalizing first with
  | nil => exact fun _ ho => absurd ho List.not_mem_nil
  | cons v vs ih =>
      refine List.forall_mem_cons.mpr ⟨?_, ih _⟩
      rw [isMisfit_under_iff]
      exact h v

theorem not_isMisfit_gather {α : Type} {rs : List (Except Rejection α)}
    (h : ∀ r ∈ rs, ¬IsMisfit r) : ¬IsMisfit (gather rs) := by
  rw [isMisfit_gather_iff]
  rintro ⟨r, hr, hm⟩
  exact h r hr hm

/-! ## Lists -/

theorem runItems_eq_ok_iff {check : Value → Outcome} {most : Option Nat} {whole : Value}
    {vs : List Value} {cs : List Checked} :
    runItems check most whole vs = .ok cs
      ↔ Passes check vs cs ∧ ∀ n, most = some n → vs.length ≤ n := by
  unfold runItems
  cases most with
  | none =>
      dsimp only
      rw [gather_outcomesAt_eq_ok_iff]
      exact ⟨fun h => ⟨h, fun _ hn => nomatch hn⟩, fun h => h.1⟩
  | some n =>
      dsimp only
      split
      · rename_i hroom
        rw [gather_outcomesAt_eq_ok_iff]
        refine ⟨fun h => ⟨h, fun m hm => ?_⟩, fun h => h.1⟩
        rw [← Option.some.inj hm]
        exact hroom
      · rename_i hroom
        constructor
        · intro h
          split at h <;> cases h
        · rintro ⟨_, hn⟩
          exact absurd (hn n rfl) hroom

theorem not_isMisfit_runItems {check : Value → Outcome} (h : ∀ v, ¬IsMisfit (check v))
    (most : Option Nat) (whole : Value) (vs : List Value) :
    ¬IsMisfit (runItems check most whole vs) := by
  have hgather := not_isMisfit_gather (not_isMisfit_of_mem_outcomesAt h vs 0)
  unfold runItems
  cases most with
  | none => exact hgather
  | some n =>
      dsimp only
      split
      · exact hgather
      · split
        · rename_i m hm
          unfold misfit? at hm
          obtain ⟨o, ho, hm⟩ := List.exists_of_findSome?_eq_some hm
          have hfits := not_isMisfit_of_mem_outcomesAt h _ 0 o ho
          split at hm
          · exact absurd ⟨_, rfl⟩ hfits
          · cases hm
        · exact not_isMisfit_fault _ whole

/-! ## Tuples

A run of places stops early when the bounds are crossed, and gathers faults until then.  So
both directions are inductions over the places, with what has passed before. -/

theorem runPlaces_eq_ok {bounds : TupleBounds} {whole : Value} {os : List Outcome}
    (hne : ∀ o ∈ os, o ≠ .error (.faults [])) {passed res : List Checked}
    (h : runPlaces bounds whole passed [] os = .ok res) :
    ∃ cs, os = cs.map .ok ∧ res = passed.reverse ++ cs ∧ bounds.places = Option.none ∧
      ∀ n, bounds.most = some n → cs ≠ [] → passed.length + cs.length ≤ n := by
  induction os generalizing passed with
  | nil =>
      simp only [runPlaces] at h
      split at h
      · cases h
      · rename_i hplaces
        cases h
        exact ⟨[], rfl, (List.append_nil _).symm, hplaces, fun _ _ hnil => absurd rfl hnil⟩
  | cons o os ih =>
      obtain ⟨hone, hrest⟩ := List.forall_mem_cons.mp hne
      rcases o with (fs | m) | c
      · have hfs : fs ≠ [] := fun heq => hone (by rw [heq])
        exact absurd h (runPlaces_ne_ok (show [] ++ fs ≠ [] from hfs) _ _)
      · cases h
      · have hroom : ∀ n, bounds.most = some n → ¬n ≤ passed.length := by
          intro n hn hle
          simp only [runPlaces, hn, if_pos hle] at h
          cases h
        have hnext : runPlaces bounds whole (c :: passed) [] os = .ok res := by
          simp only [runPlaces] at h
          split at h
          · rename_i n hn
            rwa [if_neg (hroom n hn)] at h
          · exact h
        obtain ⟨cs, rfl, rfl, hplaces, hmost⟩ := ih hrest hnext
        refine ⟨c :: cs, rfl, ?_, hplaces, fun n hn _ => ?_⟩
        · rw [List.reverse_cons, List.append_assoc, List.singleton_append]
        · cases cs with
          | nil =>
              have := hroom n hn
              simp only [List.length_cons, List.length_nil]
              omega
          | cons c' cs =>
              have := hmost n hn (List.cons_ne_nil _ _)
              simp only [List.length_cons] at this ⊢
              omega

theorem runPlaces_of_ok {bounds : TupleBounds} {whole : Value}
    (hplaces : bounds.places = Option.none) {passed cs : List Checked}
    (hmost : ∀ n, bounds.most = some n → passed.length + cs.length ≤ n) :
    runPlaces bounds whole passed [] (cs.map .ok) = .ok (passed.reverse ++ cs) := by
  induction cs generalizing passed with
  | nil =>
      simp only [List.map_nil, runPlaces, hplaces, List.append_nil]
      rfl
  | cons c cs ih =>
      have hnext : runPlaces bounds whole (c :: passed) [] (cs.map .ok)
          = .ok ((c :: passed).reverse ++ cs) := by
        refine ih fun n hn => ?_
        have := hmost n hn
        simp only [List.length_cons] at this ⊢
        omega
      rw [List.reverse_cons, List.append_assoc, List.singleton_append] at hnext
      simp only [List.map_cons, runPlaces]
      split
      · rename_i n hn
        have := hmost n hn
        simp only [List.length_cons] at this
        rw [if_neg (by omega)]
        exact hnext
      · exact hnext

theorem not_isMisfit_runPlaces {bounds : TupleBounds} {whole : Value} {os : List Outcome}
    (h : ∀ o ∈ os, ¬IsMisfit o) (passed : List Checked) (faults : List Fault) :
    ¬IsMisfit (runPlaces bounds whole passed faults os) := by
  induction os generalizing passed faults with
  | nil =>
      simp only [runPlaces]
      split
      · exact not_isMisfit_fault _ whole
      · split
        · exact not_isMisfit_ok _
        · exact not_isMisfit_faults _
  | cons o os ih =>
      obtain ⟨ho, hrest⟩ := List.forall_mem_cons.mp h
      have ih := ih hrest
      rcases o with (fs | m) | c
      · exact ih _ _
      · exact absurd ⟨m, rfl⟩ ho
      · simp only [runPlaces]
        split
        · split
          · exact not_isMisfit_fault _ whole
          · exact ih _ _
        · exact ih _ _

/-! ## Sets

Members are compared with those before them, and too many are only counted when they differ. -/

/-- A set passes when its members do, all of them can be held by a set, and not too many differ. -/
theorem runMembers_eq_ok {kind : Counted} (hitem : a.Accounts) {most : Option Nat} {whole : Value}
    {passed res : List Checked} {first : Nat} {vs : List Value}
    (h : runMembers kind (a.run []) most whole passed [] first vs = .ok res) :
    ∃ cs, Passes (a.run []) vs cs ∧ res = passed.reverse ++ cs ∧
      (∀ c ∈ cs, c.value.isHashable = true) ∧
      ∀ n, most = some n → cs ≠ [] → (Value.distinct (res.map (·.value))).length ≤ n := by
  induction vs generalizing passed first with
  | nil =>
      cases h
      exact ⟨[], List.Forall₂.nil, (List.append_nil _).symm, fun _ hc => absurd hc List.not_mem_nil,
        fun _ _ hnil => absurd rfl hnil⟩
  | cons v vs ih =>
      simp only [runMembers] at h
      split at h
      · cases h
      · rename_i fs hfs
        have hne : fs ≠ [] := fun heq => under_ne_faults_nil (hitem v) _ (hfs.trans (by rw [heq]))
        exact absurd h (runMembers_ne_ok (show [] ++ fs ≠ [] from hne) _ _ _)
      · rename_i c hc
        rw [under_eq_ok_iff] at hc
        split at h
        · exact absurd h (runMembers_ne_ok (by simp) _ _ _)
        · rename_i hhashable
          rw [Bool.not_eq_true', Bool.not_eq_false] at hhashable
          have hroom : ∀ n, most = some n →
              (Value.distinct ((c :: passed).reverse.map (·.value))).length ≤ n := by
            intro n hn
            simp only [hn] at h
            split at h
            · cases h
            · rename_i hle
              exact Nat.le_of_not_lt hle
          have hnext : runMembers kind (a.run []) most whole (c :: passed) [] (first + 1) vs
              = .ok res := by
            split at h
            · split at h
              · cases h
              · exact h
            · exact h
          obtain ⟨cs, hcs, rfl, hhash, hmost⟩ := ih hnext
          refine ⟨c :: cs, List.Forall₂.cons hc hcs, ?_,
            List.forall_mem_cons.mpr ⟨hhashable, hhash⟩, fun n hn _ => ?_⟩
          · rw [List.reverse_cons, List.append_assoc, List.singleton_append]
          · cases cs with
            | nil =>
                rw [List.append_nil]
                exact hroom n hn
            | cons c' cs => exact hmost n hn (List.cons_ne_nil _ _)

theorem runMembers_of_passes {kind : Counted} {check : Value → Outcome} {most : Option Nat}
    {whole : Value} {passed cs : List Checked} {first : Nat} {vs : List Value}
    (h : Passes check vs cs) (hhash : ∀ c ∈ cs, c.value.isHashable = true)
    (hmost : ∀ n, most = some n → passed.length + cs.length ≤ n) :
    runMembers kind check most whole passed [] first vs = .ok (passed.reverse ++ cs) := by
  induction h generalizing passed first with
  | nil =>
      simp only [runMembers, List.append_nil]
      rfl
  | @cons v c vs cs hc _ ih =>
      obtain ⟨hone, hrest⟩ := List.forall_mem_cons.mp hhash
      have hnext : runMembers kind check most whole (c :: passed) [] (first + 1) vs
          = .ok ((c :: passed).reverse ++ cs) := by
        refine ih hrest fun n hn => ?_
        have := hmost n hn
        simp only [List.length_cons] at this ⊢
        omega
      rw [List.reverse_cons, List.append_assoc, List.singleton_append] at hnext
      simp only [runMembers, hc, under, hone]
      rw [if_neg (by decide)]
      split
      · rename_i n
        have hcount := Value.length_distinct_le ((c :: passed).reverse.map (·.value))
        have := hmost n rfl
        simp only [List.length_map, List.length_reverse, List.length_cons] at hcount this
        rw [if_neg (by omega)]
        exact hnext
      · exact hnext

theorem not_isMisfit_runMembers {kind : Counted} {check : Value → Outcome}
    (h : ∀ v, ¬IsMisfit (check v)) (most : Option Nat) (whole : Value) (passed : List Checked)
    (faults : List Fault) (first : Nat) (vs : List Value) :
    ¬IsMisfit (runMembers kind check most whole passed faults first vs) := by
  induction vs generalizing passed faults first with
  | nil =>
      simp only [runMembers]
      split
      · exact not_isMisfit_ok _
      · exact not_isMisfit_faults _
  | cons v vs ih =>
      simp only [runMembers]
      split
      · rename_i m hm
        have hfits := (isMisfit_under_iff (.index first) (check v)).not.mpr (h v)
        exact absurd ⟨m, hm⟩ hfits
      · exact ih _ _ _
      · split
        · exact ih _ _ _
        · split
          · split
            · exact not_isMisfit_fault _ whole
            · exact ih _ _ _
          · exact ih _ _ _

end Check

end WebForm
