/-
What a check has passed, checked again: mappings.

A mapping passes if the keys and the values of its entries do, and if the limits on their
number are kept.  The entries are set one after another, by keys as they came out of the
check, so that the check can make one key of two: of a flag and of a number, say.  The mapping
that comes out has distinct keys, and holds keys and values that have each passed, but it need
not hold them in the pairs in which they were given.

For checking it again this is enough.  All keys pass again and all values do, however they are
paired (`exists_entriesPass`), and so every entry of the mapping that is written out passes.
What may change is their number.  If the keys stay as they are, they stay distinct, and the
number is the same; else two of them could become one, so that a limit on the number counts as
known only for firm keys:

    Settles ⟨false, dictLimits gk.firm⟩ (SuitEntries sk sv) (dict k v s) (dict k' v' s')

A mapping is never firm, whatever its keys and values are.  What suits it is what suits the
keys and the values, one by one.

The faults of an entry are gathered from its key and its value in turn.  That is why the
outcomes are lists in which the two take turns (`takeTurns`), and a pair is found by its
place.
-/
import WebForm.Proofs.Rechecking.Parts

namespace WebForm

theorem Limit.no_length {ls : List Limit}
    (h : ∀ l ∈ ls, l.isStrict = true ∨ Limit.isUnknown l = true) :
    Limit.least? ls = none ∧ Limit.most? ls = none := by
  have hstrict : ∀ l ∈ ls.reverse, l.isStrict = true := fun l hl =>
    (h l (List.mem_reverse.mp hl)).resolve_right Bool.false_ne_true
  constructor <;>
  · refine List.findSome?_eq_none_iff.mpr fun l hl => ?_
    cases l with
    | strict on => rfl
    | _ => cases hstrict _ hl

namespace Check

open Outcome

variable {s s' : Setting}

/-! ## The number of entries -/

theorem keepCount_eq_ok {ls : List Limit} {whole : Value} {c c' : Checked}
    (h : keepCount ls whole c = .ok c') : c' = c := by
  have most : ∀ {most : Option Nat} {count : Nat},
      keepCount.keepMost whole c most count = .ok c' → c' = c := by
    intro most count h
    unfold keepCount.keepMost at h
    split at h
    · split at h
      · cases h
      · exact (Except.ok.inj h).symm
    · exact (Except.ok.inj h).symm
  unfold keepCount at h
  dsimp only at h
  split at h
  · split at h
    · cases h
    · exact most h
  · exact most h

theorem keepCount_again {ls : List Limit} {whole : Value} {c r : Checked}
    (h : keepCount ls whole c = .ok r) {c' : Checked}
    (hlength : c'.value.length? = c.value.length?) (whole' : Value) :
    keepCount ls whole' c' = .ok c' := by
  have most : ∀ {most : Option Nat} {count : Nat},
      keepCount.keepMost whole c most count = .ok r →
      keepCount.keepMost whole' c' most count = .ok c' := by
    intro most count h
    unfold keepCount.keepMost at h ⊢
    split at h
    · split at h
      · cases h
      · rename_i hroom
        exact if_neg hroom
    · rfl
  unfold keepCount at h ⊢
  dsimp only at h ⊢
  rw [hlength]
  split at h
  · split at h
    · cases h
    · rename_i hroom
      rw [if_neg hroom]
      exact most h
  · exact most h

theorem keepCount_of_no_length {ls : List Limit}
    (h : Limit.least? ls = Option.none ∧ Limit.most? ls = Option.none) (whole : Value)
    (c : Checked) : keepCount ls whole c = .ok c := by
  unfold keepCount
  rw [h.1, h.2]
  rfl

theorem not_isMisfit_keepCount (ls : List Limit) (whole : Value) (c : Checked) :
    ¬IsMisfit (keepCount ls whole c) := by
  have most : ∀ most count, ¬IsMisfit (keepCount.keepMost whole c most count) := by
    intro most count
    unfold keepCount.keepMost
    split
    · split
      · exact not_isMisfit_fault _ whole
      · exact not_isMisfit_ok c
    · exact not_isMisfit_ok c
  unfold keepCount
  dsimp only
  split
  · split
    · exact not_isMisfit_fault _ whole
    · exact most _ _
  · exact most _ _

/-! ## Entries that pass -/

/-- The checks pass the keys and the values of the entries. -/
abbrev EntriesPass (key value : Check) (entries : List (Value × Value))
    (pairs : List (Checked × Checked)) : Prop :=
  List.Forall₂ (fun e p => key.run [] e.1 = .ok p.1 ∧ value.run [] e.2 = .ok p.2) entries pairs

/-- Pairs whose first and second members take turns. -/
def takeTurns (pairs : List (Checked × Checked)) : List (Checked ⊕ Checked) :=
  pairs.flatMap fun p => [.inl p.1, .inr p.2]

theorem pairUp_takeTurns (pairs : List (Checked × Checked)) : pairUp (takeTurns pairs) = pairs := by
  induction pairs with
  | nil => rfl
  | cons p pairs ih => exact congrArg (p :: ·) ih

theorem entryOutcome_eq_ok_iff {key value : Check} {e : Value × Value} {p : Checked × Checked} :
    entryOutcome key value e = [.ok (.inl p.1), .ok (.inr p.2)]
      ↔ key.run [] e.1 = .ok p.1 ∧ value.run [] e.2 = .ok p.2 := by
  have map_eq_ok_iff : ∀ {β : Type} {o : Outcome} {f : Checked → β} (hf : Function.Injective f)
      {c : Checked}, o.map f = .ok (f c) ↔ o = .ok c := by
    intro β o f hf c
    constructor
    · intro h
      obtain ⟨c', rfl, hc⟩ := exists_of_map_eq_ok h
      rw [hf hc]
    · rintro rfl
      rfl
  unfold entryOutcome
  dsimp only
  rw [List.cons.injEq, List.cons.injEq, map_eq_ok_iff fun _ _ => Sum.inl.inj,
    map_eq_ok_iff fun _ _ => Sum.inr.inj, under_eq_ok_iff, under_eq_ok_iff, under_eq_ok_iff]
  exact ⟨fun h => ⟨h.1, h.2.1⟩, fun h => ⟨h.1, h.2, rfl⟩⟩

theorem gather_entries_of_pass {key value : Check} {entries : List (Value × Value)}
    {pairs : List (Checked × Checked)} (h : EntriesPass key value entries pairs) :
    gather (entries.flatMap (entryOutcome key value)) = .ok (takeTurns pairs) := by
  rw [gather_eq_ok_iff]
  induction h with
  | nil => rfl
  | cons hp _ ih =>
      rw [List.flatMap_cons, ih, entryOutcome_eq_ok_iff.mpr hp]
      rfl

theorem pass_of_gather_entries {key value : Check} {entries : List (Value × Value)}
    {parts : List (Checked ⊕ Checked)}
    (h : gather (entries.flatMap (entryOutcome key value)) = .ok parts) :
    ∃ pairs, parts = takeTurns pairs ∧ EntriesPass key value entries pairs := by
  rw [gather_eq_ok_iff] at h
  induction entries generalizing parts with
  | nil =>
      rw [List.flatMap_nil, eq_comm, List.map_eq_nil_iff] at h
      exact ⟨[], h, List.Forall₂.nil⟩
  | cons e entries ih =>
      rw [List.flatMap_cons] at h
      obtain ⟨first, rest, rfl, hfirst, hrest⟩ := List.map_eq_append_iff.mp h.symm
      obtain ⟨pairs, rfl, hpairs⟩ := ih hrest.symm
      -- an entry has two outcomes, the first of its key and the second of its value
      obtain ⟨x, xs, rfl, hx, hxs⟩ := List.map_eq_cons_iff.mp hfirst
      obtain ⟨y, ys, rfl, hy, hys⟩ := List.map_eq_cons_iff.mp hxs
      obtain rfl := List.map_eq_nil_iff.mp hys
      obtain ⟨k, hk, rfl⟩ := exists_of_map_eq_ok hx.symm
      obtain ⟨v, hv, rfl⟩ := exists_of_map_eq_ok hy.symm
      exact ⟨(k, v) :: pairs, rfl, List.Forall₂.cons
        ⟨under_eq_ok_iff.mp (under_eq_ok_iff.mp hk), under_eq_ok_iff.mp hv⟩ hpairs⟩

/-! ## Mappings -/

/-- The keys and the values of a mapping suit their checks. -/
def SuitEntries (key value : Value → Prop) (v : Value) : Prop :=
  ∀ entries, v = .map entries → ∀ e ∈ entries, key e.1 ∧ value e.2

section

variable {gk gv : Grip} {sk sv : Value → Prop} {k k' v v' : Check}

/-- The keys and values that have passed, however they are paired, pass again. -/
theorem exists_entriesPass (hk : Settles gk sk k k') (hv : Settles gv sv v v')
    {entries : List (Value × Value)} (hsuits : ∀ e ∈ entries, sk e.1 ∧ sv e.2)
    {pairs : List (Checked × Checked)} (hpairs : EntriesPass k v entries pairs)
    {kept : List (Value × Value)}
    (hkept : ∀ e ∈ kept, (∃ p ∈ pairs, p.1.value = e.1) ∧ ∃ p ∈ pairs, p.2.value = e.2) :
    ∃ pairs', EntriesPass k' v' (kept.map fun e => (e.1.dump, e.2.dump)) pairs' ∧
      (gk.firm = true → pairs'.map (·.1.value) = kept.map (·.1)) := by
  have passed : ∀ p ∈ pairs, ∃ e ∈ entries, k.run [] e.1 = .ok p.1 ∧ v.run [] e.2 = .ok p.2 := by
    clear hsuits hkept
    induction hpairs with
    | nil => exact fun _ hp => absurd hp List.not_mem_nil
    | @cons e p entries pairs hp _ ih =>
        refine List.forall_mem_cons.mpr ⟨⟨e, List.mem_cons_self, hp⟩, fun q hq => ?_⟩
        obtain ⟨d, hd, hq⟩ := ih q hq
        exact ⟨d, List.mem_cons_of_mem _ hd, hq⟩
  induction kept with
  | nil => exact ⟨[], List.Forall₂.nil, fun _ => rfl⟩
  | cons e kept ih =>
      obtain ⟨⟨⟨p, hp, hkey⟩, ⟨q, hq, hvalue⟩⟩, hrest⟩ := List.forall_mem_cons.mp hkept
      obtain ⟨pairs', hpairs', hfirms⟩ := ih hrest
      obtain ⟨d, hd, hpass, _⟩ := passed p hp
      obtain ⟨c, hc, hfirm⟩ := hk.again Grip.bears_nil (hsuits d hd).1 _ hpass
      obtain ⟨d', hd', _, hpass'⟩ := passed q hq
      obtain ⟨c', hc', _⟩ := hv.again Grip.bears_nil (hsuits d' hd').2 _ hpass'
      rw [hkey] at hc hfirm
      rw [hvalue] at hc'
      refine ⟨(c, c') :: pairs', List.Forall₂.cons ⟨hc, hc'⟩ hpairs', fun hf => ?_⟩
      rw [List.map_cons, List.map_cons, hfirms hf, (hfirm hf).2]

/-- Only with firm keys does the check of a mapping know limits on the number of its entries. -/
def dictLimits (firm : Bool) : Limit → Bool := if firm then Limit.isLength else Limit.isUnknown

theorem settles_dict (hk : Settles gk sk k k') (hv : Settles gv sv v v') :
    Settles ⟨false, dictLimits gk.firm⟩ (SuitEntries sk sv) (dict k v s) (dict k' v' s') := by
  have knows : ∀ l, dictLimits gk.firm l = true → l.isLength = true := by
    intro l hl
    unfold dictLimits at hl
    split at hl
    · exact hl
    · cases hl
  refine settles_ofOwn knows (fun {ls w} hls hsuits => ?_) fun ls w => ?_
  · intro c hc
    unfold runDict at hc
    split at hc
    · rename_i entries
      obtain ⟨parts, hparts, hcount⟩ := exists_of_bind_eq_ok hc
      obtain ⟨pairs, rfl, hpairs⟩ := pass_of_gather_entries hparts
      dsimp only at hcount
      obtain rfl := keepCount_eq_ok hcount
      rw [pairUp_takeTurns] at hcount ⊢
      rw [Checked.ofParts_value]
      -- each key that is kept is one that passed, and so is each value
      generalize hws : pairs.map (fun p => (p.1.value, p.2.value)) = ws at hcount ⊢
      have hkept : ∀ e ∈ Value.setEntries ws,
          (∃ p ∈ pairs, p.1.value = e.1) ∧ ∃ p ∈ pairs, p.2.value = e.2 := by
        intro e he
        obtain ⟨⟨d, hd, hkey⟩, ⟨d', hd', hvalue⟩⟩ := Value.mem_of_mem_setEntries he
        rw [← hws] at hd hd'
        obtain ⟨p, hp, rfl⟩ := List.mem_map.mp hd
        obtain ⟨q, hq, rfl⟩ := List.mem_map.mp hd'
        exact ⟨⟨p, hp, hkey⟩, ⟨q, hq, hvalue⟩⟩
      obtain ⟨pairs', hpairs', hfirm⟩ :=
        exists_entriesPass hk hv (hsuits entries rfl) hpairs hkept
      have hlength : ∀ hf : gk.firm = true,
          (Value.setEntries (pairs'.map fun p => (p.1.value, p.2.value))).length
            = (Value.setEntries ws).length := by
        intro hf
        have hkeys : ((Value.setEntries ws).map (·.1)).Pairwise fun a b => a.same b = false :=
          List.pairwise_map.mpr (Value.keysApart_setEntries ws)
        rw [← hfirm hf] at hkeys
        have hapart : Value.KeysApart (pairs'.map fun p => (p.1.value, p.2.value)) :=
          List.pairwise_map.mpr (List.pairwise_map.mp hkeys)
        rw [Value.setEntries_eq_self hapart, List.length_map, ← hpairs'.length_eq, List.length_map]
      refine ⟨.ofParts .exact (pairs'.flatMap fun p => [p.1, p.2])
        (.ofEntries (pairs'.map fun p => (p.1.value, p.2.value))), ?_, by rintro ⟨⟩⟩
      show runDict k' v' ls (Value.map (Value.setEntries ws)).dump = _
      rw [Value.dump_map]
      unfold runDict
      dsimp only
      rw [gather_entries_of_pass hpairs']
      show keepCount ls _ (.ofParts .exact ((pairUp (takeTurns pairs')).flatMap _) _) = _
      rw [pairUp_takeTurns]
      cases hf : gk.firm with
      | true =>
          refine keepCount_again hcount ?_ _
          rw [Checked.ofParts_value, Checked.ofParts_value]
          exact congrArg some (hlength hf)
      | false =>
          refine keepCount_of_no_length (Limit.no_length ?_) _ _
          rwa [hf] at hls
    · cases hc
  · unfold runDict
    split
    · rename_i entries
      refine not_isMisfit_bind (not_isMisfit_gather fun o ho => ?_) fun parts =>
        not_isMisfit_keepCount _ _ _
      obtain ⟨e, _, ho⟩ := List.mem_flatMap.mp ho
      rcases List.mem_cons.mp ho with rfl | ho
      · rw [isMisfit_map_iff, isMisfit_under_iff, isMisfit_under_iff]
        exact hk.fits _ Grip.bears_nil
      · rw [List.mem_singleton.mp ho, isMisfit_map_iff, isMisfit_under_iff]
        exact hv.fits _ Grip.bears_nil
    · exact not_isMisfit_fault _ _

end

end Check

end WebForm
