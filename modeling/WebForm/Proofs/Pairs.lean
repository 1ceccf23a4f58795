/-
Ordered pairs: what setting, joining and mapping do to keys and places.

The tables of this library are lists of pairs, read by the first pair with a key and changed
by setting: in its place if the key is there, and else at the end.  Beside the definitions
stand the laws of single lookups.  Here are the facts about lists of pairs as a whole, in
three groups.

The first is about distinct keys.  Setting keeps them distinct, and pairs of new and distinct
keys are simply added at the end (`setAll_of_nodup`), so that a table which is built by
setting is often a list that one can write down.  With distinct keys a lookup is membership
(`get?_eq_some_iff`), and the last pair with a key is the first.

The second is about lookups after many pairs were set: the last of the new pairs counts, and
else the old table (`get?_setAll`).

The third is about lists that are made by going through other lists, where each member gives
at most one pair under a key of its own.  What stands under the key of a member is then what
the member gives.
-/
import WebForm.Pairs

namespace WebForm.Pairs

variable {α β : Type}

theorem nodup_keys_set {pairs : List (String × α)} (h : (keys pairs).Nodup) (key : String)
    (value : α) : (keys (set pairs key value)).Nodup := by
  rw [keys_set]
  split
  · exact h
  · rename_i hkey
    rw [List.nodup_append]
    refine ⟨h, List.nodup_cons.mpr ⟨List.not_mem_nil, List.nodup_nil⟩, ?_⟩
    intro a ha b hb hab
    rw [List.mem_singleton.mp hb] at hab
    exact hkey (hab ▸ ha)

theorem nodup_keys_setAll {pairs : List (String × α)} (h : (keys pairs).Nodup)
    (more : List (String × α)) : (keys (setAll pairs more)).Nodup := by
  induction more generalizing pairs with
  | nil => exact h
  | cons p more ih => exact ih (nodup_keys_set h p.1 p.2)

theorem setAll_append (pairs more others : List (String × α)) :
    setAll pairs (more ++ others) = setAll (setAll pairs more) others := by
  unfold setAll
  rw [List.foldl_append]

theorem set_append_of_not_mem {pairs : List (String × α)} {key : String}
    (h : ∀ p ∈ pairs, p.1 ≠ key) (more : List (String × α)) (value : α) :
    set (pairs ++ more) key value = pairs ++ set more key value := by
  induction pairs with
  | nil => rfl
  | cons p rest ih =>
      obtain ⟨hp, hrest⟩ := List.forall_mem_cons.mp h
      rw [List.cons_append, set, if_neg hp, ih hrest, List.cons_append]

theorem set_of_not_mem {pairs : List (String × α)} {key : String} (h : ∀ p ∈ pairs, p.1 ≠ key)
    (value : α) : set pairs key value = pairs ++ [(key, value)] := by
  have hset := set_append_of_not_mem h [] value
  rwa [List.append_nil] at hset

/-- Setting pairs of distinct keys that are not there adds them at the end. -/
theorem setAll_of_nodup {pairs more : List (String × α)} (h : (keys (pairs ++ more)).Nodup) :
    setAll pairs more = pairs ++ more := by
  induction more generalizing pairs with
  | nil => exact (List.append_nil pairs).symm
  | cons p more ih =>
      have habsent : ∀ q ∈ pairs, q.1 ≠ p.1 := by
        intro q hq
        rw [keys, List.map_append, List.nodup_append] at h
        exact h.2.2 q.1 (List.mem_map.mpr ⟨q, hq, rfl⟩) p.1 List.mem_cons_self
      have hmoved : pairs ++ p :: more = pairs ++ [p] ++ more := by
        rw [List.append_assoc, List.singleton_append]
      rw [hmoved] at h ⊢
      rw [← ih h, ← set_of_not_mem habsent p.2]
      rfl

theorem setAll_nil_of_nodup {pairs : List (String × α)} (h : (keys pairs).Nodup) :
    setAll [] pairs = pairs := setAll_of_nodup h

theorem has_iff {pairs : List (String × α)} {key : String} :
    has pairs key = true ↔ ∃ value, get? pairs key = some value := by
  unfold has
  rw [Option.isSome_iff_exists]

theorem has_iff_mem_keys {pairs : List (String × α)} {key : String} :
    has pairs key = true ↔ key ∈ keys pairs := by
  rw [has, ← Decidable.not_not (p := key ∈ keys pairs), ← get?_eq_none_iff, Option.isSome_iff_ne_none]

theorem get?_setAll (pairs more : List (String × α)) (key : String) :
    get? (setAll pairs more) key
      = ((more.reverse.find? fun p => p.1 = key).map (·.2)).or (get? pairs key) := by
  induction more generalizing pairs with
  | nil => rfl
  | cons p more ih =>
      show get? (setAll (set pairs p.1 p.2) more) key = _
      rw [ih, get?_set, List.reverse_cons, List.find?_append]
      cases more.reverse.find? (fun p => p.1 = key) with
      | some q => rfl
      | none =>
          by_cases h : p.1 = key
          · rw [if_pos h, List.find?_cons_of_pos (by simpa using h)]
            rfl
          · rw [if_neg h, List.find?_cons_of_neg (by simpa using h)]
            rfl

theorem find?_reverse {pairs : List (String × α)} (h : (keys pairs).Nodup) (key : String) :
    (pairs.reverse.find? fun p => p.1 = key).map (·.2) = get? pairs key := by
  have hset := get?_setAll [] pairs key
  rw [setAll_nil_of_nodup h] at hset
  rw [hset]
  exact Option.or_none.symm

theorem keys_filterMap (key : β → String) (l : List β) (read : β → Option α) :
    keys (l.filterMap fun b => (read b).map fun a => (key b, a))
      = (l.filter fun b => (read b).isSome).map key := by
  induction l with
  | nil => rfl
  | cons b l ih =>
      cases hread : read b with
      | some a =>
          rw [List.filterMap_cons_some (by rw [hread]; rfl),
            List.filter_cons_of_pos (by rw [hread]; rfl), List.map_cons, ← ih]
          rfl
      | none =>
          rw [List.filterMap_cons_none (by rw [hread]; rfl),
            List.filter_cons_of_neg (by rw [hread]; exact Bool.false_ne_true), ih]

theorem get?_filterMap {key : β → String} {l : List β} (h : (l.map key).Nodup)
    (read : β → Option α) {b : β} (hb : b ∈ l) :
    get? (l.filterMap fun b => (read b).map fun a => (key b, a)) (key b) = read b := by
  induction l with
  | nil => exact absurd hb List.not_mem_nil
  | cons c l ih =>
      obtain ⟨hc, hl⟩ := List.nodup_cons.mp h
      rcases List.mem_cons.mp hb with rfl | hb
      · cases hread : read b with
        | some a =>
            rw [List.filterMap_cons_some (by rw [hread]; rfl), get?, if_pos rfl]
        | none =>
            rw [List.filterMap_cons_none (by rw [hread]; rfl), get?_eq_none_iff, keys_filterMap]
            exact fun hmem => hc (List.map_subset _ List.filter_sublist.subset hmem)
      · have hne : key c ≠ key b := fun heq => hc (heq ▸ List.mem_map.mpr ⟨b, hb, rfl⟩)
        cases hread : read c with
        | some a =>
            rw [List.filterMap_cons_some (by rw [hread]; rfl), get?, if_neg hne, ih hl hb]
        | none => rw [List.filterMap_cons_none (by rw [hread]; rfl), ih hl hb]

theorem get?_map {key : β → String} {l : List β} (h : (l.map key).Nodup) (value : β → α) {b : β}
    (hb : b ∈ l) : get? (l.map fun b => (key b, value b)) (key b) = some (value b) := by
  rw [← get?_filterMap h (fun b => some (value b)) hb]
  simp only [Option.map_some, List.filterMap_eq_map']

theorem nodup_keys_filterMap {key : β → String} {l : List β} (h : (l.map key).Nodup)
    (read : β → Option α) :
    (keys (l.filterMap fun b => (read b).map fun a => (key b, a))).Nodup := by
  rw [keys_filterMap]
  exact h.sublist (List.filter_sublist.map key)

theorem mem_of_get?_eq_some {pairs : List (String × α)} {key : String} {value : α}
    (h : get? pairs key = some value) : (key, value) ∈ pairs := by
  induction pairs with
  | nil => cases h
  | cons p rest ih =>
      rw [get?] at h
      split at h
      · rename_i hkey
        cases h
        exact hkey ▸ List.mem_cons_self
      · exact List.mem_cons_of_mem p (ih h)

theorem get?_eq_some_iff {pairs : List (String × α)} (h : (keys pairs).Nodup) {key : String}
    {value : α} : get? pairs key = some value ↔ (key, value) ∈ pairs := by
  refine ⟨mem_of_get?_eq_some, fun hmem => ?_⟩
  have hget := get?_map (show (pairs.map (·.1)).Nodup from h) (·.2) hmem
  rwa [List.map_id'] at hget

theorem get?_setAll_of_ne {key : String} {more : List (String × α)} (h : ∀ p ∈ more, p.1 ≠ key)
    (pairs : List (String × α)) : get? (setAll pairs more) key = get? pairs key := by
  have habsent : more.reverse.find? (fun p => p.1 = key) = none := by
    rw [List.find?_eq_none]
    intro p hp
    simpa using h p (List.mem_reverse.mp hp)
  rw [get?_setAll, habsent]
  rfl

theorem map_set (g : α → β) (pairs : List (String × α)) (key : String) (value : α) :
    (set pairs key value).map (fun p => (p.1, g p.2))
      = set (pairs.map fun p => (p.1, g p.2)) key (g value) := by
  induction pairs with
  | nil => rfl
  | cons p rest ih =>
      simp only [set, List.map_cons]
      by_cases h : p.1 = key
      · rw [if_pos h, if_pos h]
        rfl
      · rw [if_neg h, if_neg h, List.map_cons, ih]

theorem mem_of_mem_set {pairs : List (String × α)} {key : String} {value : α} {p : String × α}
    (h : p ∈ set pairs key value) : p ∈ pairs ∨ p = (key, value) := by
  induction pairs with
  | nil => exact Or.inr (List.mem_singleton.mp h)
  | cons q rest ih =>
      simp only [set] at h
      by_cases hkey : q.1 = key
      · rw [if_pos hkey] at h
        rcases List.mem_cons.mp h with rfl | h
        · exact Or.inr (by rw [hkey])
        · exact Or.inl (List.mem_cons_of_mem _ h)
      · rw [if_neg hkey] at h
        rcases List.mem_cons.mp h with rfl | h
        · exact Or.inl List.mem_cons_self
        · exact (ih h).imp_left (List.mem_cons_of_mem _)

theorem mem_of_mem_setAll {pairs more : List (String × α)} {p : String × α} (h : p ∈ setAll pairs more) :
    p ∈ pairs ∨ p ∈ more := by
  induction more generalizing pairs with
  | nil => exact Or.inl h
  | cons q more ih =>
      rcases ih h with hset | hmore
      · exact (mem_of_mem_set hset).imp_right fun heq => List.mem_cons.mpr (Or.inl heq)
      · exact Or.inr (List.mem_cons_of_mem q hmore)

theorem set_cons_of_ne {p : String × α} {key : String} (h : p.1 ≠ key) (rest : List (String × α))
    (value : α) : set (p :: rest) key value = p :: set rest key value := by
  simp only [set]
  rw [if_neg h]

theorem keys_prefix_setAll (pairs more : List (String × α)) :
    keys pairs <+: keys (setAll pairs more) := by
  induction more generalizing pairs with
  | nil => exact List.prefix_rfl
  | cons p more ih =>
      refine List.IsPrefix.trans ?_ (ih (set pairs p.1 p.2))
      rw [keys_set]
      split
      · exact List.prefix_rfl
      · exact List.prefix_append _ _

theorem keys_append (pairs more : List (String × α)) :
    keys (pairs ++ more) = keys pairs ++ keys more := List.map_append

theorem get?_append (pairs more : List (String × α)) (key : String) :
    get? (pairs ++ more) key = (get? pairs key).or (get? more key) := by
  induction pairs with
  | nil => rfl
  | cons p rest ih =>
      rw [List.cons_append, get?, get?, ih]
      split <;> rfl

/-- The values of pairs, mapped. -/
def mapValues (g : α → β) (pairs : List (String × α)) : List (String × β) :=
  pairs.map fun p => (p.1, g p.2)

theorem get?_mapValues (g : α → β) (pairs : List (String × α)) (key : String) :
    get? (mapValues g pairs) key = (get? pairs key).map g := by
  induction pairs with
  | nil => rfl
  | cons p rest ih =>
      simp only [mapValues, List.map_cons, get?] at ih ⊢
      rw [ih]
      split <;> rfl

theorem mapValues_append (g : α → β) (pairs more : List (String × α)) :
    mapValues g (pairs ++ more) = mapValues g pairs ++ mapValues g more := List.map_append

theorem has_mapValues (g : α → β) (pairs : List (String × α)) (key : String) :
    has (mapValues g pairs) key = has pairs key := by
  rw [has, get?_mapValues, Option.isSome_map, has]

theorem get?_filter (take : String → Bool) {key : String} (h : take key = true)
    (pairs : List (String × α)) : get? (pairs.filter fun p => take p.1) key = get? pairs key := by
  induction pairs with
  | nil => rfl
  | cons p pairs ih =>
      by_cases hkey : p.1 = key
      · rw [List.filter_cons_of_pos (by rw [hkey]; exact h), get?, get?, if_pos hkey, if_pos hkey]
      · rw [get?, if_neg hkey, ← ih, List.filter_cons]
        split
        · rw [get?, if_neg hkey]
        · rfl

theorem mem_keys_setAll {pairs more : List (String × α)} {key : String} :
    key ∈ keys (setAll pairs more) ↔ key ∈ keys pairs ∨ key ∈ keys more := by
  induction more generalizing pairs with
  | nil => simp [setAll, keys]
  | cons p more ih =>
      show key ∈ keys (setAll (set pairs p.1 p.2) more) ↔ _
      rw [ih, keys_set]
      split
      · rename_i hkey
        constructor
        · exact Or.imp_right (List.mem_cons_of_mem _)
        · rintro (h | h)
          · exact Or.inl h
          · rcases List.mem_cons.mp h with rfl | h
            · exact Or.inl hkey
            · exact Or.inr h
      · simp only [keys, List.map_cons, List.mem_append, List.mem_cons, List.not_mem_nil, or_false,
          or_assoc]

end WebForm.Pairs
