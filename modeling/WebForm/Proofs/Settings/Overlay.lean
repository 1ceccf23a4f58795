/-
Mappings with texts for keys, laid over one another.

Settings are mappings, and a source that counts more is laid over one that counts less, key by
key.  Where both have a mapping under a key, these are laid over one another in turn.  In
general the keys are values and are compared as values, but for settings all keys are texts,
and then a mapping is a list of pairs (`Value.keyed`) and laying one over another is a
function on pairs:

    overlay (.ofPairs below) (.ofPairs more) = .ofPairs (Pairs.overlaid below more)

What is found under a key is then what the upper pairs have there, laid over what the lower
ones have (`get?_overlaid`).  Under every other key nothing changes, and what is below keeps
its place, so that of two distinct keys none can hide what stands under the other.  That two
keys may be two spellings of one thing is not known here, and not heeded.

The upper pairs are assumed to have distinct keys.  With a key that occurs twice, the second
value would be laid over the first, and for mappings that is neither of the two.

For texts there is nothing to be laid over: whatever comes above a text hides it
(`overlay_str`).
-/
import WebForm.Proofs.Pairs
import WebForm.Value.Merge

namespace WebForm

/-! ## Pairs over pairs -/

namespace Pairs

/-- The values of some pairs, each laid over what stands under its key. -/
def overlaid (below : List (String × Value)) : List (String × Value) → List (String × Value)
  | [] => below
  | (k, v) :: rest =>
    overlaid (set below k (((get? below k).map fun old => old.overlay v).getD v)) rest

theorem get?_overlaid {more : List (String × Value)} (h : (keys more).Nodup)
    (below : List (String × Value)) (key : String) :
    get? (overlaid below more) key
      = ((get? more key).map fun v => ((get? below key).map fun old => old.overlay v).getD v).or
          (get? below key) := by
  induction more generalizing below with
  | nil => rfl
  | cons p more ih =>
      obtain ⟨k, v⟩ := p
      obtain ⟨hk, hmore⟩ := List.nodup_cons.mp h
      rw [overlaid, ih hmore, get?_set, get?]
      by_cases heq : k = key
      · have hnone : get? more key = none := (get?_eq_none_iff more key).mpr (heq ▸ hk)
        rw [if_pos heq, if_pos heq, hnone, heq]
        rfl
      · rw [if_neg heq, if_neg heq]

theorem mem_keys_overlaid {more : List (String × Value)} (h : (keys more).Nodup)
    (below : List (String × Value)) {key : String} :
    key ∈ keys (overlaid below more) ↔ key ∈ keys more ∨ key ∈ keys below := by
  simp only [← has_iff_mem_keys, has, get?_overlaid h, Option.isSome_or, Option.isSome_map,
    Bool.or_eq_true]

theorem overlaid_nil {more : List (String × Value)} (h : (keys more).Nodup) :
    overlaid [] more = more := by
  have hset : ∀ before : List (String × Value), (keys (before ++ more)).Nodup →
      overlaid before more = before ++ more := by
    clear h
    induction more with
    | nil => exact fun before _ => (List.append_nil before).symm
    | cons p more ih =>
        intro before hbefore
        have habsent : ∀ q ∈ before, q.1 ≠ p.1 := by
          intro q hq
          rw [keys, List.map_append, List.nodup_append] at hbefore
          exact hbefore.2.2 q.1 (List.mem_map.mpr ⟨q, hq, rfl⟩) p.1 List.mem_cons_self
        have hnone : get? before p.1 = none := by
          rw [get?_eq_none_iff]
          intro hmem
          obtain ⟨q, hq, heq⟩ := List.mem_map.mp hmem
          exact habsent q hq heq
        have hmoved : before ++ p :: more = before ++ [p] ++ more := by
          rw [List.append_assoc, List.singleton_append]
        rw [hmoved] at hbefore ⊢
        rw [← ih _ hbefore, overlaid, hnone, Option.map_none, Option.getD_none,
          set_of_not_mem habsent]
  exact hset [] h

theorem nodup_keys_overlaid {below : List (String × Value)} (h : (keys below).Nodup)
    (more : List (String × Value)) : (keys (overlaid below more)).Nodup := by
  induction more generalizing below with
  | nil => exact h
  | cons p more ih => exact ih (nodup_keys_set h p.1 _)

end Pairs

/-! ## Mappings of pairs

Setting an entry of a mapping and looking one up go by the equality of values, which for texts
is that of texts. -/

namespace Value

/-- Pairs as the entries of a mapping. -/
def keyed (pairs : List (String × Value)) : List (Value × Value) := pairs.map fun p => (.str p.1, p.2)

theorem same_str (a b : String) : (Value.str a).same (.str b) = decide (a = b) := by
  by_cases h : a = b <;> simp [same, plain, asInteger?, asText?, h]

theorem setEntry_keyed (pairs : List (String × Value)) (key : String) (value : Value) :
    setEntry (keyed pairs) (.str key) value = keyed (Pairs.set pairs key value) := by
  induction pairs with
  | nil => rfl
  | cons p pairs ih =>
      show setEntry ((.str p.1, p.2) :: keyed pairs) _ _ = _
      rw [setEntry, ih, same_str, Pairs.set]
      by_cases h : p.1 = key
      · rw [if_pos (decide_eq_true h), if_pos h]
        rfl
      · rw [if_neg (by simpa using h), if_neg h]
        rfl

theorem entryOf?_keyed (pairs : List (String × Value)) (key : String) :
    entryOf? (keyed pairs) (.str key) = Pairs.get? pairs key := by
  induction pairs with
  | nil => rfl
  | cons p pairs ih =>
      unfold entryOf? at ih ⊢
      show ((((.str p.1, p.2) :: keyed pairs).find? _).map _) = _
      rw [List.find?_cons, same_str, Pairs.get?]
      by_cases h : p.1 = key
      · rw [decide_eq_true h, if_pos h]
        rfl
      · rw [decide_eq_false h, if_neg h]
        exact ih

/-- Steps that set entries under texts come to setting the pairs. -/
theorem foldl_keyed {α : Type} {step : List (Value × Value) → α → List (Value × Value)}
    (said : α → Option (String × Value)) {xs : List α}
    (h : ∀ x ∈ xs, ∀ acc, step (keyed acc) x = keyed (Pairs.setAll acc (said x).toList))
    (acc : List (String × Value)) :
    xs.foldl step (keyed acc) = keyed (Pairs.setAll acc (xs.filterMap said)) := by
  induction xs generalizing acc with
  | nil => rfl
  | cons x xs ih =>
      obtain ⟨hx, hxs⟩ := List.forall_mem_cons.mp h
      rw [List.foldl_cons, hx, ih hxs]
      cases hsaid : said x with
      | none => rw [List.filterMap_cons_none hsaid]; rfl
      | some p => rw [List.filterMap_cons_some hsaid]; rfl

theorem overlayEntries_keyed (below more : List (String × Value)) :
    overlayEntries (keyed below) (keyed more) = keyed (Pairs.overlaid below more) := by
  induction more generalizing below with
  | nil => rfl
  | cons p more ih =>
      show overlayEntries (keyed below) ((.str p.1, p.2) :: keyed more) = _
      rw [overlayEntries, entryOf?_keyed, setEntry_keyed, ih, Pairs.overlaid]
      cases Pairs.get? below p.1 <;> rfl

theorem overlay_ofPairs (below more : List (String × Value)) :
    overlay (.ofPairs below) (.ofPairs more) = .ofPairs (Pairs.overlaid below more) := by
  show overlay (.map (keyed below)) (.map (keyed more)) = .map (keyed _)
  rw [overlay, overlayEntries_keyed]

/-- A text is hidden by whatever is laid over it. -/
theorem overlay_str (t : String) (v : Value) : overlay (.str t) v = v := by
  cases v <;> rfl

end Value

end WebForm
