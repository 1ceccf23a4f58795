/-
Which value a caller supplies for a name.

A caller gives values under keys, and a field looks for one under its name.  The rule is
said once, on a list of entries, without the table in which the texts of supplied values
are kept:

    entryFor? pairs name = (lastWhere? pairs (· = name)).or (lastWhere? pairs (lower · = name))

The last entry under exactly the name counts, or else the last one under a key that is the
name once its letters are made small; an entry that holds null counts nowhere
(`lastWhere?_eq_some_iff`, `lastWhere?_eq_none_iff`).  `valueFor?` is that rule for the
entries of a supplied value whose keys are texts, and `get?_ofValue` is what ties it to the
table: the table holds, under every name, the escaped text of the value for the name.

Two parts of the rule make the order of entries matter.  Keys that differ in the case of
their letters alone are distinct keys of a mapping, so several of them can be found for one
name; and a key is made small while a name is not, so a name with a capital letter is found
only exactly.  Where no entry but that of the name itself concerns the name, neither
matters (`entryFor?_of_mem`), which is the case for what an instance is written out as.

The text in the table is escaped, and `Text.unescape` reads it back; so two values have one
text in the table exactly when they have one text (`textOf_eq_iff`), and no such text has a
character that markup gives a meaning.
-/
import WebForm.Markup.Supplied
import WebForm.Proofs.Pairs

namespace WebForm

open WebForm.Text

namespace Supplied

/-! ## The entry for a name

A search from the end of a list.  The two `iff`s below are all that is used of it: an entry is
found if it holds a value, is asked for, and nothing after it is both. -/

/-- The last entry with a value under a key of which something is asked. -/
def lastWhere? (pairs : List (String × Value)) (ask : String → Bool) : Option (String × Value) :=
  pairs.reverse.find? fun p => p.2 != .null && ask p.1

/-- The entry that counts for a name. -/
def entryFor? (pairs : List (String × Value)) (name : String) : Option (String × Value) :=
  (lastWhere? pairs fun k => k = name).or (lastWhere? pairs fun k => lower k = name)

theorem find?_reverse_eq_some_iff {α : Type} {p : α → Bool} {l : List α} {a : α} :
    l.reverse.find? p = some a
      ↔ p a = true ∧ ∃ before after, l = before ++ a :: after ∧ ∀ b ∈ after, p b = false := by
  rw [List.find?_eq_some_iff_append]
  refine and_congr_right fun _ => ?_
  constructor
  · rintro ⟨after, before, hsplit, hafter⟩
    refine ⟨before.reverse, after.reverse, ?_, fun b hb => ?_⟩
    · rw [← List.reverse_reverse l, hsplit, List.reverse_append, List.reverse_cons,
        List.append_assoc]
      rfl
    · simpa using hafter b (List.mem_reverse.mp hb)
  · rintro ⟨before, after, rfl, hafter⟩
    refine ⟨after.reverse, before.reverse, ?_, fun b hb => ?_⟩
    · rw [List.reverse_append, List.reverse_cons, List.append_assoc]
      rfl
    · simpa using hafter b (List.mem_reverse.mp hb)

section

variable {pairs : List (String × Value)} {ask : String → Bool} {name : String}

theorem not_counts_iff {p : String × Value} :
    (p.2 != .null && ask p.1) = false ↔ (ask p.1 = true → p.2 = .null) := by
  cases ask p.1 <;> simp

theorem lastWhere?_eq_none_iff :
    lastWhere? pairs ask = none ↔ ∀ p ∈ pairs, ask p.1 = true → p.2 = .null := by
  unfold lastWhere?
  simp only [List.find?_eq_none, List.mem_reverse, Bool.not_eq_true, not_counts_iff]

theorem lastWhere?_eq_some_iff {p : String × Value} :
    lastWhere? pairs ask = some p ↔ p.2 ≠ .null ∧ ask p.1 = true ∧ ∃ before after,
      pairs = before ++ p :: after ∧ ∀ q ∈ after, ask q.1 = true → q.2 = .null := by
  unfold lastWhere?
  simp only [find?_reverse_eq_some_iff, Bool.and_eq_true, bne_iff_ne, and_assoc, not_counts_iff]

/-- Of distinct keys the last that is the name is the only one. -/
theorem lastWhere?_exact_iff (h : (Pairs.keys pairs).Nodup) {p : String × Value} :
    lastWhere? pairs (fun k => k = name) = some p ↔ p.1 = name ∧ p ∈ pairs ∧ p.2 ≠ .null := by
  rw [lastWhere?_eq_some_iff, decide_eq_true_eq]
  constructor
  · rintro ⟨hv, hkey, before, after, rfl, _⟩
    exact ⟨hkey, List.mem_append_right _ List.mem_cons_self, hv⟩
  · rintro ⟨rfl, hmem, hv⟩
    obtain ⟨before, after, rfl⟩ := List.append_of_mem hmem
    refine ⟨hv, rfl, before, after, rfl, fun q hq hkey => ?_⟩
    rw [Pairs.keys_append, List.nodup_append] at h
    exact absurd (List.mem_map.mpr ⟨q, hq, of_decide_eq_true hkey⟩) (List.nodup_cons.mp h.2.1).1

theorem entryFor?_eq_none_iff : entryFor? pairs name = none
    ↔ (∀ p ∈ pairs, p.1 = name → p.2 = .null) ∧ ∀ p ∈ pairs, lower p.1 = name → p.2 = .null := by
  unfold entryFor?
  simp only [Option.or_eq_none_iff, lastWhere?_eq_none_iff, decide_eq_true_eq]

/-- An entry among distinct keys counts for its key; and if it holds null, nothing does, unless
another key becomes that key in small letters. -/
theorem entryFor?_of_mem (hkeys : (Pairs.keys pairs).Nodup) {p : String × Value} (hp : p ∈ pairs)
    (hapart : p.2 = .null → ∀ q ∈ pairs, lower q.1 = p.1 → q.2 = .null) :
    entryFor? pairs p.1 = if p.2 = .null then none else some p := by
  split
  · rename_i hnull
    refine entryFor?_eq_none_iff.mpr ⟨fun q hq hkey => ?_, hapart hnull⟩
    have hown := (Pairs.get?_eq_some_iff hkeys).mpr hq
    rw [hkey, (Pairs.get?_eq_some_iff hkeys).mpr hp] at hown
    exact (Option.some.inj hown).symm.trans hnull
  · rename_i hv
    unfold entryFor?
    rw [(lastWhere?_exact_iff hkeys).mpr ⟨rfl, hp, hv⟩, Option.some_or]

/-! ## The value for a name -/

/-- The entries of a value whose keys are texts. -/
def keyed (values : Value) : List (String × Value) :=
  ((values.dumpedEntries?).getD []).filterMap fun e => e.1.asText?.map fun k => (k, e.2)

/-- The value that a caller supplies for a name. -/
def valueFor? (values : Value) (name : String) : Option Value :=
  (entryFor? (keyed values) name).map (·.2)

theorem keyed_of_dumped {values : Value}
    (h : values.dumpedEntries? = some (pairs.map fun p => (.str p.1, p.2))) :
    keyed values = pairs := by
  unfold keyed
  rw [h, Option.getD_some, List.filterMap_map]
  exact List.filterMap_some

theorem keyed_ofPairs (pairs : List (String × Value)) : keyed (.ofPairs pairs) = pairs :=
  keyed_of_dumped rfl

theorem valueFor?_of_dumped {values : Value}
    (h : values.dumpedEntries? = some (pairs.map fun p => (.str p.1, p.2)))
    (hkeys : (Pairs.keys pairs).Nodup) {p : String × Value} (hp : p ∈ pairs)
    (hapart : p.2 = .null → ∀ q ∈ pairs, lower q.1 = p.1 → q.2 = .null) :
    valueFor? values p.1 = if p.2 = .null then none else some p.2 := by
  unfold valueFor?
  rw [keyed_of_dumped h, entryFor?_of_mem hkeys hp hapart]
  split <;> rfl

theorem valueFor?_of_mem (h : ∀ p ∈ pairs, p.2 ≠ .null) (hkeys : (Pairs.keys pairs).Nodup)
    {p : String × Value} (hp : p ∈ pairs) : valueFor? (.ofPairs pairs) p.1 = some p.2 := by
  rw [valueFor?_of_dumped rfl hkeys hp fun hnull => absurd hnull (h p hp), if_neg (h p hp)]

theorem valueFor?_ofPairs (h : ∀ p ∈ pairs, p.2 ≠ .null) (hkeys : (Pairs.keys pairs).Nodup)
    (hapart : ∀ p ∈ pairs, lower p.1 = name → p.1 = name) :
    valueFor? (.ofPairs pairs) name = Pairs.get? pairs name := by
  cases hget : Pairs.get? pairs name with
  | some v => exact valueFor?_of_mem h hkeys (Pairs.mem_of_get?_eq_some hget)
  | none =>
      have habsent : ∀ p ∈ pairs, p.1 ≠ name := fun p hp hkey =>
        (Pairs.get?_eq_none_iff _ _).mp hget (List.mem_map.mpr ⟨p, hp, hkey⟩)
      unfold valueFor?
      rw [keyed_ofPairs, entryFor?_eq_none_iff.mpr ⟨fun p hp hkey => absurd hkey (habsent p hp),
        fun p hp hkey => absurd (hapart p hp hkey) (habsent p hp)⟩]
      rfl

theorem valueFor?_single {key : String} {v : Value} (h : v ≠ .null) (name : String) :
    valueFor? (.ofPairs [(key, v)]) name
      = if key = name ∨ lower key = name then some v else none := by
  unfold valueFor? entryFor? lastWhere?
  rw [keyed_ofPairs]
  by_cases hkey : key = name
  · simp [hkey, h]
  · by_cases hlower : lower key = name <;> simp [hkey, hlower, h]

end

/-! ## The table

The table is filled from the entries that hold a value; all of their keys have to be texts.  It is
filled twice, so that the text under the exact name covers that under a key in small letters. -/

/-- The entries that hold a value. -/
def present (pairs : List (String × Value)) : List (String × Value) :=
  pairs.filter fun p => p.2 != .null

theorem get?_ofPairs (pairs : List (String × Value)) (name : String) :
    Pairs.get? (ofPairs pairs) name
      = (((pairs.reverse.find? fun p => p.1 = name).or
          (pairs.reverse.find? fun p => lower p.1 = name)).map (·.2)).map textOf := by
  unfold ofPairs
  rw [Pairs.get?_setAll, Pairs.get?_setAll, ← List.map_reverse, ← List.map_reverse, List.find?_map,
    List.find?_map]
  show (Option.map _ (Option.map _ (pairs.reverse.find? fun p => p.1 = name))).or
    ((Option.map _ (Option.map _ (pairs.reverse.find? fun p => lower p.1 = name))).or _) = _
  cases pairs.reverse.find? (fun p => p.1 = name) with
  | some p => rfl
  | none =>
      cases pairs.reverse.find? (fun p => lower p.1 = name) with
      | some p => rfl
      | none => rfl

/-- The table of the entries that hold a value has the text of the entry that counts. -/
theorem get?_present (pairs : List (String × Value)) (name : String) :
    Pairs.get? (ofPairs (present pairs)) name = (entryFor? pairs name).map fun p => textOf p.2 := by
  rw [get?_ofPairs, Option.map_map]
  unfold present entryFor? lastWhere?
  rw [← List.filter_reverse, List.find?_filter, List.find?_filter]
  simp only [Bool.decide_and, Bool.decide_eq_true]
  rfl

/-- What is given is what is present among the entries with texts as keys. -/
theorem given_eq_ok {entries : List (Value × Value)} {pairs : List (String × Value)}
    (h : given entries = .ok pairs) :
    present (entries.filterMap fun e => e.1.asText?.map fun k => (k, e.2)) = pairs := by
  unfold present
  induction entries generalizing pairs with
  | nil =>
      cases h
      rfl
  | cons e entries ih =>
      unfold given at h
      by_cases hnull : e.2 = .null
      · rw [List.filter_cons_of_neg (by simp [hnull])] at h
        rw [← ih h]
        cases htext : e.1.asText? with
        | none => rw [List.filterMap_cons_none (by rw [htext]; rfl)]
        | some k =>
            rw [List.filterMap_cons_some (by rw [htext]; rfl), List.filter_cons_of_neg (by simp [hnull])]
      · rw [List.filter_cons_of_pos (by simpa using hnull), List.mapM_cons] at h
        cases htext : e.1.asText? with
        | none =>
            rw [htext] at h
            cases h
        | some k =>
            rw [htext] at h
            rw [List.filterMap_cons_some (by rw [htext]; rfl),
              List.filter_cons_of_pos (by simpa using hnull)]
            cases hrest : given entries with
            | error f =>
                unfold given at hrest
                rw [hrest] at h
                cases h
            | ok rest =>
                rw [ih hrest]
                unfold given at hrest
                rw [hrest] at h
                cases h
                rfl

/-- Entries with texts as keys can be given. -/
theorem given_eq {entries : List (Value × Value)} {pairs : List (String × Value)}
    (h : entries.map (fun e => (e.1.asText?, e.2)) = pairs.map fun p => (some p.1, p.2)) :
    given entries = .ok (present pairs) := by
  unfold given present
  induction entries generalizing pairs with
  | nil =>
      cases pairs with
      | nil => rfl
      | cons p pairs => cases h
  | cons e entries ih =>
      cases pairs with
      | nil => cases h
      | cons p pairs =>
          rw [List.map_cons, List.map_cons, List.cons.injEq, Prod.mk.injEq] at h
          obtain ⟨⟨hkey, hvalue⟩, hrest⟩ := h
          rw [List.filter_cons, List.filter_cons, ← hvalue]
          split
          · rw [List.mapM_cons, hkey, ih hrest, hvalue]
            rfl
          · exact ih hrest

theorem ofValue_ofPairs {pairs : List (String × Value)} (h : ∀ p ∈ pairs, p.2 ≠ .null) :
    ofValue (.ofPairs pairs) = .ok (ofPairs pairs) := by
  have hgiven : given (pairs.map fun p => (.str p.1, p.2)) = .ok (present pairs) :=
    given_eq (by rw [List.map_map]; rfl)
  have hpresent : present pairs = pairs := List.filter_eq_self.mpr fun p hp => by simpa using h p hp
  show (given _).map ofPairs = _
  rw [hgiven, hpresent]
  rfl

theorem ofValue_single {key : String} {v : Value} (h : v ≠ .null) :
    ofValue (.ofPairs [(key, v)]) = .ok (ofPairs [(key, v)]) :=
  ofValue_ofPairs (List.forall_mem_singleton.mpr h)

/-- The table of supplied values holds the text of the value for a name. -/
theorem get?_ofValue {values : Value} {supplied : Supplied} (h : ofValue values = .ok supplied)
    (name : String) : Pairs.get? supplied name = (valueFor? values name).map textOf := by
  unfold ofValue at h
  split at h
  · cases h
    rfl
  · split at h
    · rename_i entries hentries
      cases hgiven : given entries with
      | error f =>
          rw [hgiven] at h
          cases h
      | ok pairs =>
          rw [hgiven] at h
          cases h
          unfold valueFor? keyed
          rw [hentries, Option.getD_some, ← given_eq_ok hgiven, get?_present, Option.map_map]
          rfl
    · cases h

/-! ## Texts of values -/

theorem isMarkupChar_of_mem_textOf {v : Value} {c : Char} (h : c ∈ (textOf v).toList) :
    isMarkupChar c = false := by
  unfold textOf escape at h
  rw [String.toList_ofList] at h
  exact isMarkupChar_of_mem_escapeChars h

theorem unescape_textOf (v : Value) : unescape (textOf v) = v.attributeText :=
  unescape_escape v.attributeText

theorem textOf_eq_iff {v w : Value} : textOf v = textOf w ↔ v.attributeText = w.attributeText := by
  constructor
  · intro h
    rw [← unescape_textOf, h, unescape_textOf]
  · intro h
    unfold textOf
    rw [h]

end Supplied

end WebForm
