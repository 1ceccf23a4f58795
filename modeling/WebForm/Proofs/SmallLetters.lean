/-
Small letters.

Names are compared in small letters in several places: in the names of attributes, in the keys
under which values are supplied, in the options of a form.  All that is used is that making
letters small once is enough,

    lower (lower s) = lower s

and for names in ASCII that it is done letter by letter (`lower_of_ascii`).

The first is a fact about a table of runs of characters.  A run says which characters it
holds, in steps of one or two, and by how much they are shifted.  To check for every character
that its small form is small would be a computation of more than a million steps.  Instead the
table is checked run by run: what a run is shifted to stays apart from every run, and two runs
can be compared by their ends and their steps alone (`CaseRun.apart`).  There are few enough
runs for all pairs of them to be decided.

Two characters do not follow the table.  The small form of the capital sigma depends on its
place in the word; both of its forms are small, and a small character is never the capital
one, so that its place need not be known when letters are made small again.  And one letter
has a small form of two characters, which is why `isSmall` excludes it by its number.

Nothing is said about capital letters, and the converse of the main theorem makes no sense: a
text has one small form, and many texts share it.
-/
import WebForm.Text.Case

namespace WebForm.Text

/-- A character that is its own small letter wherever it stands. -/
def isSmall (c : Char) : Bool := c.toNat != 0x130 && lowerRuns.all fun r => !r.holds c.toNat

theorem not_holds_of_isSmall {c : Char} (h : isSmall c = true) {r : CaseRun} (hr : r ∈ lowerRuns) :
    r.holds c.toNat = false := by
  rw [isSmall, Bool.and_eq_true, List.all_eq_true] at h
  simpa using h.2 r hr

theorem lowerChar_of_isSmall {c : Char} (h : isSmall c = true) : lowerChar c = [c] := by
  have hne : c.toNat ≠ 0x130 := bne_iff_ne.mp (Bool.and_eq_true_iff.mp h).1
  have hnone : lowerRuns.find? (·.holds c.toNat) = none :=
    List.find?_eq_none.mpr fun r hr => by simp [not_holds_of_isSmall h hr]
  rw [lowerChar, if_neg hne, hnone]

theorem lowerAt_of_isSmall {c : Char} (h : isSmall c = true) (before rest : List Char) :
    lowerAt before c rest = [c] := by
  have hne : c.toNat ≠ 0x3a3 := by
    intro heq
    have hholds := not_holds_of_isSmall h (r := (0x3a3, 0x3ab, 1, 32)) (by decide)
    rw [heq] at hholds
    exact absurd hholds (by decide)
  rw [lowerAt, if_neg hne, lowerChar_of_isSmall h]

theorem lowerFrom_of_isSmall {cs : List Char} (h : ∀ c ∈ cs, isSmall c = true)
    (before : List Char) : lowerFrom before cs = cs := by
  induction cs generalizing before with
  | nil => rfl
  | cons c cs ih =>
      obtain ⟨hc, hcs⟩ := List.forall_mem_cons.mp h
      rw [lowerFrom, lowerAt_of_isSmall hc, ih hcs, List.singleton_append]

/-! ## The table

Two runs are apart if what the one is shifted to lies outside the other, or falls between its
steps. -/

/-- What a run is shifted to is not held by another run. -/
def CaseRun.apart (r q : CaseRun) : Bool :=
  let first := (r.1 + r.2.2.2).toNat
  let last := (r.2.1 + r.2.2.2).toNat
  Nat.blt last q.1 || Nat.blt q.2.1 first
    || ((r.2.2.1 == 2 || r.1 == r.2.1) && q.2.2.1 == 2 && (first + q.1) % 2 == 1)

/-- The runs of small letters are apart from all runs, and from the letter that stands alone. -/
theorem apart_lowerRuns :
    lowerRuns.all (fun r => ((0x130, 0x130, 1, 0) :: lowerRuns).all r.apart) = true := by
  decide +kernel

theorem shift_lowerRuns : lowerRuns.all (fun r => 0 ≤ r.1 + r.2.2.2) = true := by decide

theorem not_holds_of_apart {r q : CaseRun} (h : r.apart q = true) (hr : 0 ≤ r.1 + r.2.2.2) {n : Nat}
    (hn : r.holds n = true) : q.holds (n + r.2.2.2).toNat = false := by
  obtain ⟨first, last, step, distance⟩ := r
  obtain ⟨first', last', step', distance'⟩ := q
  simp only [CaseRun.holds, Bool.and_eq_true, decide_eq_true_eq, beq_iff_eq] at hn
  simp only [CaseRun.apart, Bool.or_eq_true, Bool.and_eq_true, Nat.blt_eq, beq_iff_eq] at h
  simp only [CaseRun.holds, Bool.and_eq_false_iff, decide_eq_false_iff_not, beq_eq_false_iff_ne]
  simp only at hr
  rcases h with (h | h) | ⟨⟨rfl | rfl, rfl⟩, h⟩ <;> omega

theorem isSmall_shift {r : CaseRun} (hr : r ∈ lowerRuns) {n : Nat} (hn : r.holds n = true) :
    isSmall (r.shift n) = true := by
  have hapart : ∀ q : CaseRun, q ∈ (0x130, 0x130, 1, 0) :: lowerRuns →
      q.holds (n + r.2.2.2).toNat = false := by
    intro q hq
    refine not_holds_of_apart ?_ ?_ hn
    · exact List.all_eq_true.mp (List.all_eq_true.mp apart_lowerRuns r hr) q hq
    · simpa using List.all_eq_true.mp shift_lowerRuns r hr
  obtain ⟨hlone, hruns⟩ := List.forall_mem_cons.mp hapart
  unfold CaseRun.shift
  generalize (n + r.2.2.2).toNat = m at hlone hruns
  by_cases hvalid : m.isValidChar
  · have hm : (Char.ofNat m).toNat = m := by
      rw [Char.ofNat, dif_pos hvalid]
      rfl
    rw [isSmall, hm, Bool.and_eq_true, List.all_eq_true]
    refine ⟨?_, fun q hq => by rw [hruns q hq]; rfl⟩
    rw [bne_iff_ne]
    rintro rfl
    exact absurd hlone (by decide)
  · rw [Char.ofNat, dif_neg hvalid]
    decide

theorem isSmall_of_mem_lowerChar {c d : Char} (h : d ∈ lowerChar c) : isSmall d = true := by
  unfold lowerChar at h
  split at h
  · simp only [List.mem_cons, List.not_mem_nil, or_false] at h
    rcases h with rfl | rfl <;> decide
  · rename_i hne
    split at h
    · rename_i r hr
      rw [List.mem_singleton.mp h]
      have hholds : r.holds c.toNat = true := by simpa using List.find?_some hr
      exact isSmall_shift (List.mem_of_find?_eq_some hr) hholds
    · rename_i hnone
      rw [List.mem_singleton.mp h, isSmall, Bool.and_eq_true, List.all_eq_true, bne_iff_ne]
      exact ⟨hne, fun r hr => by simpa using List.find?_eq_none.mp hnone r hr⟩

theorem isSmall_of_mem_lowerFrom {before cs : List Char} {d : Char} (h : d ∈ lowerFrom before cs) :
    isSmall d = true := by
  induction cs generalizing before with
  | nil => exact absurd h List.not_mem_nil
  | cons c cs ih =>
      rw [lowerFrom] at h
      rcases List.mem_append.mp h with h | h
      · unfold lowerAt at h
        split at h
        · rw [List.mem_singleton.mp h]
          split <;> decide
        · exact isSmall_of_mem_lowerChar h
      · exact ih h

/-- Small letters stay as they are. -/
theorem lower_lower (s : String) : lower (lower s) = lower s := by
  unfold lower
  rw [String.toList_ofList, lowerFrom_of_isSmall fun d hd => isSmall_of_mem_lowerFrom hd]

/-! ## ASCII -/

theorem lowerChar_of_ascii {c : Char} (h : c.toNat < 128) : lowerChar c = [c.toLower] := by
  have beyond : lowerRuns.tail.all (fun r => 128 ≤ r.1) = true := by decide +kernel
  have hnone : lowerRuns.tail.find? (·.holds c.toNat) = none := by
    rw [List.find?_eq_none]
    intro r hr
    have hr : 128 ≤ r.1 := of_decide_eq_true (List.all_eq_true.mp beyond r hr)
    simp only [CaseRun.holds, Bool.and_eq_true, decide_eq_true_eq]
    omega
  have hfind : lowerRuns.find? (·.holds c.toNat)
      = if CaseRun.holds (0x41, 0x5a, 1, 32) c.toNat then some (0x41, 0x5a, 1, 32) else none := by
    have hsplit : lowerRuns = (0x41, 0x5a, 1, 32) :: lowerRuns.tail := rfl
    rw [hsplit, List.find?_cons, hnone]
    cases CaseRun.holds (0x41, 0x5a, 1, 32) c.toNat <;> rfl
  have first : ∀ n < 128, (if CaseRun.holds (0x41, 0x5a, 1, 32) n
      then [CaseRun.shift (0x41, 0x5a, 1, 32) n] else [Char.ofNat n])
        = [(Char.ofNat n).toLower] := by decide +kernel
  have hne : c.toNat ≠ 0x130 := by omega
  have hc := first c.toNat h
  rw [Char.ofNat_toNat] at hc
  rw [← hc, lowerChar, if_neg hne, hfind]
  cases CaseRun.holds (0x41, 0x5a, 1, 32) c.toNat <;> rfl

theorem lowerFrom_of_ascii {cs : List Char} (h : ∀ c ∈ cs, c.toNat < 128) (before : List Char) :
    lowerFrom before cs = cs.map Char.toLower := by
  induction cs generalizing before with
  | nil => rfl
  | cons c cs ih =>
      obtain ⟨hc, hcs⟩ := List.forall_mem_cons.mp h
      have hne : c.toNat ≠ 0x3a3 := by omega
      rw [lowerFrom, lowerAt, if_neg hne, lowerChar_of_ascii hc, ih hcs, List.map_cons,
        List.singleton_append]

/-- In ASCII letters are made small one by one. -/
theorem lower_of_ascii {s : String} (h : ∀ c ∈ s.toList, c.toNat < 128) :
    lower s = String.ofList (s.toList.map Char.toLower) := by
  rw [lower, lowerFrom_of_ascii h]

theorem lower_of_ascii_small {s : String}
    (h : s.toList.all (fun c => c.toNat < 128 && c.toLower == c) = true) : lower s = s := by
  have hchars : ∀ c ∈ s.toList, c.toNat < 128 ∧ c.toLower = c := by
    simpa only [List.all_eq_true, Bool.and_eq_true, decide_eq_true_eq, beq_iff_eq] using h
  have hmap : s.toList.map Char.toLower = s.toList :=
    (List.map_congr_left fun c hc => (hchars c hc).2).trans (List.map_id' s.toList)
  rw [lower_of_ascii fun c hc => (hchars c hc).1, hmap, String.ofList_toList]

end WebForm.Text
