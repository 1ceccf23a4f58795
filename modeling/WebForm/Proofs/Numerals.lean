/-
Numerals that are read twice: by a submission, and by the check of what it reads.

The two readers take different texts.  The reader of a submission knows digits of other
scripts, blanks of all sorts and single underscores between digits; that of a check knows
ASCII, drops zeros in front, and reads a fraction of zeros as none.  Neither takes all that
the other does.  What matters is that of a text which both take they make one number:

    readInteger? s = some i → checkInteger s = .ok j → i = j
    readFloat? s = some x → checkFloat? s = some y → x = y

so that a form which reads a number before it is checked never changes it.

A numeral that a check takes is written in ASCII between its blanks, and a submission sees
such a text unchanged (`plainNumeral_eq`).  From there both readers take a sign and digits
with underscores apart; and what a check drops, zeros in front, a plus and underscores, does
not count in the value of the digits.  Floats need less.  Once the characters are known to be
ink without underscores, both readers hand the same characters to the same function.

The last section is about the way back.  The decimal text of an integer is read as the
integer, as long as it has no more digits than a text may have (`readInteger?_intText_of_lt`);
and an integer that a submission has read is never longer than that.
-/
import Mathlib.Algebra.Group.Nat.Defs
import Mathlib.Data.List.Induction
import Mathlib.Data.List.TakeWhile
import WebForm.Number.Numeral
import WebForm.Value.Text

namespace WebForm

open WebForm.Number WebForm.Text

/-! ## Trimming

A text between blanks is what is left when characters are taken off both ends. -/

namespace Text

variable {p : Char → Bool}

/-- Trimming takes characters off both ends. -/
theorem exists_trim (p : Char → Bool) (cs : List Char) :
    ∃ before after, cs = before ++ trim p cs ++ after ∧ (∀ c ∈ before, p c = true) ∧
      ∀ c ∈ after, p c = true := by
  refine ⟨cs.takeWhile p, ((cs.dropWhile p).reverse.takeWhile p).reverse, ?_, ?_, ?_⟩
  · have hback : trim p cs ++ ((cs.dropWhile p).reverse.takeWhile p).reverse = cs.dropWhile p := by
      rw [trim, ← List.reverse_append, List.takeWhile_append_dropWhile, List.reverse_reverse]
    rw [List.append_assoc, hback, List.takeWhile_append_dropWhile]
  · exact fun c hc => List.all_eq_true.mp List.all_takeWhile c hc
  · intro c hc
    exact List.all_eq_true.mp List.all_takeWhile c (List.mem_reverse.mp hc)

theorem dropWhile_eq_self {cs : List Char} (h : ∀ c ∈ cs, p c = false) : cs.dropWhile p = cs := by
  cases cs with
  | nil => rfl
  | cons c cs => rw [List.dropWhile_cons_of_neg (by simp [h c List.mem_cons_self])]

theorem trim_append {before cs after : List Char} (hbefore : ∀ c ∈ before, p c = true)
    (h : ∀ c ∈ cs, p c = false) (hafter : ∀ c ∈ after, p c = true) :
    trim p (before ++ cs ++ after) = cs := by
  have hall : after.dropWhile p = [] := List.dropWhile_eq_nil_iff.mpr hafter
  unfold trim
  rw [List.append_assoc, List.dropWhile_append_of_pos hbefore]
  cases cs with
  | nil => rw [List.nil_append, hall]; rfl
  | cons c cs =>
      rw [List.cons_append, List.dropWhile_cons_of_neg (by simp [h c List.mem_cons_self]),
        ← List.cons_append, List.reverse_append, List.dropWhile_append_of_pos
          (fun c hc => hafter c (List.mem_reverse.mp hc)),
        dropWhile_eq_self fun c hc => h c (List.mem_reverse.mp hc), List.reverse_reverse]

theorem trim_eq_self {cs : List Char} (h : ∀ c ∈ cs, p c = false) : trim p cs = cs := by
  have hnone : ∀ c ∈ ([] : List Char), p c = true := fun _ hc => absurd hc List.not_mem_nil
  simpa using trim_append hnone h hnone

theorem eq_false_of_dropWhile_eq_cons {c : Char} {cs rest : List Char}
    (h : cs.dropWhile p = c :: rest) : p c = false := by
  induction cs with
  | nil => cases h
  | cons d cs ih =>
      cases hd : p d with
      | true => exact ih (by rwa [List.dropWhile_cons_of_pos hd] at h)
      | false =>
          rw [List.dropWhile_cons_of_neg (by simp [hd])] at h
          cases h
          exact hd

theorem dropWhile_dropWhile (p : Char → Bool) (cs : List Char) :
    (cs.dropWhile p).dropWhile p = cs.dropWhile p := by
  cases hdrop : cs.dropWhile p with
  | nil => rfl
  | cons c rest =>
      rw [List.dropWhile_cons_of_neg (by simp [eq_false_of_dropWhile_eq_cons hdrop])]

theorem trim_trim (p : Char → Bool) (cs : List Char) : trim p (trim p cs) = trim p cs := by
  have hfront : (trim p cs).dropWhile p = trim p cs := by
    unfold trim
    cases hdrop : cs.dropWhile p with
    | nil => rfl
    | cons c rest =>
        have hc : ¬p c = true := by simp [eq_false_of_dropWhile_eq_cons hdrop]
        -- the first character stays, whatever is dropped behind it
        have hkept : (c :: rest).reverse.dropWhile p = rest.reverse.dropWhile p ++ [c] := by
          rw [List.reverse_cons, List.dropWhile_append]
          split
          · rename_i hempty
            rw [List.isEmpty_iff.mp hempty, List.dropWhile_cons_of_neg hc]
            rfl
          · rfl
        rw [hkept, List.reverse_append, List.reverse_singleton, List.singleton_append,
          List.dropWhile_cons_of_neg hc]
  have hback : (trim p cs).reverse.dropWhile p = (trim p cs).reverse := by
    unfold trim
    rw [List.reverse_reverse, dropWhile_dropWhile]
  rw [trim, hfront, hback, List.reverse_reverse]

end Text

namespace Number

/-! ## Texts in ASCII

White space beside a numeral is seen as a blank, and ink as itself. -/

/-- An ASCII character that is no blank. -/
def isInk (c : Char) : Bool := c.toNat < 127 && !isAsciiBlank c

theorem plainChar_of_isInk {c : Char} (h : isInk c = true) : plainChar c = c := by
  rw [isInk, Bool.and_eq_true, decide_eq_true_eq] at h
  rw [plainChar, if_pos h.1]

theorem isWhite_of_isInk {c : Char} (h : isInk c = true) : isWhite c = false := by
  rw [isInk, Bool.and_eq_true, decide_eq_true_eq, Bool.not_eq_true'] at h
  obtain ⟨hlt, hblank⟩ := h
  simp only [isAsciiBlank, Bool.or_eq_false_iff, Bool.and_eq_false_iff, beq_eq_false_iff_ne,
    decide_eq_false_iff_not] at hblank
  simp only [isWhite, whiteRanges, Ranges.has, List.any_cons, List.any_nil, Bool.or_false,
    Bool.or_eq_false_iff, Bool.and_eq_false_iff, decide_eq_false_iff_not]
  omega

theorem isAsciiBlank_plainChar {c : Char} (h : isWhite c = true) :
    isAsciiBlank (plainChar c) = true := by
  unfold plainChar
  split
  · rename_i hlt
    simp only [isWhite, whiteRanges, Ranges.has, List.any_cons, List.any_nil, Bool.or_false,
      Bool.or_eq_true, Bool.and_eq_true, decide_eq_true_eq] at h
    simp only [isAsciiBlank, Bool.or_eq_true, Bool.and_eq_true, beq_iff_eq, decide_eq_true_eq]
    omega
  · rw [if_pos (isSpacing_of_isWhite h)]
    rfl

/-- A numeral in ASCII between white space is seen as it is. -/
theorem plainNumeral_eq {s : String} (h : ∀ c ∈ trim isWhite s.toList, isInk c = true) :
    plainNumeral s = trim isWhite s.toList := by
  obtain ⟨before, after, heq, hbefore, hafter⟩ := exists_trim isWhite s.toList
  have hplain : (trim isWhite s.toList).map plainChar = trim isWhite s.toList :=
    (List.map_congr_left fun c hc => plainChar_of_isInk (h c hc)).trans (List.map_id _)
  have hblank : ∀ cs : List Char, (∀ c ∈ cs, isWhite c = true) →
      ∀ c ∈ cs.map plainChar, isAsciiBlank c = true := by
    intro cs hcs c hc
    obtain ⟨d, hd, rfl⟩ := List.mem_map.mp hc
    exact isAsciiBlank_plainChar (hcs d hd)
  unfold plainNumeral
  generalize trim isWhite s.toList = cs at heq hplain h ⊢
  rw [heq, List.map_append, List.map_append, hplain]
  refine trim_append (hblank _ hbefore) (fun c hc => ?_) (hblank _ hafter)
  have hink := h c hc
  rw [isInk, Bool.and_eq_true, Bool.not_eq_true'] at hink
  exact hink.2

/-! ## Digits and signs

The reader of a submission takes a sign and groups of digits. -/

theorem isInk_of_isDigit {c : Char} (h : c.isDigit = true) : isInk c = true := by
  have hbounds := Char.isDigit_iff_toNat.mp h
  have hlow : '0'.toNat = 48 := rfl
  have hhigh : '9'.toNat = 57 := rfl
  simp only [isInk, isAsciiBlank, Bool.and_eq_true, decide_eq_true_eq, Bool.not_eq_true',
    Bool.or_eq_false_iff, Bool.and_eq_false_iff, beq_eq_false_iff_ne, decide_eq_false_iff_not]
  omega

theorem ne_of_isDigit {c d : Char} (h : c.isDigit = true) (hd : d.isDigit = false) : c ≠ d := by
  rintro rfl
  exact absurd (h.symm.trans hd) Bool.noConfusion

/-- The characters that are no underscores. -/
def withoutUnderscores (cs : List Char) : List Char := cs.filter (· != '_')

theorem withoutUnderscores_cons {c : Char} (h : c ≠ '_') (cs : List Char) :
    withoutUnderscores (c :: cs) = c :: withoutUnderscores cs :=
  List.filter_cons_of_pos (bne_iff_ne.mpr h)

theorem withoutUnderscores_eq_self {cs : List Char} (h : ∀ c ∈ cs, c ≠ '_') :
    withoutUnderscores cs = cs :=
  List.filter_eq_self.mpr fun c hc => bne_iff_ne.mpr (h c hc)

theorem withoutUnderscores_of_digits {ds : List Char} (h : ∀ c ∈ ds, c.isDigit = true) :
    withoutUnderscores ds = ds :=
  withoutUnderscores_eq_self fun c hc => ne_of_isDigit (h c hc) rfl

theorem digitsValue_zero_cons (ds : List Char) : digitsValue ('0' :: ds) = digitsValue ds := by
  simp [digitsValue, digitOf]

/-- Digits with a minus or nothing in front. -/
def signed (negative : Bool) (ds : List Char) : List Char := if negative then '-' :: ds else ds

theorem signed_inj {negative negative' : Bool} {ds ds' : List Char}
    (h : ∀ c ∈ ds, c.isDigit = true) (h' : ∀ c ∈ ds', c.isDigit = true)
    (heq : signed negative ds = signed negative' ds') : negative = negative' ∧ ds = ds' := by
  have minus : ∀ {ds ds' : List Char}, (∀ c ∈ ds, c.isDigit = true) → ds ≠ '-' :: ds' := by
    rintro ds ds' hds rfl
    exact absurd (hds '-' List.mem_cons_self) (by decide)
  cases negative <;> cases negative'
  · exact ⟨rfl, heq⟩
  · exact absurd heq (minus h)
  · exact absurd heq.symm (minus h')
  · exact ⟨rfl, (List.cons.inj heq).2⟩

theorem afterDigit_eq_some {cs ds : List Char} (h : afterDigit cs = some ds) :
    ds = withoutUnderscores cs ∧ ∀ c ∈ ds, c.isDigit = true := by
  have more : ∀ {c : Char} {cs : List Char}, c.isDigit = true →
      (∀ {ds}, afterDigit cs = some ds → ds = withoutUnderscores cs ∧ ∀ c ∈ ds, c.isDigit = true) →
      ∀ {ds}, (afterDigit cs).map (c :: ·) = some ds →
        ds = c :: withoutUnderscores cs ∧ ∀ c ∈ ds, c.isDigit = true := by
    intro c cs hc ih ds hds
    obtain ⟨rest, hrest, rfl⟩ := Option.map_eq_some_iff.mp hds
    obtain ⟨heq, hdigits⟩ := ih hrest
    exact ⟨by rw [heq], List.forall_mem_cons.mpr ⟨hc, hdigits⟩⟩
  fun_induction afterDigit cs generalizing ds with
  | case1 =>
      cases h
      exact ⟨rfl, fun _ hc => absurd hc List.not_mem_nil⟩
  | case2 c cs hc ih =>
      obtain ⟨heq, hdigits⟩ := more hc ih h
      exact ⟨by rw [heq, ← withoutUnderscores_cons (ne_of_isDigit hc rfl)]; rfl, hdigits⟩
  | case3 => cases h
  | case4 c cs _ hc ih =>
      obtain ⟨heq, hdigits⟩ := more hc ih h
      exact ⟨by rw [heq, withoutUnderscores_cons (ne_of_isDigit hc rfl)], hdigits⟩
  | case5 => cases h

theorem groupedDigits_eq_some {cs ds : List Char} (h : groupedDigits cs = some ds) :
    (ds = withoutUnderscores cs ∧ ∀ c ∈ ds, c.isDigit = true) ∧
      ∃ c rest, cs = c :: rest ∧ c.isDigit = true := by
  cases cs with
  | nil => cases h
  | cons c cs =>
      simp only [groupedDigits] at h
      split at h
      · rename_i hc
        obtain ⟨rest, hrest, rfl⟩ := Option.map_eq_some_iff.mp h
        obtain ⟨heq, hdigits⟩ := afterDigit_eq_some hrest
        refine ⟨⟨?_, List.forall_mem_cons.mpr ⟨hc, hdigits⟩⟩, c, cs, rfl, hc⟩
        rw [heq, withoutUnderscores_cons (ne_of_isDigit hc rfl)]
      · cases h

theorem groupedDigits_of_digits {ds : List Char} (h : ∀ c ∈ ds, c.isDigit = true) (hne : ds ≠ []) :
    groupedDigits ds = some ds := by
  have after : ∀ {ds : List Char}, (∀ c ∈ ds, c.isDigit = true) → afterDigit ds = some ds := by
    intro ds hds
    fun_induction afterDigit ds with
    | case1 => rfl
    | case2 => exact absurd (hds '_' List.mem_cons_self) (by decide)
    | case3 => exact absurd (hds '_' List.mem_cons_self) (by decide)
    | case4 c cs _ hc ih => rw [ih (List.forall_mem_cons.mp hds).2, Option.map_some]
    | case5 c cs _ hc => exact absurd (hds c List.mem_cons_self) hc
  cases ds with
  | nil => exact absurd rfl hne
  | cons c ds =>
      obtain ⟨hc, hds⟩ := List.forall_mem_cons.mp h
      rw [groupedDigits, if_pos hc, after hds, Option.map_some]

/-- What a submission reads of a numeral. -/
theorem readInteger?_eq_some_iff {s : String} {i : Int} :
    readInteger? s = some i ↔ ∃ ds, groupedDigits (splitSign (plainNumeral s)).2 = some ds ∧
      ds.length ≤ digitLimit ∧ withSign (splitSign (plainNumeral s)).1 (digitsValue ds) = i := by
  unfold readInteger?
  dsimp only
  cases groupedDigits (splitSign (plainNumeral s)).2 with
  | none => simp
  | some ds => simp

theorem splitSign_signed {negative : Bool} {ds : List Char} (h : ∀ c ∈ ds, c.isDigit = true) :
    splitSign (signed negative ds) = (negative, ds) := by
  cases negative with
  | true => rfl
  | false =>
      unfold splitSign signed
      split
      · rename_i heq
        rw [if_neg Bool.false_ne_true] at heq
        exact absurd (h '-' (heq ▸ List.mem_cons_self)) (by decide)
      · rename_i heq
        rw [if_neg Bool.false_ne_true] at heq
        exact absurd (h '+' (heq ▸ List.mem_cons_self)) (by decide)
      · rfl

/-! ## What a check drops

Each step of the check's reader is described by what it takes away and by what it leaves as it
was: the characters that remain were there, and the digits have the value that they had. -/

theorem plainInteger_eq_ok {cs : List Char} {j : Int} (h : plainInteger cs = .ok j) :
    ∃ negative ds, cs = signed negative ds ∧ (∀ c ∈ ds, c.isDigit = true) ∧ ds ≠ [] ∧
      j = withSign negative (digitsValue ds) := by
  have whole : ∀ {negative : Bool} {body : List Char}, body.takeWhile Char.isDigit ≠ [] →
      (body.dropWhile Char.isDigit).isEmpty = true → cs = signed negative body →
      j = withSign negative (digitsValue (body.takeWhile Char.isDigit)) →
      ∃ negative ds, cs = signed negative ds ∧ (∀ c ∈ ds, c.isDigit = true) ∧ ds ≠ [] ∧
        j = withSign negative (digitsValue ds) := by
    intro negative body hne hrest hcs hj
    have hbody : body.takeWhile Char.isDigit = body := by
      have happend := List.takeWhile_append_dropWhile (p := Char.isDigit) (l := body)
      rwa [List.isEmpty_iff.mp hrest, List.append_nil] at happend
    rw [hbody] at hne hj
    refine ⟨negative, body, hcs, fun c hc => ?_, hne, hj⟩
    rw [← hbody] at hc
    exact List.all_eq_true.mp List.all_takeWhile c hc
  have hcs : cs = signed (decide (cs.head? = some '-'))
      (if cs.head? = some '-' then cs.drop 1 else cs) := by
    cases cs with
    | nil => rfl
    | cons c cs => by_cases hc : c = '-' <;> simp [signed, hc]
  unfold plainInteger at h
  dsimp only at h
  generalize (if cs.head? = some '-' then cs.drop 1 else cs) = body at h hcs
  generalize (if cs.head? = some '-' then 1 else 0) = minus at h
  split at h
  · cases h
  · rename_i hzero
    split at h
    · rename_i hrest
      cases h
      refine whole (hzero ▸ List.cons_ne_nil _ _) hrest hcs ?_
      rw [hzero]
      cases decide (cs.head? = some '-') <;> rfl
    · cases h
  · cases h
  · rename_i hne _ _
    split at h
    · cases h
    · split at h
      · rename_i hrest
        cases h
        exact whole hne hrest hcs rfl
      · cases h

theorem dropPlus_eq_some {cs cs' : List Char} (h : dropPlus cs = some cs') :
    cs = cs' ∨ cs = '+' :: cs' := by
  unfold dropPlus at h
  split at h
  · cases h
  · cases h
    exact Or.inr rfl
  · cases h
    exact Or.inl rfl

theorem afterZeros_eq_some {last : Char} {cs cs' : List Char} (hlast : last = '0' ∨ last = '_')
    (h : afterZeros last cs = some cs') :
    (∀ c ∈ cs, c = '0' ∨ c = '_' ∨ c ∈ cs') ∧
      digitsValue (withoutUnderscores cs') = digitsValue (withoutUnderscores cs) ∧
      ∀ c ∈ cs', c ∈ cs ∨ c = '0' ∨ c = '_' := by
  fun_induction afterZeros last cs with
  | case1 last =>
      cases h
      refine ⟨fun _ hc => absurd hc List.not_mem_nil, ?_, fun c hc => ?_⟩
      · rcases hlast with rfl | rfl <;> decide
      · rw [List.mem_singleton.mp hc]
        exact Or.inr hlast
  | case2 last c cs hc ih =>
      have hc : c = '0' ∨ c = '_' := by simpa using hc
      obtain ⟨hmem, hvalue, hmem'⟩ := ih hc h
      refine ⟨List.forall_mem_cons.mpr ⟨hc.imp_right Or.inl, hmem⟩, ?_, fun d hd => ?_⟩
      · rcases hc with rfl | rfl
        · rw [hvalue, withoutUnderscores_cons (by decide), digitsValue_zero_cons]
        · rw [hvalue]
          rfl
      · exact (hmem' d hd).imp_left (List.mem_cons_of_mem _)
  | case3 last cs _ =>
      cases h
      have hcs : withoutUnderscores ('.' :: cs) = '.' :: withoutUnderscores cs :=
        withoutUnderscores_cons (by decide) cs
      refine ⟨fun d hd => Or.inr (Or.inr (List.mem_cons_of_mem _ hd)), ?_, fun d hd => ?_⟩
      · rcases hlast with rfl | rfl
        · rw [withoutUnderscores_cons (by decide), digitsValue_zero_cons]
        · rfl
      · rcases List.mem_cons.mp hd with rfl | hd
        · exact Or.inr hlast
        · exact Or.inl hd
  | case4 =>
      cases h
      exact ⟨fun d hd => Or.inr (Or.inr hd), rfl, fun d hd => Or.inl hd⟩
  | case5 => cases h

theorem dropLeadingZeros_eq_some {cs cs' : List Char} (h : dropLeadingZeros cs = some cs') :
    (∀ c ∈ cs, c = '0' ∨ c = '_' ∨ c ∈ cs') ∧
      digitsValue (withoutUnderscores cs') = digitsValue (withoutUnderscores cs) ∧
      (∀ c ∈ cs', c ∈ cs ∨ c = '0' ∨ c = '_') ∧ (cs.head? = some '-' → cs' = cs) := by
  cases cs with
  | nil => cases h
  | cons c cs =>
      simp only [dropLeadingZeros] at h
      split at h
      · rename_i hc
        subst hc
        obtain ⟨hmem, hvalue, hmem'⟩ := afterZeros_eq_some (Or.inl rfl) h
        refine ⟨List.forall_mem_cons.mpr ⟨Or.inl rfl, hmem⟩, ?_, fun d hd => ?_, ?_⟩
        · rw [hvalue, withoutUnderscores_cons (by decide), digitsValue_zero_cons]
        · exact (hmem' d hd).imp_left (List.mem_cons_of_mem _)
        · exact fun hminus => absurd (Option.some.inj hminus) (by decide)
      · split at h
        · cases h
          exact ⟨fun d hd => Or.inr (Or.inr hd), rfl, fun d hd => Or.inl hd, fun _ => rfl⟩
        · cases h

theorem mem_dropZeroFraction {cs : List Char} {c : Char} (h : c ∈ cs) :
    c ∈ dropZeroFraction cs ∨ c = '.' ∨ c = '0' := by
  unfold dropZeroFraction
  split
  · rename_i point zeros heq
    split
    · rename_i hzeros
      rw [Bool.and_eq_true, List.all_eq_true] at hzeros
      rw [← List.takeWhile_append_dropWhile (p := (· != '.')) (l := cs), heq] at h
      rcases List.mem_append.mp h with h | h
      · exact Or.inl h
      · rcases List.mem_cons.mp h with rfl | h
        · have hhead := List.head_dropWhile_not (· != '.') (l := cs) (by rw [heq]; exact List.cons_ne_nil _ _)
          simp only [heq, List.head_cons] at hhead
          exact Or.inr (Or.inl (by simpa using hhead))
        · exact Or.inr (Or.inr (by simpa using hzeros.2 c h))
    · exact Or.inl h
  · exact Or.inl h

theorem dropZeroFraction_eq_self {cs : List Char} (h : ∀ c ∈ cs, c ≠ '.') :
    dropZeroFraction cs = cs := by
  have hnone : cs.dropWhile (· != '.') = [] :=
    List.dropWhile_eq_nil_iff.mpr fun c hc => bne_iff_ne.mpr (h c hc)
  unfold dropZeroFraction
  rw [hnone]

theorem looseUnderscores_eq_some {cs cs' : List Char} (h : looseUnderscores cs = some cs') :
    cs' = withoutUnderscores cs := by
  unfold looseUnderscores at h
  dsimp only at h
  split at h
  · cases h
  · exact (Option.some.inj h).symm

theorem withoutUnderscores_loose (cs : List Char) :
    withoutUnderscores ((looseUnderscores cs).getD cs) = withoutUnderscores cs := by
  cases h : looseUnderscores cs with
  | none => rfl
  | some cs' =>
      rw [Option.getD_some, looseUnderscores_eq_some h]
      exact List.filter_filter .. |>.trans (by simp [withoutUnderscores])

/-! ## The two readers agree

A sign in front is kept by every step of the check, so that the two readers see one sign and
two lists of digits of one value. -/

theorem isInk_of_mem_signed {negative : Bool} {ds : List Char} (h : ∀ c ∈ ds, c.isDigit = true)
    {c : Char} (hc : c ∈ signed negative ds) : isInk c = true := by
  have hdigit : c ∈ ds → isInk c = true := fun hmem => isInk_of_isDigit (h c hmem)
  unfold signed at hc
  split at hc
  · rcases List.mem_cons.mp hc with rfl | hc
    · decide
    · exact hdigit hc
  · exact hdigit hc

theorem isInk_of_plainForm? {cs cs' : List Char} {j : Int} (h : plainForm? cs = some cs')
    (hj : plainInteger cs' = .ok j) : ∀ c ∈ trim isWhite cs, isInk c = true := by
  obtain ⟨negative, ds, rfl, hds, _, _⟩ := plainInteger_eq_ok hj
  obtain ⟨zeroless, hdrops, heq⟩ := Option.map_eq_some_iff.mp h
  obtain ⟨plusless, hplus, hzeros⟩ := Option.bind_eq_some_iff.mp hdrops
  intro c hc
  have hplus : c = '+' ∨ c ∈ plusless := by
    rcases dropPlus_eq_some hplus with heq | heq
    · exact Or.inr (heq ▸ hc)
    · exact List.mem_cons.mp (heq ▸ hc)
  rcases hplus with rfl | hc
  · decide
  · rcases (dropLeadingZeros_eq_some hzeros).1 c hc with rfl | rfl | hc
    · decide
    · decide
    · rcases mem_dropZeroFraction hc with hc | rfl | rfl
      · by_cases hunder : c = '_'
        · rw [hunder]
          decide
        · have hmem : c ∈ withoutUnderscores (dropZeroFraction zeroless) :=
            List.mem_filter.mpr ⟨hc, bne_iff_ne.mpr hunder⟩
          rw [← withoutUnderscores_loose, heq] at hmem
          exact isInk_of_mem_signed hds (List.mem_filter.mp hmem).1
      · decide
      · decide

theorem dropPlus_splitSign {cs cs' rest : List Char} {first : Char} (h : dropPlus cs = some cs')
    (hbody : (splitSign cs).2 = first :: rest) (hfirst : first.isDigit = true) :
    cs' = signed (splitSign cs).1 (splitSign cs).2 := by
  unfold splitSign at hbody ⊢
  split
  · exact (Option.some.inj h).symm
  · rename_i body
    have hrest : body = first :: rest := hbody
    subst hrest
    have hne : first ≠ '-' := ne_of_isDigit hfirst rfl
    simpa [dropPlus, hne, signed, eq_comm] using h
  · rename_i hplus
    rcases dropPlus_eq_some h with heq | heq
    · exact heq.symm
    · exact absurd heq (hplus _)

theorem dropLeadingZeros_signed {negative : Bool} {body cs' : List Char}
    (h : dropLeadingZeros (signed negative body) = some cs')
    (hbody : ∀ c ∈ body, c = '_' ∨ c.isDigit = true) :
    ∃ body', cs' = signed negative body' ∧ (∀ c ∈ body', c = '_' ∨ c.isDigit = true) ∧
      digitsValue (withoutUnderscores body') = digitsValue (withoutUnderscores body) := by
  obtain ⟨_, hvalue, hmem, hminus⟩ := dropLeadingZeros_eq_some h
  cases negative with
  | true => exact ⟨body, hminus rfl, hbody, rfl⟩
  | false =>
      refine ⟨cs', rfl, fun c hc => ?_, hvalue⟩
      rcases hmem c hc with hc | rfl | rfl
      · exact hbody c hc
      · exact Or.inr rfl
      · exact Or.inl rfl

theorem withoutUnderscores_signed (negative : Bool) (cs : List Char) :
    withoutUnderscores (signed negative cs) = signed negative (withoutUnderscores cs) := by
  cases negative <;> rfl

theorem digits_of_plainForm? {cs cs' ds : List Char} {j : Int} (h : plainForm? cs = some cs')
    (hj : plainInteger cs' = .ok j)
    (hds : groupedDigits (splitSign (trim isWhite cs)).2 = some ds) :
    j = withSign (splitSign (trim isWhite cs)).1 (digitsValue ds) := by
  obtain ⟨⟨rfl, hdigits⟩, first, rest, hfirst, hdigit⟩ := groupedDigits_eq_some hds
  obtain ⟨zeroless, hdrops, heq⟩ := Option.map_eq_some_iff.mp h
  obtain ⟨plusless, hplus, hzeros⟩ := Option.bind_eq_some_iff.mp hdrops
  rw [dropPlus_splitSign hplus hfirst hdigit] at hzeros
  generalize (splitSign (trim isWhite cs)).2 = body at hdigits hzeros ⊢
  generalize (splitSign (trim isWhite cs)).1 = negative at hzeros ⊢
  have hbody : ∀ c ∈ body, c = '_' ∨ c.isDigit = true := by
    intro c hc
    by_cases hunder : c = '_'
    · exact Or.inl hunder
    · exact Or.inr (hdigits c (List.mem_filter.mpr ⟨hc, bne_iff_ne.mpr hunder⟩))
  obtain ⟨body', rfl, hbody', hvalue⟩ := dropLeadingZeros_signed hzeros hbody
  have hpoint : ∀ c ∈ signed negative body', c ≠ '.' := by
    have hbody'' : ∀ c ∈ body', c ≠ '.' := by
      rintro c hc rfl
      rcases hbody' _ hc with hc | hc <;> exact absurd hc (by decide)
    cases negative with
    | true => exact List.forall_mem_cons.mpr ⟨by decide, hbody''⟩
    | false => exact hbody''
  have hdigits' : ∀ c ∈ withoutUnderscores body', c.isDigit = true := by
    intro c hc
    obtain ⟨hc, hne⟩ := List.mem_filter.mp hc
    exact (hbody' c hc).resolve_left (bne_iff_ne.mp hne)
  obtain ⟨negative', ds', rfl, hds', _, rfl⟩ := plainInteger_eq_ok hj
  rw [dropZeroFraction_eq_self hpoint] at heq
  have hsame : signed negative' ds' = signed negative (withoutUnderscores body') := by
    rw [← withoutUnderscores_signed, ← withoutUnderscores_loose, heq, withoutUnderscores_signed,
      withoutUnderscores_of_digits hds']
  obtain ⟨rfl, rfl⟩ := signed_inj hds' hdigits' hsame
  rw [hvalue]

/-- A text that a submission and a check both read as an integer is one integer. -/
theorem readInteger?_eq_of_checkInteger {s : String} {i j : Int} (h : readInteger? s = some i)
    (h' : checkInteger s = .ok j) : i = j := by
  obtain ⟨ds, hds, _, rfl⟩ := readInteger?_eq_some_iff.mp h
  unfold checkInteger at h'
  split at h'
  · split at h'
    · rename_i hplain
      cases h'
      obtain ⟨cs', hform, hj⟩ := Option.map_eq_some_iff.mp hplain
      rw [plainNumeral_eq (isInk_of_plainForm? hform hj)] at hds ⊢
      exact (digits_of_plainForm? hform hj hds).symm
    · cases h'
  · obtain ⟨negative, ds', hs, hds', _, rfl⟩ := plainInteger_eq_ok h'
    have hink : ∀ c ∈ s.toList, isInk c = true := by
      rw [hs]
      exact fun c hc => isInk_of_mem_signed hds' hc
    have htrim : trim isWhite s.toList = s.toList :=
      trim_eq_self fun c hc => isWhite_of_isInk (hink c hc)
    have hplain : plainNumeral s = signed negative ds' := by
      rw [plainNumeral_eq (htrim.symm ▸ hink), htrim, hs]
    rw [hplain, splitSign_signed hds'] at hds ⊢
    rw [(groupedDigits_eq_some hds).1.1, withoutUnderscores_of_digits hds']

/-! ## Floats

Everything that a float is written with is ink: digits, a point, an exponent, or the letters
of infinity and of no number. -/

/-- A character of a float: ink, and no underscore. -/
def isFloatInk (c : Char) : Bool := isInk c && c != '_'

theorem isFloatInk_of_isDigit {c : Char} (h : c.isDigit = true) : isFloatInk c = true := by
  rw [isFloatInk, isInk_of_isDigit h, Bool.true_and]
  exact bne_iff_ne.mpr (ne_of_isDigit h rfl)

theorem isFloatInk_of_toLower {c : Char} (h : isFloatInk c.toLower = true) :
    isFloatInk c = true := by
  unfold Char.toLower at h
  split at h
  · rename_i hupper
    have hlow : 65 ≤ c.toNat := hupper.1
    have hhigh : c.toNat ≤ 90 := hupper.2
    have hne : c ≠ '_' := by
      rintro rfl
      exact absurd hhigh (by decide)
    simp only [isFloatInk, isInk, isAsciiBlank, Bool.and_eq_true, decide_eq_true_eq,
      Bool.not_eq_true', Bool.or_eq_false_iff, Bool.and_eq_false_iff, beq_eq_false_iff_ne,
      decide_eq_false_iff_not, bne_iff_ne]
    exact ⟨by omega, hne⟩
  · exact h

theorem mem_splitSign {cs : List Char} {c : Char} (h : c ∈ cs) :
    c = '-' ∨ c = '+' ∨ c ∈ (splitSign cs).2 := by
  unfold splitSign
  split
  · exact (List.mem_cons.mp h).imp_right Or.inr
  · exact Or.inr (List.mem_cons.mp h)
  · exact Or.inr (Or.inr h)

theorem isFloatInk_of_sign {cs : List Char} (h : ∀ c ∈ (splitSign cs).2, isFloatInk c = true) :
    ∀ c ∈ cs, isFloatInk c = true := by
  intro c hc
  rcases mem_splitSign hc with rfl | rfl | hc
  · decide
  · decide
  · exact h c hc

theorem isFloatInk_of_exponentPart {cs : List Char} {e : Int} (h : exponentPart cs = some e) :
    ∀ c ∈ cs, isFloatInk c = true := by
  cases cs with
  | nil => exact fun _ hc => absurd hc List.not_mem_nil
  | cons c cs =>
      simp only [exponentPart] at h
      split at h
      · rename_i hmark
        have hmark : isFloatInk c = true := by
          rcases Bool.or_eq_true_iff.mp hmark with hc | hc <;> rw [of_decide_eq_true hc] <;> decide
        split at h
        · cases h
        · rename_i hdigits
          rw [Bool.not_eq_true, Bool.or_eq_false_iff, Bool.not_eq_false', List.all_eq_true]
            at hdigits
          exact List.forall_mem_cons.mpr ⟨hmark, isFloatInk_of_sign fun d hd =>
            isFloatInk_of_isDigit (hdigits.2 d hd)⟩
      · cases h

theorem isFloatInk_of_unsignedFloat? {negative : Bool} {cs : List Char} {x : Binary64}
    (h : unsignedFloat? negative cs = some x) : ∀ c ∈ cs, isFloatInk c = true := by
  have digits : ∀ cs : List Char, ∀ c ∈ cs.takeWhile Char.isDigit, isFloatInk c = true :=
    fun cs c hc => isFloatInk_of_isDigit (List.all_eq_true.mp List.all_takeWhile c hc)
  have parts : ∀ {cs : List Char}, (∀ c ∈ cs.dropWhile Char.isDigit, isFloatInk c = true) →
      ∀ c ∈ cs, isFloatInk c = true := by
    intro cs hrest c hc
    rw [← List.takeWhile_append_dropWhile (p := Char.isDigit) (l := cs)] at hc
    exact (List.mem_append.mp hc).elim (digits cs c) (hrest c)
  have exponent : ∀ {bare : Bool} {rest : List Char} {f : Int → Binary64},
      (if bare = true then none else (exponentPart rest).map f) = some x →
        ∀ c ∈ rest, isFloatInk c = true := by
    intro bare rest f hrest
    split at hrest
    · cases hrest
    · obtain ⟨e, he, _⟩ := Option.map_eq_some_iff.mp hrest
      exact isFloatInk_of_exponentPart he
  refine parts ?_
  unfold unsignedFloat? at h
  dsimp only at h
  split at h
  · rename_i heq
    rw [heq]
    exact List.forall_mem_cons.mpr ⟨by decide, parts (exponent h)⟩
  · exact exponent h

theorem isFloatInk_of_float? {cs : List Char} {x : Binary64} (h : float? cs = some x) :
    ∀ c ∈ cs, isFloatInk c = true := by
  have word : ∀ {cs word : List Char}, word.all isFloatInk = true →
      cs.map Char.toLower = word → ∀ c ∈ cs, isFloatInk c = true := by
    intro cs word hword heq c hc
    rw [List.all_eq_true] at hword
    exact isFloatInk_of_toLower (hword _ (heq ▸ List.mem_map.mpr ⟨c, hc, rfl⟩))
  refine isFloatInk_of_sign ?_
  unfold float? at h
  dsimp only at h
  split at h
  · rename_i heq
    exact word (by decide) heq
  · split at h
    · rename_i heq
      rcases Bool.or_eq_true_iff.mp heq with heq | heq
      · exact word (by decide) (of_decide_eq_true heq)
      · exact word (by decide) (of_decide_eq_true heq)
    · exact isFloatInk_of_unsignedFloat? h

theorem dropUnderscores_eq_some {before : Char} {cs ds : List Char}
    (h : dropUnderscores before cs = some ds) : ds = withoutUnderscores cs := by
  fun_induction dropUnderscores before cs generalizing ds with
  | case1 =>
      cases h
      rfl
  | case2 before c cs hdigits ih =>
      obtain ⟨rest, hrest, rfl⟩ := Option.map_eq_some_iff.mp h
      have hc : c ≠ '_' := ne_of_isDigit (Bool.and_eq_true_iff.mp hdigits).2 rfl
      rw [ih hrest, ← withoutUnderscores_cons hc]
      rfl
  | case3 => cases h
  | case4 => cases h
  | case5 before c cs hpair hlast ih =>
      obtain ⟨rest, hrest, rfl⟩ := Option.map_eq_some_iff.mp h
      have hc : c ≠ '_' := by
        rintro rfl
        cases cs with
        | nil => exact hlast rfl rfl
        | cons d cs => exact hpair d cs rfl rfl
      rw [ih hrest, withoutUnderscores_cons hc]

theorem dropUnderscores_eq_self {cs : List Char} (h : ∀ c ∈ cs, c ≠ '_') (before : Char) :
    dropUnderscores before cs = some cs := by
  fun_induction dropUnderscores before cs with
  | case1 => rfl
  | case2 => exact absurd rfl (h '_' List.mem_cons_self)
  | case3 => exact absurd rfl (h '_' List.mem_cons_self)
  | case4 => exact absurd rfl (h '_' List.mem_cons_self)
  | case5 before c cs _ _ ih => rw [ih (List.forall_mem_cons.mp h).2, Option.map_some]

/-- A text that a submission and a check both read as a float is one float. -/
theorem readFloat?_eq_of_checkFloat? {s : String} {x y : Binary64} (h : readFloat? s = some x)
    (h' : checkFloat? s = some y) : x = y := by
  have ink : ∀ {cs : List Char}, (∀ c ∈ cs, isFloatInk c = true) →
      (∀ c ∈ cs, isInk c = true) ∧ ∀ c ∈ cs, c ≠ '_' := by
    intro cs hcs
    exact ⟨fun c hc => (Bool.and_eq_true_iff.mp (hcs c hc)).1,
      fun c hc => bne_iff_ne.mp (Bool.and_eq_true_iff.mp (hcs c hc)).2⟩
  unfold readFloat? at h
  unfold checkFloat? at h'
  split at h'
  · rename_i z hz
    obtain ⟨hink, hunder⟩ := ink (isFloatInk_of_float? hz)
    rw [plainNumeral_eq hink, dropUnderscores_eq_self hunder, Option.bind_some, hz] at h
    exact Option.some.inj (h.symm.trans h')
  · obtain ⟨cs, hcs, hy⟩ := Option.bind_eq_some_iff.mp h'
    have hwithout := looseUnderscores_eq_some hcs
    obtain ⟨hink, _⟩ := ink (isFloatInk_of_float? hy)
    have hink : ∀ c ∈ s.toList, isInk c = true := by
      intro c hc
      by_cases hunder : c = '_'
      · rw [hunder]
        decide
      · exact hink c (hwithout ▸ List.mem_filter.mpr ⟨hc, bne_iff_ne.mpr hunder⟩)
    have htrim : trim isWhite s.toList = s.toList :=
      trim_eq_self fun c hc => isWhite_of_isInk (hink c hc)
    rw [plainNumeral_eq (htrim.symm ▸ hink), htrim] at h
    obtain ⟨ds, hds, hx⟩ := Option.bind_eq_some_iff.mp h
    rw [dropUnderscores_eq_some hds, ← hwithout, hy] at hx
    exact (Option.some.inj hx).symm

/-! ## The decimal text of an integer

The number of digits bounds the value, and the other way round. -/

theorem ofDigitChars_eq (ds : List Char) : Nat.ofDigitChars 10 ds 0 = digitsValue ds := rfl

theorem digitsValue_lt {ds : List Char} (h : ∀ c ∈ ds, c.isDigit = true) :
    digitsValue ds < 10 ^ ds.length := by
  induction ds using List.reverseRecOn with
  | nil => decide
  | append_singleton ds c ih =>
      have hc := Char.isDigit_iff_toNat.mp (h c (by simp))
      have hlow : '0'.toNat = 48 := rfl
      have hhigh : '9'.toNat = 57 := rfl
      have hds := ih fun d hd => h d (by simp [hd])
      simp only [digitsValue, List.foldl_append, List.foldl_cons, List.foldl_nil, digitOf,
        List.length_append, List.length_singleton, Nat.pow_succ] at hds ⊢
      omega

/-- The text of an integer that is not too long is read as the integer. -/
theorem readInteger?_intText_of_lt {i : Int} (hbound : i.natAbs < 10 ^ digitLimit) :
    readInteger? (Value.intText i) = some i := by
  have hdigits : ∀ c ∈ Nat.toDigits 10 i.natAbs, c.isDigit = true :=
    fun c hc => Nat.isDigit_of_mem_toDigits (by decide) (by decide) hc
  have htext : (Value.intText i).toList
      = signed (decide (i < 0)) (Nat.toDigits 10 i.natAbs) := by
    unfold Value.intText signed
    by_cases hneg : i < 0 <;> simp [hneg]
  have hink : ∀ c ∈ (Value.intText i).toList, isInk c = true := by
    rw [htext]
    exact fun c hc => isInk_of_mem_signed hdigits hc
  have htrim : trim isWhite (Value.intText i).toList = (Value.intText i).toList :=
    trim_eq_self fun c hc => isWhite_of_isInk (hink c hc)
  have hplain : plainNumeral (Value.intText i)
      = signed (decide (i < 0)) (Nat.toDigits 10 i.natAbs) := by
    rw [plainNumeral_eq (htrim.symm ▸ hink), htrim, htext]
  rw [readInteger?_eq_some_iff, hplain, splitSign_signed hdigits]
  refine ⟨_, groupedDigits_of_digits hdigits Nat.toDigits_ne_nil, ?_, ?_⟩
  · exact (Nat.length_toDigits_le_iff (by decide) (by decide)).mpr hbound
  · rw [← ofDigitChars_eq, Nat.ofDigitChars_toDigits (by decide) (by decide)]
    unfold withSign
    by_cases hneg : i < 0
    · rw [decide_eq_true hneg, if_pos rfl]
      omega
    · rw [decide_eq_false hneg, if_neg Bool.false_ne_true]
      omega

theorem readInteger?_intText {s : String} {i : Int} (h : readInteger? s = some i) :
    readInteger? (Value.intText i) = some i := by
  obtain ⟨ds, hds, hlength, hi⟩ := readInteger?_eq_some_iff.mp h
  refine readInteger?_intText_of_lt ?_
  have hnatAbs : i.natAbs = digitsValue ds := by
    rw [← hi]
    unfold withSign
    split <;> omega
  rw [hnatAbs]
  exact Nat.lt_of_lt_of_le (digitsValue_lt (groupedDigits_eq_some hds).1.2)
    (Nat.pow_le_pow_right (by decide) hlength)

end Number

end WebForm
