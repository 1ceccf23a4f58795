/-
Values whose text is read back.

A page shows a value by its text, and sends that text.  For the basic types `Ty.Writes` lists
the values that come back from it: every text, every flag, an integer that is not too long to
be read, a real day, and an option whose value is the text by which the option is shown.  An
integer or a flag is read as soon as it is sent, a day and an option only when the field is
checked.

The text of an option is the name of its enumeration and its own name with a dot between them,
while a check looks options up by their values.  So an option comes back exactly if its value
happens to be that text; the other direction, that no other option does, is stated where a
field's reading is.

The main result is `Writes.again`.  What a check has passed under some limits, it passes again
from the text of the value, under the same limits and however it was asked the first time:

    check.run ls w = .ok c → c.value = v → ∃ c', check'.run ls (coerce basic v's text) = .ok c' ∧ …

Here `w` is whatever the value was made of, so that it is a value which an instance holds, and
`check'` is a lax check as a form makes it.  The limits carry over because they see nothing
but the value (`Limit.applyAll_again`).  There is one exception, a pattern.  It is matched
with a text that the check reads off the value, which may strip blanks or turn an option into
a text.  Where the check keeps texts as they are that makes no difference; and where the
result is no text, no pattern was among the limits.  That is the one alternative in the
hypotheses of the lemmas about limits.

Floats are left out, as their texts may lose digits.
-/
import WebForm.Proofs.Choosing
import WebForm.Proofs.Editing.Day
import WebForm.Proofs.Offer
import WebForm.Proofs.Rechecking.Scalar
import WebForm.Proofs.Rereading

namespace WebForm

open WebForm.Number Submission

/-! ## Added limits

A limit that is added behind a check's own compares the value with a bound or matches it with
a pattern.  Only the latter can change it. -/

/-- Where a value passes as a text, it is a text and passes as it is. -/
def Setting.KeepsText (s : Setting) (v : Value) : Prop :=
  ∀ ls r, Check.runText s ls v = .ok r → r.value = v

namespace Limit

variable {s s' : Setting} {sort : String} {input : Value}

theorem apply_eq_ok {l : Limit} {c r : Checked} (h : apply s sort input l c = .ok r) :
    r = c ∨ ∃ p q, l = .pattern p ∧ Check.runText s [.pattern p] c.value = .ok q ∧
      r.value = q.value := by
  cases l with
  | strict on =>
      cases h
      exact Or.inl rfl
  | minLength n | maxLength n =>
      simp only [apply] at h
      split at h
      · cases h
      · split at h
        · cases h
        · cases h
          exact Or.inl rfl
  | pattern p =>
      simp only [apply] at h
      split at h
      · rename_i q hq
        cases h
        exact Or.inr ⟨p, q, rfl, hq, rfl⟩
      · split at h <;> cases h
      · cases h
  | above b | atLeast b | below b | atMost b | multipleOf b =>
      simp only [apply] at h
      split at h
      · cases h
      · cases h
      · cases h
        exact Or.inl rfl

theorem applyAll_value {ls : List Limit} {c r : Checked} (h : applyAll s input sort ls c = .ok r) :
    r.value = c.value ∨ ∃ t, r.value = .str t := by
  induction ls generalizing sort c with
  | nil =>
      cases h
      exact Or.inl rfl
  | cons l ls ih =>
      obtain ⟨q, hq, hrest⟩ := Outcome.exists_of_bind_eq_ok h
      rcases ih hrest with hvalue | htext
      · rcases apply_eq_ok hq with rfl | ⟨_, q', _, hread, hq'⟩
        · exact Or.inl hvalue
        · obtain ⟨t, ht, _⟩ := Check.runText_again (rfl : s.config = s.config) hread
          exact Or.inr ⟨t, by rw [hvalue, hq', ht]⟩
      · exact Or.inr htext

theorem apply_again (hconfig : s'.config = s.config) (input' : Value) {l : Limit}
    {c c' r : Checked} (hkeeps : s.KeepsText c.value ∨ ∀ t, r.value ≠ .str t)
    (h : apply s sort input l c = .ok r) (hc : c'.value = c.value) :
    r.value = c.value ∧ ∃ r', apply s' sort input' l c' = .ok r' ∧ r'.value = c.value := by
  -- first on the same input, since what a limit says of its input has no part in this
  have passes : r.value = c.value ∧ ∃ q, apply s' sort input l c = .ok q ∧ q.value = c.value := by
    cases l with
    | pattern p =>
        simp only [apply] at h ⊢
        split at h
        · rename_i q hq
          cases h
          obtain ⟨t, ht, hagain⟩ := Check.runText_again hconfig hq
          have hvalue := hkeeps.resolve_right (fun hno => hno t ht) _ _ hq
          rw [hvalue] at ht ⊢
          rw [ht, hagain]
          exact ⟨rfl, _, rfl, rfl⟩
        · split at h <;> cases h
        · cases h
    | _ =>
        rcases apply_eq_ok h with rfl | ⟨_, _, hl, _⟩
        · exact ⟨rfl, r, h, rfl⟩
        · cases hl
  obtain ⟨hr, q, hq, hvalue⟩ := passes
  obtain ⟨r', hr', hvalue'⟩ := apply_carries s' sort input input' l hc q hq
  exact ⟨hr, r', hr', hvalue'.trans hvalue⟩

/-- So do all of them: what has become a text on the way stays one. -/
theorem applyAll_again (hconfig : s'.config = s.config) (input' : Value) {ls : List Limit}
    {c c' r : Checked} (hkeeps : s.KeepsText c.value ∨ ∀ t, r.value ≠ .str t)
    (h : applyAll s input sort ls c = .ok r) (hc : c'.value = c.value) :
    r.value = c.value ∧ ∃ r', applyAll s' input' sort ls c' = .ok r' ∧ r'.value = c.value := by
  induction ls generalizing sort c c' with
  | nil =>
      cases h
      exact ⟨rfl, c', rfl, hc⟩
  | cons l ls ih =>
      obtain ⟨q, hq, hrest⟩ := Outcome.exists_of_bind_eq_ok h
      -- a value that the first limit makes a text would still be one at the end
      have hfirst : s.KeepsText c.value ∨ ∀ t, q.value ≠ .str t := by
        refine hkeeps.imp_right fun hno t ht => ?_
        rcases applyAll_value hrest with hvalue | ⟨u, hu⟩
        · exact hno t (hvalue.trans ht)
        · exact hno u hu
      obtain ⟨hvalue, q', hq', hvalue'⟩ := apply_again hconfig input' hfirst hq hc
      rw [← hvalue] at hkeeps hvalue' ⊢
      obtain ⟨hr, r', hr', hagain⟩ := ih hkeeps hrest hvalue'
      exact ⟨hr, r', by rw [applyAll, hq']; exact hr', hagain⟩

end Limit

/-! ## Checks with limits of their own

Two checks of one type differ in how strict they are and in what they say of a refusal.  The
part of them that reads the value is compared by a hypothesis on each value, and the limits
behind it by the lemmas above. -/

namespace Check

variable {s s' : Setting}

theorem keepsText_of_runText {ls : List Limit} {v : Value} {c : Checked} (h : runText s ls v = .ok c) :
    s.KeepsText c.value := by
  have value : ∀ {ls v c}, runText s ls v = .ok c →
      ∃ t e, readText (s.isStrict ls) v = .ok (t, e) ∧
        c.value = .str (if s.config.strip then strip t else t) := by
    intro ls v c h
    unfold runText at h
    split at h
    · cases h
    · rename_i t e hread
      dsimp only at h
      split at h
      · cases h
      · cases h
        exact ⟨t, e, hread, rfl⟩
  obtain ⟨t, _, _, ht⟩ := value h
  intro ms r hr
  rw [ht] at hr ⊢
  obtain ⟨t', _, hread, hvalue⟩ := value hr
  cases hread
  rw [hvalue]
  split
  · rw [strip_strip]
  · rfl

/-- A check with limits of its own passes a value again where its own part does, if that part keeps
texts or the value is none. -/
theorem ofOwn_again (hconfig : s'.config = s.config) {sort : String} {knows : Limit → Bool}
    {label label' : List Limit → String} {own own' : List Limit → Value → Outcome} {v w x : Value}
    {ls : List Limit} {c : Checked} (hrun : (ofOwn s sort knows label own).run ls w = .ok c)
    (hvalue : c.value = v)
    (hkeeps : (∀ ms q, own ms w = .ok q → s.KeepsText q.value) ∨ ∀ t, v ≠ .str t)
    (hown : ∀ ms q, own ms w = .ok q → q.value = v → ∃ q', own' ms x = .ok q' ∧ q'.value = v) :
    ∃ c', (ofOwn s' sort knows label' own').run ls x = .ok c' ∧ c'.value = v := by
  obtain ⟨q, hq, hlater⟩ := Outcome.exists_of_bind_eq_ok hrun
  subst hvalue
  have hkept := hkeeps.imp_left fun h => h _ q hq
  have hvalue := (Limit.applyAll_again hconfig x hkept hlater rfl).1
  obtain ⟨q', hq', hvalue'⟩ := hown _ q hq hvalue.symm
  obtain ⟨_, c', hc', hagain⟩ := Limit.applyAll_again hconfig x hkept hlater (hvalue'.trans hvalue)
  refine ⟨c', ?_, hagain.trans hvalue.symm⟩
  show (own' _ x).bind _ = _
  rw [hq']
  exact hc'

theorem runDate_text (hlax : s.IsLax) {ls : List Limit} {d : Date} (hd : d.IsReal) {q : Checked}
    (h : runDate s ls (.date d) = .ok q) :
    ∃ q', runDate s ls (.str d.text) = .ok q' ∧ q'.value = q.value := by
  unfold runDate at h ⊢
  simp only [readDate, hlax.isStrict, dateOfText_text hd, Bool.false_eq_true, if_false,
    Except.map] at h ⊢
  split at h
  · cases h
  · split at h
    · cases h
    · rename_i hyear
      cases h
      rw [if_neg hyear]
      exact ⟨_, rfl, rfl⟩

end Check

/-! ## Values that are written

All cases of `Writes.again` are one application of `ofOwn_again` each, with what reading the
text comes to. -/

theorem Value.attributeText_option_ne_empty (e : String) (k : EnumKind) (n : String) (v : Value)
    (place : Nat) : (Value.option e k n v place).attributeText ≠ "" := by
  intro h
  have hlength := congrArg String.length h
  simp [attributeText, text] at hlength

namespace Ty

/-- The value of the basic type is written so that it can be read again. -/
inductive Writes : Ty → Value → Prop where
  | text (t : String) : Writes .str (.str t)
  | flag (b : Bool) : Writes .bool (.bool b)
  | integer {i : Int} (h : i.natAbs < 10 ^ digitLimit) : Writes .int (.int i)
  | date {d : Date} (h : d.IsReal) : Writes .date (.date d)
  | option {e : Enumeration} {name : String} {place : Nat} (he : e.IsClear)
      (h : e.option? name
        = some (.option e.name e.kind name (.str (e.name ++ "." ++ name)) place)) :
      Writes (.enumeration e) (.option e.name e.kind name (.str (e.name ++ "." ++ name)) place)

variable {basic : Ty} {v : Value}

theorem Writes.isBasic (h : basic.Writes v) : basic.isBasic = true := by
  cases h <;> rfl

theorem Writes.ne_null (h : basic.Writes v) : v ≠ .null := by
  cases h <;> rintro ⟨⟩

theorem Writes.dump_eq (h : basic.Writes v) : v.dump = v := by
  cases h <;> rfl

theorem Writes.coerce_eq (h : basic.Writes v) :
    coerce basic (.str v.attributeText) = match v with
      | .date _ | .option .. => .str v.attributeText
      | v => v := by
  cases h with
  | text t => rfl
  | flag b =>
      rw [Value.attributeText_bool, coerce_str, readText?]
      cases b <;> decide +kernel
  | integer hi =>
      rw [Value.attributeText_int, coerce_str, readText?, readInteger?_intText_of_lt hi]
      rfl
  | date hd => rfl
  | option he h => rfl

theorem Writes.coerce_eq_empty_iff (h : basic.Writes v) :
    coerce basic (.str v.attributeText) = .str "" ↔ v = .str "" := by
  rw [h.coerce_eq]
  cases h with
  | text t => exact Iff.rfl
  | flag b => exact Iff.rfl
  | integer hi => exact Iff.rfl
  | @date d hd =>
      refine ⟨fun heq => ?_, by rintro ⟨⟩⟩
      have hlength := congrArg String.length (Value.str.inj heq)
      simp [Value.attributeText, Value.text, Date.text] at hlength
  | option he h =>
      refine ⟨fun heq => ?_, by rintro ⟨⟩⟩
      exact absurd (Value.str.inj heq) (Value.attributeText_option_ne_empty _ _ _ _ _)

/-- What a check of the basic type has passed it passes again from what is sent for it. -/
theorem Writes.again (h : basic.Writes v) {s s' : Setting} (hconfig : s'.config = s.config)
    (hlax : s'.IsLax) {ls : List Limit} {w : Value} {c : Checked}
    (hrun : (basic.basicCheck s).run ls w = .ok c) (hvalue : c.value = v) :
    ∃ c', (basic.basicCheck s').run ls (coerce basic (.str v.attributeText)) = .ok c' ∧
      c'.value = v := by
  rw [h.coerce_eq]
  cases h with
  | text t =>
      simp only [basicCheck, reading, Reading.alone] at hrun ⊢
      refine Check.ofOwn_again hconfig hrun hvalue
        (Or.inl fun _ _ hq => Check.keepsText_of_runText hq) ?_
      intro ms q hq heq
      obtain ⟨t', ht', hagain⟩ := Check.runText_again hconfig hq
      cases heq.symm.trans ht'
      exact ⟨_, hagain, rfl⟩
  | flag b =>
      simp only [basicCheck, reading, Reading.alone] at hrun ⊢
      refine Check.ofOwn_again hconfig hrun hvalue (Or.inr (by rintro _ ⟨⟩)) ?_
      exact fun ms q hq heq => ⟨_, rfl, rfl⟩
  | @integer i hi =>
      simp only [basicCheck, reading, Reading.alone] at hrun ⊢
      refine Check.ofOwn_again hconfig hrun hvalue (Or.inr (by rintro _ ⟨⟩)) ?_
      exact fun ms q hq heq => ⟨_, (Check.runInteger_eq_ok s' hq).2 i heq, rfl⟩
  | @date d hd =>
      simp only [basicCheck, reading, Reading.alone] at hrun ⊢
      refine Check.ofOwn_again hconfig hrun hvalue (Or.inr (by rintro _ ⟨⟩)) ?_
      intro ms q hq heq
      obtain ⟨d', hd', _, hagain⟩ := Check.runDate_again s' hq
      cases heq.symm.trans hd'
      exact Check.runDate_text hlax hd hagain
  | option he h =>
      simp only [basicCheck, reading, Reading.alone] at hrun ⊢
      refine Check.ofOwn_again hconfig hrun hvalue (Or.inr (by rintro _ ⟨⟩)) ?_
      exact fun ms q hq heq => Check.runOption_of_optionOf? he hlax (he.optionOf?_of_option? h)

end Ty

end WebForm
