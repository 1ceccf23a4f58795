/-
What a check has passed, checked again: single values.

An instance is written out, and what is written out is checked once more, strictly.  A user of
the schema relies on this: what a check has made of a value should be a value that it accepts.
The statement is made of two checks of one type, in two settings with the same rules.  The
first is settled by the second if

    the second passes again, written out, what the first has passed, and
    the second comes to a result on whatever it is given

under all limits that the type takes as its own (`Check.Settles`).  A check that is firm gives
a value back as it is, which is needed later where values are compared: in a set, and among
keys.  The two things a check is known by, whether it is firm and which limits it knows, are
its `Grip`.

For a single value the reason is the same everywhere.  What comes out of a check is a value of
the type's own, an integer or a text or one of the options, and such a value is taken by the
strictest reading and meets the same limits again.  So each type has one lemma that says what
it gives, and `settles_ofOwn` does the rest.

Limits that are not the type's own are left out.  They are tried behind the check, and one of
them may change a value to what the type refuses: a pattern makes a text of an option.

Two hypotheses come from values that stand for another.  An option can stand for an integer
and be passed as one, and then what it stands for has to be an integer
(`Value.standsForInteger`).  And a literal must find each of its values under itself
(`takesItsOwn`), which fails if two of them are equal.
-/
import WebForm.Proofs.Gathering

namespace WebForm

open WebForm.Number WebForm.Text

/-! ## Limits that a check knows -/

/-- How a check takes values: whether it leaves what it has passed as it is, and which limits it
takes as its own. -/
structure Grip where
  firm : Bool
  knows : Limit → Bool

/-- No limits. -/
abbrev Limit.isUnknown : Limit → Bool := fun _ => false

/-- The limits of texts. -/
abbrev Limit.isTextual : Limit → Bool := fun l => l.isLength || l.isPattern

/-- The check knows the limits, unless they are about strictness. -/
def Grip.Bears (g : Grip) (ls : List Limit) : Prop :=
  ∀ l ∈ ls, l.isStrict = true ∨ g.knows l = true

namespace Grip

variable {g : Grip}

theorem bears_nil : g.Bears [] := fun _ h => absurd h List.not_mem_nil

theorem Bears.append {ls ms : List Limit} (h : g.Bears ls) (h' : g.Bears ms) : g.Bears (ls ++ ms) :=
  fun l hl => (List.mem_append.mp hl).elim (h l) (h' l)

theorem Bears.weaken {g' : Grip} {ls : List Limit} (h : g.Bears ls)
    (himp : ∀ l, g.knows l = true → g'.knows l = true) : g'.Bears ls :=
  fun l hl => (h l hl).imp_right (himp l)

end Grip

theorem Limit.split_of_known {knows : Limit → Bool} {ls : List Limit}
    (h : ∀ l ∈ ls, l.isStrict = true ∨ knows l = true) : Limit.split knows ls = (ls, []) := by
  have hall : ∀ l ∈ ls, (l.isStrict || knows l) = true := fun l hl => Bool.or_eq_true_iff.mpr (h l hl)
  have htake : ls.takeWhile (fun l => l.isStrict || knows l) = ls :=
    List.takeWhile_eq_self_iff.mpr hall
  have hdrop : ls.dropWhile (fun l => l.isStrict || knows l) = [] :=
    List.dropWhile_eq_nil_iff.mpr hall
  unfold Limit.split
  rw [htake, hdrop]
  simp

/-- The value does not stand for anything but an integer where an integer is asked for. -/
def Value.standsForInteger : Value → Bool
  | .option _ .plain _ (.int _) _ => true
  | .option _ .plain _ _ _ => false
  | .option e .integer n w p => (Value.option e .integer n w p).asInteger?.isSome
  | _ => true

/-! ## Passing again -/

namespace Outcome

theorem exists_of_map_eq_ok {ε α β : Type} {o : Except ε α} {g : α → β} {b : β}
    (h : o.map g = .ok b) : ∃ a, o = .ok a ∧ g a = b := by
  match o, h with
  | .ok a, h => exact ⟨a, rfl, Except.ok.inj h⟩

theorem exists_of_bind_eq_ok {ε α β : Type} {o : Except ε α} {g : α → Except ε β} {b : β}
    (h : o.bind g = .ok b) : ∃ a, o = .ok a ∧ g a = .ok b := by
  match o, h with
  | .ok a, h => exact ⟨a, rfl, h⟩

/-- What has passed passes again once it is written out; for a firm check there is nothing to write
out, and it passes as it is. -/
def PassesAgain (firm : Bool) (o : Outcome) (again : Value → Outcome) : Prop :=
  ∀ c, o = .ok c → ∃ c', again c.value.dump = .ok c' ∧
    (firm = true → c.value.dump = c.value ∧ c'.value = c.value)

variable {firm : Bool} {o : Outcome} {again : Value → Outcome}

theorem PassesAgain.of_firm (h : ∀ c, o = .ok c → c.value.dump = c.value ∧
    ∃ c', again c.value = .ok c' ∧ c'.value = c.value) : PassesAgain firm o again := by
  intro c hc
  obtain ⟨hdump, c', hagain, hvalue⟩ := h c hc
  exact ⟨c', by rw [hdump]; exact hagain, fun _ => ⟨hdump, hvalue⟩⟩

theorem PassesAgain.weaken {less : Bool} (h : PassesAgain firm o again)
    (himp : less = true → firm = true) : PassesAgain less o again := by
  intro c hc
  obtain ⟨c', hagain, hfirm⟩ := h c hc
  exact ⟨c', hagain, fun hless => hfirm (himp hless)⟩

theorem not_isMisfit_fault {α : Type} (cause : Cause) (v : Value) :
    ¬IsMisfit (fault cause v : Except Rejection α) := not_isMisfit_faults _

theorem not_isMisfit_pass (v : Value) (e : Exactness) : ¬IsMisfit (pass v e) := not_isMisfit_ok _

theorem not_isMisfit_bind {α β : Type} {r : Except Rejection α} {f : α → Except Rejection β}
    (h : ¬IsMisfit r) (hf : ∀ a, ¬IsMisfit (f a)) : ¬IsMisfit (r.bind f) := by
  rcases cases_of_not_isMisfit h with ⟨a, rfl⟩ | ⟨fs, rfl⟩
  · exact hf a
  · exact not_isMisfit_faults fs

end Outcome

namespace Check

open Outcome

/-- What the first check passes the second passes again, and the second can apply all its limits
whatever it is given. -/
structure Settles (g : Grip) (suits : Value → Prop) (a b : Check) : Prop where
  again : ∀ {ls : List Limit} {v : Value}, g.Bears ls → suits v →
    PassesAgain g.firm (a.run ls v) (b.run ls)
  fits : ∀ {ls : List Limit} (v : Value), g.Bears ls → ¬IsMisfit (b.run ls v)

variable {g : Grip} {suits : Value → Prop} {a b : Check}

theorem Settles.weaken {g' : Grip} {suits' : Value → Prop} (h : Settles g suits a b)
    (hfirm : g'.firm = true → g.firm = true) (hknows : ∀ l, g'.knows l = true → g.knows l = true)
    (hsuits : ∀ v, suits' v → suits v) : Settles g' suits' a b where
  again hls hv := (h.again (hls.weaken hknows) (hsuits _ hv)).weaken hfirm
  fits v hls := h.fits v (hls.weaken hknows)

/-- A check whose limits are all its own passes again what its own part does. -/
theorem settles_ofOwn {s s' : Setting} {sort : String} {knows : Limit → Bool}
    {label label' : List Limit → String} {own own' : List Limit → Value → Outcome}
    (hknows : ∀ l, g.knows l = true → knows l = true)
    (hagain : ∀ {ls : List Limit} {v : Value}, g.Bears ls → suits v →
      PassesAgain g.firm (own ls v) (own' ls))
    (hfits : ∀ (ls : List Limit) (v : Value), ¬IsMisfit (own' ls v)) :
    Settles g suits (ofOwn s sort knows label own) (ofOwn s' sort knows label' own') := by
  have alone : ∀ (s : Setting) (label : List Limit → String) (own : List Limit → Value → Outcome)
      {ls : List Limit} (v : Value), g.Bears ls → (ofOwn s sort knows label own).run ls v = own ls v := by
    intro s label own ls v hls
    have hsplit := Limit.split_of_known fun l hl => (hls l hl).imp_right (hknows l)
    simp only [ofOwn, hsplit]
    cases own ls v with
    | error e => rfl
    | ok c => rfl
  constructor
  · intro ls v hls hv c hc
    rw [alone s label own v hls] at hc
    obtain ⟨c', hagain, hfirm⟩ := hagain hls hv c hc
    exact ⟨c', by rw [alone s' label' own' _ hls, hagain], hfirm⟩
  · intro ls v hls
    rw [alone s' label' own' v hls]
    exact hfits ls v

theorem Settles.nullable (h : Settles g suits a b) : Settles g suits a.nullable b.nullable where
  again {ls v} hls hv := by
    intro c hc
    simp only [Check.nullable] at hc ⊢
    split at hc
    · cases hc
      exact ⟨_, rfl, fun _ => ⟨rfl, rfl⟩⟩
    · obtain ⟨c', hagain, hfirm⟩ := h.again hls hv c hc
      split
      · rename_i hnull
        refine ⟨_, rfl, fun hf => ⟨(hfirm hf).1, ?_⟩⟩
        rw [← (hfirm hf).1, hnull]
      · exact ⟨c', hagain, hfirm⟩
  fits v hls := by
    simp only [Check.nullable]
    split
    · exact not_isMisfit_pass _ _
    · exact h.fits _ hls

/-! ## Texts

A text that was stripped is stripped to itself. -/

theorem strip_strip (t : String) : strip (strip t) = strip t := by
  unfold strip
  rw [String.toList_ofList, trim_trim]

theorem not_isMisfit_runText (s : Setting) (ls : List Limit) (v : Value) :
    ¬IsMisfit (runText s ls v) := by
  unfold runText
  split
  · exact not_isMisfit_fault _ v
  · dsimp only
    split
    · exact not_isMisfit_fault _ v
    · exact not_isMisfit_pass _ _

/-- A text that has passed is stripped where texts are, and keeps the limits. -/
theorem runText_again {s s' : Setting} (hconfig : s'.config = s.config) {ls : List Limit} {v : Value}
    {c : Checked} (h : runText s ls v = .ok c) :
    ∃ t, c.value = .str t ∧ runText s' ls (.str t) = Outcome.pass (.str t) := by
  unfold runText at h
  split at h
  · cases h
  · rename_i t e _
    dsimp only at h
    split at h
    · cases h
    · rename_i hkept
      cases h
      refine ⟨_, rfl, ?_⟩
      unfold runText
      simp only [readText, hconfig]
      have hstripped : (if s.config.strip then strip (if s.config.strip then strip t else t)
          else if s.config.strip then strip t else t) = if s.config.strip then strip t else t := by
        split
        · exact strip_strip t
        · rfl
      rw [hstripped, hkept]

theorem settles_text {s s' : Setting} (hconfig : s'.config = s.config) :
    Settles ⟨true, Limit.isTextual⟩ suits (text s) (text s') := by
  refine settles_ofOwn (fun _ h => h) (fun _ _ => PassesAgain.of_firm fun c hc => ?_)
    (not_isMisfit_runText s')
  obtain ⟨t, hvalue, hagain⟩ := runText_again hconfig hc
  rw [hvalue]
  exact ⟨rfl, _, hagain, rfl⟩

/-! ## Numbers, flags and dates -/

theorem not_isMisfit_runInteger (s : Setting) (ls : List Limit) (v : Value) :
    ¬IsMisfit (runInteger s ls v) := by
  unfold runInteger
  split
  · exact not_isMisfit_fault _ v
  · split
    · exact not_isMisfit_pass _ _
    · split
      · exact not_isMisfit_fault _ _
      · split
        · exact not_isMisfit_fault _ v
        · exact not_isMisfit_pass _ _

/-- What is read as an integer is one, unless an option stands for something else. -/
theorem int_of_readInteger {strict : Bool} {v w : Value} {e : Exactness}
    (hv : v.standsForInteger = true) (h : readInteger strict v = .ok (w, e)) : ∃ i, w = .int i := by
  unfold readInteger at h
  split at h
  · cases h
    exact ⟨_, rfl⟩
  · cases h
    obtain ⟨i, hi⟩ := Option.isSome_iff_exists.mp hv
    refine ⟨i, ?_⟩
    simp only [Value.plain, hi]
  · split at h
    · cases h
    · split at h
      · cases h
        exact ⟨_, rfl⟩
      · obtain ⟨i, _, hi⟩ := exists_of_map_eq_ok h
        cases hi
        exact ⟨i, rfl⟩
      · obtain ⟨i, _, hi⟩ := exists_of_map_eq_ok h
        cases hi
        exact ⟨i, rfl⟩
      · obtain ⟨i, _, hi⟩ := exists_of_map_eq_ok h
        cases hi
        exact ⟨i, rfl⟩
      · rename_i w _ _ _
        cases h
        cases w with
        | int i => exact ⟨i, rfl⟩
        | _ => cases hv
      · cases h

theorem runInteger_eq_ok {s : Setting} (s' : Setting) {ls : List Limit} {v : Value} {c : Checked}
    (h : runInteger s ls v = .ok c) :
    (∃ e, readInteger (s.isStrict ls) v = .ok (c.value, e)) ∧
      ∀ i, c.value = .int i → runInteger s' ls (.int i) = Outcome.pass (.int i) := by
  unfold runInteger at h
  split at h
  · cases h
  · rename_i w e hread
    split at h
    · rename_i hfree
      cases h
      refine ⟨⟨e, hread⟩, fun i _ => ?_⟩
      unfold runInteger
      simp only [readInteger]
      exact if_pos hfree
    · rename_i hbound
      split at h
      · cases h
      · rename_i i hi
        split at h
        · cases h
        · rename_i hkept
          cases h
          refine ⟨⟨e, hread⟩, fun j hj => ?_⟩
          dsimp only at hj
          rw [hj] at hi
          cases hi
          unfold runInteger
          simp only [readInteger]
          rw [if_neg hbound]
          simp only [Value.asInteger?]
          rw [hkept]

theorem runInteger_again {s : Setting} (s' : Setting) {ls : List Limit} {v : Value}
    (hv : v.standsForInteger = true) {c : Checked} (h : runInteger s ls v = .ok c) :
    ∃ i, c.value = .int i ∧ runInteger s' ls (.int i) = Outcome.pass (.int i) := by
  obtain ⟨⟨e, hread⟩, hint⟩ := runInteger_eq_ok s' h
  obtain ⟨i, hi⟩ := int_of_readInteger hv hread
  exact ⟨i, hi, hint i hi⟩

theorem settles_integer (s s' : Setting) :
    Settles ⟨true, Limit.isNumeric⟩ (fun v => v.standsForInteger = true) (integer s) (integer s') := by
  refine settles_ofOwn (fun _ h => h) (fun _ hv => PassesAgain.of_firm fun c hc => ?_)
    (not_isMisfit_runInteger s')
  obtain ⟨i, hvalue, hagain⟩ := runInteger_again s' hv hc
  rw [hvalue]
  exact ⟨rfl, _, hagain, rfl⟩

theorem not_isMisfit_runFloat (s : Setting) (ls : List Limit) (v : Value) :
    ¬IsMisfit (runFloat s ls v) := by
  unfold runFloat
  split
  · exact not_isMisfit_fault _ v
  · split
    · exact not_isMisfit_fault _ v
    · exact not_isMisfit_pass _ _

theorem runFloat_again {s : Setting} (s' : Setting) {ls : List Limit} {v : Value} {c : Checked}
    (h : runFloat s ls v = .ok c) :
    ∃ x, c.value = .float x ∧ runFloat s' ls (.float x) = Outcome.pass (.float x) := by
  unfold runFloat at h
  split at h
  · cases h
  · rename_i x e _
    split at h
    · cases h
    · rename_i hkept
      cases h
      refine ⟨x, rfl, ?_⟩
      unfold runFloat
      simp only [readFloat]
      rw [hkept]

theorem settles_float (s s' : Setting) :
    Settles ⟨true, Limit.isNumeric⟩ suits (float s) (float s') := by
  refine settles_ofOwn (fun _ h => h) (fun _ _ => PassesAgain.of_firm fun c hc => ?_)
    (not_isMisfit_runFloat s')
  obtain ⟨x, hvalue, hagain⟩ := runFloat_again s' hc
  rw [hvalue]
  exact ⟨rfl, _, hagain, rfl⟩

theorem not_isMisfit_runFlag (s : Setting) (ls : List Limit) (v : Value) :
    ¬IsMisfit (runFlag s ls v) := by
  unfold runFlag
  split
  · exact not_isMisfit_fault _ v
  · exact not_isMisfit_pass _ _

theorem runFlag_again {s : Setting} (s' : Setting) {ls : List Limit} {v : Value} {c : Checked}
    (h : runFlag s ls v = .ok c) :
    ∃ b, c.value = .bool b ∧ runFlag s' ls (.bool b) = Outcome.pass (.bool b) := by
  unfold runFlag at h
  split at h
  · cases h
  · cases h
    exact ⟨_, rfl, rfl⟩

theorem settles_flag (s s' : Setting) : Settles ⟨true, Limit.isUnknown⟩ suits (flag s) (flag s') := by
  refine settles_ofOwn (fun _ h => h) (fun _ _ => PassesAgain.of_firm fun c hc => ?_)
    (not_isMisfit_runFlag s')
  obtain ⟨b, hvalue, hagain⟩ := runFlag_again s' hc
  rw [hvalue]
  exact ⟨rfl, _, hagain, rfl⟩

theorem not_isMisfit_runDate (s : Setting) (ls : List Limit) (v : Value) :
    ¬IsMisfit (runDate s ls v) := by
  unfold runDate
  split
  · exact not_isMisfit_fault _ v
  · split
    · exact not_isMisfit_fault _ v
    · split
      · exact not_isMisfit_fault _ v
      · exact not_isMisfit_pass _ _

theorem runDate_again {s : Setting} (s' : Setting) {ls : List Limit} {v : Value} {c : Checked}
    (h : runDate s ls v = .ok c) :
    ∃ d, c.value = .date d ∧ d.year ≠ 0 ∧ runDate s' ls (.date d) = Outcome.pass (.date d) := by
  unfold runDate at h
  split at h
  · cases h
  · rename_i d e _
    split at h
    · cases h
    · rename_i hkept
      split at h
      · cases h
      · rename_i hyear
        cases h
        refine ⟨d, rfl, hyear, ?_⟩
        unfold runDate
        simp only [readDate]
        rw [hkept]
        exact if_neg hyear

theorem settles_date (s s' : Setting) :
    Settles ⟨true, Limit.isNumeric⟩ suits (date s) (date s') := by
  refine settles_ofOwn (fun _ h => h) (fun _ _ => PassesAgain.of_firm fun c hc => ?_)
    (not_isMisfit_runDate s')
  obtain ⟨d, hvalue, _, hagain⟩ := runDate_again s' hc
  rw [hvalue]
  exact ⟨rfl, _, hagain, rfl⟩

/-! ## Anything and nothing -/

theorem settles_any (s s' : Setting) : Settles ⟨false, Limit.isUnknown⟩ suits (any s) (any s') := by
  refine settles_ofOwn (fun _ h => h) (fun _ _ => ?_) fun _ v => not_isMisfit_pass v _
  intro c _
  exact ⟨_, rfl, fun h => nomatch h⟩

theorem settles_none (s s' : Setting) :
    Settles ⟨true, Limit.isUnknown⟩ suits (Check.none s) (Check.none s') := by
  refine settles_ofOwn (fun _ h => h) (fun _ _ => PassesAgain.of_firm fun c hc => ?_) fun _ v => ?_
  · split at hc
    · cases hc
      exact ⟨rfl, _, rfl, rfl⟩
    · cases hc
  · split
    · exact not_isMisfit_pass _ _
    · exact not_isMisfit_fault _ _

/-! ## Literals and options

Both are found in a table.  What is found is one of the choices, and a choice is found under
itself. -/

namespace Choices

variable {choices : Choices} {v w : Value}

theorem exists_of_last? {pass : Value → Bool} (h : choices.last? pass = some w) :
    ∃ k ∈ choices, k.2 = w ∧ pass k.1 = true := by
  obtain ⟨k, hk, hw⟩ := Option.map_eq_some_iff.mp h
  exact ⟨k, List.mem_reverse.mp (List.mem_of_find?_eq_some hk), hw,
    List.find?_some (p := fun c : Value × Value => pass c.1) hk⟩

theorem mem_of_last? {pass : Value → Bool} (h : choices.last? pass = some w) :
    ∃ k ∈ choices, k.2 = w := by
  obtain ⟨k, hk, hw, -⟩ := exists_of_last? h
  exact ⟨k, hk, hw⟩

theorem mem_of_mem_partition {pick : Value × Value → Bool} {k : Value × Value}
    (h : k ∈ (choices.partition pick).1 ∨ k ∈ (choices.partition pick).2) : k ∈ choices := by
  rw [List.partition_eq_filter_filter] at h
  exact h.elim (fun h => (List.mem_filter.mp h).1) fun h => (List.mem_filter.mp h).1

theorem mem_of_integer? (h : choices.integer? v = .ok (some w)) : ∃ k ∈ choices, k.2 = w := by
  unfold integer? at h
  split at h
  · cases h
  · split at h
    · split at h
      · exact mem_of_last? (Except.ok.inj h)
      · cases h
    · cases h

theorem mem_of_equal? (h : equal? choices v = some w) : ∃ k ∈ choices, k.2 = w := by
  unfold equal? at h
  split at h
  · exact mem_of_last? h
  · cases h

theorem mem_of_lookup? (h : choices.lookup? v = .ok (some w)) : ∃ k ∈ choices, k.2 = w := by
  unfold lookup? at h
  dsimp only at h
  obtain ⟨found, hfound, hw⟩ := exists_of_map_eq_ok h
  simp only [Option.orElse_eq_orElse, Option.orElse_eq_or, Option.or_eq_some_iff] at hw
  rcases hw with rfl | ⟨_, hw | ⟨_, hw | ⟨_, hw⟩⟩⟩
  · unfold alike? at hfound
    split at hfound
    · exact mem_of_last? (Except.ok.inj hfound)
    · exact mem_of_last? (Except.ok.inj hfound)
    · exact mem_of_integer? hfound
    · cases hfound
  · obtain ⟨k, hk, hw⟩ := mem_of_equal? hw
    exact ⟨k, mem_of_mem_partition (Or.inr hk), hw⟩
  · obtain ⟨k, hk, hw⟩ := Option.map_eq_some_iff.mp hw
    exact ⟨k, mem_of_mem_partition (Or.inr (List.mem_of_find?_eq_some hk)), hw⟩
  · obtain ⟨k, hk, hw⟩ := mem_of_equal? hw
    exact ⟨k, mem_of_mem_partition (Or.inl hk), hw⟩

theorem not_isMisfit_integer? (choices : Choices) (v : Value) : ¬IsMisfit (choices.integer? v) := by
  unfold integer?
  split
  · exact not_isMisfit_ok _
  · split
    · split
      · exact not_isMisfit_ok _
      · exact not_isMisfit_fault _ v
    · exact not_isMisfit_fault _ v

theorem not_isMisfit_lookup? (choices : Choices) (v : Value) : ¬IsMisfit (choices.lookup? v) := by
  unfold lookup?
  dsimp only
  rw [isMisfit_map_iff]
  unfold alike?
  split
  · exact not_isMisfit_ok _
  · exact not_isMisfit_ok _
  · exact not_isMisfit_integer? choices _
  · exact not_isMisfit_ok _

end Choices

/-- Every value of a literal passes as it is. -/
def takesItsOwn (values : List Value) : Bool :=
  values.all fun w => w.dump == w && (runLiteral values w).toOption.map (·.value) == some w

theorem not_isMisfit_runLiteral (values : List Value) (v : Value) :
    ¬IsMisfit (runLiteral values v) := by
  unfold runLiteral
  refine not_isMisfit_bind (Choices.not_isMisfit_lookup? _ v) fun found => ?_
  cases found with
  | some w => exact not_isMisfit_pass w _
  | none => exact not_isMisfit_fault _ v

theorem mem_of_runLiteral {values : List Value} {v : Value} {c : Checked}
    (h : runLiteral values v = .ok c) : c.value ∈ values := by
  unfold runLiteral at h
  obtain ⟨found, hfound, h⟩ := exists_of_bind_eq_ok h
  cases found with
  | none => cases h
  | some w =>
      cases h
      obtain ⟨k, hk, rfl⟩ := Choices.mem_of_lookup? hfound
      obtain ⟨w, hw, rfl⟩ := List.mem_map.mp hk
      exact hw

theorem settles_literal {values : List Value} (h : takesItsOwn values = true) (s s' : Setting) :
    Settles ⟨true, Limit.isUnknown⟩ suits (literal values s) (literal values s') := by
  refine settles_ofOwn (fun _ h => h) (fun _ _ => PassesAgain.of_firm fun c hc => ?_) fun _ v =>
    not_isMisfit_runLiteral values v
  have own := List.all_eq_true.mp h c.value (mem_of_runLiteral hc)
  rw [Bool.and_eq_true, beq_iff_eq, beq_iff_eq] at own
  obtain ⟨hdump, hagain⟩ := own
  obtain ⟨c', hc', hvalue⟩ := exists_of_map_toOption hagain
  exact ⟨hdump, c', hc', hvalue⟩

theorem mem_options_of_optionChoices {e : Enumeration} {k : Value × Value}
    (h : k ∈ optionChoices e) : k.2 ∈ e.options := by
  obtain ⟨m, _, hm⟩ := List.mem_filterMap.mp h
  obtain ⟨w, hw, rfl⟩ := Option.map_eq_some_iff.mp hm
  obtain ⟨v, _, hv⟩ := Option.bind_eq_some_iff.mp hw
  obtain ⟨m', hm', rfl⟩ := Option.map_eq_some_iff.mp hv
  exact List.mem_map.mpr ⟨m', List.mem_of_find?_eq_some hm', rfl⟩

theorem mem_of_lookupOption? {e : Enumeration} {v w : Value}
    (h : lookupOption? e v = .ok (some w)) : w ∈ e.options := by
  have chosen : (∃ k ∈ optionChoices e, k.2 = w) → w ∈ e.options := by
    rintro ⟨k, hk, rfl⟩
    exact mem_options_of_optionChoices hk
  unfold lookupOption? at h
  dsimp only at h
  split at h
  · split at h
    · exact chosen (Choices.mem_of_last? (Except.ok.inj h))
    · cases h
  · split at h
    · exact chosen (Choices.mem_of_integer? h)
    · cases h
  · obtain ⟨found, hfound, h⟩ := exists_of_bind_eq_ok h
    cases found with
    | some w' =>
        cases h
        exact chosen (Choices.mem_of_lookup? hfound)
    | none =>
        dsimp only at h
        split at h
        · exact chosen (Choices.mem_of_integer? h)
        · cases h

theorem not_isMisfit_lookupOption? (e : Enumeration) (v : Value) :
    ¬IsMisfit (lookupOption? e v) := by
  unfold lookupOption?
  dsimp only
  split
  · split <;> exact not_isMisfit_ok _
  · split
    · exact Choices.not_isMisfit_integer? _ _
    · exact not_isMisfit_ok _
  · refine not_isMisfit_bind (Choices.not_isMisfit_lookup? _ v) fun found => ?_
    cases found with
    | some w => exact not_isMisfit_ok _
    | none =>
        dsimp only
        split
        · exact Choices.not_isMisfit_integer? _ _
        · exact not_isMisfit_ok _

theorem not_isMisfit_runOption (e : Enumeration) (s : Setting) (ls : List Limit) (v : Value) :
    ¬IsMisfit (runOption e s ls v) := by
  unfold runOption
  split
  · exact not_isMisfit_pass v _
  · split
    · exact not_isMisfit_fault _ v
    · refine not_isMisfit_bind (not_isMisfit_lookupOption? e v) fun found => ?_
      dsimp only
      split
      · exact not_isMisfit_pass _ _
      · exact not_isMisfit_fault _ v

theorem mem_of_runOption {e : Enumeration} {s : Setting} {ls : List Limit} {v : Value} {c : Checked}
    (h : runOption e s ls v = .ok c) : c.value ∈ e.options := by
  unfold runOption at h
  split at h
  · rename_i hmem
    cases h
    exact List.contains_iff_mem.mp hmem
  · split at h
    · cases h
    · obtain ⟨found, hfound, h⟩ := exists_of_bind_eq_ok h
      dsimp only at h
      split at h
      · rename_i w hw
        cases h
        simp only [Option.orElse_eq_orElse, Option.orElse_eq_or, Option.or_eq_some_iff] at hw
        rcases hw with rfl | ⟨_, hw⟩
        · exact mem_of_lookupOption? hfound
        · obtain ⟨k, hk, rfl⟩ := Option.map_eq_some_iff.mp hw
          exact mem_options_of_optionChoices (List.mem_of_find?_eq_some hk)
      · cases h

theorem runOption_of_mem {e : Enumeration} {v : Value} (h : v ∈ e.options) (s : Setting)
    (ls : List Limit) : runOption e s ls v = Outcome.pass v := by
  unfold runOption
  rw [if_pos (List.contains_iff_mem.mpr h)]

theorem settles_option (e : Enumeration) (s s' : Setting) :
    Settles ⟨true, Limit.isUnknown⟩ suits (option e s) (option e s') := by
  refine settles_ofOwn (fun _ h => h) (fun _ _ => PassesAgain.of_firm fun c hc => ?_)
    (not_isMisfit_runOption e s')
  have hmem := mem_of_runOption hc
  refine ⟨?_, _, runOption_of_mem hmem s' _, rfl⟩
  obtain ⟨m, _, hm⟩ := List.mem_map.mp hmem
  rw [← hm]
  rfl

end Check

end WebForm
