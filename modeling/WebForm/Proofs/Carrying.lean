/-
What a check makes of a text, and of what the text was read as before.

A submission reads texts before they are checked: for a number or a flag the text is converted
if it can be, and left alone otherwise.  So one value goes through two readers, that of the
submission and that of the check, and the first should make no difference where the second
would have passed the text.  A check carries a text to a value if the value passes as soon as
the text would have passed, and comes out as the same value.  The main result is

    reading_reads : s.IsLax → (t.reading s).core.Reads t.kind.scalar

a lax check of any type carries every text to what the text is read as for the scalar of the
type.  Where something is read at all, both readers have read one number or one flag, and the
limits that follow see nothing but that.

The converse fails: a text that a check refuses may be read as a value that it passes, since
the two readers of integers do not know the same numerals.  Nor is anything said of strict
checks, which take no text for a number.

For the proof, a type whose kind reads texts is seen through to its root, the one type with a
reader of its own that is in it (`reading_hasRoots`).  A choice between several alternatives
reads nothing, since its kind is settled only if all alternatives are one.  So the
alternatives of the check and those of the kind have to be compared, and that is
`KindSurvey.settle_cases`: what the two functions drop as repeated is not the same, but they
leave one alternative in the same cases.
-/
import WebForm.Proofs.Distinct
import WebForm.Proofs.Flag
import WebForm.Proofs.Numerals
import WebForm.Proofs.Parsing
import WebForm.Proofs.SmallLetters

namespace WebForm

open WebForm.Number WebForm.Text Submission

/-! ## Outcomes and checks that carry

Limits that a check adds to its own see the value and not the input, except in what they say
of it.  So a check with limits of its own carries as soon as its own part does. -/

/-- The second outcome is a value as soon as the first is one, and then it is the same value. -/
def Outcome.Carries (o o' : Outcome) : Prop :=
  ∀ r, o = .ok r → ∃ r', o' = .ok r' ∧ r'.value = r.value

/-- The check makes of the second value what it makes of the first, once that passes. -/
def Check.Carries (c : Check) (v w : Value) : Prop :=
  ∀ ls, Outcome.Carries (c.run ls v) (c.run ls w)

namespace Outcome

theorem Carries.refl (o : Outcome) : Carries o o := fun r h => ⟨r, h, rfl⟩

theorem Carries.of_fault {cause : Cause} {input : Value} {o' : Outcome} :
    Carries (fault cause input) o' := fun _ h => nomatch h

theorem Carries.under {o o' : Outcome} (h : Carries o o') (step step' : Step) :
    Carries (under step o) (under step' o') := by
  intro r hr
  match o, hr with
  | .ok r, rfl =>
      obtain ⟨r', rfl, hvalue⟩ := h r rfl
      exact ⟨r', rfl, hvalue⟩

theorem Carries.bind {o o' : Outcome} (h : Carries o o') {next next' : Checked → Outcome}
    (hnext : ∀ r r', r'.value = r.value → Carries (next r) (next' r')) :
    Carries (o.bind next) (o'.bind next') := by
  intro r hr
  match o, hr with
  | .ok q, hr =>
      obtain ⟨q', rfl, hvalue⟩ := h q rfl
      exact hnext q q' hvalue r hr

end Outcome

namespace Limit

theorem apply_carries (s : Setting) (sort : String) (input input' : Value) (l : Limit)
    {c c' : Checked} (h : c'.value = c.value) :
    Outcome.Carries (apply s sort input l c) (apply s sort input' l c') := by
  intro r hr
  cases l with
  | strict on =>
      cases hr
      exact ⟨c', rfl, h⟩
  | minLength n | maxLength n =>
      simp only [apply, h] at hr ⊢
      split at hr
      · cases hr
      · split at hr
        · cases hr
        · cases hr
          exact ⟨c', rfl, h⟩
  | pattern p =>
      simp only [apply, h] at hr ⊢
      split at hr
      · cases hr
        exact ⟨_, rfl, rfl⟩
      · split at hr <;> cases hr
      · cases hr
  | above b | atLeast b | below b | atMost b | multipleOf b =>
      simp only [apply, h] at hr ⊢
      split at hr
      · cases hr
      · cases hr
      · cases hr
        exact ⟨c', rfl, h⟩

theorem applyAll_carries (s : Setting) (input input' : Value) (sort : String) (ls : List Limit)
    {c c' : Checked} (h : c'.value = c.value) :
    Outcome.Carries (applyAll s input sort ls c) (applyAll s input' sort ls c') := by
  induction ls generalizing sort c c' with
  | nil =>
      intro r hr
      cases hr
      exact ⟨c', rfl, h⟩
  | cons l ls ih =>
      simp only [applyAll]
      exact (apply_carries s sort input input' l h).bind fun _ _ hvalue => ih _ hvalue

end Limit

namespace Check

theorem Carries.refl (c : Check) (v : Value) : c.Carries v v := fun _ => Outcome.Carries.refl _

theorem carries_ofOwn {s : Setting} {sort : String} {knows : Limit → Bool}
    {label : List Limit → String} {own : List Limit → Value → Outcome} {v w : Value}
    (h : ∀ ls, Outcome.Carries (own ls v) (own ls w)) :
    (ofOwn s sort knows label own).Carries v w := fun _ =>
  (h _).bind fun _ _ hvalue => Limit.applyAll_carries s _ _ _ _ hvalue

theorem Carries.nullable {c : Check} {v w : Value} (h : c.Carries v w) (hv : v ≠ .null)
    (hw : w ≠ .null) : c.nullable.Carries v w := by
  intro ls
  rw [run_nullable hv, run_nullable hw]
  exact h ls

/-! ## Texts and what they are read as

Three scalars convert texts.  For each the reader of the submission is stricter or laxer than
that of the check in places, and on the texts that both read they agree. -/

/-- The check carries every text to what it is read as for a scalar. -/
def Reads (c : Check) (scalar : Ty) : Prop := ∀ t, c.Carries (.str t) (coerce scalar (.str t))

end Check

namespace Ty

/-- Texts are read for the scalar. -/
def isConverted : Ty → Bool
  | .bool | .int | .float => true
  | _ => false

end Ty

theorem coerce_str (scalar : Ty) (t : String) :
    coerce scalar (.str t) = (readText? scalar t).getD (.str t) := rfl

theorem coerce_of_not_isConverted {scalar : Ty} (h : scalar.isConverted = false) (t : String) :
    coerce scalar (.str t) = .str t := by
  cases scalar with
  | bool | int | float => cases h
  | _ => rfl

theorem coerce_ne_null (scalar : Ty) (t : String) : coerce scalar (.str t) ≠ .null := by
  rcases coerce_cases scalar (.str t) with h | ⟨_, h⟩ | ⟨_, h⟩ | ⟨_, h⟩ <;> rw [h] <;>
    exact fun heq => nomatch heq

namespace Check

theorem reads_of_not_isConverted {scalar : Ty} (h : scalar.isConverted = false) (c : Check) :
    c.Reads scalar := by
  intro t
  rw [coerce_of_not_isConverted h]
  exact Carries.refl _ _

theorem IsUnder.reads {c basic : Check} {limits : List Limit} {scalar : Ty}
    (h : c.IsUnder basic limits) (hreads : basic.Reads scalar) : c.Reads scalar := by
  intro t ls
  have hstr : Value.str t ≠ .null := fun heq => nomatch heq
  rw [h.run_eq ls hstr, h.run_eq ls (coerce_ne_null scalar t)]
  exact hreads t _

end Check

/-- A check within a submission is lax, whatever is declared. -/
def Setting.IsLax (s : Setting) : Prop := s.strict? = some false

theorem Setting.IsLax.isStrict {s : Setting} (h : s.IsLax) (ls : List Limit) :
    s.isStrict ls = false := by
  rw [Setting.isStrict, h, Option.getD_some]

namespace Check

variable {s : Setting}

theorem integerOfText_eq_ok {t : String} {j : Int} (h : integerOfText t = .ok j) :
    checkInteger t = .ok j := by
  unfold integerOfText at h
  split at h
  · rename_i i hi
    cases h
    exact hi
  · cases h
  · cases h

theorem reads_integer (hs : s.IsLax) : (integer s).Reads .int := by
  intro t
  rw [coerce_str]
  cases hread : readText? .int t with
  | none => exact Carries.refl _ _
  | some v =>
      obtain ⟨i, hi, rfl⟩ := Option.map_eq_some_iff.mp hread
      refine carries_ofOwn fun ls r hr => ?_
      simp only [runInteger, hs.isStrict, readInteger, Bool.false_eq_true, if_false] at hr
      simp only [runInteger, readInteger, Option.getD_some]
      cases htext : integerOfText t with
      | error cause =>
          rw [htext] at hr
          cases hr
      | ok j =>
          obtain rfl := readInteger?_eq_of_checkInteger hi (integerOfText_eq_ok htext)
          rw [htext] at hr
          simp only [Except.map, Value.asInteger?] at hr ⊢
          cases hlimits : ls.any Limit.isNumeric with
          | false =>
              rw [hlimits] at hr
              cases hr
              exact ⟨_, rfl, rfl⟩
          | true =>
              rw [hlimits] at hr
              cases hcause : Limit.numericCause? true ls (.finite i) with
              | some cause =>
                  rw [hcause] at hr
                  cases hr
              | none =>
                  rw [hcause] at hr
                  cases hr
                  exact ⟨_, rfl, rfl⟩

theorem reads_float (hs : s.IsLax) : (float s).Reads .float := by
  intro t
  rw [coerce_str]
  cases hread : readText? .float t with
  | none => exact Carries.refl _ _
  | some v =>
      obtain ⟨x, hx, rfl⟩ := Option.map_eq_some_iff.mp hread
      refine carries_ofOwn fun ls r hr => ?_
      simp only [runFloat, hs.isStrict, readFloat, Bool.false_eq_true, if_false] at hr
      simp only [runFloat, readFloat, Option.getD_some]
      cases htext : checkFloat? t with
      | none =>
          rw [htext] at hr
          cases hr
      | some y =>
          obtain rfl := readFloat?_eq_of_checkFloat? hx htext
          rw [htext] at hr
          dsimp only at hr
          split at hr
          · cases hr
          · cases hr
            exact ⟨_, rfl, rfl⟩

theorem lower_trim_of_asciiLower {t word : String} (h : asciiLower t = word)
    (hword : ∀ c ∈ word.toList, 48 ≤ c.toNat ∧ c.toNat ≤ 122) :
    lower (String.ofList (trim isSpacing t.toList)) = word := by
  have hchars : ∀ c ∈ t.toList, 48 ≤ c.toNat ∧ c.toNat ≤ 122 := by
    intro c hc
    have hmem : c.toLower ∈ word.toList := by
      rw [← h, asciiLower, String.toList_ofList]
      exact List.mem_map.mpr ⟨c, hc, rfl⟩
    have hlower := hword _ hmem
    unfold Char.toLower at hlower
    split at hlower
    · rename_i hupper
      have hlow : 65 ≤ c.toNat := hupper.1
      have hhigh : c.toNat ≤ 90 := hupper.2
      omega
    · exact hlower
  have hspacing : ∀ c ∈ t.toList, isSpacing c = false := by
    intro c hc
    have hbounds := hchars c hc
    simp only [isSpacing, isWhite, whiteRanges, Ranges.has, List.any_cons, List.any_nil,
      Bool.or_false, Bool.or_eq_false_iff, Bool.and_eq_false_iff, decide_eq_false_iff_not]
    omega
  have hascii : ∀ c ∈ t.toList, c.toNat < 128 := fun c hc => by
    have hbounds := hchars c hc
    omega
  rw [trim_eq_self hspacing, String.ofList_toList, lower, lowerFrom_of_ascii hascii, ← h,
    asciiLower]

/-- The two readers of flags agree on the words that both know. -/
theorem readFlag?_eq_of_flagOfText {t : String} {b b' : Bool} (h : readFlag? t = some b)
    (h' : flagOfText t = .ok b') : b = b' := by
  have hwords : ∀ word ∈ Check.trueWords ++ Check.falseWords, ∀ c ∈ word.toList,
      48 ≤ c.toNat ∧ c.toNat ≤ 122 := by
    have hall : (Check.trueWords ++ Check.falseWords).all
        (fun word => word.toList.all fun c => 48 ≤ c.toNat && c.toNat ≤ 122) = true := by decide
    simpa only [List.all_eq_true, Bool.and_eq_true, decide_eq_true_eq] using hall
  have hset : ∀ word ∈ Check.trueWords, Submission.falseWords.contains word = false := by decide
  have hunset : ∀ word ∈ Check.falseWords, Submission.trueWords.contains word = false := by decide
  have hread : ∀ word, asciiLower t = word → word ∈ Check.trueWords ++ Check.falseWords →
      (if Submission.trueWords.contains word then some true
        else if Submission.falseWords.contains word then some false else Option.none) = some b := by
    intro word hword hmem
    rw [← h, readFlag?, lower_trim_of_asciiLower hword (hwords word hmem)]
  unfold flagOfText at h'
  split at h'
  · rename_i htrue
    cases h'
    have hmem := List.contains_iff_mem.mp htrue
    have hb := hread _ rfl (List.mem_append_left _ hmem)
    rw [hset _ hmem] at hb
    split at hb
    · exact (Option.some.inj hb).symm
    · cases hb
  · split at h'
    · rename_i hfalse
      cases h'
      have hmem := List.contains_iff_mem.mp hfalse
      have hb := hread _ rfl (List.mem_append_right _ hmem)
      rw [hunset _ hmem, if_neg Bool.false_ne_true] at hb
      split at hb
      · exact (Option.some.inj hb).symm
      · cases hb
    · cases h'

theorem reads_flag (hs : s.IsLax) : (flag s).Reads .bool := by
  intro t
  have hcoerce : coerce .bool (.str t) = ((readFlag? t).map .bool).getD (.str t) := rfl
  rw [hcoerce]
  cases hb : readFlag? t with
  | none => exact Carries.refl _ _
  | some b =>
      rw [Option.map_some, Option.getD_some]
      refine carries_ofOwn fun ls r hr => ?_
      simp only [runFlag, hs.isStrict, readFlag, Bool.false_eq_true, if_false] at hr
      simp only [runFlag, readFlag]
      cases htext : flagOfText t with
      | error cause =>
          rw [htext] at hr
          cases hr
      | ok b' =>
          obtain rfl := readFlag?_eq_of_flagOfText hb htext
          rw [htext] at hr
          cases hr
          exact ⟨_, rfl, rfl⟩

/-! ## Checks that take no text

All checks of collections, mappings and schemas refuse a text as it is, whatever it says, and
so carry it to anything. -/

/-- The check takes no text. -/
def RefusesTexts (c : Check) : Prop := ∀ ls t r, c.run ls (.str t) ≠ .ok r

theorem refusesTexts_ofOwn {sort : String} {knows : Limit → Bool} {label : List Limit → String}
    {own : List Limit → Value → Outcome} (h : ∀ ls t r, own ls (.str t) ≠ .ok r) :
    (ofOwn s sort knows label own).RefusesTexts := by
  intro ls t r hr
  simp only [ofOwn] at hr
  cases hown : own (Limit.split knows ls).1 (.str t) with
  | error e =>
      rw [hown] at hr
      cases hr
  | ok q => exact h _ t q hown

theorem readItems_str (strict : Bool) (kind : Counted) (t : String) :
    readItems strict kind (.str t) = .error (.expected (expectedOf kind)) := by
  cases strict <;> cases kind <;> rfl

theorem refusesTexts_none : (Check.none s).RefusesTexts :=
  refusesTexts_ofOwn fun _ _ _ h => nomatch h

theorem refusesTexts_collection (kind : Counted) (item : Check) :
    (collection kind item s).RefusesTexts := by
  refine refusesTexts_ofOwn fun ls t r h => ?_
  simp only [runCollection, readItems_str] at h
  cases h

theorem refusesTexts_freeList : (freeList s).RefusesTexts := by
  refine refusesTexts_ofOwn fun ls t r h => ?_
  simp only [runFreeList, readItems_str] at h
  cases h

theorem refusesTexts_sequence (item : Check) : (sequence item s).RefusesTexts :=
  refusesTexts_ofOwn fun _ _ _ h => nomatch h

theorem refusesTexts_positions (checks : List Check) : (positions checks s).RefusesTexts := by
  refine refusesTexts_ofOwn fun ls t r h => ?_
  simp only [runPositions, readItems_str] at h
  cases h

theorem refusesTexts_dict (key value : Check) : (dict key value s).RefusesTexts :=
  refusesTexts_ofOwn fun _ _ _ h => nomatch h

theorem refusesTexts_record (name : String) (rules : Config) (fields : List FieldCheck) :
    (record name rules fields s).RefusesTexts :=
  refusesTexts_ofOwn fun _ _ _ h => nomatch h

theorem RefusesTexts.reads {c : Check} (h : c.RefusesTexts) (scalar : Ty) : c.Reads scalar :=
  fun t ls r hr => absurd hr (h ls t r)

end Check

/-! ## Kinds of alternatives

Two alternatives count as one only if they are the same type and have no limits, or are
literals; and the alternatives that are left of a list are pairwise different. -/

namespace Ty

mutual

theorem kind_of_mem_options : ∀ {t : Ty} {o : Ty × Kind}, o ∈ t.surveyKind.options → o.2 = o.1.kind
  | .none, _, h => absurd h List.not_mem_nil
  | .optional t, _, h => kind_of_mem_options (t := t) h
  | .choice _ ts, _, h => @kind_of_mem_surveyKinds ts _ h
  | .bare c, o, h => by
      cases c <;>
        · simp only [surveyKind, KindSurvey.alone, List.mem_singleton] at h
          rw [h]
          rfl
  | .any, o, h | .str, o, h | .int, o, h | .float, o, h | .bool, o, h | .date, o, h
  | .many _ _, o, h | .positions _, o, h | .dict _ _, o, h | .literal _, o, h
  | .enumeration _, o, h | .limited _ _, o, h | .record _, o, h => by
      simp only [surveyKind, KindSurvey.alone, List.mem_singleton] at h
      rw [h]
      rfl

theorem kind_of_mem_surveyKinds : ∀ {ts : List Ty} {o : Ty × Kind}, o ∈ surveyKinds ts →
    o.2 = o.1.kind
  | [], _, h => absurd h List.not_mem_nil
  | t :: ts, o, h => by
      rw [surveyKinds] at h
      exact (List.mem_append.mp h).elim kind_of_mem_options kind_of_mem_surveyKinds

end

theorem isSameOption_cases {a b : Ty} (h : a.isSameOption b = true) :
    (∃ values, b = .literal values) ∨ a = b ∧ a.hasLimits = false := by
  have other : (!a.hasLimits && a == b) = true → a = b ∧ a.hasLimits = false := by
    intro h
    rw [Bool.and_eq_true, Bool.not_eq_true'] at h
    exact ⟨eq_of_beq h.2, h.1⟩
  cases b with
  | literal values => exact Or.inl ⟨values, rfl⟩
  | _ =>
      refine Or.inr (other ?_)
      cases a <;> exact h

theorem isSameOption_self {t : Ty} (h : t.hasLimits = false) : t.isSameOption t = true := by
  cases t with
  | literal values => simp [isSameOption]
  | _ => simp [isSameOption, h]

end Ty

/-- Texts are read as many values, or they are converted. -/
def Kind.isRead (k : Kind) : Bool := k.multi || k.scalar.isConverted

namespace KindSurvey

/-- Between alternatives nothing is read, unless they are one type; if that has limits, it is one
alternative. -/
theorem settle_cases {options : List (Ty × Kind)} (h : ∀ o ∈ options, o.2 = o.1.kind) :
    (settle options).isRead = false ∨
      ∃ t, (settle options) = t.kind ∧ (∀ o ∈ options, o.1 = t) ∧
        (t.hasLimits = true → options.length ≤ 1) := by
  cases options with
  | nil => exact Or.inl rfl
  | cons first rest =>
      have hkind : first.2 = first.1.kind := h first List.mem_cons_self
      rw [settle]
      split
      · rename_i hall
        rw [List.all_eq_true] at hall
        by_cases hliteral : ∃ values, first.1 = .literal values
        · obtain ⟨values, hvalues⟩ := hliteral
          rw [hkind, hvalues]
          exact Or.inl rfl
        · have hsame : ∀ o ∈ rest, o.1 = first.1 ∧ o.1.hasLimits = false :=
            fun o ho => (Ty.isSameOption_cases (hall o ho)).resolve_left hliteral
          refine Or.inr ⟨first.1, hkind, List.forall_mem_cons.mpr ⟨rfl, fun o ho => (hsame o ho).1⟩,
            fun hlimits => ?_⟩
          cases rest with
          | nil => exact Nat.le_refl 1
          | cons o rest =>
              obtain ⟨heq, hfree⟩ := hsame o List.mem_cons_self
              rw [heq, hlimits] at hfree
              cases hfree
      · exact Or.inl rfl

end KindSurvey

namespace Reading

theorem distinctOptions_sublist (options : List (Ty × Check)) :
    (distinctOptions options).Sublist options := distinctBy_sublist options

theorem distinctOptions_pairwise (options : List (Ty × Check)) :
    (distinctOptions options).Pairwise fun p q => p.1.isSameOption q.1 = false :=
  distinctBy_pairwise options

end Reading

/-! ## Types that are seen through

The relation between a reading and its root is kept by limits, by a choice with nothing and by
a choice between one type and itself.  A list of alternatives keeps it for each of them, so
that it can be taken apart again when all but one are dropped. -/

namespace Ty

/-- The types of one alternative that read texts as many values or convert them. -/
def isRoot : Ty → Bool
  | .bool | .int | .float | .many _ _ | .positions _ | .bare .genericList => true
  | _ => false

theorem reading_of_isRoot {b : Ty} (h : b.isRoot = true) (s : Setting) :
    b.reading s = .alone b (b.reading s).core := by
  cases b with
  | bool | int | float | positions => simp only [reading, Reading.alone]
  | bare c =>
      cases c with
      | genericList => simp only [reading, Reading.alone]
      | _ => cases h
  | many c t =>
      cases c with
      | sequence => cases t <;> simp only [reading, Reading.alone]
      | _ => simp only [reading, Reading.alone]
  | _ => cases h

theorem surveyKind_of_isRoot {b : Ty} (h : b.isRoot = true) : b.surveyKind = .alone b b.kind := by
  cases b with
  | bool | int | float | positions | many => rfl
  | bare c =>
      cases c with
      | genericList => rfl
      | _ => cases h
  | _ => cases h

end Ty

/-- The check is that of a root of the kind under some limits, apart from nothing. -/
def Check.HasRoot (c : Check) (k : Kind) (s : Setting) : Prop :=
  ∃ b : Ty, b.isRoot = true ∧ b.kind = k ∧ ∃ limits, c.IsUnder (b.reading s).core limits

theorem Check.HasRoot.nullable {c : Check} {k : Kind} {s : Setting} (h : c.HasRoot k s) :
    c.nullable.HasRoot k s := by
  obtain ⟨b, hroot, hkind, limits, hunder⟩ := h
  exact ⟨b, hroot, hkind, limits, hunder.nullable⟩

namespace Reading

/-- The alternatives of a reading are among those of a survey, if it has any, and each has a root
of its kind, if that reads texts. -/
structure OptionsHaveRoots (options : List (Ty × Check)) (survey : List (Ty × Kind)) (s : Setting) :
    Prop where
  among : (options.map (·.1)).Sublist (survey.map (·.1))
  empty : options = [] → survey = []
  root : ∀ o ∈ options, o.1.kind.isRead = true → o.2.HasRoot o.1.kind s

/-- The reading has a root of the kind that the survey says, as a whole and as each
alternative. -/
structure HasRoots (r : Reading) (survey : KindSurvey) (s : Setting) : Prop where
  core : survey.kind.isRead = true → r.core.HasRoot survey.kind s
  options : OptionsHaveRoots r.options survey.options s

variable {s : Setting}

theorem OptionsHaveRoots.distinct {options : List (Ty × Check)} {survey : List (Ty × Kind)}
    (h : OptionsHaveRoots options survey s) : OptionsHaveRoots (distinctOptions options) survey s where
  among := ((distinctOptions_sublist options).map _).trans h.among
  empty hnil := h.empty (eq_nil_of_distinctBy_eq_nil hnil)
  root o ho := h.root o ((distinctOptions_sublist options).subset ho)

theorem OptionsHaveRoots.append {options others : List (Ty × Check)} {survey more : List (Ty × Kind)}
    (h : OptionsHaveRoots options survey s) (h' : OptionsHaveRoots others more s) :
    OptionsHaveRoots (options ++ others) (survey ++ more) s where
  among := by
    rw [List.map_append, List.map_append]
    exact h.among.append h'.among
  empty hnil := by
    obtain ⟨hoptions, hothers⟩ := List.append_eq_nil_iff.mp hnil
    rw [h.empty hoptions, h'.empty hothers, List.append_nil]
  root o ho := (List.mem_append.mp ho).elim (h.root o) (h'.root o)

theorem hasRoots_alone {t : Ty} {c : Check} (h : t.kind.isRead = true → c.HasRoot t.kind s)
    (hsurvey : t.surveyKind = .alone t t.kind) : (alone t c).HasRoots t.surveyKind s where
  core := h
  options := by
    rw [hsurvey]
    refine ⟨List.Sublist.refl _, fun hnil => (nomatch hnil), fun o ho => ?_⟩
    rw [List.mem_singleton.mp ho]
    exact h

theorem hasRoots_of_not_isRead {t : Ty} {c : Check} (h : t.kind.isRead = false)
    (hsurvey : t.surveyKind = .alone t t.kind) : (alone t c).HasRoots t.surveyKind s :=
  hasRoots_alone (fun hread => nomatch h.symm.trans hread) hsurvey

theorem hasRoots_of_isRoot {b : Ty} (h : b.isRoot = true) :
    (b.reading s).HasRoots b.surveyKind s := by
  rw [Ty.reading_of_isRoot h]
  exact hasRoots_alone (fun _ => ⟨b, h, rfl, [], fun _ _ => Or.inl rfl⟩) (Ty.surveyKind_of_isRoot h)

theorem hasRoots_among {options : List (Ty × Check)} {survey : List (Ty × Kind)}
    (h : OptionsHaveRoots options survey s) (hkinds : ∀ o ∈ survey, o.2 = o.1.kind) (nullable : Bool) :
    (among options nullable s).HasRoots (.among survey) s := by
  have hdistinct := h.distinct
  have hpairwise := distinctOptions_pairwise options
  refine ⟨fun hread => ?_, hdistinct⟩
  have hempty := hdistinct.empty
  rcases KindSurvey.settle_cases hkinds with hfree | ⟨t, ht, hall, hlone⟩
  · exact nomatch hfree.symm.trans hread
  · have htype : ∀ o ∈ distinctOptions options, o.1 = t := by
      intro o ho
      obtain ⟨p, hp, heq⟩ := List.mem_map.mp
        (hdistinct.among.subset (List.mem_map.mpr ⟨o, ho, rfl⟩))
      rw [← heq, hall p hp]
    have hroots : ∀ o ∈ distinctOptions options, o.2.HasRoot (KindSurvey.among survey).kind s := by
      intro o ho
      have hkind : (KindSurvey.among survey).kind = o.1.kind := by
        rw [htype o ho, ← ht]
        rfl
      rw [hkind] at hread ⊢
      exact hdistinct.root o ho hread
    have hlength := hdistinct.among.length_le
    rw [List.length_map, List.length_map] at hlength
    unfold among
    dsimp only
    generalize distinctOptions options = distinct at hpairwise htype hroots hlength hempty ⊢
    match distinct with
    | [] =>
        rw [hempty rfl] at hread
        cases hread
    | [only] =>
        have honly := hroots only List.mem_cons_self
        dsimp only
        split
        · exact honly.nullable
        · exact honly
    | first :: second :: rest =>
        -- two alternatives of one type differ only if that has limits, and then there is one
        have hdiffer := (List.pairwise_cons.mp hpairwise).1 second List.mem_cons_self
        rw [htype first List.mem_cons_self,
          htype second (List.mem_cons_of_mem _ List.mem_cons_self)] at hdiffer
        cases hlimits : t.hasLimits with
        | true =>
            have hone := hlone hlimits
            simp only [List.length_cons] at hlength
            omega
        | false =>
            rw [Ty.isSameOption_self hlimits] at hdiffer
            cases hdiffer

end Reading

namespace Ty

mutual

/-- The reading of a type has a root of the kind of the type. -/
theorem reading_hasRoots : ∀ (t : Ty) (s : Setting), (t.reading s).HasRoots t.surveyKind s
  | .any, _ | .str, _ | .date, _ | .dict _ _, _ | .literal _, _ | .enumeration _, _
  | .record ⟨_, _, _⟩, _ => Reading.hasRoots_of_not_isRead rfl rfl
  | .none, _ => ⟨fun hread => (nomatch hread), List.Sublist.refl _, fun _ => rfl,
      fun _ h => absurd h List.not_mem_nil⟩
  | .int, _ | .float, _ | .bool, _ | .many _ _, _ | .positions _, _ => Reading.hasRoots_of_isRoot rfl
  | .bare c, s => by
      cases c with
      | genericList => exact Reading.hasRoots_of_isRoot rfl
      | _ => exact Reading.hasRoots_of_not_isRead rfl rfl
  | .optional t, s => Reading.hasRoots_among (reading_hasRoots t s).options (fun _ => kind_of_mem_options) true
  | .choice _ ts, s => Reading.hasRoots_among (allOptions_haveRoots ts s) (fun _ => kind_of_mem_surveyKinds) _
  | .limited t l, s => by
      have inner := (reading_hasRoots t s).core
      refine ⟨inner, List.Sublist.refl _, fun hnil => (nomatch hnil), fun o ho hread => ?_⟩
      rw [List.mem_singleton.mp ho] at hread ⊢
      obtain ⟨b, hroot, hkind, limits, hunder⟩ := inner hread
      refine ⟨b, hroot, hkind, limits ++ ((t.reading s).own ++ l.toList), fun ls v => ?_⟩
      rw [List.append_assoc]
      exact hunder _ v

theorem allOptions_haveRoots : ∀ (ts : List Ty) (s : Setting),
    Reading.OptionsHaveRoots (allOptions ts s) (surveyKinds ts) s
  | [], _ => ⟨List.Sublist.refl _, fun _ => rfl, fun _ h => absurd h List.not_mem_nil⟩
  | t :: ts, s => (reading_hasRoots t s).options.append (allOptions_haveRoots ts s)

end

theorem root_reads {b : Ty} (h : b.isRoot = true) {s : Setting} (hs : s.IsLax) :
    (b.reading s).core.Reads b.kind.scalar := by
  cases b with
  | bool => exact Check.reads_flag hs
  | int => exact Check.reads_integer hs
  | float => exact Check.reads_float hs
  | positions => exact (Check.refusesTexts_positions _).reads _
  | bare c =>
      cases c with
      | genericList => exact Check.refusesTexts_freeList.reads _
      | _ => cases h
  | many c t =>
      cases c with
      | sequence =>
          by_cases hany : t = .any
          · subst hany
            exact Check.reads_of_not_isConverted rfl _
          · rw [reading]
            · exact (Check.refusesTexts_sequence _).reads _
            · exact hany
      | list =>
          simp only [reading]
          show Check.Reads (if _ then _ else _) _
          split
          · exact Check.refusesTexts_freeList.reads _
          · exact (Check.refusesTexts_collection _ _).reads _
      | set | frozenset | tuple => exact (Check.refusesTexts_collection _ _).reads _
  | _ => cases h

/-- A lax reading of a type carries every text to what the text is read as for the type. -/
theorem reading_reads (t : Ty) {s : Setting} (hs : s.IsLax) :
    (t.reading s).core.Reads t.kind.scalar := by
  cases hread : t.kind.isRead with
  | false => exact Check.reads_of_not_isConverted (Bool.or_eq_false_iff.mp hread).2 _
  | true =>
      obtain ⟨b, hroot, hkind, limits, hunder⟩ := (reading_hasRoots t s).core hread
      rw [kind, ← hkind]
      exact hunder.reads (root_reads hroot hs)

theorem check_reads (t : Ty) {s : Setting} (hs : s.IsLax) : (t.check s).Reads t.kind.scalar :=
  fun x _ => t.reading_reads hs x _

end Ty

end WebForm
