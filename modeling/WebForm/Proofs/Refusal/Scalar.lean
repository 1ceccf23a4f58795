/-
What the checks of single values say.

Each way of reading a value fails in a fixed wording, so that nothing has to be known of the
value: `texts_of_readInteger` and its like say that the cause brings no text of its own.  What
a message does repeat are bounds and patterns of limits, the choices of a literal, and the
values and the name of an enumeration, all of them texts of the declaration.

A check tells what an account allows (`Check.Tells`) if, under limits that keep to the
account,

    its label may be said, and
    all that it says when it refuses a value of the account may be said

where the label is the name by which a choice refers to its alternatives, and so a step of a
path.  It depends on the limits, since an alternative is named by those that were added to it.

Most checks are a reader of their own, with limits that are tried behind it.  `tells_ofOwn`
takes these apart, so that what has to be shown of a type is its label and its reader; and
limits behind a reader speak of bounds and patterns, whatever the reader is.

For a text nothing is said of the text itself, not even of its length, and for a date only of
the bounds, which are turned into dates first.  The result is therefore the same for every
value, as far as single values are concerned: it is only in wholes that keys come in.
-/
import WebForm.Proofs.Refusal.Account

namespace WebForm

variable {acc : Account}

/-! ## Texts and added limits -/

namespace Check

open Outcome

theorem texts_of_textCause? {ls : List Limit} {s : String} {cause : Cause}
    (h : textCause? ls s = some cause) (hls : Limit.Keep acc ls) :
    ∀ t ∈ cause.texts, acc.Has t := by
  simp only [textCause?, Option.orElse_eq_orElse, Option.orElse_eq_or, Option.or_eq_some_iff] at h
  rcases h with h | ⟨_, h | ⟨_, h⟩⟩
  · obtain ⟨n, _, hn⟩ := Option.bind_eq_some_iff.mp h
    split at hn
    · cases hn
      exact fun _ ht => absurd ht List.not_mem_nil
    · cases hn
  · obtain ⟨n, _, hn⟩ := Option.bind_eq_some_iff.mp h
    split at hn
    · cases hn
      exact fun _ ht => absurd ht List.not_mem_nil
    · cases hn
  · obtain ⟨p, hp, hn⟩ := Option.bind_eq_some_iff.mp h
    split at hn
    · cases hn
    · cases hn
      exact List.forall_mem_singleton.mpr (hls.pattern hp)

theorem cause_of_readText {strict : Bool} {v : Value} {cause : Cause}
    (h : readText strict v = .error cause) : cause = .expected .string := by
  unfold readText at h
  split at h
  · cases h
  · cases h
  · split at h
    · cases h
      rfl
    · cases h
  · cases h
    rfl

theorem tells_runText (s : Setting) {ls : List Limit} (hls : Limit.Keep acc ls) (v : Value) :
    Outcome.Tells acc (runText s ls v) := by
  unfold runText
  split
  · rename_i cause h
    rw [cause_of_readText h]
    exact tells_fixed rfl v
  · dsimp only
    split
    · rename_i cause h
      exact tells_fault (texts_of_textCause? h hls) v
    · exact tells_pass _ _

theorem tells_apply (s : Setting) (sort : String) (input : Value) {l : Limit}
    (hl : ∀ t ∈ l.texts, acc.Has t) (c : Checked) :
    Outcome.Tells acc (Limit.apply s sort input l c) := by
  unfold Limit.apply
  split
  · exact tells_ok c
  · split
    · exact tells_misfit _
    · split
      · rename_i h
        exact tells_fixed (Limit.texts_of_lengthCause? h) input
      · exact tells_ok c
  · split
    · exact tells_misfit _
    · split
      · rename_i h
        exact tells_fixed (Limit.texts_of_lengthCause? h) input
      · exact tells_ok c
  · rename_i p
    have told : Outcome.Tells acc (runText s [.pattern p] c.value) :=
      tells_runText s (Limit.Keep.cons.mpr ⟨hl, Limit.Keep.nil⟩) c.value
    split
    · exact tells_ok _
    · rename_i fs h
      split
      · exact tells_misfit _
      · obtain ⟨hne, hfs⟩ := told fs h
        exact tells_faults hne hfs
    · rename_i r _ h
      rw [h] at told
      exact fun fs hfs => told fs (by rw [Except.error.inj hfs])
  · split
    · exact tells_misfit _
    · rename_i h
      exact tells_fault (Limit.texts_of_boundCause? h hl) input
    · exact tells_ok c

theorem tells_applyAll (s : Setting) (input : Value) :
    ∀ {ls : List Limit} (sort : String), Limit.Keep acc ls → ∀ c : Checked,
      Outcome.Tells acc (Limit.applyAll s input sort ls c)
  | [], _, _, c => tells_ok c
  | l :: _, sort, hls, c => by
      obtain ⟨hl, hrest⟩ := Limit.Keep.cons.mp hls
      exact tells_bind (tells_apply s sort input hl c) fun c _ => tells_applyAll s input _ hrest c

theorem has_addedLabel {label : String} (h : acc.Has label) (added : List Limit) :
    acc.Has (Limit.addedLabel label added) := by
  unfold Limit.addedLabel
  dsimp only
  split
  · exact h
  · refine acc.append (acc.append (acc.fixed rfl) ?_)
      (acc.fixed rfl)
    refine acc.intercalate (acc.fixed rfl) ?_
    intro t ht
    rcases List.mem_cons.mp ht with rfl | ht
    · exact h
    · obtain ⟨_, _, rfl⟩ := List.mem_map.mp ht
      exact acc.fixed rfl

/-! ## Checks -/

/-- Under limits of the account, the name of the check may be said, and so may all that it says
when it refuses a value of the account. -/
structure Tells (acc : Account) (c : Check) : Prop where
  label : ∀ {ls : List Limit}, Limit.Keep acc ls → acc.Has (c.label ls)
  run : ∀ {ls : List Limit}, Limit.Keep acc ls → ∀ {v : Value}, v.KeepsTo acc →
    Outcome.Tells acc (c.run ls v)

/-- A check with limits of its own tells what its own part tells. -/
theorem tells_ofOwn {s : Setting} {sort : String} {knows : Limit → Bool}
    {label : List Limit → String} {own : List Limit → Value → Outcome}
    (hlabel : ∀ ls, acc.Has (label ls))
    (hown : ∀ {ls : List Limit}, Limit.Keep acc ls → ∀ {v : Value}, v.KeepsTo acc →
      Outcome.Tells acc (own ls v)) :
    Tells acc (ofOwn s sort knows label own) where
  label _ := has_addedLabel (hlabel _) _
  run hls _ hv :=
    tells_bind (hown (hls.split knows).1 hv) fun c _ =>
      tells_applyAll s _ sort (hls.split knows).2 c

theorem tells_nullable {c : Check} (h : c.Tells acc) : c.nullable.Tells acc where
  label hls := acc.within rfl rfl (h.label hls)
  run hls v hv := by
    simp only [nullable]
    split
    · exact tells_pass _ _
    · exact h.run hls hv

/-! ## Single values

A reader tries several ways one after the other, and each of them ends in a wording of its
own. -/

theorem tells_text (s : Setting) : (text s).Tells acc :=
  tells_ofOwn (fun ls => by split <;> exact acc.fixed rfl)
    fun hls v _ => tells_runText s hls v

theorem texts_of_integerOfFloat {x : Number.Binary64} {cause : Cause}
    (h : integerOfFloat x = .error cause) : cause.texts = [] := by
  unfold integerOfFloat at h
  split at h
  · cases h
    rfl
  · split at h
    · cases h
      rfl
    · split at h
      · cases h
        rfl
      · cases h

theorem texts_of_integerOfText {t : String} {cause : Cause}
    (h : integerOfText t = .error cause) : cause.texts = [] := by
  unfold integerOfText at h
  split at h <;> cases h <;> rfl

theorem error_of_map {α β : Type} {f : α → β} {r : Except Cause α} {cause : Cause}
    (h : r.map f = .error cause) : r = .error cause := by
  cases r with
  | ok a => cases h
  | error e =>
      cases h
      rfl

theorem texts_of_readInteger {strict : Bool} {v : Value} {cause : Cause}
    (h : readInteger strict v = .error cause) : cause.texts = [] := by
  unfold readInteger at h
  split at h
  · cases h
  · cases h
  · split at h
    · cases h
      rfl
    · split at h
      · cases h
      · exact texts_of_integerOfText (error_of_map h)
      · exact texts_of_integerOfText (error_of_map h)
      · exact texts_of_integerOfFloat (error_of_map h)
      · cases h
      · cases h
        rfl

theorem tells_integer (s : Setting) : (integer s).Tells acc := by
  refine tells_ofOwn (fun ls => by split <;> exact acc.fixed rfl) ?_
  intro ls hls v _
  unfold runInteger
  split
  · rename_i h
    exact tells_fixed (texts_of_readInteger h) v
  · split
    · exact tells_pass _ _
    · split
      · exact tells_fixed rfl _
      · split
        · rename_i h
          exact tells_fault (Limit.texts_of_numericCause? h hls) v
        · exact tells_pass _ _

theorem texts_of_readFloat {strict : Bool} {v : Value} {cause : Cause}
    (h : readFloat strict v = .error cause) : cause.texts = [] := by
  unfold readFloat at h
  split at h
  · cases h
  · split at h
    · cases h
    · cases h
      rfl
  · split at h
    · cases h
    · cases h
      rfl
  · split at h
    · cases h
      rfl
    · split at h
      · cases h
      · split at h
        · cases h
        · cases h
          rfl
      · split at h
        · cases h
        · cases h
          rfl
      · cases h
        rfl

theorem tells_float (s : Setting) : (float s).Tells acc := by
  refine tells_ofOwn (fun ls => by split <;> exact acc.fixed rfl) ?_
  intro ls hls v _
  unfold runFloat
  split
  · rename_i h
    exact tells_fixed (texts_of_readFloat h) v
  · split
    · rename_i h
      obtain ⟨q, _, hq⟩ := Option.bind_eq_some_iff.mp h
      exact tells_fault (Limit.texts_of_numericCause? hq hls) v
    · exact tells_pass _ _

theorem texts_of_flagOfInteger {i : Int} {cause : Cause} (h : flagOfInteger i = .error cause) :
    cause.texts = [] := by
  unfold flagOfInteger at h
  split at h
  · cases h
  · split at h
    · cases h
    · split at h <;> cases h <;> rfl

theorem texts_of_readFlag {strict : Bool} {v : Value} {cause : Cause}
    (h : readFlag strict v = .error cause) : cause.texts = [] := by
  have ofText : ∀ {t : String}, flagOfText t = .error cause → cause.texts = [] := by
    intro t ht
    unfold flagOfText at ht
    split at ht
    · cases ht
    · split at ht
      · cases ht
      · cases ht
        rfl
  have ofFloat : ∀ {x : Number.Binary64}, flagOfFloat x = .error cause → cause.texts = [] := by
    intro x hx
    unfold flagOfFloat at hx
    split at hx
    · exact texts_of_flagOfInteger hx
    · cases hx
      rfl
  unfold readFlag at h
  split at h
  · cases h
  · split at h
    · cases h
      rfl
    · split at h
      · exact ofText (error_of_map h)
      · exact ofText (error_of_map h)
      · exact texts_of_flagOfInteger (error_of_map h)
      · exact texts_of_flagOfInteger (error_of_map h)
      · exact ofFloat (error_of_map h)
      · cases h
        rfl

theorem tells_flag (s : Setting) : (flag s).Tells acc := by
  refine tells_ofOwn (fun _ => acc.fixed rfl) ?_
  intro ls _ v _
  unfold runFlag
  split
  · rename_i h
    exact tells_fixed (texts_of_readFlag h) v
  · exact tells_pass _ _

theorem texts_of_dateOfMoment {m : Except MomentFault Moment} {cause : Cause}
    (h : dateOfMoment m = .error cause) : cause.texts = [] := by
  unfold dateOfMoment at h
  split at h
  · cases h
    rfl
  · split at h
    · cases h
    · cases h
      rfl

theorem texts_of_dateOfText {t : String} {cause : Cause} (h : dateOfText t = .error cause) :
    cause.texts = [] := by
  unfold dateOfText at h
  dsimp only at h
  split at h
  · cases h
  · exact texts_of_dateOfMoment h
  · exact texts_of_dateOfMoment h
  · cases h
    rfl

theorem texts_of_readDate {strict : Bool} {v : Value} {cause : Cause}
    (h : readDate strict v = .error cause) : cause.texts = [] := by
  unfold readDate at h
  split at h
  · cases h
  · split at h
    · cases h
      rfl
    · split at h
      · exact texts_of_dateOfText (error_of_map h)
      · exact texts_of_dateOfText (error_of_map h)
      · split at h
        · cases h
          rfl
        · exact texts_of_dateOfMoment (error_of_map h)
      · split at h
        · cases h
          rfl
        · exact texts_of_dateOfMoment (error_of_map h)
      · exact texts_of_dateOfMoment (error_of_map h)
      · cases h
        rfl

theorem has_dateBound {b : Value} (h : acc.Has b.boundText) : acc.Has (dateBound b).boundText := by
  unfold dateBound
  split
  · rename_i d _
    have shown : isPlain (Value.dateShown d) = true := by
      simp only [Value.dateShown, Value.commaList, isPlain_append, Bool.and_eq_true]
      refine ⟨⟨isPlain_of_all rfl, ?_⟩, isPlain_of_all rfl⟩
      apply Vocabulary.plainTexts.intercalate (isPlain_of_all rfl)
      intro t ht
      simp only [List.mem_cons, List.not_mem_nil, or_false] at ht
      rcases ht with rfl | rfl | rfl <;> exact isPlain_intText _
    exact acc.plain shown
  · exact h

theorem keep_dateLimits {ls : List Limit} (h : Limit.Keep acc ls) :
    Limit.Keep acc (dateLimits ls) := by
  intro l hl
  obtain ⟨m, hm, hpick⟩ := List.mem_filterMap.mp hl
  have hm := h m hm
  cases m with
  | above b | atLeast b | below b | atMost b =>
      cases hpick
      exact List.forall_mem_singleton.mpr (has_dateBound (hm _ List.mem_cons_self))
  | multipleOf b => cases hpick
  | strict | minLength | maxLength | pattern =>
      cases hpick
      exact hm

theorem tells_date (s : Setting) : (date s).Tells acc := by
  refine tells_ofOwn (fun _ => acc.fixed rfl) ?_
  intro ls hls v _
  unfold runDate
  split
  · rename_i h
    exact tells_fixed (texts_of_readDate h) v
  · split
    · rename_i h
      exact tells_fault (Limit.texts_of_numericCause? h (keep_dateLimits hls)) v
    · split
      · exact tells_wording rfl (acc.fixed rfl) v
      · exact tells_pass _ _

theorem tells_any (s : Setting) : (any s).Tells acc :=
  tells_ofOwn (fun _ => acc.fixed rfl) fun _ _ _ => tells_pass _ _

theorem tells_none (s : Setting) : (Check.none s).Tells acc := by
  refine tells_ofOwn (fun _ => acc.fixed rfl) ?_
  intro ls _ v _
  split
  · exact tells_pass _ _
  · exact tells_fixed rfl _

/-! ## Choices that are looked up

The choices are listed in the message as they are shown, with a word between the last two. -/

theorem has_choicesText {values : List Value} (h : ∀ v ∈ values, acc.Has v.shown) :
    acc.Has (choicesText values) := by
  have hall : ∀ t ∈ values.reverse.map Value.shown, acc.Has t := by
    intro t ht
    obtain ⟨v, hv, rfl⟩ := List.mem_map.mp ht
    exact h v (List.mem_reverse.mp hv)
  unfold choicesText
  split
  · exact acc.fixed rfl
  · rename_i only heq
    exact hall only (heq ▸ List.mem_cons_self)
  · rename_i last others _ heq
    rw [heq] at hall
    refine acc.append (acc.append ?_ (acc.fixed rfl)) (hall last List.mem_cons_self)
    refine acc.intercalate (acc.fixed rfl) ?_
    intro t ht
    exact hall t (List.mem_cons_of_mem _ (List.mem_reverse.mp ht))

theorem tells_lookupInteger (choices : Choices) (v : Value) :
    Outcome.Tells acc (choices.integer? v) := by
  unfold Choices.integer?
  split
  · exact tells_ok _
  · split
    · split
      · exact tells_ok _
      · exact tells_fixed rfl v
    · exact tells_fixed rfl v

theorem tells_lookup (choices : Choices) (v : Value) : Outcome.Tells acc (choices.lookup? v) := by
  unfold Choices.lookup?
  dsimp only
  apply tells_map
  unfold Choices.alike?
  split
  · exact tells_ok _
  · exact tells_ok _
  · exact tells_lookupInteger _ _
  · exact tells_ok _

theorem tells_literal {values : List Value} (h : ∀ v ∈ values, acc.Has v.shown) (s : Setting) :
    (literal values s).Tells acc := by
  refine tells_ofOwn ?_ ?_
  · intro _
    exact acc.within rfl rfl (acc.joined rfl h)
  · intro ls _ v _
    refine tells_bind (tells_lookup _ v) fun found _ => ?_
    split
    · exact tells_pass _ _
    · exact tells_wording rfl (has_choicesText h) v

theorem tells_lookupOption (e : Enumeration) (v : Value) :
    Outcome.Tells acc (lookupOption? e v) := by
  unfold lookupOption?
  dsimp only
  split
  · split <;> exact tells_ok _
  · split
    · exact tells_lookupInteger _ _
    · exact tells_ok _
  · refine tells_bind (tells_lookup _ v) fun found _ => ?_
    split
    · exact tells_ok _
    · split
      · exact tells_lookupInteger _ _
      · exact tells_ok _

theorem tells_option {e : Enumeration} (hname : acc.Has e.name)
    (h : ∀ m ∈ e.members, acc.Has m.2.shown) (s : Setting) : (option e s).Tells acc := by
  refine tells_ofOwn ?_ ?_
  · intro _
    refine acc.append (acc.append ?_ hname) (acc.fixed rfl)
    split <;> exact acc.fixed rfl
  · intro ls _ v _
    unfold runOption
    split
    · exact tells_pass _ _
    · split
      · exact tells_wording rfl hname v
      · refine tells_bind (tells_lookupOption e v) fun found _ => ?_
        dsimp only
        split
        · exact tells_pass _ _
        · refine tells_wording rfl (has_choicesText ?_) v
          intro w hw
          obtain ⟨m, hm, rfl⟩ := List.mem_map.mp hw
          exact h m hm

end Check

end WebForm
