/-
Types that offer one basic type.

A text, an integer, a flag, a date or an option, any of them or nothing, and each of these
under limits: these are the types of the fields that a form shows as one text or one box.
`Offers basic` is the class, with one constructor for each way in which a type is put around
another, and all its types are read as the one scalar (`Offers.kind_eq`).

They are checked as it, too.  `IsUnder` compares two checks, and `Field.exists_isUnder` says
of a field that there are limits, the same however strictly the field is checked, with

    f.checkIn strict? c v = (basic check).run ls v, or v is nothing and passes as it is

so that the limits which are put on the parts of a type all come to stand in one list.  If no
part has any, they are the field's own.  That the limits do not depend on strictness is what
makes the statement useful: what one check has passed is compared with what another passes.

The induction is over the class and follows the reading of a type, which has a check as a
whole and a list of alternatives.  Both are carried (`ReadsUnder`), because a choice is read
through the alternatives of its members, while limits on a type act on the whole.
-/
import WebForm.Proofs.Faults
import WebForm.Proofs.Wrapping

namespace WebForm

/-- The check is another one under some limits, but for nothing, which it may pass. -/
def Check.IsUnder (c basic : Check) (limits : List Limit) : Prop :=
  ∀ ls v, c.run ls v = basic.run (limits ++ ls) v ∨ v = .null ∧ c.run ls v = Outcome.pass .null

theorem Check.IsUnder.run_eq {c basic : Check} {limits : List Limit} (h : c.IsUnder basic limits)
    (ls : List Limit) {v : Value} (hv : v ≠ .null) : c.run ls v = basic.run (limits ++ ls) v :=
  (h ls v).resolve_right fun hnull => hv hnull.1

theorem Check.IsUnder.nullable {c basic : Check} {limits : List Limit} (h : c.IsUnder basic limits) :
    c.nullable.IsUnder basic limits := by
  intro ls v
  cases v with
  | null => exact Or.inr ⟨rfl, rfl⟩
  | _ => exact h ls _

namespace Ty

/-- The types that have neither parts nor limits. -/
def isBasic : Ty → Bool
  | .str | .int | .bool | .date | .enumeration _ => true
  | _ => false

/-- The type is the basic one, maybe with nothing beside it, and maybe under limits. -/
inductive Offers (basic : Ty) : Ty → Prop where
  | self : Offers basic basic
  | optional {t : Ty} : Offers basic t → Offers basic (.optional t)
  | orNone {style : ChoiceStyle} {t : Ty} : Offers basic t → Offers basic (.choice style [t, .none])
  | noneOr {style : ChoiceStyle} {t : Ty} : Offers basic t → Offers basic (.choice style [.none, t])
  | limited {t : Ty} {limits : Limits} : Offers basic t → Offers basic (.limited t limits)

variable {basic t : Ty}

/-! ## Reading

A type in the class is one of the basic types, wrapped. -/

theorem kind_of_isBasic (hb : basic.isBasic = true) : basic.kind = ⟨false, basic⟩ := by
  cases basic with
  | str | int | bool | date | enumeration => rfl
  | _ => cases hb

theorem Offers.wraps (h : Offers basic t) : Wraps basic t := by
  induction h with
  | self => exact .self
  | optional _ ih => exact .optional ih
  | orNone _ ih => exact .orNone ih
  | noneOr _ ih => exact .noneOr ih
  | limited _ ih => exact .limited ih

/-- The type is read as one value of the basic one. -/
theorem Offers.kind_eq (h : Offers basic t) (hb : basic.isBasic = true) : t.kind = ⟨false, basic⟩ :=
  h.wraps.kind_eq.trans (kind_of_isBasic hb)

theorem Offers.scalar_eq (h : Offers basic t) (hb : basic.isBasic = true) : t.kind.scalar = basic :=
  congrArg Kind.scalar (h.kind_eq hb)

/-! ## Checking

Nothing is the one value that passes beside the basic type, and limits are not tried on it. -/

/-- The check of a basic type. -/
def basicCheck (basic : Ty) (s : Setting) : Check := (basic.reading s).core

theorem reading_of_isBasic (hb : basic.isBasic = true) (s : Setting) :
    basic.reading s = .alone basic (basic.basicCheck s) := by
  cases basic with
  | str | int | bool | date | enumeration => simp only [basicCheck, reading, Reading.alone]
  | _ => cases hb

/-- In a setting the reading is that of a basic type, as a whole and as its only alternative. -/
structure ReadsUnder (basic t : Ty) (inner outer : List Limit) (s : Setting) : Prop where
  alternative : ∃ option, (t.reading s).options = [option] ∧
    option.2.IsUnder (basic.basicCheck s) inner
  core : (t.reading s).core.IsUnder (basic.basicCheck s) outer

theorem ReadsUnder.among {inner outer : List Limit} {s : Setting} {choice : Ty}
    (h : ReadsUnder basic t inner outer s)
    (hchoice : choice.reading s = .among (t.reading s).options true s) :
    ReadsUnder basic choice inner inner s := by
  obtain ⟨option, hoptions, hunder⟩ := h.alternative
  rw [hoptions] at hchoice
  constructor
  · rw [hchoice]
    exact ⟨option, rfl, hunder⟩
  · rw [hchoice]
    exact hunder.nullable

/-- The limits under which a type is checked as the basic one; there are none if none are put on a
part of it. -/
theorem Offers.exists_readsUnder (h : Offers basic t) (hb : basic.isBasic = true) :
    ∃ inner outer, (t.hasLimits = false → inner = [] ∧ outer = []) ∧
      ∀ s, ReadsUnder basic t inner outer s := by
  induction h with
  | self =>
      refine ⟨[], [], fun _ => ⟨rfl, rfl⟩, fun s => ?_⟩
      constructor <;> rw [reading_of_isBasic hb s]
      · exact ⟨_, rfl, fun _ _ => Or.inl rfl⟩
      · exact fun _ _ => Or.inl rfl
  | optional _ ih =>
      obtain ⟨inner, outer, hnone, hreads⟩ := ih
      refine ⟨inner, inner, fun hfree => ?_, fun s => (hreads s).among (by simp only [reading])⟩
      rw [hasLimits] at hfree
      exact ⟨(hnone hfree).1, (hnone hfree).1⟩
  | orNone _ ih | noneOr _ ih =>
      obtain ⟨inner, outer, hnone, hreads⟩ := ih
      refine ⟨inner, inner, fun hfree => ?_, fun s => (hreads s).among ?_⟩
      · simp only [hasLimits, anyLimits, Bool.or_false, Bool.false_or] at hfree
        exact ⟨(hnone hfree).1, (hnone hfree).1⟩
      · simp only [reading, allOptions, anyNullable, List.append_nil, List.nil_append,
          Bool.or_false, Bool.or_true, Bool.true_or]
  | @limited t limits _ ih =>
      obtain ⟨inner, outer, _, hreads⟩ := ih
      refine ⟨outer ++ (t.outerLimits ++ limits.toList), outer, fun hfree => ?_, fun s => ?_⟩
      · cases hfree
      constructor
      · simp only [reading]
        refine ⟨_, rfl, fun ls v => ?_⟩
        rw [List.append_assoc, ← own_reading t s]
        exact (hreads s).core _ v
      · simp only [reading]
        exact (hreads s).core

theorem outerLimits_eq_nil (h : t.hasLimits = false) : t.outerLimits = [] := by
  cases t with
  | limited => cases h
  | _ => rfl

end Ty

/-- The field is checked as the basic type under limits that do not depend on how strictly it is
checked; they are the field's own where no part of its type has any. -/
theorem Field.exists_isUnder {f : Field} {basic : Ty} (h : basic.Offers f.type)
    (hb : basic.isBasic = true) (c : Config) :
    ∃ ls, (f.type.hasLimits = false → ls = f.limits.toList) ∧
      ∀ (strict? : Option Bool) (v : Value),
        f.checkIn strict? c v = (basic.basicCheck { strict?, config := c }).run ls v
          ∨ v = .null ∧ f.checkIn strict? c v = Outcome.pass .null := by
  obtain ⟨_, outer, hnone, hreads⟩ := h.exists_readsUnder hb
  refine ⟨outer ++ (f.limits.toList ++ f.type.outerLimits ++ []), fun hfree => ?_,
    fun strict? v => ?_⟩
  · rw [(hnone hfree).2, Ty.outerLimits_eq_nil hfree, List.nil_append, List.append_nil,
      List.append_nil]
  · rw [← Ty.own_reading f.type { strict?, config := c }]
    exact (hreads { strict?, config := c }).core _ v

end WebForm
