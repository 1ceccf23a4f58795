/-
Fields that hold a flag.

A checkbox stands for a field whose type is a flag, a flag or nothing, or either of them under
limits, and `IsFlag` is this class of types.  They are read alike: one word says whether the
flag is set.  They are checked alike, too, as a flag under all limits that are put on the
field and on the parts of its type (`Field.exists_checkIn_eq`).

Two consequences are used of checkboxes.  A list of flags is refused whatever the limits are

    f.checkIn strict? c (.list items) = fault (.expected .boolean) (.list items)

which is why a box that sends two words for an unset flag cannot be read; and a free field, of
which nothing but strictness is asked, takes both flags.  Strictness is let through because a
flag is a flag however strictly it is checked.

The class is the instance for flags of the types that offer one basic type, and all that is
said of it here is said through that.  It is an inductive type of its own since later modules
take it apart.  A choice between a flag and anything else but nothing is not among these
types: there a text is not read before the check, and the box is no longer decided by one
word.
-/
import Mathlib.Data.List.TakeWhile
import WebForm.Proofs.Offer

namespace WebForm

namespace Ty

/-- The type is a flag, maybe with nothing beside it, and maybe under limits. -/
inductive IsFlag : Ty → Prop where
  | bool : IsFlag .bool
  | optional {t : Ty} : IsFlag t → IsFlag (.optional t)
  | orNone {style : ChoiceStyle} {t : Ty} : IsFlag t → IsFlag (.choice style [t, .none])
  | noneOr {style : ChoiceStyle} {t : Ty} : IsFlag t → IsFlag (.choice style [.none, t])
  | limited {t : Ty} {limits : Limits} : IsFlag t → IsFlag (.limited t limits)

theorem isFlag_iff_offers {t : Ty} : t.IsFlag ↔ Offers .bool t := by
  constructor
  · intro h
    induction h with
    | bool => exact .self
    | optional _ ih => exact .optional ih
    | orNone _ ih => exact .orNone ih
    | noneOr _ ih => exact .noneOr ih
    | limited _ ih => exact .limited ih
  · intro h
    induction h with
    | self => exact .bool
    | optional _ ih => exact .optional ih
    | orNone _ ih => exact .orNone ih
    | noneOr _ ih => exact .noneOr ih
    | limited _ ih => exact .limited ih

theorem IsFlag.kind_eq {t : Ty} (h : t.IsFlag) : t.kind = ⟨false, .bool⟩ :=
  (isFlag_iff_offers.mp h).kind_eq rfl

end Ty

/-! ## Checking -/

namespace Check

theorem run_nullable {c : Check} {v : Value} (h : v ≠ .null) (ls : List Limit) :
    c.nullable.run ls v = c.run ls v := by
  cases v with
  | null => exact absurd rfl h
  | _ => rfl

/-- The check is that of flags under some limits, apart from nothing. -/
def IsFlagUnder (c : Check) (s : Setting) (limits : List Limit) : Prop :=
  ∀ ls v, v ≠ .null → c.run ls v = (flag s).run (limits ++ ls) v

theorem IsUnder.isFlagUnder {c : Check} {s : Setting} {limits : List Limit}
    (h : c.IsUnder (flag s) limits) : c.IsFlagUnder s limits :=
  fun ls _ hv => h.run_eq ls hv

theorem flag_list_eq (s : Setting) (ls : List Limit) (items : List Value) :
    (flag s).run ls (.list items) = Outcome.fault (.expected .boolean) (.list items) := by
  have refused : ∀ own, runFlag s own (.list items)
      = Outcome.fault (.expected .boolean) (.list items) := by
    intro own
    unfold runFlag readFlag
    cases s.isStrict own <;> rfl
  show (runFlag s _ (.list items)).bind _ = _
  rw [refused]
  rfl

theorem flag_bool_eq_ok {s : Setting} {ls : List Limit} (h : ∀ l ∈ ls, l.isStrict = true) (b : Bool) :
    ∃ r, (flag s).run ls (.bool b) = .ok r := by
  have hlater : (Limit.split (fun _ => false) ls).2 = [] := by
    have hdrop : ls.dropWhile (fun l => l.isStrict || false) = [] := by
      rw [List.dropWhile_eq_nil_iff]
      intro l hl
      rw [Bool.or_false]
      exact h l hl
    unfold Limit.split
    rw [hdrop]
    rfl
  refine ⟨{ value := .bool b }, ?_⟩
  unfold flag ofOwn
  dsimp only
  rw [hlater]
  rfl

end Check

/-- The reading is that of a flag under limits on its parts, as a whole and as an alternative;
where there are none, it has none of its own either. -/
def Reading.IsFlag (r : Reading) (s : Setting) (limited : Bool) : Prop :=
  ∃ option inner outer, r.options = [option] ∧ option.2.IsFlagUnder s inner ∧
    r.core.IsFlagUnder s outer ∧ (limited = false → inner = [] ∧ outer = [] ∧ r.own = [])

theorem Ty.IsFlag.reading {t : Ty} (h : t.IsFlag) (s : Setting) :
    (t.reading s).IsFlag s t.hasLimits := by
  obtain ⟨inner, outer, hnone, hreads⟩ := (isFlag_iff_offers.mp h).exists_readsUnder rfl
  obtain ⟨option, hoptions, hunder⟩ := (hreads s).alternative
  refine ⟨option, inner, outer, hoptions, hunder.isFlagUnder, (hreads s).core.isFlagUnder, ?_⟩
  intro hlimited
  obtain ⟨hinner, houter⟩ := hnone hlimited
  exact ⟨hinner, houter, by rw [own_reading, outerLimits_eq_nil hlimited]⟩

/-! ## Fields -/

/-- A field that holds a flag is checked as one, under some limits; they are the field's own where
no part of its type has any. -/
theorem Field.exists_checkIn_eq {f : Field} (h : f.type.IsFlag) (strict? : Option Bool) (c : Config) :
    ∃ ls, (∀ v, v ≠ .null →
        f.checkIn strict? c v = (Check.flag { strict?, config := c }).run ls v) ∧
      (f.type.hasLimits = false → ls = f.limits.toList) := by
  obtain ⟨_, _, outer, _, _, houter, hnone⟩ := h.reading { strict?, config := c }
  refine ⟨_, fun v hv => houter _ v hv, ?_⟩
  intro hlimited
  obtain ⟨_, rfl, hown⟩ := hnone hlimited
  rw [hown, List.append_nil, List.append_nil, List.nil_append]

/-- A field that holds a flag refuses every list. -/
theorem Field.checkIn_list_eq {f : Field} (h : f.type.IsFlag) (strict? : Option Bool) (c : Config)
    (items : List Value) :
    f.checkIn strict? c (.list items) = Outcome.fault (.expected .boolean) (.list items) := by
  obtain ⟨ls, hcheck, _⟩ := Field.exists_checkIn_eq h strict? c
  rw [hcheck _ (by intro hnull; cases hnull)]
  exact Check.flag_list_eq _ _ _

/-- Nothing but strictness is asked of a field. -/
def Field.isFree (f : Field) : Bool := !f.type.hasLimits && f.limits.toList.all Limit.isStrict

/-- A free field that holds a flag takes both. -/
theorem Field.checkIn_bool_eq_ok {f : Field} (h : f.type.IsFlag) (hfree : f.isFree = true)
    (strict? : Option Bool) (c : Config) (b : Bool) :
    ∃ r, f.checkIn strict? c (.bool b) = .ok r := by
  unfold Field.isFree at hfree
  rw [Bool.and_eq_true, Bool.not_eq_true', List.all_eq_true] at hfree
  obtain ⟨ls, hcheck, hls⟩ := Field.exists_checkIn_eq h strict? c
  rw [hcheck _ (by intro hnull; cases hnull), hls hfree.1]
  exact Check.flag_bool_eq_ok hfree.2 b

end WebForm
