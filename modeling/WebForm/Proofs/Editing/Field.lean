/-
What a field reads back of the value that it shows.

A field that offers a basic type shows its value as a text, or in a box as a mark, and reads
that again when the page is sent as it is.  Two things do not come back as they were.  A box
has two states, so that nothing comes back as an unset flag; and an empty text for a field
that is not required counts as not sent, so that the default comes back.  `readBack` says what
does come back, for every value:

    f.readBack .null        an unset flag for a flag, and else the default
    f.readBack (.str "")    the default, or the empty text if there is none
    f.readBack v            v itself

and the results of this module are that the field reads this, from what it holds of the text
(`reads_text`), of an empty text that stands for nothing (`reads_empty`), and of a box
(`reads_box`).

All of them assume that the field's own check gives the value (`Gives`).  That is no
formality: a default is not checked when an instance is made, and so an instance may hold a
value that its field refuses.

For options the result is an equivalence.  A field reads an option back exactly if the text
that the option stands for is the text by which it is shown, which is the name of the
enumeration and the name of the option with a dot between them (`reads_option_iff`).  An
option with any other value is sent by a text that stands for another option or for none, and
so the field reads something else or refuses it.
-/
import WebForm.Proofs.Editing.Written
import WebForm.Proofs.Redisplay

namespace WebForm

open WebForm.Text Submission

namespace Field

/-! ## Values of a field -/

/-- The value is one that the field's check gives. -/
def Gives (c : Config) (f : Field) (v : Value) : Prop :=
  ∃ w p, f.checkIn none c w = .ok p ∧ p.value = v

/-- The field writes the value so that it can be read again, or holds nothing, as it does by default;
a flag, which is unset then, can be so. -/
def Writes (c : Config) (f : Field) (v : Value) : Prop :=
  f.type.kind.scalar.Writes v ∨
    v = .null ∧ f.default = some .null ∧ (f.type.kind.scalar = .bool → f.Gives c (.bool false))

/-- What the field reads back of a page that shows the value: an unset flag for nothing, and what it
holds by default for an empty text. -/
def readBack (f : Field) (v : Value) : Value :=
  match v with
  | .null => if f.type.kind.scalar == .bool then .bool false else f.default.getD .null
  | v => if v = .str "" then f.default.getD v else v

/-- The field reads the value from what a submission holds for it: a check makes the value of it, or
nothing is held, and the value is the default. -/
def Reads (c : Config) (f : Field) (held : Option Value) (v : Value) : Prop :=
  match held with
  | some x => ∃ p, f.checkIn (some false) c x = .ok p ∧ p.value = v
  | none => f.default = some v

variable {c : Config} {f : Field} {basic : Ty} {v : Value}

theorem Writes.dump_eq (h : f.Writes c v) : v.dump = v := by
  rcases h with h | ⟨rfl, _⟩
  · exact h.dump_eq
  · rfl

/-! ## Texts

The field's check is the check of the basic type under the field's limits, and what that
passed it passes again.  What is added by the field itself is the treatment of the empty text. -/

theorem checkIn_again (h : basic.Offers f.type) (hv : basic.Writes v) (hgives : f.Gives c v) :
    ∃ p, f.checkIn (some false) c (coerce basic (.str v.attributeText)) = .ok p ∧ p.value = v := by
  obtain ⟨w, p, hp, hvalue⟩ := hgives
  obtain ⟨ls, _, hunder⟩ := Field.exists_isUnder h hv.isBasic c
  have hrun : (basic.basicCheck { strict? := none, config := c }).run ls w = .ok p := by
    rcases hunder none w with heq | ⟨_, heq⟩
    · rwa [← heq]
    · rw [heq] at hp
      cases hp
      exact absurd hvalue.symm hv.ne_null
  have hconfig : (Setting.mk (some false) c).config = (Setting.mk none c).config := rfl
  have hlax : (Setting.mk (some false) c).IsLax := rfl
  obtain ⟨p', hp', hvalue'⟩ := hv.again hconfig hlax hrun hvalue
  refine ⟨p', ?_, hvalue'⟩
  rcases hunder (some false) (coerce basic (.str v.attributeText)) with heq | ⟨hnull, _⟩
  · rwa [heq]
  · exact absurd hnull (coerce_ne_null _ _)

theorem checkIn_flag (h : f.type.IsFlag) {b : Bool} (hgives : f.Gives c (.bool b)) :
    ∃ p, f.checkIn (some false) c (.bool b) = .ok p ∧ p.value = .bool b := by
  have hagain := checkIn_again (Ty.isFlag_iff_offers.mp h) (.flag b) hgives
  rwa [(Ty.Writes.flag b).coerce_eq] at hagain

theorem readBack_null (f : Field) :
    f.readBack .null
      = if f.type.kind.scalar == .bool then .bool false else f.default.getD .null := rfl

theorem readBack_of_writes (h : basic.Writes v) :
    f.readBack v = if v = .str "" then f.default.getD v else v := by
  cases h <;> rfl

/-- A field reads the text of its value back. -/
theorem reads_text (h : basic.Offers f.type) (hv : basic.Writes v) (hgives : f.Gives c v) :
    f.Reads c (f.holds? (.list [.str v.attributeText])) (f.readBack v) := by
  have hsingle := congrArg Kind.multi (h.kind_eq hv.isBasic)
  have hempty := hv.coerce_eq_empty_iff
  obtain ⟨p, hp, hvalue⟩ := checkIn_again h hv hgives
  rw [holds?_text hsingle, h.scalar_eq hv.isBasic, readBack_of_writes hv]
  cases hdefault : f.default with
  | none =>
      have hrequired : f.isRequired = true := by
        rw [FieldTraits.isRequired, hdefault]
        rfl
      rw [if_neg (by simp [hrequired]), Option.getD_none, ite_self]
      exact ⟨p, hp, hvalue⟩
  | some d =>
      have hrequired : f.isRequired = false := by
        rw [FieldTraits.isRequired, hdefault]
        rfl
      rw [Option.getD_some]
      by_cases hv' : v = .str ""
      · rw [if_pos ⟨hempty.mpr hv', hrequired⟩, if_pos hv']
        exact hdefault
      · rw [if_neg fun h => hv' (hempty.mp h.1), if_neg hv']
        exact ⟨p, hp, hvalue⟩

/-- A field that holds nothing by default reads an empty text as nothing, or as an unset flag. -/
theorem reads_empty (h : basic.Offers f.type) (hb : basic.isBasic = true)
    (hdefault : f.default = some .null)
    (hunset : f.type.kind.scalar = .bool → f.Gives c (.bool false)) :
    f.Reads c (f.holds? (.list [.str ""])) (f.readBack .null) := by
  have hsingle := congrArg Kind.multi (h.kind_eq hb)
  have hrequired : f.isRequired = false := by
    rw [FieldTraits.isRequired, hdefault]
    rfl
  rw [holds?_text hsingle, readBack_null]
  rw [h.scalar_eq hb] at hunset ⊢
  by_cases hflag : basic = .bool
  · subst hflag
    have hread : coerce .bool (.str "") = .bool false := by decide +kernel
    rw [hread, if_neg (by simp), if_pos (beq_self_eq_true _)]
    exact checkIn_flag (Ty.isFlag_iff_offers.mpr h) (hunset rfl)
  · have hread : coerce basic (.str "") = .str "" := by
      cases basic with
      | str | date | enumeration => rfl
      | int => decide +kernel
      | bool => exact absurd rfl hflag
      | _ => cases hb
    rw [hread, if_pos ⟨rfl, hrequired⟩, if_neg (by simpa using hflag), hdefault]
    exact hdefault

/-! ## Options

The text of an option is not empty, so that the field holds it as it was sent. -/

section Options

variable {e : Enumeration} {t : String}

theorem holds?_option (h : (Ty.enumeration e).Offers f.type) (ht : t ≠ "") :
    f.holds? (.list [.str t]) = some (.str t) := by
  have hb : (Ty.enumeration e).isBasic = true := rfl
  have hcoerce : coerce (.enumeration e) (.str t) = .str t := rfl
  rw [holds?_text (congrArg Kind.multi (h.kind_eq hb)), h.scalar_eq hb, hcoerce,
    if_neg fun hempty => ht (Value.str.inj hempty.1)]

theorem optionOf?_of_reads (h : (Ty.enumeration e).Offers f.type) (he : e.IsClear)
    (hv : ∀ u, v ≠ .str u) (hreads : f.Reads c (some (.str t)) v) : e.optionOf? t = some v := by
  obtain ⟨p, hp, rfl⟩ := hreads
  obtain ⟨ls, _, hunder⟩ := Field.exists_isUnder h rfl c
  rw [(hunder (some false) (.str t)).resolve_right fun hnull => nomatch hnull.1] at hp
  simp only [Ty.basicCheck, Ty.reading, Reading.alone] at hp
  obtain ⟨q, hq, hlater⟩ := Outcome.exists_of_bind_eq_ok hp
  rcases Limit.applyAll_value hlater with hvalue | ⟨u, hu⟩
  · rw [hvalue]
    exact Check.optionOf?_of_runOption he hq
  · exact absurd hu (hv u)

/-- A field of options reads the text of an option back as the option exactly if that is the text that
the option stands for. -/
theorem reads_option_iff (h : (Ty.enumeration e).Offers f.type) (he : e.IsClear) {name : String}
    {place : Nat} (hv : v = .option e.name e.kind name (.str t) place) (hoption : e.option? name = some v)
    (hgives : f.Gives c v) :
    f.Reads c (f.holds? (.list [.str v.attributeText])) v ↔ t = e.name ++ "." ++ name := by
  subst hv
  constructor
  · intro hreads
    rw [holds?_option h (Value.attributeText_option_ne_empty _ _ _ _ _)] at hreads
    have hfound := optionOf?_of_reads h he (by intro u hu; cases hu) hreads
    obtain ⟨_, _, heq⟩ := Enumeration.of_optionOf?_eq_some hfound
    injection heq with _ _ _ hvalue _
    exact Value.str.inj hvalue
  · rintro rfl
    have hwrites := Ty.Writes.option he hoption
    have hreads := reads_text h hwrites hgives
    rwa [readBack_of_writes hwrites, if_neg fun heq => nomatch heq] at hreads

end Options

/-! ## Boxes

A marked box sends `true` behind `off`, an unmarked one `off` alone, and both are read as
flags. -/

theorem readBack_flag (f : Field) (b : Bool) : f.readBack (.bool b) = .bool b := by
  rw [readBack_of_writes (.flag b), if_neg fun heq => nomatch heq]

/-- A box is read as the flag that it shows. -/
theorem reads_box (h : f.type.IsFlag) {b : Bool} (hgives : f.Gives c (.bool b)) :
    f.Reads c (f.holds? (.list (.str "off" :: if b then [.str "true"] else []))) (.bool b) := by
  have hword : readFlag? "true" = some true := by decide +kernel
  obtain ⟨hoff, hon⟩ := holds?_words h hword
  cases b with
  | false =>
      rw [if_neg Bool.false_ne_true, hoff]
      exact checkIn_flag h hgives
  | true =>
      rw [if_pos rfl, hon]
      exact checkIn_flag h hgives

end Field

end WebForm
