/-
The span of a single text, through the check of its type.

A text has a length, and a check of any type keeps the span of that length on the text:
whatever is made of the text shows this length or none, and the limits on the length allow it.
The main result is

    u.IsClear → b.Has t.length → (u.reading s).KeepsIn b (.str t)

for all types and all lax settings.  Where texts are stripped they become only shorter, and
the span has to start with nothing.

What is read of a text as a number, a flag or a date shows no length, so that a limit on the
length cannot be applied to it and nothing passes.  Collections, mappings and records refuse a
text.  A choice keeps what its alternatives keep.  So the types that need an argument of their
own are texts, literals and options.

An option is taken for the text of its value.  That is the text that was read, unless the
option stands for an integer, or is found under a text which is not its own; so the
enumerations of a type have to be clear.  This is the one assumption on the type.

The last part is about a list of one item, which is what a field of many values makes of a
single text.  A check makes a collection of one item of it, or of none, whatever the item is:
the length that counts then is that of the collection, and the length of the text is not
heeded at all.
-/
import WebForm.Proofs.Choosing
import WebForm.Proofs.Conserving
import WebForm.Proofs.Rechecking.Choice
import WebForm.Proofs.Span.Limit

namespace WebForm

open Outcome

variable {b : Span}

namespace Check

variable {s : Setting} {v : Value}

/-! ## Single values

Types that know no limit on the length pass it on to what they make of the text. -/

theorem keepsIn_text (hs : s.IsLax) (hb : b.Bears s) (hv : v.IsIn b) : (text s).KeepsIn b v :=
  keepsIn_ofOwn hs hb fun _ _ _ hr => runText_keepsIn hs hb hv hr

theorem not_isLength_of_isNumeric {l : Limit} (h : l.isStrict = true ∨ l.isNumeric = true) :
    l.isLength = false := by
  cases l with
  | minLength | maxLength => simp [Limit.isStrict, Limit.isNumeric] at h
  | _ => rfl

theorem not_isLength_of_isStrict {l : Limit} (h : l.isStrict = true ∨ false = true) :
    l.isLength = false :=
  not_isLength_of_isNumeric (h.imp_right fun h => nomatch h)

theorem keepsIn_any (hs : s.IsLax) (hb : b.Bears s) (hv : v.IsIn b) : (any s).KeepsIn b v := by
  refine keepsIn_of_unmeasured hs hb (fun _ => not_isLength_of_isStrict) fun ls r hr => ?_
  cases hr
  exact hv

theorem isPoint_of_readInteger {e : Exactness} {w : Value} (hv : v.isWritten = true)
    (h : readInteger false v = .ok (w, e)) : w.isPoint = true := by
  cases v with
  | bool x | int x =>
      cases h
      rfl
  | str t =>
      obtain ⟨i, _, hi⟩ := exists_of_map_eq_ok (o := integerOfText t) h
      cases hi
      rfl
  | float x =>
      obtain ⟨i, _, hi⟩ := exists_of_map_eq_ok (o := integerOfFloat x) h
      cases hi
      rfl
  | _ => cases hv

theorem keepsIn_integer (hs : s.IsLax) (hb : b.Bears s) (hv : v.isWritten = true) :
    (integer s).KeepsIn b v := by
  refine keepsIn_of_unmeasured hs hb (fun _ => not_isLength_of_isNumeric) fun ls r hr => ?_
  unfold runInteger at hr
  rw [hs.isStrict] at hr
  cases hread : readInteger false v with
  | error cause =>
      rw [hread] at hr
      cases hr
  | ok p =>
      have hpoint := isPoint_of_readInteger hv hread
      have hvalue : r.value = p.1 := by
        rw [hread] at hr
        dsimp only at hr
        split at hr
        · cases hr
          rfl
        · split at hr
          · cases hr
          · split at hr
            · cases hr
            · cases hr
              rfl
      rw [hvalue]
      exact Value.isIn_of_isPoint hpoint

theorem keepsIn_float (hs : s.IsLax) (hb : b.Bears s) : (float s).KeepsIn b v := by
  refine keepsIn_of_unmeasured hs hb (fun _ => not_isLength_of_isNumeric) fun ls r hr => ?_
  unfold runFloat at hr
  split at hr
  · cases hr
  · split at hr
    · cases hr
    · cases hr
      exact Value.isIn_of_isPoint rfl

theorem keepsIn_flag (hs : s.IsLax) (hb : b.Bears s) : (flag s).KeepsIn b v := by
  refine keepsIn_of_unmeasured hs hb (fun _ => not_isLength_of_isStrict) fun ls r hr => ?_
  unfold runFlag at hr
  split at hr
  · cases hr
  · cases hr
    exact Value.isIn_of_isPoint rfl

theorem keepsIn_date (hs : s.IsLax) (hb : b.Bears s) : (date s).KeepsIn b v := by
  refine keepsIn_of_unmeasured hs hb (fun _ => not_isLength_of_isNumeric) fun ls r hr => ?_
  unfold runDate at hr
  split at hr
  · cases hr
  · split at hr
    · cases hr
    · split at hr
      · cases hr
      · cases hr
        exact Value.isIn_of_isPoint rfl

theorem keepsIn_freeSequence (hs : s.IsLax) (hb : b.Bears s) (hv : v.IsIn b) :
    (freeSequence s).KeepsIn b v := by
  refine keepsIn_of_unmeasured hs hb (fun _ => not_isLength_of_isStrict) fun ls r hr => ?_
  simp only [runFreeSequence] at hr
  split at hr
  · cases hr
    exact hv
  · cases hr
    exact hv
  · cases hr
    exact hv
  · cases hr
    exact hv
  · cases hr

/-! ## Literals and options -/

theorem keepsIn_literal (hs : s.IsLax) (hb : b.Bears s) (values : List Value) {t : String}
    (ht : b.Has t.length) : (literal values s).KeepsIn b (.str t) := by
  refine keepsIn_of_unmeasured hs hb (fun _ => not_isLength_of_isStrict) fun ls r hr => ?_
  obtain ⟨found, hfound, hr⟩ := exists_of_bind_eq_ok hr
  cases found with
  | none => cases hr
  | some w =>
      cases hr
      obtain ⟨k, hk, rfl, htext⟩ := Choices.exists_of_lookup? hfound
      obtain ⟨w, _, rfl⟩ := List.mem_map.mp hk
      exact Value.isIn_of_asText? htext ht

end Check

theorem Enumeration.IsClear.isIn {e : Enumeration} (he : e.IsClear) {t : String}
    (ht : b.Has t.length) {w : Value} (h : e.optionOf? t = some w) : w.IsIn b := by
  obtain ⟨name, _, rfl⟩ := of_optionOf?_eq_some h
  unfold Enumeration.option
  cases hkind : e.kind with
  | text => exact Value.isIn_of_asText? rfl ht
  | integer => exact absurd hkind he.kind
  | plain =>
      rintro n (hn | ⟨_, _, hread, rfl⟩)
      · cases hn
      · cases hread
        exact ht

namespace Check

theorem keepsIn_option (hs : s.IsLax) (hb : b.Bears s) {e : Enumeration} (he : e.IsClear)
    {t : String} (ht : b.Has t.length) : (option e s).KeepsIn b (.str t) :=
  keepsIn_of_unmeasured hs hb (fun _ => not_isLength_of_isStrict) fun _ _ hr =>
    he.isIn ht (optionOf?_of_runOption he hr)

/-! ## Choices -/

theorem keepsIn_alternatives (hs : s.IsLax) (hb : b.Bears s) {options : List Check}
    (h : ∀ a ∈ options, a.KeepsIn b v) : (alternatives options s).KeepsIn b v := by
  refine keepsIn_of_unmeasured hs hb (fun _ => not_isLength_of_isStrict) fun ls r hr => ?_
  rcases runAlternatives_eq_ok hr with ⟨_, hbest, _⟩ | ⟨a, ha, c, hc, hvalue⟩
  · cases hbest
  · rw [hvalue]
    exact (h a ha [] c hc).1

end Check

namespace Reading

/-- The reading keeps the span, as a whole and as each alternative. -/
structure KeepsIn (r : Reading) (b : Span) (v : Value) : Prop where
  core : r.core.KeepsIn b v
  options : ∀ o ∈ r.options, o.2.KeepsIn b v

variable {s : Setting} {v : Value}

theorem keepsIn_alone {t : Ty} {c : Check} (h : c.KeepsIn b v) : (alone t c).KeepsIn b v where
  core := h
  options := List.forall_mem_singleton.mpr h

theorem keepsIn_among (hs : s.IsLax) (hb : b.Bears s) {options : List (Ty × Check)} {t : String}
    (h : ∀ o ∈ options, o.2.KeepsIn b (.str t)) (nullable : Bool) :
    (among options nullable s).KeepsIn b (.str t) := by
  have hdistinct : ∀ o ∈ distinctOptions options, o.2.KeepsIn b (.str t) :=
    fun o ho => h o ((distinctOptions_sublist options).subset ho)
  have hstr : Value.str t ≠ .null := fun heq => nomatch heq
  refine ⟨?_, hdistinct⟩
  unfold among
  dsimp only
  split
  · exact Check.refusesTexts_none.keepsIn t
  · rename_i only heq
    have honly := hdistinct only (heq ▸ List.mem_cons_self)
    split
    · exact honly.nullable hstr
    · exact honly
  · have hall : (Check.alternatives ((distinctOptions options).map (·.2)) s).KeepsIn b (.str t) := by
      refine Check.keepsIn_alternatives hs hb fun a ha => ?_
      obtain ⟨o, ho, rfl⟩ := List.mem_map.mp ha
      exact hdistinct o ho
    split
    · exact hall.nullable hstr
    · exact hall

end Reading

/-! ## Types

The induction runs through a type and the list of its alternatives at once. -/

namespace Ty

mutual

/-- The enumerations that a type offers are clear. -/
def IsClear : Ty → Prop
  | .enumeration e => e.IsClear
  | .optional t => IsClear t
  | .choice _ ts => AreClear ts
  | .limited t _ => IsClear t
  | _ => True

/-- The enumerations that some types offer are clear. -/
def AreClear : List Ty → Prop
  | [] => True
  | t :: ts => IsClear t ∧ AreClear ts

end

section

variable {s : Setting} {t : String}

mutual

/-- A lax reading of a type keeps a text in every span of its length. -/
theorem reading_keepsIn (hs : s.IsLax) (hb : b.Bears s) (ht : b.Has t.length) :
    ∀ (u : Ty), u.IsClear → (u.reading s).KeepsIn b (.str t)
  | .any, _ => Reading.keepsIn_alone (Check.keepsIn_any hs hb (Value.isIn_str ht))
  | .none, _ => ⟨Check.refusesTexts_none.keepsIn t, fun _ ho => absurd ho List.not_mem_nil⟩
  | .str, _ => Reading.keepsIn_alone (Check.keepsIn_text hs hb (Value.isIn_str ht))
  | .int, _ => Reading.keepsIn_alone (Check.keepsIn_integer hs hb rfl)
  | .float, _ => Reading.keepsIn_alone (Check.keepsIn_float hs hb)
  | .bool, _ => Reading.keepsIn_alone (Check.keepsIn_flag hs hb)
  | .date, _ => Reading.keepsIn_alone (Check.keepsIn_date hs hb)
  | .bare c, _ => by
      cases c with
      | tuple => exact Reading.keepsIn_alone ((Check.refusesTexts_collection _ _).keepsIn t)
      | dict => exact Reading.keepsIn_alone ((Check.refusesTexts_dict _ _).keepsIn t)
      | list | genericList => exact Reading.keepsIn_alone (Check.refusesTexts_freeList.keepsIn t)
  | .many c u, _ => by
      cases c with
      | sequence =>
          by_cases hany : u = .any
          · subst hany
            exact Reading.keepsIn_alone (Check.keepsIn_freeSequence hs hb (Value.isIn_str ht))
          · rw [reading]
            · exact Reading.keepsIn_alone ((Check.refusesTexts_sequence _).keepsIn t)
            · exact hany
      | list =>
          simp only [reading]
          refine Reading.keepsIn_alone ?_
          split
          · exact Check.refusesTexts_freeList.keepsIn t
          · exact (Check.refusesTexts_collection _ _).keepsIn t
      | set | frozenset | tuple =>
          exact Reading.keepsIn_alone ((Check.refusesTexts_collection _ _).keepsIn t)
  | .positions _, _ => Reading.keepsIn_alone ((Check.refusesTexts_positions _).keepsIn t)
  | .dict _ _, _ => Reading.keepsIn_alone ((Check.refusesTexts_dict _ _).keepsIn t)
  | .optional u, hu => Reading.keepsIn_among hs hb (reading_keepsIn hs hb ht u hu).options true
  | .choice _ us, hu => Reading.keepsIn_among hs hb (allOptions_keepIn hs hb ht us hu) _
  | .literal values, _ => Reading.keepsIn_alone (Check.keepsIn_literal hs hb values ht)
  | .enumeration _, hu => Reading.keepsIn_alone (Check.keepsIn_option hs hb hu ht)
  | .limited u l, hu => by
      have inner := (reading_keepsIn hs hb ht u hu).core
      refine ⟨inner, List.forall_mem_singleton.mpr fun ls r hr => ?_⟩
      obtain ⟨hvalue, hfits⟩ := inner _ r hr
      exact ⟨hvalue, hfits.of_append⟩
  | .record ⟨_, _, _⟩, _ => Reading.keepsIn_alone ((Check.refusesTexts_record _ _ _).keepsIn t)

theorem allOptions_keepIn (hs : s.IsLax) (hb : b.Bears s) (ht : b.Has t.length) :
    ∀ (us : List Ty), AreClear us → ∀ o ∈ allOptions us s, o.2.KeepsIn b (.str t)
  | [], _, _, ho => absurd ho List.not_mem_nil
  | u :: us, hu, o, ho =>
      (List.mem_append.mp ho).elim ((reading_keepsIn hs hb ht u hu.1).options o)
        (allOptions_keepIn hs hb ht us hu.2 o)

end

end

end Ty

/-! ## A list of one

Sets may drop an item that is repeated, and so a collection is only known to have at most as
many items as were given. -/

namespace Check

variable {kind : Counted} {ls : List Limit}

theorem isIn_of_keepLeast {whole : Value} {c r : Checked} (h : keepLeast kind ls whole c = .ok r)
    (made : Counted) {items : List Value} (hvalue : c.value = ofItems made items)
    (hitems : items.length ≤ 1) : r.value.IsIn ⟨0, 1⟩ ∧ Span.Fits ⟨0, 1⟩ ls := by
  have hspan : Span.Has ⟨0, 1⟩ items.length := ⟨Nat.zero_le _, hitems⟩
  obtain rfl := keepLeast_eq_ok h
  refine ⟨hvalue ▸ Value.isIn_ofItems made hspan, fun m hm => ?_, fun n _ => Nat.zero_le n⟩
  unfold keepLeast at h
  rw [hm, hvalue, length?_ofItems] at h
  dsimp only at h
  split at h
  · cases h
  · rename_i hroom
    exact Nat.le_trans (Nat.le_of_not_lt hroom) hitems

variable {s : Setting} {v : Value}

theorem bears_one (s : Setting) : Span.Bears ⟨0, 1⟩ s := fun _ => rfl

theorem isIn_list_one (v : Value) : (Value.list [v]).IsIn ⟨0, 1⟩ :=
  Value.isIn_ofItems .list ⟨Nat.zero_le 1, Nat.le_refl 1⟩

theorem keepsIn_freeList_one (hs : s.IsLax) : (freeList s).KeepsIn ⟨0, 1⟩ (.list [v]) := by
  refine keepsIn_ofOwn hs (bears_one s) fun ls _ r hr => ?_
  have kept : ∀ {e : Exactness},
      keepLeast .list ls (.list [v]) { value := .list [v], exactness := e } = .ok r →
        r.value.IsIn ⟨0, 1⟩ ∧ Span.Fits ⟨0, 1⟩ ls :=
    fun h => isIn_of_keepLeast h .list (Eq.refl (Value.list [v])) (Nat.le_refl 1)
  simp only [runFreeList, readItems, isKind, if_true, items?, Option.getD_some] at hr
  split at hr
  · split at hr
    · cases hr
    · exact kept hr
  · exact kept hr

theorem length_keptItems_le (kind : Counted) (ws : List Value) :
    (keptItems kind ws).length ≤ ws.length := by
  cases kind with
  | set | frozenset => exact Value.length_distinct_le ws
  | list | tuple | dictionary | value => exact Nat.le_refl _

theorem length_of_readItems_one {strict : Bool} {items : List Value} {e : Exactness}
    (h : readItems strict kind (.list [v]) = .ok (items, e)) : items.length ≤ 1 := by
  rcases items?_of_readItems h with hitems | rfl
  · cases hitems
    exact Nat.le_refl 1
  · exact Nat.zero_le 1

theorem keepsIn_collection_one (hs : s.IsLax) {item : Check} (hitem : item.Accounts) :
    (collection kind item s).KeepsIn ⟨0, 1⟩ (.list [v]) := by
  refine keepsIn_ofOwn hs (bears_one s) fun ls _ r hr => ?_
  rw [runCollection_eq_bind] at hr
  split at hr
  · cases hr
  · rename_i items e hread
    obtain ⟨cs, hcs, hleast⟩ := exists_of_bind_eq_ok hr
    have hlength := (runParts_eq_ok hitem hcs).1.length_eq
    refine isIn_of_keepLeast hleast _ ((Checked.ofParts_value _ _ _).trans (collect_eq _ _)) ?_
    refine Nat.le_trans (length_keptItems_le _ _) ?_
    rw [List.length_map, ← hlength]
    exact length_of_readItems_one hread

theorem keepsIn_sequence_one (hs : s.IsLax) (item : Check) :
    (sequence item s).KeepsIn ⟨0, 1⟩ (.list [v]) := by
  refine keepsIn_of_unmeasured hs (bears_one s) (fun _ => not_isLength_of_isStrict) fun ls r hr => ?_
  obtain ⟨cs, hcs, rfl⟩ := exists_of_map_eq_ok hr
  have hlength := (gather_outcomesAt_eq_ok_iff.mp hcs).length_eq
  rw [Checked.ofParts_value]
  refine Value.isIn_ofItems .list ⟨Nat.zero_le _, ?_⟩
  rw [List.length_map, ← hlength]
  exact Nat.le_refl 1

theorem keepsIn_positions_one (hs : s.IsLax) {checks : List Check} (h : ∀ a ∈ checks, a.Accounts) :
    (positions checks s).KeepsIn ⟨0, 1⟩ (.list [v]) := by
  refine keepsIn_ofOwn hs (bears_one s) fun ls _ r hr => ?_
  unfold runPositions at hr
  split at hr
  · cases hr
  · rename_i items e hread
    obtain ⟨cs, hcs, hleast⟩ := exists_of_bind_eq_ok hr
    obtain ⟨cs, hos, rfl, hplaces, _⟩ := runPlaces_eq_ok (outcomesOf_ne_faults_nil h _ items 0) hcs
    have hroom : items.length ≤ checks.length := by
      by_contra hlong
      dsimp only at hplaces
      rw [if_pos (Nat.lt_of_not_le hlong)] at hplaces
      cases hplaces
    have hlength := ((placesPass_iff _ 0).mp ⟨hos, hroom⟩).length_eq
    refine isIn_of_keepLeast hleast .tuple (Checked.ofParts_value _ _ _) ?_
    rw [List.length_map, hlength.2, ← hlength.1]
    exact length_of_readItems_one hread

end Check

namespace Ty

/-- A root of many values makes a collection of one item of a list of one. -/
theorem root_keepsIn_list {u : Ty} (h : u.isRoot = true) (hmulti : u.kind.multi = true) {s : Setting}
    (hs : s.IsLax) (v : Value) : (u.reading s).core.KeepsIn ⟨0, 1⟩ (.list [v]) := by
  cases u with
  | bool | int | float => cases hmulti
  | positions ts => exact Check.keepsIn_positions_one hs (accounts_checks ts s)
  | bare c =>
      cases c with
      | genericList => exact Check.keepsIn_freeList_one hs
      | _ => cases h
  | many c t =>
      cases c with
      | sequence =>
          by_cases hany : t = .any
          · subst hany
            exact Check.keepsIn_freeSequence hs (Check.bears_one s)
              (Check.isIn_list_one v)
          · rw [reading]
            · exact Check.keepsIn_sequence_one hs _
            · exact hany
      | list =>
          simp only [reading]
          show Check.KeepsIn (if _ then _ else _) _ _
          split
          · exact Check.keepsIn_freeList_one hs
          · exact Check.keepsIn_collection_one hs (Check.accounts_check t s)
      | set | frozenset | tuple => exact Check.keepsIn_collection_one hs (Check.accounts_check t s)
  | _ => cases h

end Ty

end WebForm
