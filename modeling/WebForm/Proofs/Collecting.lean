/-
Fields of many values: when a submission keeps the values that were sent.

The texts that are sent for a field are read one by one for the scalar of its first item, and
a list that holds both flags is collapsed to one flag.  So what is held is a list of the
texts, each as it is or as it is read for its own item, unless the first item's scalar reads
another item's text as something else, or the texts are read as flags and both are there.  A
collection that does not describe its items is read as a single value: one text for it is held
as a text, and only more than one as a list.

`ReadsEach` says that none of these three things happens, of a field and the texts, in terms
of the readings alone.  The main result is `Owns.retains_iff`: for a field that alone has a
name, and that takes the list of the texts,

    r.HoldsTexts name items texts ↔ f.ReadsEach items texts

for every report on the submission, where to hold the texts is to show nothing at the name and
to have a list of them there, each as it is or as it is read for its item.  A field that
describes its items reads each of them if they are of one scalar that is no flag
(`readsEach_of_alike`); lists of numbers, texts, days and options are of this sort.  There is
a report at all as soon as the limits of all other fields can be applied.

That the field takes the texts as a list is a hypothesis, because otherwise there is nothing
to keep; that it alone has the name is one as well, since of two fields with one name only the
last is read.
-/
import WebForm.Element.Localized
import WebForm.Proofs.Endpoint
import WebForm.Proofs.Gathering
import WebForm.Proofs.Wrapping

namespace WebForm

open Submission

/-! ## What is kept -/

/-- The value is the text, or what the text is read as for a scalar. -/
def IsReading (scalar : Ty) (t : String) (v : Value) : Prop :=
  v = .str t ∨ v = coerce scalar (.str t)

/-- The values are the texts one by one, each as it is or as it is read for its item. -/
def AreReadings (items : Nat → Ty) (texts : List String) (vs : List Value) : Prop :=
  vs.length = texts.length ∧ ∀ (i : Nat) (t : String) (v : Value), texts[i]? = some t →
    vs[i]? = some v → IsReading (items i).kind.scalar t v

/-- The report shows nothing at a name, and holds there a list of the texts that were sent. -/
structure Report.HoldsTexts (r : Report) (name : String) (items : Nat → Ty) (texts : List String) :
    Prop where
  accepted : r.detailsAt name = []
  held : ∃ vs, Value.valueAt? r.data.entries name = some (.list vs) ∧ AreReadings items texts vs

/-- The texts as they are read for the first item. -/
def Ty.readAll (items : Nat → Ty) (texts : List String) : List Value :=
  texts.map fun t => coerce (items 0).kind.scalar (.str t)

/-- Texts for a field that describes its items are not read as both flags, and each is read for the
first item as it is for its own; for a field that does not, there is more than one text. -/
def Field.ReadsEach (f : Field) (items : Nat → Ty) (texts : List String) : Prop :=
  if f.type.kind.multi then
    ¬(.bool false ∈ Ty.readAll items texts ∧ .bool true ∈ Ty.readAll items texts) ∧
      ∀ (i : Nat) (t : String), texts[i]? = some t →
        IsReading (items i).kind.scalar t (coerce (items 0).kind.scalar (.str t))
  else 2 ≤ texts.length

/-! ## How a field of many values is read

A type that collects has a reading of its items, and its kind is the scalar of the first.
What the field holds of more than one text, or of one text for a type that describes its
items, is the collapsed list of what is read for that scalar. -/

namespace Ty

theorem Collects.kind {t : Ty} {items : Nat → Ty} (h : t.Collects items) :
    (∀ x, coerce t.kind.scalar (.str x) = coerce (items 0).kind.scalar (.str x)) ∧
      (t.kind.multi = false → t.kind.scalar.isConverted = false) := by
  induction h with
  | @bare c hc =>
      cases c with
      | dict => exact absurd rfl hc
      | list | tuple => exact ⟨fun _ => rfl, fun _ => rfl⟩
      | genericList => exact ⟨fun _ => rfl, (fun h => nomatch h)⟩
  | many => exact ⟨fun _ => rfl, (fun h => nomatch h)⟩
  | @positions ts =>
      refine ⟨fun _ => ?_, (fun h => nomatch h)⟩
      cases ts <;> rfl
  | @optional t _ _ ih => rwa [kind_optional]
  | orNone _ ih => rwa [(Wraps.orNone .self).kind_eq]
  | noneOr _ ih => rwa [(Wraps.noneOr .self).kind_eq]
  | limited _ ih => rwa [kind_limited]

end Ty

theorem Submission.collapseValue_eq_list {vs ws : List Value}
    (h : collapseValue (.list vs) = .list ws) :
    ws = vs ∧ ¬(.bool false ∈ vs ∧ .bool true ∈ vs) := by
  unfold collapseValue at h
  dsimp only at h
  split at h
  · cases h
  · rename_i hflags
    rw [Bool.and_eq_true, List.contains_iff_mem, List.contains_iff_mem] at hflags
    cases h
    exact ⟨rfl, hflags⟩

theorem Submission.collapseValue_of_not_mem {vs : List Value}
    (h : ¬(.bool false ∈ vs ∧ .bool true ∈ vs)) : collapseValue (.list vs) = .list vs := by
  rw [← List.contains_iff_mem, ← List.contains_iff_mem, ← Bool.and_eq_true] at h
  unfold collapseValue
  dsimp only
  rw [if_neg h]

section

variable {f : Field} {items : Nat → Ty} {texts : List String}

theorem Field.holds?_many (h : f.type.Collects items) (hne : texts ≠ [])
    (hmany : f.type.kind.multi = true ∨ 2 ≤ texts.length) :
    f.holds? (.list (texts.map .str)) = some (collapseValue (.list (Ty.readAll items texts))) := by
  have hread : (texts.map Value.str).map (coerce f.type.kind.scalar) = Ty.readAll items texts := by
    rw [List.map_map]
    exact List.map_congr_left fun t _ => h.kind.1 t
  have hempty : (texts.map Value.str).isEmpty = false := by
    cases texts with
    | nil => exact absurd rfl hne
    | cons t texts => rfl
  unfold Field.holds? readField?
  simp only [spread, hread, hempty, Bool.false_eq_true, if_false]
  split
  · rfl
  · rename_i hmulti
    have hlength : 2 ≤ (Ty.readAll items texts).length := by
      rw [Ty.readAll, List.length_map]
      exact hmany.resolve_left hmulti
    split
    · rename_i v heq
      rw [heq, List.length_singleton] at hlength
      omega
    · rfl

theorem Field.holds?_one (h : f.type.Collects items) (hmulti : f.type.kind.multi = false)
    (t : String) (vs : List Value) : f.holds? (.list [.str t]) ≠ some (.list vs) := by
  have hcoerce := coerce_of_not_isConverted (h.kind.2 hmulti) t
  intro heq
  unfold Field.holds? readField? at heq
  simp only [spread, List.map_cons, List.map_nil, hcoerce, hmulti, List.isEmpty_cons,
    Bool.false_eq_true, if_false] at heq
  split at heq
  · cases heq
  · cases heq

theorem Field.eq_readAll_of_holds? (h : f.type.Collects items) (hne : texts ≠ []) {vs : List Value}
    (hheld : f.holds? (.list (texts.map .str)) = some (.list vs)) :
    vs = Ty.readAll items texts ∧
      ¬(.bool false ∈ Ty.readAll items texts ∧ .bool true ∈ Ty.readAll items texts) ∧
      (f.type.kind.multi = true ∨ 2 ≤ texts.length) := by
  have hmany : f.type.kind.multi = true ∨ 2 ≤ texts.length := by
    cases hmulti : f.type.kind.multi with
    | true => exact Or.inl rfl
    | false =>
        match texts, hne with
        | [t], _ => exact absurd hheld (Field.holds?_one h hmulti t vs)
        | _ :: _ :: _, _ => exact Or.inr (Nat.le_add_left 2 _)
  rw [Field.holds?_many h hne hmany] at hheld
  obtain ⟨heq, hflags⟩ := collapseValue_eq_list (Option.some.inj hheld)
  exact ⟨heq, hflags, hmany⟩

theorem areReadings_readAll_iff : AreReadings items texts (Ty.readAll items texts)
    ↔ ∀ (i : Nat) (t : String), texts[i]? = some t →
      IsReading (items i).kind.scalar t (coerce (items 0).kind.scalar (.str t)) := by
  unfold AreReadings Ty.readAll
  simp only [List.length_map, List.getElem?_map, true_and]
  constructor
  · intro hall i t ht
    exact hall i t _ ht (by rw [ht]; rfl)
  · intro hall i t v ht hv
    rw [ht] at hv
    cases hv
    exact hall i t ht

/-- The field retains the texts exactly when it holds a list of them. -/
theorem Field.readsEach_iff_holds? (h : f.type.Collects items) (hne : texts ≠ []) :
    f.ReadsEach items texts ↔
      f.holds? (.list (texts.map .str)) = some (.list (Ty.readAll items texts)) ∧
        AreReadings items texts (Ty.readAll items texts) := by
  rw [areReadings_readAll_iff]
  unfold Field.ReadsEach
  cases hmulti : f.type.kind.multi with
  | true =>
      rw [if_pos rfl]
      constructor
      · rintro ⟨hflags, hall⟩
        rw [Field.holds?_many h hne (Or.inl hmulti), collapseValue_of_not_mem hflags]
        exact ⟨rfl, hall⟩
      · rintro ⟨hheld, hall⟩
        exact ⟨(Field.eq_readAll_of_holds? h hne hheld).2.1, hall⟩
  | false =>
      rw [if_neg Bool.false_ne_true]
      -- nothing is read, so that there are no flags among the texts
      have htexts : ∀ t, coerce (items 0).kind.scalar (.str t) = .str t := fun t => by
        rw [← h.kind.1, coerce_of_not_isConverted (h.kind.2 hmulti)]
      have hflags : .bool false ∉ Ty.readAll items texts := by
        intro hmem
        obtain ⟨t, _, heq⟩ := List.mem_map.mp hmem
        rw [htexts] at heq
        cases heq
      constructor
      · intro hlength
        rw [Field.holds?_many h hne (Or.inr hlength),
          collapseValue_of_not_mem fun hboth => hflags hboth.1]
        exact ⟨rfl, fun i t _ => Or.inl (htexts t)⟩
      · rintro ⟨hheld, _⟩
        obtain ⟨_, _, hmany⟩ := Field.eq_readAll_of_holds? h hne hheld
        exact hmany.resolve_left (by rw [hmulti]; exact Bool.false_ne_true)

theorem Submission.coerce_ne_bool {scalar : Ty} (h : scalar ≠ .bool) (t : String) (b : Bool) :
    coerce scalar (.str t) ≠ .bool b := by
  intro heq
  rw [coerce_str] at heq
  cases scalar with
  | bool => exact h rfl
  | int => cases hi : Number.readInteger? t <;> simp [readText?, hi] at heq
  | float => cases hx : Number.readFloat? t <;> simp [readText?, hx] at heq
  | _ => cases heq

/-- A field that describes its items retains all texts for items of one scalar, if that is no flag. -/
theorem Field.readsEach_of_alike (h : f.type.kind.multi = true)
    (halike : ∀ i < texts.length, (items i).kind.scalar = (items 0).kind.scalar)
    (hflag : (items 0).kind.scalar ≠ .bool) : f.ReadsEach items texts := by
  rw [Field.ReadsEach, if_pos h]
  constructor
  · rintro ⟨hmem, _⟩
    obtain ⟨t, _, heq⟩ := List.mem_map.mp hmem
    exact Submission.coerce_ne_bool hflag t false heq
  · intro i t ht
    obtain ⟨hi, _⟩ := List.getElem?_eq_some_iff.mp ht
    exact Or.inr (by rw [halike i hi])

end

/-! ## Reports

The list of the texts is carried to the list of what was read of them, since each item is.  So
the field's check passes it, and the report shows what the field holds. -/

theorem Field.carries_readAll {f : Field} {items : Nat → Ty} {texts : List String}
    (h : f.type.Collects items) (c : Config)
    (hread : AreReadings items texts (Ty.readAll items texts)) :
    Outcome.Carries (f.checkIn (some false) c (.list (texts.map .str)))
      (f.checkIn (some false) c (.list (Ty.readAll items texts))) := by
  refine f.checkIn_carries h ⟨by rw [hread.1, List.length_map], fun i v w hv hw => ?_⟩
  rw [List.getElem?_map] at hv
  obtain ⟨t, ht, rfl⟩ := Option.map_eq_some_iff.mp hv
  rcases hread.2 i t w ht hw with rfl | rfl
  · exact Outcome.Carries.refl _
  · exact (items i).check_reads (s := { strict? := some false, config := c }) rfl t []

namespace Schema

variable {schema : Schema} {f : Field} {name : String} {items : Nat → Ty} {texts : List String}
  {s : Submission}

theorem Owns.valueAt?_data (h : schema.Owns f name) {v : Value}
    (hs : s.values? name = some (spread v)) {r : Report} (hr : schema.reportForm s = .ok r) :
    Value.valueAt? r.data.entries name = f.holds? v := by
  rw [Report.data_ofOutcome hr, ← h.valueAt?_sentEntries hs]
  rfl

/-- Suppose a field of many values alone is rendered and read under a name, and takes some texts that
are sent under the name.  A report on the submission retains them exactly when the field does, and
there is a report as soon as the limits of all other fields can be applied.  The field retains them
if it describes its items, and these are of one scalar that is no flag. -/
theorem Owns.retains_iff (h : schema.Owns f name) (hitems : f.type.Collects items)
    (hne : texts ≠ []) (hkeys : ∀ e ∈ s.entries, e.1.asText?.isSome = true)
    (hs : s.values? name = some (texts.map .str))
    (htakes : ∃ c, f.checkIn (some false) schema.config (.list (texts.map .str)) = .ok c) :
    (∀ r, schema.reportForm s = .ok r →
      (r.HoldsTexts name items texts ↔ f.ReadsEach items texts)) ∧
    (f.ReadsEach items texts → (∀ g ∈ schema.fields, g = f ∨ schema.Fits s g) →
      ∃ r, schema.reportForm s = .ok r ∧ r.HoldsTexts name items texts) ∧
    (f.type.kind.multi = true →
      (∀ i < texts.length, (items i).kind.scalar = (items 0).kind.scalar) →
      (items 0).kind.scalar ≠ .bool → f.ReadsEach items texts) := by
  have hsent : s.values? name = some (spread (.list (texts.map .str))) := hs
  -- what the field retains passes as the texts do
  have passes : f.ReadsEach items texts →
      f.holds? (.list (texts.map .str)) = some (.list (Ty.readAll items texts)) ∧
      AreReadings items texts (Ty.readAll items texts) ∧
      ∃ c, f.checkIn (some false) schema.config (.list (Ty.readAll items texts)) = .ok c := by
    intro hretains
    obtain ⟨hheld, hread⟩ := (Field.readsEach_iff_holds? hitems hne).mp hretains
    obtain ⟨c, hc⟩ := htakes
    obtain ⟨c', hc', _⟩ := Field.carries_readAll hitems schema.config hread c hc
    exact ⟨hheld, hread, c', hc'⟩
  have agree : ∀ r, schema.reportForm s = .ok r →
      (r.HoldsTexts name items texts ↔ f.ReadsEach items texts) := by
    intro r hr
    constructor
    · rintro ⟨_, vs, hvs, hread⟩
      rw [h.valueAt?_data hsent hr] at hvs
      obtain ⟨rfl, _⟩ := Field.eq_readAll_of_holds? hitems hne hvs
      exact (Field.readsEach_iff_holds? hitems hne).mpr ⟨hvs, hread⟩
    · intro hretains
      obtain ⟨hheld, hread, c, hc⟩ := passes hretains
      refine ⟨?_, _, by rw [h.valueAt?_data hsent hr, hheld], hread⟩
      rw [h.detailsAt_of_holds hkeys hsent hr hheld, hc]
      rfl
  refine ⟨agree, fun hretains hfits => ?_, Field.readsEach_of_alike⟩
  obtain ⟨hheld, _, c, hc⟩ := passes hretains
  have fits : ∀ g ∈ schema.fields, schema.Fits s g := by
    intro g hg
    rcases hfits g hg with rfl | hfit
    · have hentries := h.valueAt?_sentEntries hsent
      rw [hheld, ← h.read] at hentries
      unfold Fits
      rw [Check.FieldCheck.outcome_of_present hentries, Outcome.isMisfit_under_iff]
      show ¬Outcome.IsMisfit (Field.checkIn (some false) schema.config g _)
      rw [hc]
      exact Outcome.not_isMisfit_ok _
    · exact hfit
  obtain ⟨r, hr⟩ := exists_reportForm_iff.mpr fits
  exact ⟨r, hr, (agree r hr).mpr hretains⟩

/-- A field of many answers. -/
def answersField (t : Ty) : Field where
  name := "answers"
  type := t

/-- A poll that asks for them. -/
def poll (t : Ty) : Schema where
  name := "Poll"
  fields := [answersField t]

/-- What a form sends for the poll. -/
def sentAnswers (texts : List String) : Submission := .multi [("answers", texts.map .str)]

theorem owns_answers (t : Ty) : (poll t).Owns (answersField t) "answers" where
  alone := ⟨[], [], rfl, fun _ h => absurd h List.not_mem_nil⟩
  rendered := rfl
  read := rfl

/-- Two numbers, one of them between blanks, are kept as numbers. -/
theorem numbers_retained : ∃ r, (poll (.many .list .int)).reportForm (sentAnswers ["7", " 11 "]) = .ok r ∧
    r.HoldsTexts "answers" (fun _ => .int) ["7", " 11 "] := by
  have hvalue : ((answersField (.many .list .int)).checkIn (some false) {}
      (.list (["7", " 11 "].map .str))).toOption.map (·.value) = some (.list [.int 7, .int 11]) := by
    decide +kernel
  obtain ⟨c, hc, _⟩ := Outcome.exists_of_map_toOption hvalue
  obtain ⟨_, hreport, hretains⟩ := (owns_answers (.many .list .int)).retains_iff
    (s := sentAnswers ["7", " 11 "]) Ty.Collects.many (List.cons_ne_nil _ _) (by decide) rfl ⟨c, hc⟩
  exact hreport (hretains rfl (fun _ _ => rfl) (fun h => nomatch h))
    fun g hg => Or.inl (List.mem_singleton.mp hg)

/-- Both flags are taken as a list, but collapse to one that is refused; a second position is read
for the first; and one text alone is no list for a field that does not describe its items. -/
theorem texts_lost :
    (((answersField (.many .list .bool)).checkIn (some false) {}
        (.list [.str "off", .str "on"])).toOption.isSome = true ∧
      ((poll (.many .list .bool)).reportForm (sentAnswers ["off", "on"])).toOption.map
          (fun r => ((r.detailsAt "answers").map (·.code), Value.valueAt? r.data.entries "answers"))
        = some (["list_type"], some (.bool true))) ∧
    (((answersField (.positions [.int, .str])).checkIn (some false) {}
        (.list [.str "1", .str "2"])).toOption.isSome = true ∧
      ((poll (.positions [.int, .str])).reportForm (sentAnswers ["1", "2"])).toOption.map
          (fun r => ((r.detailsAt "answers").map (·.code), Value.valueAt? r.data.entries "answers"))
        = some (["string_type"], some (.list [.int 1, .int 2]))) ∧
    (((answersField (.bare .list)).checkIn (some false) {}
        (.list [.str "a"])).toOption.isSome = true ∧
      ((poll (.bare .list)).reportForm (sentAnswers ["a"])).toOption.map
          (fun r => ((r.detailsAt "answers").map (·.code), Value.valueAt? r.data.entries "answers"))
        = some (["list_type"], some (.str "a"))) := by
  decide +kernel

end Schema

end WebForm
