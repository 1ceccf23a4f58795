/-
What a type says when it refuses a value.

The texts of a declaration that messages and paths repeat can be listed: the choices of
literals and enumerations, the names of enumerations, records and fields, and the bounds and
patterns of limits (`Ty.texts`).  A type says no others, apart from the keys of the value:

    (∀ x ∈ t.texts, acc.Has x) → (t.reading s).Tells acc

for every account and every setting (`Ty.tells`).  As the account is a parameter, this is two
things at once.  Taken with all texts it says that a type never refuses a value without a
fault, and then there is no hypothesis left; taken with the texts of the declaration it bounds
what a user can be shown.

The proof follows the type.  A type is read together with the alternatives that it offers, and
each of these is a check that may be used in a choice, so what is said of the reading is said
of its core and of all alternatives.  Those that are dropped as repeated have been among the
alternatives before.

A record's own name is said where a value is no mapping at all.  Of a field, all names are
counted under which it is looked for, though only the first of them and the one that was found
can turn up.

The last part has the schema and the field, which are what a form checks.
-/
import WebForm.Proofs.Refusal.Collection

namespace WebForm

variable {acc : Account}

/-! ## Types -/

namespace Ty

mutual

/-- The texts of a type's declaration that messages and paths repeat: choices, names, bounds and
patterns. -/
def texts : Ty → List String
  | .any | .none | .str | .int | .float | .bool | .date | .bare _ => []
  | .many _ t | .optional t => texts t
  | .positions ts | .choice _ ts => textsOfAll ts
  | .dict k v => texts k ++ texts v
  | .literal values => values.map Value.shown
  | .enumeration e => e.name :: e.members.map fun m => m.2.shown
  | .limited t l => texts t ++ l.toList.flatMap Limit.texts
  | .record ⟨name, fields, c⟩ => name :: textsOfFields c fields

/-- The texts of some types. -/
def textsOfAll : List Ty → List String
  | [] => []
  | t :: ts => texts t ++ textsOfAll ts

/-- The texts of some fields: the names under which they are read, and what limits and types bring. -/
def textsOfFields (c : Config) : List (FieldOf Ty) → List String
  | [] => []
  | ⟨f, t⟩ :: rest =>
    f.readNames c ++ f.limits.toList.flatMap Limit.texts ++ texts t ++ textsOfFields c rest

end

end Ty

namespace Reading

/-- All parts of the reading tell what the account allows. -/
structure Tells (acc : Account) (r : Reading) : Prop where
  core : r.core.Tells acc
  own : Limit.Keep acc r.own
  options : ∀ o ∈ r.options, o.2.Tells acc

theorem Tells.under {r : Reading} (h : r.Tells acc) {before : List Limit}
    (hb : Limit.Keep acc before) : (r.under before).Tells acc where
  label hls := h.core.label ((hb.append h.own).append hls)
  run hls := h.core.run ((hb.append h.own).append hls)

theorem Tells.check {r : Reading} (h : r.Tells acc) : r.check.Tells acc := h.under Limit.Keep.nil

theorem tells_alone (t : Ty) {c : Check} (h : c.Tells acc) : (alone t c).Tells acc where
  core := h
  own := Limit.Keep.nil
  options := List.forall_mem_singleton.mpr h

theorem mem_of_mem_distinctOptions {options : List (Ty × Check)} {o : Ty × Check}
    (h : o ∈ distinctOptions options) : o ∈ options := by
  have kept : ∀ (rest seen : List (Ty × Check)), o ∈ rest.foldl (fun seen o =>
      if seen.any (fun p => p.1.isSameOption o.1) then seen else o :: seen) seen →
      o ∈ seen ∨ o ∈ rest := by
    intro rest
    induction rest with
    | nil => exact fun _ h => Or.inl h
    | cons p rest ih =>
        intro seen h
        rw [List.foldl_cons] at h
        split at h
        · exact (ih seen h).imp_right (List.mem_cons_of_mem _)
        · rcases ih _ h with h | h
          · rcases List.mem_cons.mp h with rfl | h
            · exact Or.inr List.mem_cons_self
            · exact Or.inl h
          · exact Or.inr (List.mem_cons_of_mem _ h)
  exact (kept options [] (List.mem_reverse.mp h)).resolve_left List.not_mem_nil

theorem tells_among {options : List (Ty × Check)} (h : ∀ o ∈ options, o.2.Tells acc)
    (nullable : Bool) (s : Setting) : (among options nullable s).Tells acc := by
  have hdistinct : ∀ o ∈ distinctOptions options, o.2.Tells acc := fun o ho =>
    h o (mem_of_mem_distinctOptions ho)
  refine ⟨?_, Limit.Keep.nil, hdistinct⟩
  unfold among
  dsimp only
  split
  · exact Check.tells_none s
  · rename_i only heq
    have honly := hdistinct only (heq ▸ List.mem_cons_self)
    split
    · exact Check.tells_nullable honly
    · exact honly
  · rename_i _ hne _
    have hall : (Check.alternatives ((distinctOptions options).map (·.2)) s).Tells acc := by
      refine Check.tells_alternatives (fun hnil => hne (List.map_eq_nil_iff.mp hnil)) ?_ s
      intro c hc
      obtain ⟨o, ho, rfl⟩ := List.mem_map.mp hc
      exact hdistinct o ho
    split
    · exact Check.tells_nullable hall
    · exact hall

end Reading

namespace Ty

theorem keep_toList {l : Limits} (h : ∀ t ∈ l.toList.flatMap Limit.texts, acc.Has t) :
    Limit.Keep acc l.toList := fun m hm t ht => h t (List.mem_flatMap.mpr ⟨m, hm, ht⟩)

mutual

/-- Whatever a type refuses, it names a fault, and its faults keep to any account that allows the
texts of its declaration. -/
theorem tells : ∀ {t : Ty}, (∀ x ∈ t.texts, acc.Has x) → ∀ s : Setting, (t.reading s).Tells acc
  | .any, _, s => Reading.tells_alone _ (Check.tells_any s)
  | .none, _, s =>
      ⟨Check.tells_none s, Limit.Keep.nil, fun _ h => absurd h List.not_mem_nil⟩
  | .str, _, s => Reading.tells_alone _ (Check.tells_text s)
  | .int, _, s => Reading.tells_alone _ (Check.tells_integer s)
  | .float, _, s => Reading.tells_alone _ (Check.tells_float s)
  | .bool, _, s => Reading.tells_alone _ (Check.tells_flag s)
  | .date, _, s => Reading.tells_alone _ (Check.tells_date s)
  | .bare c, _, s => by
      cases c with
      | tuple => exact Reading.tells_alone _ (Check.tells_collection (Check.tells_any s) s)
      | dict => exact Reading.tells_alone _ (Check.tells_dict (Check.tells_any s) (Check.tells_any s) s)
      | list => exact Reading.tells_alone _ (Check.tells_freeList s)
      | genericList => exact Reading.tells_alone _ (Check.tells_freeList s)
  | .many c t, h, s => by
      have item := (tells (t := t) h s).check
      cases c with
      | sequence =>
          by_cases hany : t = .any
          · subst hany
            exact Reading.tells_alone _ (Check.tells_freeSequence s)
          · rw [reading]
            · exact Reading.tells_alone _ (Check.tells_sequence item s)
            · exact hany
      | list =>
          simp only [reading]
          refine Reading.tells_alone _ ?_
          split
          · exact Check.tells_freeList s
          · exact Check.tells_collection item s
      | set | frozenset | tuple => exact Reading.tells_alone _ (Check.tells_collection item s)
  | .positions ts, h, s =>
      Reading.tells_alone _ (Check.tells_positions (tellsAll (show ∀ x ∈ textsOfAll ts, acc.Has x from h) s).1 s)
  | .dict k v, h, s => by
      obtain ⟨hk, hv⟩ := List.forall_mem_append.mp h
      exact Reading.tells_alone _ (Check.tells_dict (tells hk s).check (tells hv s).check s)
  | .optional t, h, s => Reading.tells_among (tells (t := t) h s).options true s
  | .choice _ ts, h, s => Reading.tells_among (tellsAll (show ∀ x ∈ textsOfAll ts, acc.Has x from h) s).2 _ s
  | .literal values, h, s => by
      refine Reading.tells_alone _ (Check.tells_literal ?_ s)
      exact fun v hv => h _ (List.mem_map.mpr ⟨v, hv, rfl⟩)
  | .enumeration e, h, s => by
      obtain ⟨hname, hmembers⟩ := List.forall_mem_cons.mp h
      refine Reading.tells_alone _ (Check.tells_option hname ?_ s)
      exact fun m hm => hmembers _ (List.mem_map.mpr ⟨m, hm, rfl⟩)
  | .limited t l, h, s => by
      obtain ⟨ht, hl⟩ := List.forall_mem_append.mp h
      have told := tells ht s
      have own := told.own.append (keep_toList hl)
      have read : Reading.Tells acc { t.reading s with own := (t.reading s).own ++ l.toList } :=
        ⟨told.core, own, told.options⟩
      exact ⟨told.core, own, List.forall_mem_singleton.mpr read.check⟩
  | .record ⟨name, fields, c⟩, h, s => by
      obtain ⟨hname, hfields⟩ := List.forall_mem_cons.mp h
      exact Reading.tells_alone _ (Check.tells_record hname (tellsFields hfields { s with config := c }) s)

theorem tellsAll : ∀ {ts : List Ty}, (∀ x ∈ textsOfAll ts, acc.Has x) → ∀ s : Setting,
    (∀ c ∈ checks ts s, c.Tells acc) ∧ ∀ o ∈ allOptions ts s, o.2.Tells acc
  | [], _, _ => ⟨fun _ h => absurd h List.not_mem_nil, fun _ h => absurd h List.not_mem_nil⟩
  | t :: ts, h, s => by
      obtain ⟨ht, hts⟩ := List.forall_mem_append.mp h
      have told := tells ht s
      obtain ⟨hchecks, hoptions⟩ := tellsAll hts s
      exact ⟨List.forall_mem_cons.mpr ⟨told.check, hchecks⟩,
        List.forall_mem_append.mpr ⟨told.options, hoptions⟩⟩

theorem tellsFields : ∀ {c : Config} {fields : List (FieldOf Ty)},
    (∀ x ∈ textsOfFields c fields, acc.Has x) → ∀ s : Setting,
    ∀ f ∈ fieldChecks fields s, f.Tells acc c
  | _, [], _, _ => fun _ h => absurd h List.not_mem_nil
  | c, ⟨f, t⟩ :: rest, h, s => by
      obtain ⟨hfield, hrest⟩ := List.forall_mem_append.mp h
      obtain ⟨hfield, ht⟩ := List.forall_mem_append.mp hfield
      obtain ⟨hnames, hlimits⟩ := List.forall_mem_append.mp hfield
      refine List.forall_mem_cons.mpr ⟨⟨hnames, fun hv => ?_⟩, tellsFields hrest s⟩
      exact ((tells ht s).under (keep_toList hlimits)).run Limit.Keep.nil hv

end

end Ty

/-! ## Schemas and fields

With the account that allows everything, every value keeps to the account. -/

theorem Schema.tells_check {schema : Schema} (h : ∀ t ∈ (Ty.record schema).texts, acc.Has t)
    (strict? : Option Bool) {v : Value} (hv : v.KeepsTo acc) :
    Outcome.Tells acc (schema.check strict? v) :=
  (Ty.tells h { strict? }).check.run Limit.Keep.nil hv

mutual

theorem Value.keepsTo_all : ∀ v : Value, v.KeepsTo Account.all
  | .list items | .tuple items | .set items | .frozenset items => Value.keepItems_all items
  | .map entries => Value.keepEntries_all entries
  | .record _ _ fields => Value.keepFields_all fields
  | .null | .bool _ | .int _ | .float _ | .str _ | .date _ | .option .. | .object _ => trivial

theorem Value.keepItems_all : ∀ items : List Value, Value.KeepItems Account.all items
  | [] => trivial
  | v :: vs => ⟨Value.keepsTo_all v, Value.keepItems_all vs⟩

theorem Value.keepEntries_all : ∀ entries : List (Value × Value),
    Value.KeepEntries Account.all entries
  | [] => trivial
  | (k, v) :: rest => ⟨trivial, Value.keepsTo_all k, Value.keepsTo_all v, Value.keepEntries_all rest⟩

theorem Value.keepFields_all : ∀ fields : List (String × Value),
    Value.KeepFields Account.all fields
  | [] => trivial
  | (_, v) :: rest => ⟨Value.keepsTo_all v, Value.keepFields_all rest⟩

end

theorem Field.tells_run (f : Field) (s : Setting) (v : Value) :
    Outcome.Tells Account.all (((f.type.reading s).under f.limits.toList).run [] v) :=
  ((Ty.tells (fun _ _ => trivial) s).under fun _ _ _ _ => trivial).run Limit.Keep.nil
    (Value.keepsTo_all v)

/-- A schema's check refuses a value with a fault. -/
theorem Schema.faults_ne_nil {schema : Schema} {strict? : Option Bool} {v : Value}
    {fs : List Fault} (h : schema.check strict? v = .error (.faults fs)) : fs ≠ [] :=
  (schema.tells_check (fun _ _ => trivial) strict? (Value.keepsTo_all v) fs h).1

end WebForm
