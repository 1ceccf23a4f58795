/-
What a check has passed, checked again: types, and schemas as a whole.

The results on single values, collections, mappings, choices and records are put together here
for all types.  A type is steady if nothing in it can make of a value what it would refuse
itself:

  * the members of its sets stay as they are, that is, their check is firm;
  * its literals are found under themselves;
  * it knows all the limits that are put on it;
  * its records are written by the names under which they are read.

Whatever a steady type has passed, as it is declared, it passes strictly once it is written
out:

    t.isSteady → Reading.Settles t.hold t.Suits (t.reading (declared c)) (t.reading (strictly c))

That a type is steady is decided on the type alone.  What is left of the value is said by
`Ty.Suits`, and it is little: no option stands for something else than an integer where an
integer is asked for, the defaults on which records rely are such as would pass, and a record
that is handed in has come of a check.

All definitions here follow the type: `hold` says how it takes values, `isSteady` what is
asked of it, and `Suits` what is asked of a value.  A record holds the types of its fields and
a list of alternatives holds types, so that each of these is a family of functions, by
recursion on all of them at once, and so is the proof.
-/
import WebForm.Proofs.Rechecking.Choice
import WebForm.Proofs.Rechecking.Collection
import WebForm.Proofs.Rechecking.Mapping
import WebForm.Proofs.Rechecking.Record

namespace WebForm

/-- A setting in which types are read as they are declared. -/
def Setting.declared (c : Config) : Setting := { config := c }

/-- A setting in which types are read strictly. -/
def Setting.strictly (c : Config) : Setting := { strict? := some true, config := c }

/-- The limits of a declaration are known, unless they are about strictness. -/
def Grip.bearsAll (g : Grip) (ls : List Limit) : Bool := ls.all fun l => l.isStrict || g.knows l

theorem Grip.bears_of_bearsAll {g : Grip} {ls : List Limit} (h : g.bearsAll ls = true) :
    g.Bears ls := fun l hl => Bool.or_eq_true_iff.mp (List.all_eq_true.mp h l hl)

namespace Ty

/-! ## How a type takes values -/

mutual

/-- How the checks of a type and of its alternatives take values. -/
def hold : Ty → Hold
  | .any => .alone .any ⟨false, Limit.isUnknown⟩
  | .none => ⟨⟨true, Limit.isUnknown⟩, []⟩
  | .str => .alone .str ⟨true, Limit.isTextual⟩
  | .int => .alone .int ⟨true, Limit.isNumeric⟩
  | .float => .alone .float ⟨true, Limit.isNumeric⟩
  | .bool => .alone .bool ⟨true, Limit.isUnknown⟩
  | .date => .alone .date ⟨true, Limit.isNumeric⟩
  | .bare .dict => .alone (.bare .dict) ⟨false, Limit.isUnknown⟩
  | .bare c => .alone (.bare c) ⟨false, Limit.isLength⟩
  | .many .sequence t => .alone (.many .sequence t) ⟨false, Limit.isUnknown⟩
  | .many .list t =>
    .alone (.many .list t) ⟨!t.isAny && (hold t).grip.firm, Limit.isLength⟩
  | .many c t => .alone (.many c t) ⟨(hold t).grip.firm, Limit.isLength⟩
  | .positions ts => .alone (.positions ts) ⟨allFirm ts, Limit.isLength⟩
  | .dict k v => .alone (.dict k v) ⟨false, Check.dictLimits (hold k).grip.firm⟩
  | .optional t => .among (hold t).options
  | .choice _ ts => .among (allHeld ts)
  | .literal values => .alone (.literal values) ⟨true, Limit.isUnknown⟩
  | .enumeration e => .alone (.enumeration e) ⟨true, Limit.isUnknown⟩
  | .limited t l => ⟨(hold t).grip, [(.limited t l, (hold t).grip)]⟩
  | .record schema => .alone (.record schema) ⟨false, Limit.isUnknown⟩

/-- The alternatives of some types. -/
def allHeld : List Ty → List (Ty × Grip)
  | [] => []
  | t :: ts => (hold t).options ++ allHeld ts

/-- The checks of some types leave what they have passed as it is. -/
def allFirm : List Ty → Bool
  | [] => true
  | t :: ts => (hold t).grip.firm && allFirm ts

end

mutual

/-- Nothing in the type makes of a value what it would refuse. -/
def isSteady : Ty → Bool
  | .many .set t | .many .frozenset t => isSteady t && t.hold.grip.firm
  | .many _ t | .optional t => isSteady t
  | .positions ts | .choice _ ts => allSteady ts
  | .dict k v => isSteady k && isSteady v
  | .literal values => Check.takesItsOwn values
  | .limited t l => isSteady t && t.hold.grip.bearsAll l.toList
  | .record ⟨name, fields, c⟩ =>
    SchemaOf.isWrittenAsRead ⟨name, fields, c⟩ && fieldsSteady fields
  | _ => true

/-- All the types are steady. -/
def allSteady : List Ty → Bool
  | [] => true
  | t :: ts => isSteady t && allSteady ts

/-- The types of all the fields are steady and know the fields' limits. -/
def fieldsSteady : List (FieldOf Ty) → Bool
  | [] => true
  | ⟨f, t⟩ :: rest => isSteady t && t.hold.grip.bearsAll f.limits.toList && fieldsSteady rest

end

/-! ## What suits a type -/

mutual

/-- The value holds no option that stands for something else than an integer where one is asked
for, the defaults on which its records rely are such as would pass, and its records have come of a
check. -/
def Suits : Ty → Value → Prop
  | .int, v => v.standsForInteger = true
  | .many _ t, v => Check.SuitItems (Suits t) v
  | .positions ts, v => ∀ items, Check.items? v = some items → Check.SuitPlaces (allSuits ts) items
  | .dict k w, v => Check.SuitEntries (Suits k) (Suits w) v
  | .optional t, v | .limited t _, v => Suits t v
  | .choice _ ts, v => SuitsAll ts v
  | .record ⟨name, fields, c⟩, v =>
    match v with
    | .map entries => SuitsFields fields c entries
    | .record n written values =>
      ∃ entries r, SuitsFields fields c entries ∧
        Schema.check ⟨name, fields, c⟩ Option.none (.map entries) = .ok r ∧
          r.value = .record n written values
    | _ => True
  | _, _ => True

/-- What suits each of some types. -/
def allSuits : List Ty → List (Value → Prop)
  | [] => []
  | t :: ts => Suits t :: allSuits ts

/-- The value suits all the types. -/
def SuitsAll : List Ty → Value → Prop
  | [], _ => True
  | t :: ts, v => Suits t v ∧ SuitsAll ts v

/-- What the entries hold for each field suits it. -/
def SuitsFields : List (FieldOf Ty) → Config → List (Value × Value) → Prop
  | [], _, _ => True
  | ⟨f, t⟩ :: rest, c, entries =>
    Field.SuitsIn c (Suits t) entries ⟨f, t⟩ ∧ SuitsFields rest c entries

end

theorem suitsFields_iff {fields : List Field} {c : Config} {entries : List (Value × Value)} :
    SuitsFields fields c entries ↔ ∀ f ∈ fields, Field.SuitsIn c f.type.Suits entries f := by
  induction fields with
  | nil => exact ⟨fun _ _ h => absurd h List.not_mem_nil, fun _ => trivial⟩
  | cons f fields ih =>
      obtain ⟨traits, type⟩ := f
      rw [SuitsFields, ih, List.forall_mem_cons]

theorem suits_record (schema : Schema) :
    (Ty.record schema).Suits = schema.Suits fun f => f.type.Suits := by
  funext v
  obtain ⟨name, fields, c⟩ := schema
  unfold Suits Schema.Suits
  cases v <;> simp only [suitsFields_iff]

/-! ## Types that settle -/

mutual

/-- What a steady type passes as it is declared it passes strictly again. -/
theorem reading_settles : ∀ {t : Ty}, t.isSteady = true → ∀ c : Config,
    Reading.Settles t.hold t.Suits (t.reading (.declared c)) (t.reading (.strictly c))
  | .any, _, _ => Reading.settles_alone _ (Check.settles_any _ _)
  | .none, _, _ => ⟨Check.settles_none _ _, rfl, Grip.bears_nil, OptionsSettle.nil, rfl⟩
  | .str, _, _ => Reading.settles_alone _ (Check.settles_text rfl)
  | .int, _, _ => Reading.settles_alone _ (Check.settles_integer _ _)
  | .float, _, _ => Reading.settles_alone _ (Check.settles_float _ _)
  | .bool, _, _ => Reading.settles_alone _ (Check.settles_flag _ _)
  | .date, _, _ => Reading.settles_alone _ (Check.settles_date _ _)
  | .bare k, _, c => by
      cases k with
      | tuple =>
          have item : Check.Settles ⟨false, Limit.isUnknown⟩ (fun _ => True)
              (Check.any (.declared c)) (Check.any (.strictly c)) := Check.settles_any _ _
          have whole : Check.Settles _ _
              (Check.collection .tuple (Check.any (.declared c)) (.declared c))
              (Check.collection .tuple (Check.any (.strictly c)) (.strictly c)) :=
            Check.settles_collection (Check.accounts_check .any (.declared c)) item .tuple (by simp)
          exact Reading.settles_alone _ (whole.weaken id (fun _ h => h) fun _ _ _ _ _ _ => trivial)
      | dict =>
          have item : Check.Settles ⟨false, Limit.isUnknown⟩ (fun _ => True)
              (Check.any (.declared c)) (Check.any (.strictly c)) := Check.settles_any _ _
          have whole : Check.Settles _ _
              (Check.dict (Check.any (.declared c)) (Check.any (.declared c)) (.declared c))
              (Check.dict (Check.any (.strictly c)) (Check.any (.strictly c)) (.strictly c)) :=
            Check.settles_dict item item
          exact Reading.settles_alone _
            (whole.weaken id (fun _ h => nomatch h) fun _ _ _ _ _ _ => ⟨trivial, trivial⟩)
      | list | genericList => exact Reading.settles_alone _ Check.settles_freeList
  | .many k t, h, c => by
      cases k with
      | sequence =>
          by_cases hany : t = .any
          · subst hany
            exact Reading.settles_alone _ Check.settles_freeSequence
          · have item := (reading_settles (t := t) h c).check
            rw [reading, reading]
            · exact Reading.settles_alone _ (Check.settles_sequence item)
            · exact hany
            · exact hany
      | list =>
          have item := (reading_settles (t := t) h c).check
          simp only [reading]
          refine Reading.settles_alone _ ?_
          cases hany : t.isAny with
          | true => exact Check.settles_freeList
          | false => exact Check.settles_collection (Check.accounts_check t _) item .list (by simp)
      | set =>
          obtain ⟨ht, hfirm⟩ := Bool.and_eq_true_iff.mp h
          exact Reading.settles_alone _ (Check.settles_collection (Check.accounts_check t _)
            (reading_settles ht c).check .set fun _ => hfirm)
      | frozenset =>
          obtain ⟨ht, hfirm⟩ := Bool.and_eq_true_iff.mp h
          exact Reading.settles_alone _ (Check.settles_collection (Check.accounts_check t _)
            (reading_settles ht c).check .frozenset fun _ => hfirm)
      | tuple =>
          exact Reading.settles_alone _ (Check.settles_collection (Check.accounts_check t _)
            (reading_settles (t := t) h c).check .tuple fun hset => nomatch hset)
  | .positions ts, h, c =>
      Reading.settles_alone _ (Check.settles_positions (accounts_checks ts _) (all_settle h c).1)
  | .dict k v, h, c => by
      obtain ⟨hk, hv⟩ := Bool.and_eq_true_iff.mp h
      exact Reading.settles_alone _
        (Check.settles_dict (reading_settles hk c).check (reading_settles hv c).check)
  | .optional t, h, c => Reading.settles_among (reading_settles (t := t) h c).options true
  | .choice _ ts, h, c => by
      obtain ⟨_, options, nullable⟩ := all_settle (show allSteady ts = true from h) c
      simp only [reading]
      rw [nullable]
      exact Reading.settles_among options _
  | .literal values, h, _ => Reading.settles_alone _ (Check.settles_literal h _ _)
  | .enumeration e, _, _ => Reading.settles_alone _ (Check.settles_option e _ _)
  | .limited t l, h, c => by
      obtain ⟨ht, hl⟩ := Bool.and_eq_true_iff.mp h
      have inner := reading_settles ht c
      have whole : Reading.Settles t.hold t.Suits
          { t.reading (.declared c) with own := (t.reading (.declared c)).own ++ l.toList }
          { t.reading (.strictly c) with own := (t.reading (.strictly c)).own ++ l.toList } :=
        ⟨inner.core, by rw [inner.own], inner.bears.append (Grip.bears_of_bearsAll hl),
          inner.options, inner.nullable⟩
      exact ⟨whole.core, whole.own, whole.bears,
        ⟨[⟨.limited t l, t.hold.grip, _, _⟩], rfl, rfl, rfl,
          List.forall_mem_singleton.mpr whole.check⟩, rfl⟩
  | .record ⟨name, fields, rules⟩, h, c => by
      obtain ⟨hnames, hfields⟩ := Bool.and_eq_true_iff.mp h
      have whole : Check.Settles ⟨false, Limit.isUnknown⟩
          (Schema.Suits ⟨name, fields, rules⟩ fun f => f.type.Suits)
          (Check.record name rules (fieldChecks fields (.declared rules)) (.declared c))
          (Check.record name rules (fieldChecks fields (.strictly rules)) (.strictly c)) := by
        rw [Setting.declared, Setting.strictly, fieldChecks_eq, fieldChecks_eq]
        exact Schema.settles_record hnames (fields_settle hfields rules)
      rw [suits_record]
      exact Reading.settles_alone _ whole

theorem all_settle : ∀ {ts : List Ty}, allSteady ts = true → ∀ c : Config,
    Check.PlacesSettle (allFirm ts) (allSuits ts) (checks ts (.declared c)) (checks ts (.strictly c)) ∧
    OptionsSettle (SuitsAll ts) (allHeld ts) (allOptions ts (.declared c))
      (allOptions ts (.strictly c)) ∧
    anyNullable ts (.strictly c) = anyNullable ts (.declared c)
  | [], _, _ => ⟨.nil, .nil, rfl⟩
  | t :: ts, h, c => by
      obtain ⟨ht, hts⟩ := Bool.and_eq_true_iff.mp h
      have first := reading_settles ht c
      obtain ⟨places, options, nullable⟩ := all_settle hts c
      refine ⟨.cons first.check ?_ (places.weaken ?_), ?_, ?_⟩
      · exact fun hfirm => (Bool.and_eq_true_iff.mp hfirm).1
      · exact fun hfirm => (Bool.and_eq_true_iff.mp hfirm).2
      · exact (OptionsSettle.weaken first.options fun _ hv => hv.1).append
          (options.weaken fun _ hv => hv.2)
      · simp only [anyNullable]
        rw [first.nullable, nullable]

theorem fields_settle : ∀ {fields : List Field}, fieldsSteady fields = true → ∀ c : Config,
    ∀ f ∈ fields, Field.Settles c f.type.Suits f
  | [], _, _ => fun _ h => absurd h List.not_mem_nil
  | ⟨f, t⟩ :: rest, h, c => by
      obtain ⟨h, hrest⟩ := Bool.and_eq_true_iff.mp h
      obtain ⟨ht, hlimits⟩ := Bool.and_eq_true_iff.mp h
      have first := (reading_settles ht c).under (Grip.bears_of_bearsAll hlimits)
      refine List.forall_mem_cons.mpr ⟨⟨fun hv hr => ?_, fun v => ?_⟩, fields_settle hrest c⟩
      · obtain ⟨r', hr', _⟩ := first.again Grip.bears_nil hv _ hr
        exact ⟨r', hr'⟩
      · exact first.fits v Grip.bears_nil

end

end Ty

end WebForm
