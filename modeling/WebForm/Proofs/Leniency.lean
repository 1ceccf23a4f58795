/-
One field checked in its schema and alone.

A whole submission is checked laxly and under the rules of the schema; a single field is
checked by what it declares and under no rules.  The two checks part in two places only: where
a part of the type is declared strict and takes notice of it, and where the schema strips
texts.  The main result is the rest:

    t.asksStrict = false → (c.strip = true → t.readsText = false) →
      Reading.Alike c.strip t.heedsStrict (t.reading (.within c)) (t.reading .alone)

that is, on what a submission can hold for a field, the two checks are one (`reading_alike`,
and `checkIn_eq_checkAlone` for a field).  To be one is to give the same outcome, with its
value, its faults and its exactness, under all limits that are calm.

Whether a type takes notice of strictness is a question about what is sent.  A text is a text
as strictly as one likes, and a list a list; a set, a tuple or an option made of a text is
not.  `heedsStrict` is the answer for each type, and it is an index of the relation, because a
limit that asks for strictness is harmless on a type that takes no notice of it.

What a submission holds is a text, what a text is read as, or a list of those (`isSent`).
Mappings and records refuse all of it alike.  The induction is over the type, and each check
has a lemma for its own step; the collections share one loop of items.
-/
import WebForm.Proofs.Distinct
import WebForm.Proofs.Faults

namespace WebForm

/-! ## What a submission holds

Texts and the readings of texts, and lists of them to any depth. -/

namespace Value

/-- A text, or what a text is read as. -/
def isWritten : Value → Bool
  | .str _ | .bool _ | .int _ | .float _ => true
  | _ => false

/-- What a submission of texts can hold for a field. -/
def isSent : Value → Bool
  | .list items => items.all isWritten
  | v => v.isWritten

theorem isSent_of_isWritten {v : Value} (h : v.isWritten = true) : v.isSent = true := by
  cases v with
  | str | bool | int | float => rfl
  | _ => cases h

/-- What is sent is a list of what is written, or holds no items. -/
theorem sent_cases {v : Value} (h : v.isSent = true) :
    (∃ items, v = .list items ∧ ∀ i ∈ items, i.isSent = true) ∨
      v.isWritten = true ∧ Check.items? v = none := by
  cases v with
  | list items =>
      exact Or.inl ⟨items, rfl, fun i hi => isSent_of_isWritten (List.all_eq_true.mp h i hi)⟩
  | str | bool | int | float => exact Or.inr ⟨rfl, rfl⟩
  | _ => cases h

end Value

/-! ## The two settings

Limits are calm where the two settings cannot differ on account of them. -/

/-- A submission is checked laxly, under the rules of its schema. -/
def Setting.within (c : Config) : Setting := { strict? := some false, config := c }

/-- A field by itself is checked by what it declares. -/
def Setting.alone : Setting := {}

/-- The limits say nothing in which the two settings differ: none asks for strictness where it is
heeded, and none is a pattern where texts are stripped. -/
def Limit.Calm (strip heeds : Bool) (ls : List Limit) : Prop :=
  ∀ l ∈ ls, (heeds = true → l ≠ .strict true) ∧ (strip = true → l.isPattern = false)

/-- The two checks have one name, and treat what is sent alike under limits that are calm. -/
structure Check.Alike (strip heeds : Bool) (a b : Check) : Prop where
  label : ∀ ls, a.label ls = b.label ls
  run : ∀ {ls : List Limit} {v : Value}, Limit.Calm strip heeds ls → v.isSent = true →
    a.run ls v = b.run ls v

variable {c : Config} {strip heeds : Bool}

namespace Limit

theorem Calm.nil : Calm strip heeds [] := fun _ h => absurd h List.not_mem_nil

theorem Calm.append {ls ms : List Limit} (h : Calm strip heeds ls) (h' : Calm strip heeds ms) :
    Calm strip heeds (ls ++ ms) := fun l hl => (List.mem_append.mp hl).elim (h l) (h' l)

theorem Calm.weaken {ls : List Limit} {less : Bool} (h : Calm strip heeds ls)
    (himp : less = true → heeds = true) : Calm strip less ls :=
  fun l hl => ⟨fun hless => (h l hl).1 (himp hless), (h l hl).2⟩

theorem strict?_ne_some_true {ls : List Limit} (h : ∀ l ∈ ls, l ≠ .strict true) :
    (strict? ls).getD false = false := by
  cases hf : strict? ls with
  | none => rfl
  | some b =>
      unfold strict? last? at hf
      obtain ⟨l, hl, hp⟩ := List.exists_of_findSome?_eq_some hf
      cases l with
      | strict on =>
          cases hp
          cases b with
          | true => exact absurd rfl (h _ (List.mem_reverse.mp hl))
          | false => rfl
      | above | atLeast | below | atMost | multipleOf | minLength | maxLength | pattern => cases hp

theorem Calm.isStrict {ls : List Limit} (h : Calm strip true ls) :
    (Setting.within c).isStrict ls = Setting.alone.isStrict ls :=
  (strict?_ne_some_true fun l hl => (h l hl).1 rfl).symm

end Limit

namespace Check

/-! ## Texts and added limits

A check with limits of its own hands the others on.  Of these, only a pattern reads the value
as a text again. -/

theorem readText_of_isSent {v : Value} (h : v.isSent = true) (strict strict' : Bool) :
    readText strict v = readText strict' v := by
  cases v with
  | list | str | bool | int | float => rfl
  | _ => cases h

theorem runText_eq {s s' : Setting} {ls : List Limit} {v : Value}
    (hread : readText (s.isStrict ls) v = readText (s'.isStrict ls) v)
    (hstrip : s.config.strip = s'.config.strip) : runText s ls v = runText s' ls v := by
  unfold runText
  rw [hread, hstrip]

theorem apply_eq (sort : String) (input : Value) {l : Limit}
    (h : c.strip = true → l.isPattern = false) (k : Checked) :
    Limit.apply (.within c) sort input l k = Limit.apply .alone sort input l k := by
  cases l with
  | pattern p =>
      have hstrip : c.strip = false := by
        cases hs : c.strip with
        | true => exact absurd (h hs) Bool.noConfusion
        | false => rfl
      have htext : runText (.within c) [.pattern p] k.value = runText .alone [.pattern p] k.value :=
        runText_eq rfl hstrip
      simp only [Limit.apply]
      rw [htext]
  | strict | above | atLeast | below | atMost | multipleOf | minLength | maxLength => rfl

theorem applyAll_eq (input : Value) : ∀ {ls : List Limit} (sort : String),
    Limit.Calm c.strip heeds ls → ∀ k : Checked,
      Limit.applyAll (.within c) input sort ls k = Limit.applyAll .alone input sort ls k
  | [], _, _, _ => rfl
  | l :: ls, sort, h, k => by
      obtain ⟨hl, hrest⟩ := List.forall_mem_cons.mp h
      simp only [Limit.applyAll]
      rw [apply_eq sort input hl.2 k]
      cases Limit.apply .alone sort input l k with
      | error e => rfl
      | ok k' => exact applyAll_eq input _ hrest k'

/-- Two checks with limits of their own are alike when their own parts are. -/
theorem alike_ofOwn {sort : String} {knows : Limit → Bool} {label label' : List Limit → String}
    {own own' : List Limit → Value → Outcome} (hlabel : ∀ ls, label ls = label' ls)
    (hown : ∀ {ls : List Limit} {v : Value}, Limit.Calm c.strip heeds ls → v.isSent = true →
      own ls v = own' ls v) :
    Alike c.strip heeds (ofOwn (.within c) sort knows label own)
      (ofOwn .alone sort knows label' own') where
  label ls := by simp only [ofOwn, hlabel]
  run {ls v} hls hv := by
    have mine : Limit.Calm c.strip heeds (Limit.split knows ls).1 :=
      fun l hl => hls l (Limit.mem_of_mem_split (Or.inl hl))
    have later : Limit.Calm c.strip heeds (Limit.split knows ls).2 :=
      fun l hl => hls l (Limit.mem_of_mem_split (Or.inr hl))
    simp only [ofOwn]
    rw [hown mine hv]
    cases own' (Limit.split knows ls).1 v with
    | error e => rfl
    | ok k => exact applyAll_eq v sort later k

theorem Alike.nullable {a b : Check} (h : Alike strip heeds a b) :
    Alike strip heeds a.nullable b.nullable where
  label ls := by simp only [Check.nullable, h.label]
  run hls hv := by
    simp only [Check.nullable]
    split
    · rfl
    · exact h.run hls hv

theorem Alike.weaken {a b : Check} {more : Bool} (h : Alike strip heeds a b)
    (himp : heeds = true → more = true) : Alike strip more a b :=
  ⟨h.label, fun hls hv => h.run (hls.weaken himp) hv⟩

/-! ## Single values

Of the single values all but texts take notice of strictness. -/

theorem alike_text (hstrip : c.strip = false) :
    Alike c.strip heeds (text (.within c)) (text .alone) := by
  refine alike_ofOwn (fun ls => ?_) fun _ hv => runText_eq (readText_of_isSent hv _ _) hstrip
  show (if c.strip || _ then _ else _) = _
  rw [hstrip]
  rfl

theorem alike_integer : Alike c.strip true (integer (.within c)) (integer .alone) := by
  refine alike_ofOwn (fun _ => rfl) fun hls _ => ?_
  unfold runInteger
  rw [hls.isStrict]

theorem alike_float : Alike c.strip true (float (.within c)) (float .alone) := by
  refine alike_ofOwn (fun _ => rfl) fun hls _ => ?_
  unfold runFloat
  rw [hls.isStrict]

theorem alike_flag : Alike c.strip true (flag (.within c)) (flag .alone) := by
  refine alike_ofOwn (fun _ => rfl) fun hls _ => ?_
  unfold runFlag
  rw [hls.isStrict]

theorem alike_date : Alike c.strip true (date (.within c)) (date .alone) := by
  refine alike_ofOwn (fun _ => rfl) fun hls _ => ?_
  unfold runDate
  rw [hls.isStrict]

theorem alike_option (e : Enumeration) :
    Alike c.strip true (option e (.within c)) (option e .alone) := by
  refine alike_ofOwn (fun _ => rfl) fun hls _ => ?_
  unfold runOption
  rw [hls.isStrict]

theorem alike_any : Alike c.strip heeds (any (.within c)) (any .alone) :=
  alike_ofOwn (fun _ => rfl) fun _ _ => rfl

theorem alike_none : Alike c.strip heeds (Check.none (.within c)) (Check.none .alone) :=
  alike_ofOwn (fun _ => rfl) fun _ _ => rfl

theorem alike_literal (values : List Value) :
    Alike c.strip heeds (literal values (.within c)) (literal values .alone) :=
  alike_ofOwn (fun _ => rfl) fun _ _ => rfl

/-! ## Collections

A list is read alike by both settings, since what is sent is a list or holds no
items; any other kind of collection takes notice of strictness. -/

theorem readItems_list {v : Value} (h : v.isSent = true) (strict strict' : Bool) :
    readItems strict .list v = readItems strict' .list v := by
  cases v with
  | list => rfl
  | str | bool | int | float => cases strict <;> cases strict' <;> rfl
  | _ => cases h

theorem isSent_of_readItems {strict : Bool} {kind : Counted} {v : Value} {items : List Value}
    {e : Exactness} (hv : v.isSent = true) (h : readItems strict kind v = .ok (items, e)) :
    ∀ i ∈ items, i.isSent = true := by
  unfold readItems at h
  rcases Value.sent_cases hv with ⟨sent, rfl, hsent⟩ | ⟨hw, hnone⟩
  · split at h
    · cases h
      exact hsent
    · split at h
      · cases h
      · cases h
        exact hsent
  · rw [hnone] at h
    split at h
    · cases h
      intro i hi
      exact absurd hi List.not_mem_nil
    · split at h <;> cases h

theorem outcomesAt_congr {check check' : Value → Outcome} {items : List Value}
    (h : ∀ v ∈ items, check v = check' v) (first : Nat) :
    outcomesAt check first items = outcomesAt check' first items := by
  induction items generalizing first with
  | nil => rfl
  | cons v vs ih =>
      obtain ⟨hv, hvs⟩ := List.forall_mem_cons.mp h
      simp only [outcomesAt]
      rw [hv, ih hvs]

theorem runItems_congr {check check' : Value → Outcome} {items : List Value}
    (h : ∀ v ∈ items, check v = check' v) (most : Option Nat) (whole : Value) :
    runItems check most whole items = runItems check' most whole items := by
  unfold runItems
  rw [outcomesAt_congr h 0]
  cases most with
  | none => rfl
  | some n =>
      have htake : outcomesAt check 0 (items.take (n + 1)) = outcomesAt check' 0 (items.take (n + 1)) :=
        outcomesAt_congr (fun v hv => h v (List.mem_of_mem_take hv)) 0
      simp only [htake]

theorem runMembers_congr {kind : Counted} {check check' : Value → Outcome} {most : Option Nat}
    {whole : Value} {items : List Value} (h : ∀ v ∈ items, check v = check' v)
    (passed : List Checked) (faults : List Fault) (first : Nat) :
    runMembers kind check most whole passed faults first items
      = runMembers kind check' most whole passed faults first items := by
  induction items generalizing passed faults first with
  | nil => rfl
  | cons v vs ih =>
      obtain ⟨hv, hvs⟩ := List.forall_mem_cons.mp h
      simp only [runMembers]
      rw [hv]
      simp only [ih hvs]

theorem outcomesOf_congr (whole : Value) {checks checks' : List Check} {items : List Value}
    (h : List.Forall₂ (Alike strip heeds) checks checks') (hitems : ∀ i ∈ items, i.isSent = true)
    (first : Nat) : outcomesOf whole first checks items = outcomesOf whole first checks' items := by
  induction h generalizing items first with
  | nil => rfl
  | cons hab _ ih =>
      cases items with
      | nil =>
          simp only [outcomesOf]
          rw [ih hitems]
      | cons v vs =>
          obtain ⟨hv, hvs⟩ := List.forall_mem_cons.mp hitems
          simp only [outcomesOf]
          rw [hab.run Limit.Calm.nil hv, ih hvs]

/-- The items of a collection are checked alike when their check is. -/
theorem runCollection_eq {kind : Counted} {item item' : Check} {s s' : Setting} {ls : List Limit}
    {v : Value} (h : Alike strip heeds item item')
    (hread : readItems (s.isStrict ls) kind v = readItems (s'.isStrict ls) kind v)
    (hv : v.isSent = true) :
    runCollection kind item s ls v = runCollection kind item' s' ls v := by
  unfold runCollection
  rw [hread]
  split
  · rfl
  · rename_i items e heq
    have hitems : ∀ i ∈ items, item.run [] i = item'.run [] i := by
      intro i hi
      exact h.run Limit.Calm.nil (isSent_of_readItems hv heq i hi)
    cases kind with
    | set | frozenset =>
        dsimp only
        rw [runMembers_congr hitems]
    | tuple =>
        dsimp only
        rw [outcomesAt_congr hitems]
    | list | dictionary | value =>
        dsimp only
        rw [runItems_congr hitems]

theorem alike_collection (kind : Counted) {item item' : Check} (h : Alike c.strip heeds item item') :
    Alike c.strip true (collection kind item (.within c)) (collection kind item' .alone) := by
  refine alike_ofOwn (fun _ => by rw [h.label]) fun {ls v} hls hv => ?_
  refine runCollection_eq h ?_ hv
  rw [hls.isStrict]

theorem alike_list {more : Bool} {item item' : Check} (h : Alike c.strip heeds item item') :
    Alike c.strip more (collection .list item (.within c)) (collection .list item' .alone) :=
  alike_ofOwn (fun _ => by rw [h.label]) fun _ hv =>
    runCollection_eq h (readItems_list hv _ _) hv

theorem alike_freeList : Alike c.strip heeds (freeList (.within c)) (freeList .alone) := by
  refine alike_ofOwn (fun _ => rfl) fun {ls v} _ hv => ?_
  unfold runFreeList
  rw [readItems_list hv _ (Setting.alone.isStrict ls)]

theorem alike_sequence {more : Bool} {item item' : Check} (h : Alike c.strip heeds item item') :
    Alike c.strip more (sequence item (.within c)) (sequence item' .alone) := by
  refine alike_ofOwn (fun _ => by rw [h.label]) fun {ls v} _ hv => ?_
  rcases Value.sent_cases hv with ⟨items, rfl, hitems⟩ | ⟨hw, _⟩
  · simp only [runSequence]
    rw [outcomesAt_congr fun i hi => h.run Limit.Calm.nil (hitems i hi)]
  · cases v with
    | str | bool | int | float => rfl
    | _ => cases hw

theorem alike_freeSequence :
    Alike c.strip heeds (freeSequence (.within c)) (freeSequence .alone) :=
  alike_ofOwn (fun _ => rfl) fun _ _ => rfl

theorem labels_eq {checks checks' : List Check} (h : List.Forall₂ (Alike strip heeds) checks checks') :
    checks.map (fun k => k.label []) = checks'.map fun k => k.label [] := by
  induction h with
  | nil => rfl
  | cons hab _ ih => rw [List.map_cons, List.map_cons, hab.label, ih]

theorem alike_positions {checks checks' : List Check}
    (h : List.Forall₂ (Alike c.strip heeds) checks checks') :
    Alike c.strip true (positions checks (.within c)) (positions checks' .alone) := by
  refine alike_ofOwn (fun _ => by rw [labels_eq h]) fun {ls v} hls hv => ?_
  unfold runPositions
  rw [hls.isStrict, h.length_eq]
  split
  · rfl
  · rename_i items e heq
    dsimp only
    rw [outcomesOf_congr v h (isSent_of_readItems hv heq)]

/-! ## Mappings, records and choices -/

theorem alike_dict {more less : Bool} {key key' value value' : Check}
    (hk : Alike c.strip heeds key key') (hv : Alike c.strip less value value') :
    Alike c.strip more (dict key value (.within c)) (dict key' value' .alone) := by
  refine alike_ofOwn (fun _ => by rw [hk.label, hv.label]) fun {ls v} _ hsent => ?_
  cases v with
  | list | str | bool | int | float => rfl
  | _ => cases hsent

theorem alike_record (name : String) (rules : Config) (fields fields' : List FieldCheck) :
    Alike c.strip heeds (record name rules fields (.within c)) (record name rules fields' .alone) := by
  refine alike_ofOwn (fun _ => rfl) fun {ls v} _ hsent => ?_
  cases v with
  | list | str | bool | int | float => rfl
  | _ => cases hsent

theorem runAlternatives_congr {v : Value} {options options' : List Check} (hv : v.isSent = true)
    (h : List.Forall₂ (Alike strip heeds) options options') (best : Option Checked)
    (faults : List Fault) :
    runAlternatives v best faults options = runAlternatives v best faults options' := by
  induction h generalizing best faults with
  | nil => rfl
  | cons hab _ ih =>
      simp only [runAlternatives]
      rw [hab.label, hab.run Limit.Calm.nil hv]
      simp only [ih]

theorem alike_alternatives {more : Bool} {options options' : List Check}
    (h : List.Forall₂ (Alike c.strip heeds) options options') :
    Alike c.strip more (alternatives options (.within c)) (alternatives options' .alone) :=
  alike_ofOwn (fun _ => by rw [labels_eq h]) fun _ hv => runAlternatives_congr hv h Option.none []

end Check

/-! ## Types -/

namespace Ty

mutual

/-- The type takes notice of strictness when it reads what is sent.  A list and a text do not:
what is sent is a list or a text as it is. -/
def heedsStrict : Ty → Bool
  | .int | .float | .bool | .date | .enumeration _ | .positions _ | .bare .tuple => true
  | .many c _ => c != .list && c != .sequence
  | .optional t | .limited t _ => heedsStrict t
  | .choice _ ts => anyHeedsStrict ts
  | _ => false

/-- One of some types takes notice of strictness. -/
def anyHeedsStrict : List Ty → Bool
  | [] => false
  | t :: ts => heedsStrict t || anyHeedsStrict ts

end

mutual

/-- Some part of the type is declared strict and takes notice of it. -/
def asksStrict : Ty → Bool
  | .many _ t | .optional t => asksStrict t
  | .positions ts | .choice _ ts => anyAsksStrict ts
  | .dict k v => asksStrict k || asksStrict v
  | .limited t l => asksStrict t || (heedsStrict t && l.strict == some true)
  | _ => false

/-- Some part of one of some types is declared strict and takes notice of it. -/
def anyAsksStrict : List Ty → Bool
  | [] => false
  | t :: ts => asksStrict t || anyAsksStrict ts

end

mutual

/-- Some part of the type is a text, or is limited by a pattern. -/
def readsText : Ty → Bool
  | .str => true
  | .many _ t | .optional t => readsText t
  | .positions ts | .choice _ ts => anyReadsText ts
  | .dict k v => readsText k || readsText v
  | .limited t l => readsText t || l.pattern.isSome
  | _ => false

/-- Some part of one of some types is a text, or is limited by a pattern. -/
def anyReadsText : List Ty → Bool
  | [] => false
  | t :: ts => readsText t || anyReadsText ts

end

end Ty

theorem Limits.calm {l : Limits} (hstrict : heeds = true → l.strict ≠ some true)
    (hpattern : strip = true → l.pattern = none) : Limit.Calm strip heeds l.toList := by
  intro m hm
  constructor
  · rintro hheeds rfl
    refine hstrict hheeds ?_
    simpa [Limits.toList] using hm
  · intro hstrip
    have hnone := hpattern hstrip
    cases m with
    | pattern p => simp [Limits.toList, hnone] at hm
    | strict | above | atLeast | below | atMost | multipleOf | minLength | maxLength => rfl

namespace Reading

/-- The two readings are alike in all their parts. -/
structure Alike (strip heeds : Bool) (r r' : Reading) : Prop where
  core : Check.Alike strip heeds r.core r'.core
  own : r.own = r'.own
  calm : Limit.Calm strip heeds r.own
  options : List.Forall₂ (fun o o' => o.1 = o'.1 ∧ Check.Alike strip heeds o.2 o'.2)
    r.options r'.options
  nullable : r.nullable = r'.nullable

theorem Alike.run_under {r r' : Reading} (h : Alike strip heeds r r') {before : List Limit}
    (hb : Limit.Calm strip heeds before) {v : Value} (hv : v.isSent = true) :
    (r.under before).run [] v = (r'.under before).run [] v := by
  simp only [under]
  rw [h.own]
  refine h.core.run ((hb.append ?_).append Limit.Calm.nil) hv
  rw [← h.own]
  exact h.calm

theorem Alike.check {r r' : Reading} (h : Alike strip heeds r r') :
    Check.Alike strip heeds r.check r'.check where
  label ls := by
    simp only [Reading.check, under]
    rw [h.own, h.core.label]
  run {ls v} hls hv := by
    simp only [Reading.check, under]
    rw [h.own]
    refine h.core.run ((Limit.Calm.nil.append ?_).append hls) hv
    rw [← h.own]
    exact h.calm

theorem alike_alone (t : Ty) {k k' : Check} (h : Check.Alike strip heeds k k') :
    Alike strip heeds (alone t k) (alone t k') where
  core := h
  own := rfl
  calm := Limit.Calm.nil
  options := List.Forall₂.cons ⟨rfl, h⟩ List.Forall₂.nil
  nullable := rfl

/-- Alternatives are alike when their types are the same and their checks alike. -/
abbrev OptionsAlike (strip heeds : Bool) (os os' : List (Ty × Check)) : Prop :=
  List.Forall₂ (fun o o' => o.1 = o'.1 ∧ Check.Alike strip heeds o.2 o'.2) os os'

theorem OptionsAlike.distinct {os os' : List (Ty × Check)} (h : OptionsAlike strip heeds os os') :
    OptionsAlike strip heeds (distinctOptions os) (distinctOptions os') :=
  distinctBy_forall₂ (fun {_ _ _ _} hab hab' => by rw [hab.1, hab'.1]) h

theorem OptionsAlike.checks {os os' : List (Ty × Check)} (h : OptionsAlike strip heeds os os') :
    List.Forall₂ (Check.Alike strip heeds) (os.map (·.2)) (os'.map (·.2)) := by
  induction h with
  | nil => exact List.Forall₂.nil
  | cons hab _ ih => exact List.Forall₂.cons hab.2 ih

theorem OptionsAlike.weaken {more : Bool} {os os' : List (Ty × Check)}
    (h : OptionsAlike strip heeds os os') (himp : heeds = true → more = true) :
    OptionsAlike strip more os os' := by
  induction h with
  | nil => exact List.Forall₂.nil
  | cons hab _ ih => exact List.Forall₂.cons ⟨hab.1, hab.2.weaken himp⟩ ih

theorem alike_among {os os' : List (Ty × Check)} (h : OptionsAlike c.strip heeds os os')
    (nullable : Bool) :
    Alike c.strip heeds (among os nullable (.within c)) (among os' nullable .alone) := by
  have hdistinct := h.distinct
  refine ⟨?_, rfl, Limit.Calm.nil, hdistinct, rfl⟩
  unfold among
  dsimp only
  generalize distinctOptions os = ds at hdistinct
  generalize distinctOptions os' = ds' at hdistinct
  cases hdistinct with
  | nil => exact Check.alike_none
  | cons hab hrest =>
      cases hrest with
      | nil =>
          dsimp only
          split
          · exact hab.2.nullable
          · exact hab.2
      | cons hab' hrest =>
          have hall : Check.Alike c.strip heeds _ _ := Check.alike_alternatives
            (OptionsAlike.checks (List.Forall₂.cons hab (List.Forall₂.cons hab' hrest)))
          dsimp only
          split
          · exact hall.nullable
          · exact hall

end Reading

namespace Ty

mutual

/-- On what is sent, a type of which no part is declared strict is read in one way within a schema
and alone, if the schema does not strip texts or the type has none. -/
theorem reading_alike : ∀ {t : Ty}, t.asksStrict = false →
    (c.strip = true → t.readsText = false) →
    Reading.Alike c.strip t.heedsStrict (t.reading (.within c)) (t.reading .alone)
  | .any, _, _ => Reading.alike_alone _ Check.alike_any
  | .none, _, _ => ⟨Check.alike_none, rfl, Limit.Calm.nil, List.Forall₂.nil, rfl⟩
  | .str, _, ht => by
      refine Reading.alike_alone _ (Check.alike_text ?_)
      cases hs : c.strip with
      | false => rfl
      | true => exact absurd (ht hs) Bool.noConfusion
  | .int, _, _ => Reading.alike_alone _ Check.alike_integer
  | .float, _, _ => Reading.alike_alone _ Check.alike_float
  | .bool, _, _ => Reading.alike_alone _ Check.alike_flag
  | .date, _, _ => Reading.alike_alone _ Check.alike_date
  | .bare k, _, _ => by
      cases k with
      | tuple =>
          have item : Check.Alike c.strip true (Check.any (.within c)) (Check.any .alone) := Check.alike_any
          exact Reading.alike_alone _ (Check.alike_collection .tuple item)
      | dict =>
          have item : Check.Alike c.strip true (Check.any (.within c)) (Check.any .alone) := Check.alike_any
          exact Reading.alike_alone _ (Check.alike_dict item item)
      | list | genericList => exact Reading.alike_alone _ Check.alike_freeList
  | .many k t, hs, ht => by
      have item := (reading_alike (t := t) hs ht).check
      cases k with
      | sequence =>
          by_cases hany : t = .any
          · subst hany
            exact Reading.alike_alone _ Check.alike_freeSequence
          · rw [reading, reading]
            · exact Reading.alike_alone _ (Check.alike_sequence item)
            · exact hany
            · exact hany
      | list =>
          simp only [reading]
          refine Reading.alike_alone _ ?_
          split
          · exact Check.alike_freeList
          · exact Check.alike_list item
      | set | frozenset | tuple => exact Reading.alike_alone _ (Check.alike_collection _ item)
  | .positions ts, hs, ht =>
      Reading.alike_alone _ (Check.alike_positions (checks_alike hs ht).1)
  | .dict k v, hs, ht => by
      obtain ⟨hk, hv⟩ := Bool.or_eq_false_iff.mp hs
      have key := reading_alike hk fun h => (Bool.or_eq_false_iff.mp (ht h)).1
      have value := reading_alike hv fun h => (Bool.or_eq_false_iff.mp (ht h)).2
      exact Reading.alike_alone _ (Check.alike_dict key.check value.check)
  | .optional t, hs, ht => Reading.alike_among (reading_alike (t := t) hs ht).options true
  | .choice _ ts, hs, ht => by
      obtain ⟨_, options, nullable⟩ := checks_alike (show anyAsksStrict ts = false from hs) ht
      simp only [reading]
      rw [nullable]
      exact Reading.alike_among options _
  | .literal values, _, _ => Reading.alike_alone _ (Check.alike_literal values)
  | .enumeration e, _, _ => Reading.alike_alone _ (Check.alike_option e)
  | .limited t l, hs, ht => by
      obtain ⟨hs, hl⟩ := Bool.or_eq_false_iff.mp hs
      have inner := reading_alike hs fun h => (Bool.or_eq_false_iff.mp (ht h)).1
      have limits : Limit.Calm c.strip t.heedsStrict l.toList := by
        apply Limits.calm
        · intro hheeds hstrict
          rw [hheeds, hstrict] at hl
          exact absurd hl (by decide)
        · intro h
          exact Option.not_isSome_iff_eq_none.mp (Bool.eq_false_iff.mp (Bool.or_eq_false_iff.mp (ht h)).2)
      have whole : Reading.Alike c.strip t.heedsStrict
          { t.reading (.within c) with own := (t.reading (.within c)).own ++ l.toList }
          { t.reading .alone with own := (t.reading .alone).own ++ l.toList } :=
        ⟨inner.core, by rw [inner.own], inner.calm.append limits, inner.options, inner.nullable⟩
      exact ⟨whole.core, whole.own, whole.calm,
        List.Forall₂.cons ⟨rfl, whole.check⟩ List.Forall₂.nil, rfl⟩
  | .record ⟨name, fields, rules⟩, _, _ =>
      Reading.alike_alone _ (Check.alike_record name rules _ _)

theorem checks_alike : ∀ {ts : List Ty}, anyAsksStrict ts = false →
    (c.strip = true → anyReadsText ts = false) →
    List.Forall₂ (Check.Alike c.strip true) (checks ts (.within c)) (checks ts .alone) ∧
    Reading.OptionsAlike c.strip (anyHeedsStrict ts) (allOptions ts (.within c))
      (allOptions ts .alone) ∧
    anyNullable ts (.within c) = anyNullable ts .alone
  | [], _, _ => ⟨List.Forall₂.nil, List.Forall₂.nil, rfl⟩
  | t :: ts, hs, ht => by
      obtain ⟨hs, hrest⟩ := Bool.or_eq_false_iff.mp hs
      have first := reading_alike hs fun h => (Bool.or_eq_false_iff.mp (ht h)).1
      obtain ⟨checks, options, nullable⟩ :=
        checks_alike hrest fun h => (Bool.or_eq_false_iff.mp (ht h)).2
      refine ⟨List.Forall₂.cons (first.check.weaken fun _ => rfl) checks, ?_, ?_⟩
      · refine List.rel_append ?_ ?_
        · exact Reading.OptionsAlike.weaken first.options fun h => Bool.or_eq_true_iff.mpr (Or.inl h)
        · exact options.weaken fun h => Bool.or_eq_true_iff.mpr (Or.inr h)
      · simp only [anyNullable]
        rw [first.nullable, nullable]

end

end Ty

/-! ## Fields -/

namespace Field

/-- No part of the field is declared strict and takes notice of it, and the schema does not strip
what the field reads as text. -/
def readsAlike (c : Config) (f : Field) : Bool :=
  !(Ty.limited f.type f.limits).asksStrict
    && (!c.strip || !(Ty.limited f.type f.limits).readsText)

/-- On what is sent, such a field is checked in one way within its schema and alone. -/
theorem checkIn_eq_checkAlone {f : Field} (h : f.readsAlike c = true) {v : Value}
    (hv : v.isSent = true) : f.checkIn (some false) c v = f.checkAlone v := by
  obtain ⟨hstrict, htext⟩ := Bool.and_eq_true_iff.mp h
  obtain ⟨htype, hlimits⟩ := Bool.or_eq_false_iff.mp (Bool.not_eq_true' _ ▸ hstrict)
  have hstrip : c.strip = true → f.type.readsText = false ∧ f.limits.pattern = none := by
    intro hc
    have htext : (Ty.limited f.type f.limits).readsText = false := by
      rw [hc] at htext
      simpa using htext
    obtain ⟨ht, hp⟩ := Bool.or_eq_false_iff.mp htext
    exact ⟨ht, Option.not_isSome_iff_eq_none.mp (Bool.eq_false_iff.mp hp)⟩
  have hcalm : Limit.Calm c.strip f.type.heedsStrict f.limits.toList := by
    apply Limits.calm
    · intro hheeds hs
      rw [hheeds, hs] at hlimits
      exact absurd hlimits (by decide)
    · intro hc
      exact (hstrip hc).2
  exact (Ty.reading_alike htype fun hc => (hstrip hc).1).run_under hcalm hv

end Field

end WebForm
