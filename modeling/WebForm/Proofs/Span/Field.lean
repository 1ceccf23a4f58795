/-
The limits on the length that an element shows, and those that a check keeps.

A limit on the length of a field has two uses.  The element of the field shows it, so that a
browser can hold a user to it, and the check of the field tries it on what was sent.  The
element shows the last of several limits of one sort, and the check tries just these.  What
the check tries them on need not be the text that was typed: it is a collection of one where
the field takes many values, and a shorter text where texts are stripped.

`shown_lengths_allow` says what remains.  For a text t that is sent for the field, and of
which the report says nothing,

    the element shows minLength = m   →  m ≤ t.length
    the element shows maxLength = n   →  t.length ≤ n     (one value, and texts are not stripped)

so that what a browser refuses for being too short is never accepted.  Both lines say in
addition that the element shows a limit exactly where the field has one.

The assumptions exclude other ways for a text to be accepted.  The names of fields are
distinct, and the name that the field is looked for first is the one that its element has;
else the report at that name is about something else.  No other limits are declared for the
element, and the enumerations of the type are clear.  The text is not empty, because an empty
one may count as not sent.

The greatest length is shown for every type that has one, also where it does not bound the
text, and the last theorem has examples of that: an element that shows a greatest length of one,
and a longer text of which nothing is said.
-/
import WebForm.Proofs.Declared
import WebForm.Proofs.Span.Type

namespace WebForm

open Outcome Submission

/-! ## What an element shows

Two attributes may write under one name, as the input type and the type do.  For all other
names an element has what its definition writes, and a limit is written where nothing is
declared. -/

namespace Definition

/-- The names under which the element of a field writes something else than an attribute of that
name. -/
def sharedNames : List String :=
  ["name", "id", "type", Element.attributeFor "endpoint"] ++ Element.textDefaults.map (·.1)

variable {lang : Option String} {key : String}

theorem eq_of_textOf? (hkey : key ∉ sharedNames) {a : String × Value} {p : String × Phrase}
    (h : textOf? lang a = some p) (hp : p.1 = key) : a.1 = key := by
  have shared : ∀ name ∈ sharedNames, name ≠ key := fun name hname heq => hkey (heq ▸ hname)
  obtain ⟨k, v⟩ := a
  unfold textOf? at h
  dsimp only at h
  split at h
  · cases h
  · split at h
    · cases h
    · cases h
    · cases h
    · obtain ⟨_, _, rfl⟩ := Option.map_eq_some_iff.mp h
      exact absurd hp (shared (Element.attributeFor "placeholder") (by decide))
    · obtain ⟨_, _, rfl⟩ := Option.map_eq_some_iff.mp h
      exact absurd hp (shared (Element.attributeFor "endpoint") (by decide))
    · cases h
      exact absurd hp (shared "value" (by decide))
    · cases h
      exact absurd hp (shared "type" (by decide))
    · unfold ordinaryText? at h
      split at h
      · cases h
      · split at h
        · cases h
        · cases h
          exact hp

theorem textOf?_of_mem_ofLimits {ls : List Limit} {a : String × Value} (h : a ∈ ofLimits ls) :
    textOf? lang a = some (a.1, .ofText a.2.declaredText) := by
  obtain ⟨p, hp, ha⟩ := List.mem_filterMap.mp h
  obtain ⟨v, hv, rfl⟩ := Option.map_eq_some_iff.mp ha
  simp only [List.mem_cons, List.not_mem_nil, or_false] at hp
  rcases hp with rfl | rfl | rfl <;> obtain ⟨n, _, rfl⟩ := Option.map_eq_some_iff.mp hv <;> rfl

theorem get?_ofLimits (ls : List Limit) :
    Pairs.get? (ofLimits ls) "minLength" = (Limit.least? ls).map (fun m : Nat => .int m) ∧
      Pairs.get? (ofLimits ls) "maxLength" = (Limit.most? ls).map fun n : Nat => .int n := by
  unfold ofLimits
  cases Limit.least? ls <;> cases Limit.most? ls <;> cases Limit.pattern? ls <;> exact ⟨rfl, rfl⟩

theorem textUnder?_ofField (hkey : key ∉ sharedNames) {f : Field}
    (hundeclared : Pairs.has (f.declared.getD []) key = false) (c : Config) :
    (ofField c f).textUnder? lang key
      = (Pairs.get? (ofLimits f.allLimits) key).map fun v => .ofText v.declaredText := by
  have hdeclared : ((f.declared.getD []).filterMap (textOf? lang)).reverse.find?
      (fun p => p.1 = key) = none := by
    rw [List.find?_eq_none]
    intro p hp
    obtain ⟨a, ha, hwritten⟩ := List.mem_filterMap.mp (List.mem_reverse.mp hp)
    intro hname
    have hmem : key ∈ Pairs.keys (f.declared.getD []) :=
      List.mem_map.mpr ⟨a, ha, eq_of_textOf? hkey hwritten (of_decide_eq_true hname)⟩
    rw [Pairs.has_iff_mem_keys.mpr hmem] at hundeclared
    cases hundeclared
  have hmissing : ∀ take : String × Value → Bool,
      ((ofLimits f.allLimits).filter take).filterMap (textOf? lang)
        = Pairs.mapValues (fun v => .ofText v.declaredText) ((ofLimits f.allLimits).filter take) := by
    intro take
    rw [Pairs.mapValues, ← List.filterMap_eq_map']
    exact List.filterMap_congr fun a ha => textOf?_of_mem_ofLimits (List.mem_filter.mp ha).1
  have hkeys : (Pairs.keys (ofLimits f.allLimits)).Nodup := by
    unfold ofLimits
    rw [Pairs.keys_filterMap]
    have names : ["minLength", "maxLength", "pattern"].Nodup := by decide
    exact names.sublist (List.filter_sublist.map _)
  rw [textUnder?, texts, ofField, addMissing, List.filterMap_append, List.reverse_append,
    List.find?_append, hdeclared, Option.or_none, hmissing, Pairs.find?_reverse, Pairs.get?_mapValues,
    Pairs.get?_filter (fun k => !Pairs.has (f.declared.getD []) k) (by rw [hundeclared]; rfl)]
  rw [Pairs.keys, Pairs.mapValues, List.map_map]
  exact hkeys.sublist (List.filter_sublist.map _)

end Definition

namespace Element

variable {idSuffix : String} {lang : Option String} {d : Definition} {e : Element} {key : String}

theorem get?_attributes (h : ofDefinition idSuffix lang d = .ok e)
    (hkey : key ∉ Definition.sharedNames) : Pairs.get? e.attributes key = d.textUnder? lang key := by
  have own : Pairs.get? [("name", Phrase.ofText d.name), ("id", .ofText (d.name ++ "_" ++ idSuffix))]
      key = none := by
    rw [Pairs.get?_eq_none_iff]
    exact fun hmem => hkey ((by decide : ["name", "id"] ⊆ Definition.sharedNames) hmem)
  have defaults : ∀ take : String × String → Bool,
      Pairs.get? ((textDefaults.filter take).map fun d => (d.1, Phrase.ofText d.2)) key = none := by
    intro take
    rw [Pairs.get?_eq_none_iff, Pairs.keys, List.map_map]
    intro hmem
    obtain ⟨p, hp, rfl⟩ := List.mem_map.mp hmem
    exact hkey (List.mem_append_right _ (List.mem_map.mpr ⟨p, (List.mem_filter.mp hp).1, rfl⟩))
  rw [attributes_of_ofDefinition h, complete_eq, Pairs.get?_append, Pairs.get?_setAll, own,
    Option.or_none]
  split
  · rw [defaults, Option.or_none]
    rfl
  · exact Option.or_none

/-- The text of a limit on the length, as an attribute. -/
def lengthText (n : Nat) : Phrase := .ofText (Value.intText n)

/-- An element shows the limits on the length that count, unless its field declares others. -/
theorem get?_attributes_ofField {f : Field} {c : Config}
    (h : ofDefinition idSuffix lang (.ofField c f) = .ok e)
    (hleast : Pairs.has (f.declared.getD []) "minLength" = false)
    (hmost : Pairs.has (f.declared.getD []) "maxLength" = false) :
    Pairs.get? e.attributes "minLength" = (Limit.least? f.allLimits).map lengthText ∧
      Pairs.get? e.attributes "maxLength" = (Limit.most? f.allLimits).map lengthText := by
  obtain ⟨hmin, hmax⟩ := Definition.get?_ofLimits f.allLimits
  rw [get?_attributes h (by decide), get?_attributes h (by decide),
    Definition.textUnder?_ofField (by decide) hleast, Definition.textUnder?_ofField (by decide) hmost,
    hmin, hmax, Option.map_map, Option.map_map]
  constructor <;> rfl

end Element

/-! ## What a field keeps

The check of a field sees the value that the field holds of the text, and this was read once
already: for a field of one value it is the text or what was read of it, and else a list of
that. -/

namespace Check

variable {b : Span} {v : Value}

theorem KeepsIn.of_isUnder {c basic : Check} {limits : List Limit} (h : basic.KeepsIn b v)
    (hunder : c.IsUnder basic limits) (hv : v ≠ .null) : c.KeepsIn b v := by
  intro ls r hr
  rw [hunder.run_eq ls hv] at hr
  obtain ⟨hvalue, hfits⟩ := h _ r hr
  exact ⟨hvalue, hfits.of_append⟩

end Check

namespace Ty

variable {b : Span} {s : Setting} {t : String}

theorem root_keepsIn {u : Ty} (h : u.isRoot = true) (hmulti : u.kind.multi = false) (hs : s.IsLax)
    (hb : b.Bears s) {v : Value} (hv : v.isWritten = true) : (u.reading s).core.KeepsIn b v := by
  have hconverted := (isConverted_of_isRoot h hmulti).1
  cases u with
  | bool => exact Check.keepsIn_flag hs hb
  | int => exact Check.keepsIn_integer hs hb hv
  | float => exact Check.keepsIn_float hs hb
  | _ => cases hconverted

theorem reading_keepsIn_coerce {u : Ty} (hclear : u.IsClear) (hmulti : u.kind.multi = false)
    (hs : s.IsLax) (hb : b.Bears s) (ht : b.Has t.length) :
    (u.reading s).core.KeepsIn b (coerce u.kind.scalar (.str t)) := by
  cases hread : u.kind.isRead with
  | false =>
      rw [coerce_of_not_isConverted (Bool.or_eq_false_iff.mp hread).2]
      exact (reading_keepsIn hs hb ht u hclear).core
  | true =>
      obtain ⟨root, hroot, hkind, limits, hunder⟩ := (reading_hasRoots u s).core hread
      have hkind : root.kind = u.kind := hkind
      rw [← hkind] at hmulti ⊢
      have hwritten := isWritten_coerce root.kind.scalar t
      refine (root_keepsIn hroot hmulti hs hb hwritten).of_isUnder hunder fun hnull => ?_
      rw [hnull] at hwritten
      cases hwritten

theorem reading_keepsIn_list {u : Ty} (hmulti : u.kind.multi = true) (hs : s.IsLax) (v : Value) :
    (u.reading s).core.KeepsIn ⟨0, 1⟩ (.list [v]) := by
  have hread : u.kind.isRead = true := Bool.or_eq_true_iff.mpr (Or.inl hmulti)
  obtain ⟨root, hroot, hkind, limits, hunder⟩ := (reading_hasRoots u s).core hread
  have hkind : root.kind = u.kind := hkind
  rw [← hkind] at hmulti
  exact (root_keepsIn_list hroot hmulti hs v).of_isUnder hunder fun hnull => nomatch hnull

end Ty

namespace Field

variable {f : Field} {c : Config} {t : String}

theorem fits_of_checkIn {b : Span} {v : Value} {q : Checked}
    (h : (f.type.reading { strict? := some false, config := c }).core.KeepsIn b v)
    (hq : f.checkIn (some false) c v = .ok q) : b.Fits f.allLimits := by
  have hfits := (h _ q hq).2
  rw [Ty.own_reading, List.append_nil] at hfits
  exact hfits

theorem holds?_asList (hmulti : f.type.kind.multi = true) (t : String) :
    f.holds? (.list [.str t]) = some (.list [coerce f.type.kind.scalar (.str t)]) := by
  have hread : readField? f [.str t] = some (.list [coerce f.type.kind.scalar (.str t)]) := by
    unfold readField?
    rw [hmulti]
    rfl
  show (readField? f [.str t]).map collapseValue = _
  rw [hread, Option.map_some, collapseValue, if_neg]
  intro hboth
  obtain ⟨hunset, hset⟩ := Bool.and_eq_true_iff.mp hboth
  have hfalse := List.mem_singleton.mp (List.contains_iff_mem.mp hunset)
  have htrue := List.mem_singleton.mp (List.contains_iff_mem.mp hset)
  cases hfalse.trans htrue.symm

end Field

namespace Schema

variable {schema : Schema} {s : Submission} {f : Field} {r : Report}

theorem exists_checkIn_of_detailsAt (hnames : schema.NamesApart) (hf : f ∈ schema.fields)
    (hfirst : f.reportedName schema.config = f.formName schema.config) {v : Value}
    (hheld : schema.held? s f = some v) (hr : schema.reportForm s = .ok r)
    (hsaid : r.detailsAt (f.formName schema.config) = []) :
    ∃ q, f.checkIn (some false) schema.config v = .ok q := by
  have houtcome := outcomeOf_eq hnames hf hfirst hheld
  cases hcheck : f.checkIn (some false) schema.config v with
  | ok q => exact ⟨q, rfl⟩
  | error e =>
      exfalso
      rw [hcheck] at houtcome
      cases e with
      | misfit m =>
          have hmeasured := not_isMisfit_outcome hf (Report.not_isMisfit_of_ofOutcome hr)
          exact hmeasured ⟨m, houtcome⟩
      | faults fs =>
          obtain ⟨g, hg⟩ := List.exists_mem_of_ne_nil fs ((f.tells_run _ v fs hcheck).1)
          obtain ⟨unknown, hdetails, -⟩ := details_eq hr
          have hdetail : (g.under (.key (f.formName schema.config))).detail ∈ r.details := by
            rw [hdetails]
            refine List.mem_append_left _ (List.mem_flatMap.mpr ⟨f, hf, ?_⟩)
            rw [detailsOf, houtcome, hfirst]
            exact List.mem_map.mpr ⟨_, List.mem_map.mpr ⟨g, hg, rfl⟩, rfl⟩
          exact List.filter_eq_nil_iff.mp hsaid _ hdetail (decide_eq_true rfl)

/-- A field that is found where it is rendered, and of which the report on a single text says
nothing, shows no length that the text does not reach.  The text is no longer than the greatest length
that is shown, either, if the field takes one value and texts are not stripped. -/
theorem shown_lengths_allow (hnames : schema.NamesApart) (hf : f ∈ schema.fields)
    (hfirst : f.reportedName schema.config = f.formName schema.config) (hclear : f.type.IsClear)
    (hleast : Pairs.has (f.declared.getD []) "minLength" = false)
    (hmost : Pairs.has (f.declared.getD []) "maxLength" = false)
    {idSuffix : String} {lang : Option String} {e : Element}
    (he : Element.ofDefinition idSuffix lang (.ofField schema.config f) = .ok e)
    {t : String} (ht : t ≠ "") (hs : s.values? (f.formName schema.config) = some [.str t])
    (hr : schema.reportForm s = .ok r) (hsaid : r.detailsAt (f.formName schema.config) = []) :
    (Pairs.get? e.attributes "minLength" = (Limit.least? f.allLimits).map Element.lengthText ∧
      ∀ m, Limit.least? f.allLimits = some m → m ≤ t.length) ∧
    (Pairs.get? e.attributes "maxLength" = (Limit.most? f.allLimits).map Element.lengthText ∧
      (f.type.kind.multi = false → schema.config.strip = false →
        ∀ n, Limit.most? f.allLimits = some n → t.length ≤ n)) := by
  obtain ⟨hmin, hmax⟩ := Element.get?_attributes_ofField he hleast hmost
  have hlax : Setting.IsLax { strict? := some false, config := schema.config } := rfl
  have hlength : 1 ≤ t.length := Nat.pos_of_ne_zero fun h => ht (String.length_eq_zero_iff.mp h)
  have held : ∀ {v}, f.holds? (.list [.str t]) = some v → schema.held? s f = some v := by
    intro v hv
    unfold held?
    rw [hs, Option.bind_some, hv]
  cases hmulti : f.type.kind.multi with
  | true =>
      obtain ⟨q, hq⟩ := exists_checkIn_of_detailsAt hnames hf hfirst (held (Field.holds?_asList hmulti t)) hr hsaid
      have hfits := Field.fits_of_checkIn (Ty.reading_keepsIn_list hmulti hlax _) hq
      exact ⟨⟨hmin, fun m hm => Nat.le_trans (hfits.1 m hm) hlength⟩, hmax, fun h => nomatch h⟩
  | false =>
      obtain ⟨q, hq⟩ := exists_checkIn_of_detailsAt hnames hf hfirst
        (held (Field.holds?_of_ne_empty hmulti ht)) hr hsaid
      have fits : ∀ {b : Span}, b.Bears { strict? := some false, config := schema.config } →
          b.Has t.length → b.Fits f.allLimits :=
        fun hb hb' => Field.fits_of_checkIn (Ty.reading_keepsIn_coerce hclear hmulti hlax hb hb') hq
      refine ⟨⟨hmin, fun m hm => ?_⟩, hmax, fun _ hstrip n hn => ?_⟩
      · exact (fits (b := ⟨0, t.length⟩) (fun _ => rfl) ⟨Nat.zero_le _, Nat.le_refl _⟩).1 m hm
      · have hb : Span.Bears ⟨t.length, t.length⟩ { strict? := some false, config := schema.config } :=
          fun h => nomatch hstrip.symm.trans h
        exact (fits hb ⟨Nat.le_refl _, Nat.le_refl _⟩).2 n hn

/-- A form that is shown as one line of text. -/
def lineDeclaration : List (String × Value) :=
  Declaration.attributes { element := .str "input", inputType := .str "text" }

/-- A nickname of two to eight characters, or none. -/
def nick : Field where
  name := "nick"
  type := .optional (.limited .str { minLength := some 2 })
  limits := { minLength := some 2, maxLength := some 8 }
  knownAs := some "handle"
  declared := some lineDeclaration

/-- A guest with a nickname and perhaps a note. -/
def guest : Schema where
  name := "Guest"
  fields := [nick, { name := "note", type := .str, default := some (.str "") }]

/-- The element of the nickname shows both limits, and every text that is accepted keeps them. -/
theorem guest_lengths_allow :
    ∃ e, Element.ofDefinition "" none (.ofField guest.config nick) = .ok e ∧
      ∀ t ≠ "", ∀ r, guest.reportForm (.single [(.str "handle", .str t)]) = .ok r →
        r.detailsAt "handle" = [] →
          (Pairs.get? e.attributes "minLength" = some (Element.lengthText 2) ∧ 2 ≤ t.length) ∧
            Pairs.get? e.attributes "maxLength" = some (Element.lengthText 8) ∧ t.length ≤ 8 := by
  have hnames : guest.NamesApart := show List.Nodup _ by decide
  have shown : (Element.ofDefinition "" none (.ofField guest.config nick)).toOption.map (·.name)
      = some "handle" := by
    decide +kernel
  obtain ⟨e, he, _⟩ := exists_of_map_toOption shown
  refine ⟨e, he, fun t ht r hr hsaid => ?_⟩
  obtain ⟨⟨hshort, hmin⟩, hlong, hmax⟩ := shown_lengths_allow hnames List.mem_cons_self rfl trivial
    (by decide +kernel) (by decide +kernel) he ht rfl hr hsaid
  exact ⟨⟨hshort, hmin 2 rfl⟩, hlong, hmax rfl rfl 8 rfl⟩

/-- A schema with a field of some type that is shown as one line of text, and perhaps with others. -/
def oneLine (type : Ty) (traits : FieldTraits) (config : Config) (others : List Field) : Schema where
  name := "Guest"
  fields := { traits with type, declared := some lineDeclaration } :: others
  config := config

/-- A nickname of at most one character. -/
def short : FieldTraits where
  name := "nick"
  limits := { maxLength := some 1 }

/-- An element shows a greatest length of one, and a longer text is accepted: the items of a list are
counted, the field is not read under the name that is shown, texts are stripped, the text of an
option's number is tried, or another field of that name is read as a list. -/
theorem shown_length_exceeded :
    [(oneLine (.many .list .str) short {} [], "ab"),
        (oneLine .str { short with default := some (.str ""), readAs := some "handle" } {} [], "ab"),
        (oneLine .str short { strip := true } [], " a"),
        (oneLine (.limited (.enumeration ⟨"Level", .integer, [("HIGH", .int 5)]⟩) short.limits)
          { name := "nick", limits := { pattern := some ⟨.searching, "5"⟩ } } {} [], "05"),
        (oneLine .any short {}
          [{ name := "nicks", type := .many .list .str, knownAs := some "nick" }], "ab")].map
      (fun p => (p.2.length,
        (p.1.definitions.map fun d => (Element.ofDefinition "" none d).toOption.bind fun e =>
          Pairs.get? e.attributes "maxLength").head?,
        (p.1.reportForm (.single [(.str "nick", .str p.2)])).toOption.map
          fun r => (r.valid, r.details.length)))
      = List.replicate 5 (2, some (some (Element.lengthText 1)), some (true, 0)) := by
  decide +kernel

end Schema

end WebForm
