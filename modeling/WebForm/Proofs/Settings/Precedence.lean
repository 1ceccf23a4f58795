/-
Which source of settings counts for an option.

Settings come from the environment and from keyword values, or from a document in the place of
the latter.  The keyword values are laid over what the environment says, key by key.  A key is
a spelling, and so two sources that spell an option in two ways do not meet: both spellings
are there, and one of them is left over.  `load_precedence` says exactly what comes of two
sources, each right by itself:

    settings are loaded ↔ the two spell alike whatever both of them name

and once they are loaded, every option holds what the keywords say of it, or else what the
environment says, or else its default.  A document is loaded as the keyword values that it
stands for.

A source is right by itself if it names options and nothing else, each at most once, with
values that they take (`Options.Source`).  The keyword values may also name the element around
a form and the level of the log, with texts (`Says`); other settings do not matter for the
options.

Values from the environment are texts, and a text is hidden by whatever is laid over it.  So
of two values for one option there is never a third one made (`get?_overlaid_of_texts`).  With
two sources of nested mappings this would be otherwise.

What is proved of two sources that spell in different ways is only that nothing is loaded.
The last theorem has an example in which each of them would be loaded alone.
-/
import WebForm.Proofs.Settings.Environment
import WebForm.Settings.Basic

namespace WebForm

open Outcome
open Options (fields spellings valueOf?)

/-! ## Sources -/

/-- A source names options and nothing else, each at most once, with values that they take. -/
structure Options.Source (pairs : List (String × Value)) : Prop where
  takes : AreOptions pairs
  once : pairs.Pairwise fun p q => ∀ f ∈ fields, p.1 ∈ spellings f → q.1 ∉ spellings f

/-- Two sources spell alike whatever both of them name. -/
def Options.SpelledAlike (below above : List (String × Value)) : Prop :=
  ∀ f ∈ fields, ∀ k ∈ spellings f, ∀ k' ∈ spellings f,
    k ∈ Pairs.keys below → k' ∈ Pairs.keys above → k = k'

namespace Options

instance (below above : List (String × Value)) : Decidable (SpelledAlike below above) :=
  inferInstanceAs (Decidable (∀ f ∈ fields, ∀ k ∈ spellings f, ∀ k' ∈ spellings f,
    k ∈ Pairs.keys below → k' ∈ Pairs.keys above → k = k'))

instance (pairs : List (String × Value)) : Decidable (Source pairs) :=
  decidable_of_iff (AreOptions pairs ∧ pairs.Pairwise fun p q =>
      ∀ f ∈ fields, p.1 ∈ spellings f → q.1 ∉ spellings f)
    ⟨fun h => ⟨h.1, h.2⟩, fun h => ⟨h.takes, h.once⟩⟩

section

variable {pairs : List (String × Value)}

theorem Source.eq_of_spellings (h : Source pairs) {f : Field} (hf : f ∈ fields) {p q : String × Value}
    (hp : p ∈ pairs) (hq : q ∈ pairs) (hpf : p.1 ∈ spellings f) (hqf : q.1 ∈ spellings f) : p = q := by
  obtain ⟨i, hi, rfl⟩ := List.getElem_of_mem hp
  obtain ⟨j, hj, rfl⟩ := List.getElem_of_mem hq
  have apart := List.pairwise_iff_getElem.mp h.once
  rcases Nat.lt_trichotomy i j with hij | rfl | hji
  · exact absurd hqf (apart i j hi hj hij f hf hpf)
  · rfl
  · exact absurd hpf (apart j i hj hi hji f hf hqf)

theorem Source.nodup_keys (h : Source pairs) : (Pairs.keys pairs).Nodup := by
  refine List.pairwise_map.mpr (h.once.imp_of_mem fun {p q} hp _ hpq hkey => ?_)
  obtain ⟨f, hf, hpf, -⟩ := h.takes p hp
  exact hpq f hf hpf (hkey ▸ hpf)

theorem Source.of_subset {others : List (String × Value)} (h : Source pairs)
    (hkeys : (Pairs.keys others).Nodup) (hsubset : ∀ p ∈ others, p ∈ pairs) : Source others where
  takes p hp := h.takes p (hsubset p hp)
  once := by
    refine (List.Nodup.of_map _ hkeys).imp_of_mem fun {p q} hp hq hne f hf hpf hqf => ?_
    exact hne (h.eq_of_spellings hf (hsubset p hp) (hsubset q hq) hpf hqf)

theorem Source.valueOf?_congr {others : List (String × Value)} (h : Source pairs)
    (h' : Source others) (hmem : ∀ p, p ∈ others ↔ p ∈ pairs) (f : Field) :
    valueOf? others f = valueOf? pairs f := by
  have hget : Pairs.get? others = Pairs.get? pairs := by
    funext key
    ext value
    rw [Pairs.get?_eq_some_iff h'.nodup_keys, Pairs.get?_eq_some_iff h.nodup_keys]
    exact hmem (key, value)
  rw [valueOf?, hget]
  rfl

end

/-! ## One source over another -/

section

variable {below above : List (String × Value)}

/-- Over texts, what is above counts, or else what is below. -/
theorem get?_overlaid_of_texts (hkeys : (Pairs.keys above).Nodup)
    (htexts : ∀ p ∈ below, ∃ t, p.2 = .str t) (key : String) :
    Pairs.get? (Pairs.overlaid below above) key
      = (Pairs.get? above key).or (Pairs.get? below key) := by
  rw [Pairs.get?_overlaid hkeys]
  cases hbelow : Pairs.get? below key with
  | none => simp
  | some v =>
      obtain ⟨t, ht⟩ := htexts _ (Pairs.mem_of_get?_eq_some hbelow)
      have ht : v = .str t := ht
      cases Pairs.get? above key with
      | none => rfl
      | some w =>
          rw [ht]
          exact congrArg some (Value.overlay_str t w)

section

variable (hbelow : Source below) (habove : Source above)

include hbelow habove

/-- One source over another names no option by two spellings exactly when the two spell alike. -/
theorem Source.spelledOnce_iff :
    SpelledOnce (Pairs.overlaid below above) ↔ SpelledAlike below above := by
  have own : ∀ {pairs}, Source pairs → ∀ f ∈ fields, ∀ k ∈ spellings f, ∀ k' ∈ spellings f,
      k ∈ Pairs.keys pairs → k' ∈ Pairs.keys pairs → k = k' := by
    intro pairs h f hf k hk k' hk' hmem hmem'
    obtain ⟨p, hp, rfl⟩ := List.mem_map.mp hmem
    obtain ⟨q, hq, rfl⟩ := List.mem_map.mp hmem'
    rw [h.eq_of_spellings hf hp hq hk hk']
  unfold SpelledOnce SpelledAlike
  simp only [Pairs.mem_keys_overlaid habove.nodup_keys]
  constructor
  · exact fun h f hf k hk k' hk' hmem hmem' => h f hf k hk k' hk' (Or.inr hmem) (Or.inl hmem')
  · rintro h f hf k hk k' hk' (hmem | hmem) (hmem' | hmem')
    · exact own habove f hf k hk k' hk' hmem hmem'
    · exact (h f hf k' hk' k hk hmem' hmem).symm
    · exact h f hf k hk k' hk' hmem hmem'
    · exact own hbelow f hf k hk k' hk' hmem hmem'

variable (htexts : ∀ p ∈ below, ∃ t, p.2 = .str t)

include htexts

theorem Source.areOptions_overlaid : AreOptions (Pairs.overlaid below above) := by
  intro p hp
  have hkeys := Pairs.nodup_keys_overlaid hbelow.nodup_keys above
  have hget := (Pairs.get?_eq_some_iff hkeys).mpr hp
  rw [get?_overlaid_of_texts habove.nodup_keys htexts, Option.or_eq_some_iff] at hget
  rcases hget with hget | ⟨-, hget⟩
  · exact habove.takes _ (Pairs.mem_of_get?_eq_some hget)
  · exact hbelow.takes _ (Pairs.mem_of_get?_eq_some hget)

theorem Source.valueOf?_overlaid (halike : SpelledAlike below above) {f : Field} (hf : f ∈ fields) :
    valueOf? (Pairs.overlaid below above) f = (valueOf? above f).or (valueOf? below f) := by
  have hget := get?_overlaid_of_texts habove.nodup_keys htexts
  have honce := (hbelow.spelledOnce_iff habove).mpr halike f hf
  cases habove' : valueOf? above f with
  | some v =>
      obtain ⟨k, hk, hv⟩ := List.exists_of_findSome?_eq_some habove'
      have hfound : Pairs.get? (Pairs.overlaid below above) k = some v := by
        rw [hget, hv]
        rfl
      cases hvalue : valueOf? (Pairs.overlaid below above) f with
      | none =>
          rw [List.findSome?_eq_none_iff.mp hvalue k hk] at hfound
          cases hfound
      | some w =>
          obtain ⟨k', hk', hw⟩ := List.exists_of_findSome?_eq_some hvalue
          have hsame := honce k hk k' hk' (Pairs.has_iff_mem_keys.mp (Pairs.has_iff.mpr ⟨v, hfound⟩))
            (Pairs.has_iff_mem_keys.mp (Pairs.has_iff.mpr ⟨w, hw⟩))
          rw [hsame, hw] at hfound
          exact hfound
  | none =>
      have hnone := List.findSome?_eq_none_iff.mp habove'
      rw [Option.none_or, valueOf?, valueOf?, ← List.head?_filterMap, ← List.head?_filterMap]
      refine congrArg List.head? (List.filterMap_congr fun k hk => ?_)
      rw [hget, hnone k hk, Option.none_or]

end

end

end Options

/-! ## Settings

The settings are checked as a schema of three fields.  One of them is the form, a record of
options; the others take texts. -/

namespace Settings

/-- Keyword values that say of the form what some pairs say, or nothing of it, and perhaps name the
element around it and the level of the log. -/
structure Says (given : List (String × Value)) (pairs : List (String × Value)) : Prop where
  form : Pairs.get? given "form" = some (.ofPairs pairs) ∨
    Pairs.get? given "form" = none ∧ pairs = []
  known : ∀ p ∈ given, p.1 ∈ fields.map (·.name)
  texts : ∀ name ≠ "form", ∀ v, Pairs.get? given name = some v → ∃ t, v = .str t

/-- What is read for each setting, under its name. -/
def named (read : String → Option Value) : List (String × Value) :=
  (fields.map (·.name)).filterMap fun n => (read n).map fun v => (n, v)

section

variable {read : String → Option Value} {name : String}

theorem nodup_names : ((fields.map (·.name)).map fun n => n).Nodup := by decide

theorem nodup_keys_named (read : String → Option Value) : (Pairs.keys (named read)).Nodup :=
  Pairs.nodup_keys_filterMap nodup_names read

theorem get?_named (read : String → Option Value) (hname : name ∈ fields.map (·.name)) :
    Pairs.get? (named read) name = read name :=
  Pairs.get?_filterMap nodup_names read hname

theorem mem_names_of_named (h : name ∈ Pairs.keys (named read)) : name ∈ fields.map (·.name) := by
  rw [named, Pairs.keys_filterMap, List.map_id'] at h
  exact (List.mem_filter.mp h).1

end

/-- The form as a setting. -/
def formField : Field where
  name := "form"
  type := .record Options.schema
  default := some (Options.toRecord {})

theorem takes_texts : ∀ f ∈ fields.tail, f.name ≠ "form" ∧
    ∀ t, ∃ p, f.checkIn none schema.config (.str t) = .ok p := by
  intro f hf
  simp only [fields, List.tail_cons, List.mem_cons, List.not_mem_nil, or_false] at hf
  rcases hf with rfl | rfl
  · exact ⟨by decide, fun t => ⟨_, rfl⟩⟩
  · exact ⟨by decide, fun t => ⟨_, rfl⟩⟩

theorem exists_check_nil : ∃ r, Options.schema.check none (.ofPairs []) = .ok r ∧
    Options.ofValue r.value = {} := by
  have defaults : (Options.schema.check none (.ofPairs [])).toOption.map
      (fun r => Options.ofValue r.value) = some {} := by decide +kernel
  exact exists_of_map_toOption defaults

section

variable {all pairs : List (String × Value)}

theorem given?_keyed {f : Field} (hf : f ∈ fields) :
    f.given? schema.config (Value.keyed all) = Pairs.get? all f.name := by
  have names : ∀ f ∈ fields, f.readNames schema.config = [f.name] := by decide +kernel
  rw [Field.given?_keyed, names f hf, List.findSome?_singleton]

theorem kept_eq_nil (hkeys : ∀ k ∈ Pairs.keys all, k ∈ fields.map (·.name)) :
    schema.kept (Value.keyed all) = [] := by
  have names : ∀ f ∈ fields, f.readNames schema.config = [f.name] := by decide +kernel
  rw [Schema.kept_keyed_eq_nil_iff rfl]
  intro p hp
  have hkey : p.1 ∈ Pairs.keys all := List.mem_map.mpr ⟨p, hp, rfl⟩
  obtain ⟨f, hf, hname⟩ := List.mem_map.mp (hkeys p.1 hkey)
  refine ⟨f, hf, ?_⟩
  have hname : f.name = p.1 := hname
  rw [names f hf, hname, List.find?_cons_of_pos (Pairs.has_iff_mem_keys.mpr hkey)]

theorem check_iff (hkeys : ∀ k ∈ Pairs.keys all, k ∈ fields.map (·.name))
    (hform : Pairs.get? all "form" = some (.ofPairs pairs) ∨
      Pairs.get? all "form" = none ∧ pairs = [])
    (htexts : ∀ name ≠ "form", ∀ v, Pairs.get? all name = some v → ∃ t, v = .str t) :
    ((∃ c, schema.check none (.ofPairs all) = .ok c)
        ↔ ∃ r, Options.schema.check none (.ofPairs pairs) = .ok r) ∧
      ∀ c, schema.check none (.ofPairs all) = .ok c →
        ∃ r, Options.schema.check none (.ofPairs pairs) = .ok r ∧
          (ofValue c.value).form = Options.ofValue r.value := by
  have hmem : formField ∈ fields := List.mem_cons_self
  have hgiven : formField.given? schema.config (Value.keyed all) = Pairs.get? all "form" :=
    given?_keyed hmem
  have passed : ∀ c, schema.check none (.ofPairs all) = .ok c →
      ∃ r, Options.schema.check none (.ofPairs pairs) = .ok r ∧
        (ofValue c.value).form = Options.ofValue r.value := by
    intro c hc
    have hc : schema.check none (.map (Value.keyed all)) = .ok c := hc
    obtain ⟨hfields, -, hrecord⟩ := Schema.of_check_eq_ok hc
    obtain ⟨p, hp, hvalue⟩ := hfields formField hmem
    have hheld : (ofValue c.value).form = Options.ofValue p.value := by
      rw [hrecord, hvalue]
      rfl
    have houtcome := Field.of_outcome_eq_ok hp
    rw [hgiven] at houtcome
    rcases hform with hsome | ⟨hnone, rfl⟩
    · rw [hsome] at houtcome
      rcases houtcome with ⟨v, hv, hq⟩ | ⟨hnone, -⟩
      · cases hv
        exact ⟨p, hq, hheld⟩
      · cases hnone
    · rw [hnone] at houtcome
      rcases houtcome with ⟨v, hv, -⟩ | ⟨-, d, hd, heq⟩
      · cases hv
      · obtain ⟨r, hr, hdefault⟩ := exists_check_nil
        cases hd
        exact ⟨r, hr, by rw [hheld, heq, hdefault, Options.ofValue_toRecord]⟩
  refine ⟨⟨fun ⟨c, hc⟩ => (passed c hc).imp fun _ h => h.1, fun ⟨r, hr⟩ => ?_⟩, passed⟩
  show ∃ c, schema.check none (.map (Value.keyed all)) = .ok c
  refine (Schema.exists_check_iff rfl).mpr ⟨fun f hf => ?_, kept_eq_nil hkeys⟩
  have defaults : ∀ f ∈ fields, f.default.isSome = true := by decide +kernel
  refine Field.exists_outcome (fun v hv => ?_) (fun _ => defaults f hf) _
  rw [given?_keyed hf] at hv
  rcases List.mem_cons.mp hf with rfl | hother
  · rcases hform with hsome | ⟨hnone, -⟩
    · cases hsome.symm.trans hv
      exact ⟨r, hr⟩
    · cases hnone.symm.trans hv
  · obtain ⟨hname, htakes⟩ := takes_texts f hother
    obtain ⟨t, rfl⟩ := htexts f.name hname v hv
    exact htakes t

end

/-! ## Sources of settings

The environment is listed, the keyword values are put in the order of the settings, and what
is laid over what is checked as a whole. -/

section

variable {env : List (String × String)} {given pairs : List (String × Value)}

theorem Says.arranged_eq (h : Says given pairs) : arranged given = named (Pairs.get? given) := by
  have hnone : (given.filter fun p => !(fields.map (·.name)).contains p.1) = [] := by
    rw [List.filter_eq_nil_iff]
    intro p hp
    rw [List.contains_iff_mem.mpr (h.known p hp)]
    exact Bool.false_ne_true
  unfold arranged
  dsimp only
  rw [hnone, List.append_nil]
  rfl

/-- What the environment says of a setting, if it says of the form what it says of single options. -/
def said? (env : List (String × String)) (name : String) : Option Value :=
  if name = "form" then
    if (Environment.spelled env).isEmpty then none else some (.ofPairs (Environment.spelled env))
  else Environment.text? (Environment.variablesByName env) name

theorem ofEnvironment_eq (h : Environment.GivesOptions env) :
    ofEnvironment env = .ok (named (said? env)) := by
  unfold ofEnvironment
  dsimp only
  rw [Environment.form?_variablesByName h]
  refine congrArg Except.ok ?_
  have hlist : ∀ (o o' o'' : Option Value), (o.toList.map fun v => ("form", v))
      ++ (o'.toList.map fun v => ("component_element", v)) ++ (o''.toList.map fun v => ("log_level", v))
      = [("form", o), ("component_element", o'), ("log_level", o'')].filterMap fun p =>
        p.2.map fun v => (p.1, v) := by
    intro o o' o''
    cases o <;> cases o' <;> cases o'' <;> rfl
  exact hlist _ _ _

/-- The keyword values over what the environment says. -/
def laidOver (env : List (String × String)) (given : List (String × Value)) :
    List (String × Value) :=
  Pairs.overlaid (named (said? env)) (named (Pairs.get? given))

theorem Says.load_eq (h : Says given pairs) (henv : Environment.GivesOptions env) :
    load env given = ((schema.check none (.ofPairs (laidOver env given))).mapError .rejected).map
      fun c => ofValue c.value := by
  unfold load
  rw [ofEnvironment_eq henv]
  dsimp only
  rw [h.arranged_eq, Value.overlay_ofPairs, ← laidOver]
  cases schema.check none (.ofPairs (laidOver env given)) <;> rfl

theorem Says.load_eq_ok_iff (h : Says given pairs) (henv : Environment.GivesOptions env)
    {settings : Settings} :
    load env given = .ok settings
      ↔ ∃ c, schema.check none (.ofPairs (laidOver env given)) = .ok c ∧ ofValue c.value = settings := by
  rw [h.load_eq henv]
  cases schema.check none (.ofPairs (laidOver env given)) with
  | error r => simp [Except.mapError, Except.map]
  | ok c => simp [Except.mapError, Except.map]

theorem get?_laidOver (env : List (String × String)) (given : List (String × Value)) {name : String}
    (hname : name ∈ fields.map (·.name)) :
    Pairs.get? (laidOver env given) name
      = ((Pairs.get? given name).map fun v => ((said? env name).map fun old => old.overlay v).getD v).or
          (said? env name) := by
  rw [laidOver, Pairs.get?_overlaid (nodup_keys_named _), get?_named _ hname, get?_named _ hname]

theorem mem_names_of_laidOver {key : String} (h : key ∈ Pairs.keys (laidOver env given)) :
    key ∈ fields.map (·.name) := by
  rw [laidOver, Pairs.mem_keys_overlaid (nodup_keys_named _)] at h
  exact h.elim mem_names_of_named mem_names_of_named

theorem Says.get?_laidOver_form (h : Says given pairs) (hkeys : (Pairs.keys pairs).Nodup)
    (env : List (String × String)) :
    Pairs.get? (laidOver env given) "form"
        = some (.ofPairs (Pairs.overlaid (Environment.spelled env) pairs)) ∨
      Pairs.get? (laidOver env given) "form" = none ∧
        Pairs.overlaid (Environment.spelled env) pairs = [] := by
  have hsaid : said? env "form" = if (Environment.spelled env).isEmpty then none
      else some (.ofPairs (Environment.spelled env)) := rfl
  rw [get?_laidOver env given (by decide), hsaid]
  generalize Environment.spelled env = spelled
  rcases h.form with hform | ⟨hform, rfl⟩ <;> rw [hform]
  · cases spelled with
    | nil =>
        rw [Pairs.overlaid_nil hkeys]
        exact Or.inl rfl
    | cons p spelled =>
        rw [← Value.overlay_ofPairs]
        exact Or.inl rfl
  · cases spelled with
    | nil => exact Or.inr ⟨rfl, rfl⟩
    | cons p spelled => exact Or.inl rfl

theorem Says.texts_laidOver (h : Says given pairs) {name : String} (hname : name ≠ "form") {v : Value}
    (hv : Pairs.get? (laidOver env given) name = some v) : ∃ t, v = .str t := by
  have hkey := mem_names_of_laidOver (Pairs.has_iff_mem_keys.mp (Pairs.has_iff.mpr ⟨v, hv⟩))
  rw [get?_laidOver env given hkey, Option.or_eq_some_iff] at hv
  rcases hv with hv | ⟨-, hv⟩
  · obtain ⟨w, hw, rfl⟩ := Option.map_eq_some_iff.mp hv
    obtain ⟨t, rfl⟩ := h.texts name hname w hw
    cases said? env name <;> exact ⟨t, rfl⟩
  · rw [said?, if_neg hname] at hv
    obtain ⟨t, -, rfl⟩ := Option.map_eq_some_iff.mp hv
    exact ⟨t, rfl⟩

theorem Says.exists_load_iff (h : Says given pairs) (henv : Environment.GivesOptions env) :
    (∃ settings, load env given = .ok settings)
      ↔ ∃ c, schema.check none (.ofPairs (laidOver env given)) = .ok c := by
  constructor
  · rintro ⟨settings, hsettings⟩
    obtain ⟨c, hc, -⟩ := (h.load_eq_ok_iff henv).mp hsettings
    exact ⟨c, hc⟩
  · rintro ⟨c, hc⟩
    exact ⟨ofValue c.value, (h.load_eq_ok_iff henv).mpr ⟨c, hc, rfl⟩⟩

theorem loadYaml_eq {text : String} {v : Value} (htext : Yaml.read text = .ok v)
    (hdocument : ofDocument v = .ok given) : loadYaml env text = load env given := by
  unfold loadYaml
  rw [htext]
  dsimp only
  rw [hdocument]

section

variable (henv : Environment.GivesOptions env) (hbelow : Options.Source (Environment.options env))

include henv hbelow

theorem mem_spelled_iff_mem_options (e : String × Value) :
    e ∈ Environment.spelled env ↔ e ∈ Environment.options env := by
  refine Environment.mem_spelled_iff henv fun p hp q hq hkey => ?_
  obtain ⟨f, hf, hpf, -⟩ := hbelow.takes p hp
  exact hbelow.eq_of_spellings hf hp hq hpf (hkey ▸ hpf)

theorem source_spelled : Options.Source (Environment.spelled env) :=
  hbelow.of_subset (Environment.nodup_keys_spelled henv) fun p hp =>
    (mem_spelled_iff_mem_options henv hbelow p).mp hp

theorem texts_spelled : ∀ p ∈ Environment.spelled env, ∃ t, p.2 = .str t := by
  intro p hp
  obtain ⟨-, q, -, -, hvalue⟩ :=
    Environment.mem_options_iff.mp ((mem_spelled_iff_mem_options henv hbelow p).mp hp)
  exact ⟨q.2, hvalue⟩

theorem spelledAlike_spelled_iff (pairs : List (String × Value)) :
    Options.SpelledAlike (Environment.spelled env) pairs
      ↔ Options.SpelledAlike (Environment.options env) pairs := by
  have hkeys : ∀ k, k ∈ Pairs.keys (Environment.spelled env)
      ↔ k ∈ Pairs.keys (Environment.options env) := by
    intro k
    simp only [Pairs.keys, List.mem_map, mem_spelled_iff_mem_options henv hbelow]
  unfold Options.SpelledAlike
  simp only [hkeys]

end

theorem says_form (pairs : List (String × Value)) : Says [("form", .ofPairs pairs)] pairs where
  form := Or.inl rfl
  known p hp := by
    rw [List.mem_singleton.mp hp]
    exact List.mem_cons_self
  texts name hname v hv := by
    have hmem := List.mem_singleton.mp (Pairs.mem_of_get?_eq_some hv)
    exact absurd (congrArg Prod.fst hmem) hname

/-- Each option that is given in the environment or in keyword values is given once and with a value
that it takes.  Then settings are loaded exactly when both spell alike whatever both of them name,
and every option holds what the keywords say of it, or else what the environment says, or else its
default, as the option takes it.  A document counts as the keyword values that it holds. -/
theorem load_precedence (henv : Environment.GivesOptions env)
    (hbelow : Options.Source (Environment.options env)) (hgiven : Says given pairs)
    (habove : Options.Source pairs) :
    ((∃ settings, load env given = .ok settings)
        ↔ Options.SpelledAlike (Environment.options env) pairs) ∧
      (∀ settings, load env given = .ok settings → ∀ f ∈ Options.fields,
        settings.form.Holds f ((valueOf? pairs f).or (valueOf? (Environment.options env) f))) ∧
      ∀ text v, Yaml.read text = .ok v → ofDocument v = .ok given →
        loadYaml env text = load env given := by
  have hspelled := source_spelled henv hbelow
  have htexts := texts_spelled henv hbelow
  have halike := spelledAlike_spelled_iff henv hbelow pairs
  obtain ⟨hchecked, hform⟩ := check_iff (fun _ => mem_names_of_laidOver)
    (hgiven.get?_laidOver_form habove.nodup_keys env) fun _ hname _ => hgiven.texts_laidOver hname
  have hloads : (∃ settings, load env given = .ok settings)
      ↔ Options.SpelledAlike (Environment.options env) pairs := by
    rw [hgiven.exists_load_iff henv, hchecked,
      (hspelled.areOptions_overlaid habove htexts).exists_check_iff,
      hspelled.spelledOnce_iff habove, halike]
  refine ⟨hloads, fun settings hsettings f hf => ?_, fun _ _ => loadYaml_eq⟩
  obtain ⟨c, hc, rfl⟩ := (hgiven.load_eq_ok_iff henv).mp hsettings
  obtain ⟨r, hr, hoptions⟩ := hform c hc
  rw [hoptions,
    ← hbelow.valueOf?_congr hspelled (mem_spelled_iff_mem_options henv hbelow),
    ← hspelled.valueOf?_overlaid habove htexts (halike.mpr (hloads.mp ⟨_, hsettings⟩)) hf]
  exact Options.holds_of_check hr hf

end

/-- A legend and a button for a form to sign up with. -/
def signUpVariables : List (String × String) :=
  [("CRUDDY_FORM_FORM__Legend", "Sign up"), ("cruddy_form_form__BUTTONLABEL", "Go")]

/-- Another button, and an ending for the identities of its inputs. -/
def signUpOptions : List (String × Value) := [("buttonLabel", .str "Send"), ("id_suffix", .str "x")]

theorem signUpVariables_options : Environment.GivesOptions signUpVariables ∧
    Environment.options signUpVariables
      = [("legend", .str "Sign up"), ("buttonLabel", .str "Go")] := by
  have hlegend : Environment.spelling? "CRUDDY_FORM_FORM__Legend" = some "legend" :=
    Environment.spelling?_of_isAscii (by decide +kernel) (by decide +kernel) (by decide +kernel)
  have hbutton : Environment.spelling? "cruddy_form_form__BUTTONLABEL" = some "buttonLabel" :=
    Environment.spelling?_of_isAscii (by decide +kernel) (by decide +kernel) (by decide +kernel)
  constructor
  · refine Environment.givesOptions_of_spellings ?_
    simp [signUpVariables, hlegend, hbutton]
  · simp [signUpVariables, Environment.options, hlegend, hbutton]

/-- The legend comes from the environment, the button and the ending from keyword values, and the
method is the default. -/
theorem signUp_loaded :
    ∃ settings, load signUpVariables [("form", .ofPairs signUpOptions)] = .ok settings ∧
      settings.form.legend = some "Sign up" ∧ settings.form.buttonLabel = some "Send" ∧
      settings.form.idSuffix = some "x" ∧ settings.form.method = some "post" ∧
      loadYaml signUpVariables "form:\n  buttonLabel: Send\n  id_suffix: x\n" = .ok settings := by
  obtain ⟨henv, hoptions⟩ := signUpVariables_options
  have hbelow : Options.Source (Environment.options signUpVariables) := by
    rw [hoptions]
    decide +kernel
  obtain ⟨hloads, hheld, hdocument⟩ := load_precedence henv hbelow (says_form signUpOptions)
    (by decide +kernel)
  rw [hoptions] at hloads hheld
  obtain ⟨settings, hsettings⟩ := hloads.mpr (by decide +kernel)
  have held : ∀ i, ∀ h : i < Options.fields.length, settings.form.Holds Options.fields[i] _ :=
    fun i h => hheld settings hsettings _ (List.getElem_mem h)
  have text : ∀ {t : Option String} {s : String}, some (Options.ofText? t) = some (.str s) →
      t = some s := by
    intro t s h
    rw [← Options.asText?_ofText? t, Option.some.inj h]
    rfl
  have hread : (Yaml.read "form:\n  buttonLabel: Send\n  id_suffix: x\n").toOption.map (fun v => v)
      = some (.ofPairs [("form", .ofPairs signUpOptions)]) := by decide +kernel
  obtain ⟨_, hread, rfl⟩ := exists_of_map_toOption hread
  refine ⟨settings, hsettings, text ((held 7 (by decide)).get?_eq (by decide +kernel)),
    text ((held 1 (by decide)).get?_eq (by decide +kernel)),
    text ((held 6 (by decide)).get?_eq (by decide +kernel)),
    text (held 8 (by decide)), ?_⟩
  rw [hdocument _ _ hread rfl, hsettings]

/-- The environment names the button by its name, the keyword values by its alias.  Each source is
right by itself, but the name is left over. -/
theorem two_spellings_refused :
    let env := [("CRUDDY_FORM_FORM__BUTTON_LABEL", "Go")]
    let pairs := [("buttonLabel", .str "Send")]
    Environment.GivesOptions env ∧ Options.Source (Environment.options env) ∧
      Options.Source pairs ∧
      ∃ faults, load env [("form", .ofPairs pairs)] = .error (.rejected (.faults faults)) ∧
        faults.map (fun d => (d.cause, d.path))
          = [(.extra, [.key "form", .key "button_label"])] := by
  have hbutton : Environment.spelling? "CRUDDY_FORM_FORM__BUTTON_LABEL" = some "button_label" :=
    Environment.spelling?_of_isAscii (by decide +kernel) (by decide +kernel) (by decide +kernel)
  have hoptions : Environment.options [("CRUDDY_FORM_FORM__BUTTON_LABEL", "Go")]
      = [("button_label", .str "Go")] := by
    simp [Environment.options, hbutton]
  have henv : Environment.GivesOptions [("CRUDDY_FORM_FORM__BUTTON_LABEL", "Go")] :=
    Environment.givesOptions_of_spellings (by simp [hbutton])
  refine ⟨henv, ?_, by decide +kernel, ?_⟩
  · rw [hoptions]
    decide +kernel
  · rw [(says_form _).load_eq henv]
    have hfaults : (faults (schema.check none (.ofPairs
        (laidOver [("CRUDDY_FORM_FORM__BUTTON_LABEL", "Go")]
          [("form", .ofPairs [("buttonLabel", .str "Send")])])))).map (fun d => (d.cause, d.path))
            = [(.extra, [.key "form", .key "button_label"])] := by decide +kernel
    generalize schema.check none _ = outcome at hfaults ⊢
    cases outcome with
    | ok c => cases hfaults
    | error r =>
        cases r with
        | faults list => exact ⟨list, rfl, hfaults⟩
        | misfit m => cases hfaults

end Settings

end WebForm
