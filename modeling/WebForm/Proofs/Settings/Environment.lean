/-
What the environment says of the options of a form.

The variable for an option has the start that all of them share and a spelling of the option
at its end, in letters of any case.  Names of variables are made small before they are read.
Made small, an alias can still be told from all other spellings, and a name stays as it is, so
that the spelling can be found again (`optionName_lower`):

    k ∈ allSpellings → optionName (lower k) = k

The environment therefore says which spelling it uses, and `options env` lists what it says of
single options, under these spellings.

The variables are read in several steps, which go through texts, nested mappings and names
that are set right at the end.  Reading them one after another comes to the same as listing
them, provided that no option is named twice by one spelling: then the later value would take
the place of the former (`mem_spelled_iff`, `form?_variablesByName`).

Of an environment it is assumed that what it says of the form it says of single options
(`GivesOptions`).  There may be no variable for the form as a whole, which would hold a
mapping as a text, and a variable that starts like one for an option has to end with a
spelling.  Other variables may be there in any number.

Case is a matter of Unicode here: a variable with a character outside of ASCII may have the
small form of an option, and then it is one for the option.
-/
import WebForm.Proofs.Settings.Options
import WebForm.Proofs.SmallLetters
import WebForm.Settings.Environment

namespace WebForm.Environment

open WebForm.Text
open Options (fields spellings)

/-- The spellings of all options. -/
def allSpellings : List String := fields.flatMap spellings

/-- How the variables for options start, in small letters. -/
def optionStart : String := "cruddy_form_form__"

/-- The spelling of an option that a variable is for, in letters of any case. -/
def spelling? (name : String) : Option String :=
  allSpellings.find? fun k => lower name = optionStart ++ lower k

/-- The options that an environment gives, under the spellings that it uses. -/
def options (env : List (String × String)) : List (String × Value) :=
  env.filterMap fun p => (spelling? p.1).map fun k => (k, .str p.2)

/-- What the environment says of the form it says of single options. -/
structure GivesOptions (env : List (String × String)) : Prop where
  apart : ∀ p ∈ env, lower p.1 ≠ "cruddy_form_form"
  known : ∀ p ∈ env, optionStart.toList <+: (lower p.1).toList →
    ∃ k ∈ allSpellings, lower p.1 = optionStart ++ lower k

/-! ## Spellings in small letters

There are finitely many spellings, and all are in ASCII, so that their small forms are
compared by computing them. -/

/-- The text is in ASCII. -/
def isAscii (s : String) : Bool := s.toList.all fun c => c.toNat < 128

/-- The small letters of a text in ASCII. -/
def smallLetters (s : String) : String := String.ofList (s.toList.map Char.toLower)

theorem lower_of_isAscii {s : String} (h : isAscii s = true) : lower s = smallLetters s :=
  lower_of_ascii fun c hc => of_decide_eq_true (List.all_eq_true.mp h c hc)

theorem lower_eq_smallLetters : ∀ k ∈ allSpellings, lower k = smallLetters k := by
  have ascii : allSpellings.all isAscii = true := by decide +kernel
  exact fun k hk => lower_of_isAscii (List.all_eq_true.mp ascii k hk)

/-- The small letters of a spelling tell which one it is. -/
theorem optionName_lower {k : String} (hk : k ∈ allSpellings) : optionName (lower k) = k := by
  have known : ∀ f ∈ fields, f.knownAs.getD f.name ∈ allSpellings := by decide +kernel
  have found : ∀ k ∈ allSpellings, ((fields.map fun f => f.knownAs.getD f.name).find?
      fun k' => smallLetters k' == smallLetters k).getD (smallLetters k) = k := by decide +kernel
  unfold optionName
  dsimp only
  rw [lower_lower, lower_eq_smallLetters k hk]
  rw [← List.head?_filter, List.filter_congr (q := fun k' => smallLetters k' == smallLetters k),
    List.head?_filter]
  · exact found k hk
  · intro k' hk'
    obtain ⟨f, hf, rfl⟩ := List.mem_map.mp hk'
    rw [lower_eq_smallLetters _ (known f hf)]

theorem eq_of_lower_eq {k k' : String} (hk : k ∈ allSpellings) (hk' : k' ∈ allSpellings)
    (h : lower k = lower k') : k = k' := by
  rw [← optionName_lower hk, h, optionName_lower hk']

theorem parts_lower {k : String} (hk : k ∈ allSpellings) :
    parts [] (lower k).toList = [lower k] := by
  have whole : ∀ k ∈ allSpellings, parts [] (smallLetters k).toList = [smallLetters k] := by
    decide +kernel
  rw [lower_eq_smallLetters k hk]
  exact whole k hk

theorem spelling?_eq_some_iff {name k : String} :
    spelling? name = some k ↔ k ∈ allSpellings ∧ lower name = optionStart ++ lower k := by
  constructor
  · intro h
    exact ⟨List.mem_of_find?_eq_some h, by simpa using List.find?_some h⟩
  · rintro ⟨hk, hname⟩
    cases hfind : spelling? name with
    | none => exact absurd (decide_eq_true hname) (List.find?_eq_none.mp hfind k hk)
    | some k' =>
        have hname' : lower name = optionStart ++ lower k' := by simpa using List.find?_some hfind
        have hlower : lower k = lower k' := String.append_right_inj _ |>.mp (hname.symm.trans hname')
        rw [eq_of_lower_eq hk (List.mem_of_find?_eq_some hfind) hlower]

theorem spelling?_of_isAscii {name k : String} (hname : isAscii name = true) (hk : k ∈ allSpellings)
    (h : smallLetters name = optionStart ++ smallLetters k) : spelling? name = some k := by
  rw [spelling?_eq_some_iff, lower_of_isAscii hname, lower_eq_smallLetters k hk]
  exact ⟨hk, h⟩

theorem givesOptions_of_spellings {env : List (String × String)}
    (h : ∀ p ∈ env, ∃ k, spelling? p.1 = some k) : GivesOptions env where
  apart p hp := by
    obtain ⟨k, hk⟩ := h p hp
    rw [(spelling?_eq_some_iff.mp hk).2, ← String.toList_inj.ne, String.toList_append]
    exact fun heq => absurd (congrArg List.length heq) (by simp [optionStart])
  known p hp _ := by
    obtain ⟨k, hk⟩ := h p hp
    exact ⟨k, spelling?_eq_some_iff.mp hk⟩

theorem mem_options_iff {env : List (String × String)} {e : String × Value} :
    e ∈ options env
      ↔ e.1 ∈ allSpellings ∧ ∃ p ∈ env, lower p.1 = optionStart ++ lower e.1 ∧ e.2 = .str p.2 := by
  unfold options
  rw [List.mem_filterMap]
  constructor
  · rintro ⟨p, hp, h⟩
    obtain ⟨k, hk, rfl⟩ := Option.map_eq_some_iff.mp h
    obtain ⟨hmem, hname⟩ := spelling?_eq_some_iff.mp hk
    exact ⟨hmem, p, hp, hname, rfl⟩
  · rintro ⟨hmem, p, hp, hname, hvalue⟩
    exact ⟨p, hp, by rw [spelling?_eq_some_iff.mpr ⟨hmem, hname⟩, ← hvalue]; rfl⟩

theorem behind?_eq_some_iff {name : String} {rest : List Char} :
    behind? "form" name = some rest ↔ name = optionStart ++ String.ofList rest := by
  have head : (start ++ "form").toList ++ delimiter = optionStart.toList := by decide
  unfold behind?
  rw [head, ← String.toList_inj, String.toList_append, String.toList_ofList]
  dsimp only
  split
  · rename_i hprefix
    obtain ⟨rest', heq⟩ := List.isPrefixOf_iff_prefix.mp hprefix
    rw [← heq, List.drop_left, Option.some.injEq, List.append_cancel_left_eq]
  · rename_i hprefix
    refine ⟨fun h => (nomatch h), fun h => absurd ?_ hprefix⟩
    exact List.isPrefixOf_iff_prefix.mpr ⟨rest, h.symm⟩

/-! ## Reading the variables -/

/-- A variable for an option, by what follows in its name. -/
def spoken? (p : String × String) : Option (String × Value) :=
  (behind? "form" p.1).map fun rest => (String.ofList rest, .str p.2)

section

variable {vars : List (String × String)}

theorem nested_eq (h : ∀ p ∈ vars, ∀ rest, behind? "form" p.1 = some rest →
      parts [] rest = [String.ofList rest]) :
    nested vars = Value.keyed (Pairs.setAll [] (vars.filterMap spoken?)) := by
  refine Value.foldl_keyed spoken? (fun p hp acc => ?_) []
  unfold spoken?
  cases hbehind : behind? "form" p.1 with
  | none => rfl
  | some rest =>
      dsimp only
      rw [h p hp rest hbehind, put, Value.setEntry_keyed]
      rfl

theorem withOptionNames_keyed (pairs : List (String × Value)) :
    withOptionNames (Value.keyed pairs)
      = Value.keyed (Pairs.setAll [] (pairs.map fun p => (optionName p.1, p.2))) := by
  have hnames : (pairs.map fun p => (optionName p.1, p.2))
      = pairs.filterMap fun p => some (optionName p.1, p.2) :=
    (congrFun List.filterMap_eq_map' pairs).symm
  rw [hnames]
  refine List.foldl_map.trans (Value.foldl_keyed _ (fun p _ acc => ?_) [])
  exact Value.setEntry_keyed acc (optionName p.1) p.2

end

/-! ## All variables

Variables that differ in case alone are one variable, and the last of them counts. -/

section

variable {env : List (String × String)}

theorem nodup_variablesByName (env : List (String × String)) :
    (Pairs.keys (variablesByName env)).Nodup := by
  have hnil : (Pairs.keys ([] : List (String × String))).Nodup := List.nodup_nil
  exact Pairs.nodup_keys_setAll hnil _

theorem exists_of_mem_variablesByName {p : String × String} (h : p ∈ variablesByName env) :
    ∃ q ∈ env, lower q.1 = p.1 ∧ q.2 = p.2 := by
  have hmem := (Pairs.mem_of_mem_setAll h).resolve_left List.not_mem_nil
  obtain ⟨q, hq, rfl⟩ := List.mem_map.mp hmem
  exact ⟨q, (Pairs.mem_of_mem_setAll hq).resolve_left List.not_mem_nil, rfl, rfl⟩

theorem exists_mem_variablesByName {p : String × String} (h : p ∈ env) :
    ∃ t, (lower p.1, t) ∈ variablesByName env := by
  have hexact : p.1 ∈ Pairs.keys (Pairs.setAll [] env) :=
    Pairs.mem_keys_setAll.mpr (Or.inr (List.mem_map.mpr ⟨p, h, rfl⟩))
  obtain ⟨q, hq, hname⟩ := List.mem_map.mp hexact
  have hkey : lower p.1 ∈ Pairs.keys (variablesByName env) := by
    refine Pairs.mem_keys_setAll.mpr (Or.inr ?_)
    exact List.mem_map.mpr ⟨_, List.mem_map.mpr ⟨q, hq, rfl⟩, congrArg lower hname⟩
  obtain ⟨q', hq', hname'⟩ := List.mem_map.mp hkey
  exact ⟨q'.2, hname' ▸ hq'⟩

/-- What variables for options say, each under the small letters of a spelling. -/
def spoken (env : List (String × String)) : List (String × Value) :=
  (variablesByName env).filterMap spoken?

theorem mem_spoken_iff (h : GivesOptions env) {e : String × Value} :
    e ∈ spoken env ↔ ∃ k ∈ allSpellings, e.1 = lower k ∧
      ∃ t, (optionStart ++ lower k, t) ∈ variablesByName env ∧ e.2 = .str t := by
  unfold spoken spoken?
  rw [List.mem_filterMap]
  constructor
  · rintro ⟨p, hp, heq⟩
    obtain ⟨rest, hrest, rfl⟩ := Option.map_eq_some_iff.mp heq
    have hname := behind?_eq_some_iff.mp hrest
    obtain ⟨q, hq, hlower, -⟩ := exists_of_mem_variablesByName hp
    have hstart : optionStart.toList <+: (lower q.1).toList := by
      rw [hlower, hname, String.toList_append]
      exact List.prefix_append _ _
    obtain ⟨k, hk, hoption⟩ := h.known q hq hstart
    rw [hlower, hname] at hoption
    have hspelled := (String.append_right_inj _).mp hoption
    refine ⟨k, hk, hspelled, p.2, ?_, rfl⟩
    rw [← hspelled, ← hname]
    exact hp
  · rintro ⟨k, hk, hkey, t, ht, hvalue⟩
    refine ⟨_, ht, ?_⟩
    have hrest : behind? "form" (optionStart ++ lower k) = some (lower k).toList :=
      behind?_eq_some_iff.mpr (by rw [String.ofList_toList])
    dsimp only
    rw [hrest, Option.map_some, String.ofList_toList, ← hkey, ← hvalue]

theorem nodup_keys_spoken (env : List (String × String)) : (Pairs.keys (spoken env)).Nodup := by
  have hkeys : Pairs.keys (spoken env)
      = (Pairs.keys (variablesByName env)).filterMap
          fun name => (behind? "form" name).map String.ofList := by
    unfold spoken spoken? Pairs.keys
    rw [List.map_filterMap, List.filterMap_map]
    refine List.filterMap_congr fun p _ => ?_
    rw [Option.map_map]
    rfl
  rw [hkeys]
  refine List.Nodup.filterMap (fun name name' key h h' => ?_) (nodup_variablesByName env)
  obtain ⟨rest, hrest, rfl⟩ := Option.map_eq_some_iff.mp h
  obtain ⟨rest', hrest', heq⟩ := Option.map_eq_some_iff.mp h'
  rw [behind?_eq_some_iff.mp hrest, behind?_eq_some_iff.mp hrest', heq]

/-- What variables for options say, each under the spelling that it uses. -/
def spelled (env : List (String × String)) : List (String × Value) :=
  (spoken env).map fun p => (optionName p.1, p.2)

theorem nodup_keys_spelled (h : GivesOptions env) : (Pairs.keys (spelled env)).Nodup := by
  have hnames : Pairs.keys (spelled env) = (Pairs.keys (spoken env)).map optionName := by
    rw [spelled, Pairs.keys, Pairs.keys, List.map_map, List.map_map]
    rfl
  have small : ∀ x ∈ Pairs.keys (spoken env), x = lower (optionName x) := by
    intro x hx
    obtain ⟨p, hp, rfl⟩ := List.mem_map.mp hx
    obtain ⟨k, hk, hkey, -⟩ := (mem_spoken_iff h).mp hp
    rw [hkey, optionName_lower hk]
  rw [hnames]
  refine List.Nodup.map_on (fun x hx y hy heq => ?_) (nodup_keys_spoken env)
  rw [small x hx, heq, ← small y hy]

/-- If no option is named twice, the variables say what the environment says. -/
theorem mem_spelled_iff (h : GivesOptions env)
    (honce : ∀ e ∈ options env, ∀ e' ∈ options env, e.1 = e'.1 → e = e') {e : String × Value} :
    e ∈ spelled env ↔ e ∈ options env := by
  have said : ∀ {k}, k ∈ allSpellings → ∀ {t}, (optionStart ++ lower k, t) ∈ variablesByName env →
      (k, .str t) ∈ options env := by
    intro k hk t ht
    obtain ⟨q, hq, hname, hvalue⟩ := exists_of_mem_variablesByName ht
    exact mem_options_iff.mpr ⟨hk, q, hq, hname, congrArg Value.str hvalue.symm⟩
  constructor
  · intro he
    obtain ⟨p, hp, rfl⟩ := List.mem_map.mp he
    obtain ⟨k, hk, hkey, t, ht, hvalue⟩ := (mem_spoken_iff h).mp hp
    rw [hkey, hvalue, optionName_lower hk]
    exact said hk ht
  · intro he
    obtain ⟨hk, p, hp, hname, hvalue⟩ := mem_options_iff.mp he
    obtain ⟨t, ht⟩ := exists_mem_variablesByName hp
    rw [hname] at ht
    refine List.mem_map.mpr ⟨(lower e.1, .str t), ?_, ?_⟩
    · exact (mem_spoken_iff h).mpr ⟨e.1, hk, rfl, t, ht, rfl⟩
    · rw [optionName_lower hk]
      exact honce _ (said hk ht) _ he rfl

/-- The environment gives the form a mapping of the options that are named, if there are any. -/
theorem form?_variablesByName (h : GivesOptions env) :
    form? (variablesByName env)
      = some (if (spelled env).isEmpty then none else some (.ofPairs (spelled env))) := by
  have hstart : start ++ "form" = "cruddy_form_form" := by decide
  have hwhole : Pairs.get? (variablesByName env) (start ++ "form") = none := by
    rw [hstart, Pairs.get?_eq_none_iff]
    intro hmem
    obtain ⟨p, hp, hname⟩ := List.mem_map.mp hmem
    obtain ⟨q, hq, hlower, -⟩ := exists_of_mem_variablesByName hp
    exact h.apart q hq (hlower.trans hname)
  have hparts : ∀ p ∈ variablesByName env, ∀ rest, behind? "form" p.1 = some rest →
      parts [] rest = [String.ofList rest] := by
    intro p hp rest hrest
    have hspoken : (String.ofList rest, Value.str p.2) ∈ spoken env :=
      List.mem_filterMap.mpr ⟨p, hp, by rw [spoken?, hrest]; rfl⟩
    obtain ⟨k, hk, hkey, -⟩ := (mem_spoken_iff h).mp hspoken
    have hkey : String.ofList rest = lower k := hkey
    have hwhole := parts_lower hk
    rwa [← hkey, String.toList_ofList] at hwhole
  unfold form?
  rw [hwhole]
  dsimp only
  rw [nested_eq hparts, ← spoken, Pairs.setAll_nil_of_nodup (nodup_keys_spoken env),
    withOptionNames_keyed, ← spelled, Pairs.setAll_nil_of_nodup (nodup_keys_spelled h), Value.keyed,
    List.isEmpty_map, ← List.isEmpty_map (f := fun p : String × Value => (optionName p.1, p.2))]
  rfl

end

end WebForm.Environment
