/-
Attributes with their defaults.

An element in which text is typed gets some attributes by default: it is given a placeholder
that is empty, and the help that a browser offers with spelling and filling in is turned off.
An attribute may be there without a text, and such a gap is filled in where it stands.
`withDefaults_completes` describes the result in closed form, for every mapping of attributes
with distinct names:

    withDefaults element inputType attributes
      = attributes.map (fillIn textDefaults) ++ absent textDefaults attributes

if the element takes text, and the attributes as they were if it does not.  So every attribute
stays in its place and a text stays as it is.  Two laws follow from it that a caller relies
on: setting the defaults again changes nothing, and setting texts before the defaults or after
them comes to the same, under every name.

The development goes through lookups first and places second.  As a lookup sees it, a default
counts exactly where nothing else does (`get?_foldl_setDefault`), and both laws are
consequences of that alone.  For the places, setting one default fills in the gap under its
name or adds the name at the end (`setDefault_eq`), and a run of defaults of distinct names
does so for all of them (`foldl_setDefault_eq`).  The run needs an invariant, since a list of
attributes may have a name twice on the way: only the first attribute of a name can be without
a text (`GapsFirst`).
-/
import WebForm.Element.Build
import WebForm.Proofs.Pairs

namespace WebForm.Element

variable {ds : List (String × String)} {attributes : List (String × Option Phrase)}

/-! ## Lookups

Texts that are set win over the defaults, whether they are set before or after them. -/

theorem get?_setDefault (attributes : List (String × Option Phrase)) (d : String × String)
    (key : String) :
    Pairs.get? (setDefault attributes d) key
      = if d.1 = key then some (some ((Pairs.get? attributes key).join.getD (.ofText d.2)))
        else Pairs.get? attributes key := by
  unfold setDefault
  split
  · rename_i hgap
    rw [Pairs.get?_set]
    split
    · rename_i hkey
      rw [← hkey, hgap]
      rfl
    · rfl
  · rename_i t hfound
    split
    · rename_i hkey
      rw [← hkey, hfound]
      exact Option.join_eq_some_iff.mp hfound
    · rfl

/-- What is under a name after some defaults were set: its text, or else its default. -/
theorem get?_foldl_setDefault (ds : List (String × String))
    (attributes : List (String × Option Phrase)) (key : String) :
    Pairs.get? (ds.foldl setDefault attributes) key
      = match Pairs.get? ds key with
        | some t => some (some ((Pairs.get? attributes key).join.getD (.ofText t)))
        | none => Pairs.get? attributes key := by
  induction ds generalizing attributes with
  | nil => rfl
  | cons d ds ih =>
      rw [List.foldl_cons, ih, get?_setDefault, Pairs.get?]
      by_cases hkey : d.1 = key
      · rw [if_pos hkey, if_pos hkey]
        cases Pairs.get? ds key <;> rfl
      · rw [if_neg hkey, if_neg hkey]

theorem foldl_setDefault_of_texts
    (h : ∀ d ∈ ds, (Pairs.get? attributes d.1).join ≠ none) :
    ds.foldl setDefault attributes = attributes := by
  induction ds with
  | nil => rfl
  | cons d ds ih =>
      obtain ⟨hd, hds⟩ := List.forall_mem_cons.mp h
      have hkept : setDefault attributes d = attributes := by
        unfold setDefault
        split
        · rename_i hgap
          exact absurd hgap hd
        · rfl
      rw [List.foldl_cons, hkept, ih hds]

theorem foldl_setDefault_again (ds : List (String × String))
    (attributes : List (String × Option Phrase)) :
    ds.foldl setDefault (ds.foldl setDefault attributes) = ds.foldl setDefault attributes := by
  refine foldl_setDefault_of_texts fun d hd => ?_
  have hkey : d.1 ∈ Pairs.keys ds := List.mem_map.mpr ⟨d, hd, rfl⟩
  obtain ⟨t, ht⟩ := Pairs.has_iff.mp (Pairs.has_iff_mem_keys.mpr hkey)
  rw [get?_foldl_setDefault, ht]
  exact Option.some_ne_none _

theorem get?_setAll_foldl_setDefault (ds : List (String × String))
    (attributes : List (String × Option Phrase)) (texts : List (String × Phrase)) (key : String) :
    Pairs.get? (Pairs.setAll (ds.foldl setDefault attributes) (Pairs.mapValues some texts)) key
      = Pairs.get? (ds.foldl setDefault (Pairs.setAll attributes (Pairs.mapValues some texts)))
          key := by
  rw [get?_foldl_setDefault, Pairs.get?_setAll, Pairs.get?_setAll, get?_foldl_setDefault]
  cases hlast : (Pairs.mapValues some texts).reverse.find? fun p => p.1 = key with
  | none => rfl
  | some p =>
      have hp : p ∈ Pairs.mapValues some texts := List.mem_reverse.mp (List.mem_of_find?_eq_some hlast)
      obtain ⟨q, _, rfl⟩ := List.mem_map.mp hp
      cases Pairs.get? ds key <;> rfl

/-! ## Places

What fills a gap and what is absent is stated for a list of defaults at once, so that the run
is an induction on the list with one default at its front. -/

/-- An attribute with the default of its name, if it has no text. -/
def fillIn (ds : List (String × String)) (p : String × Option Phrase) : String × Option Phrase :=
  (p.1, p.2.or ((Pairs.get? ds p.1).map .ofText))

/-- The defaults whose names are not there. -/
def absent (ds : List (String × String)) (attributes : List (String × Option Phrase)) :
    List (String × Option Phrase) :=
  (ds.filter fun d => !Pairs.has attributes d.1).map fun d => (d.1, some (.ofText d.2))

/-- Only the first attribute of a name can be without a text. -/
def GapsFirst (attributes : List (String × Option Phrase)) : Prop :=
  attributes.Pairwise fun p q => p.1 = q.1 → q.2 ≠ none

theorem gapsFirst_of_nodup (h : (Pairs.keys attributes).Nodup) : GapsFirst attributes :=
  (List.pairwise_map.mp h).imp fun hne heq => absurd heq hne

theorem gapsFirst_of_forall (h : ∀ p ∈ attributes, p.2 ≠ none) : GapsFirst attributes :=
  List.pairwise_of_forall_mem_list fun _ _ q hq _ => h q hq

theorem fillIn_append (ds more : List (String × String)) (p : String × Option Phrase) :
    fillIn more (fillIn ds p) = fillIn (ds ++ more) p := by
  unfold fillIn
  rw [Pairs.get?_append, Option.or_assoc, Option.map_or]

theorem fillIn_of_ne_none {p : String × Option Phrase} (h : p.2 ≠ none)
    (ds : List (String × String)) : fillIn ds p = p := by
  obtain ⟨key, t⟩ := p
  cases t with
  | none => exact absurd rfl h
  | some t => rfl

theorem fillIn_of_get?_eq_none {p : String × Option Phrase} (h : Pairs.get? ds p.1 = none) :
    fillIn ds p = p := by
  rw [fillIn, h, Option.map_none, Option.or_none]

theorem map_fillIn_of_forall (h : ∀ p ∈ attributes, p.2 ≠ none) (ds : List (String × String)) :
    attributes.map (fillIn ds) = attributes :=
  (List.map_congr_left fun p hp => fillIn_of_ne_none (h p hp) ds).trans (List.map_id _)

theorem ne_none_of_mem_absent {p : String × Option Phrase} (h : p ∈ absent ds attributes) :
    p.2 ≠ none := by
  obtain ⟨d, _, rfl⟩ := List.mem_map.mp h
  exact Option.some_ne_none _

theorem absent_append (ds more : List (String × String))
    (attributes : List (String × Option Phrase)) :
    absent (ds ++ more) attributes = absent ds attributes ++ absent more attributes := by
  unfold absent
  rw [List.filter_append, List.map_append]

theorem absent_setDefault {d : String × String} (h : d.1 ∉ Pairs.keys ds)
    (attributes : List (String × Option Phrase)) :
    absent ds (setDefault attributes d) = absent ds attributes := by
  unfold absent
  refine congrArg (List.map _) (List.filter_congr fun c hc => ?_)
  have hne : d.1 ≠ c.1 := fun heq => h (heq ▸ List.mem_map.mpr ⟨c, hc, rfl⟩)
  rw [Pairs.has, Pairs.has, get?_setDefault, if_neg hne]

/-- Setting one default fills in the gap under its name, or adds the name at the end. -/
theorem setDefault_eq (h : GapsFirst attributes) (d : String × String) :
    setDefault attributes d = attributes.map (fillIn [d]) ++ absent [d] attributes := by
  have hother : ∀ p : String × Option Phrase, p.1 ≠ d.1 → fillIn [d] p = p := fun p hp =>
    fillIn_of_get?_eq_none (if_neg fun heq => hp heq.symm)
  induction attributes with
  | nil => rfl
  | cons p rest ih =>
      obtain ⟨hfirst, hrest⟩ := List.pairwise_cons.mp h
      by_cases hkey : p.1 = d.1
      · have hkept : rest.map (fillIn [d]) = rest := by
          refine (List.map_congr_left fun q hq => ?_).trans (List.map_id rest)
          by_cases hq' : q.1 = d.1
          · exact fillIn_of_ne_none (hfirst q hq (hkey.trans hq'.symm)) [d]
          · exact hother q hq'
        have hget : Pairs.get? (p :: rest) d.1 = some p.2 := if_pos hkey
        have habsent : absent [d] (p :: rest) = [] := by
          rw [absent, List.filter_cons_of_neg (by simp [Pairs.has, hget])]
          rfl
        rw [habsent, List.append_nil, List.map_cons, hkept, setDefault, hget, Option.join_some]
        obtain ⟨key, t⟩ := p
        cases t with
        | some t => rfl
        | none =>
            subst hkey
            simp [Pairs.set, fillIn, Pairs.get?]
      · have hget : Pairs.get? (p :: rest) d.1 = Pairs.get? rest d.1 := if_neg hkey
        have habsent : absent [d] (p :: rest) = absent [d] rest := by
          simp only [absent, Pairs.has, List.filter_cons, List.filter_nil, hget]
        have hstep : setDefault (p :: rest) d = p :: setDefault rest d := by
          unfold setDefault
          rw [hget]
          split
          · exact Pairs.set_cons_of_ne hkey rest _
          · rfl
        rw [hstep, ih hrest, habsent, List.map_cons, hother p hkey, List.cons_append]

theorem GapsFirst.set (h : GapsFirst attributes) (d : String × String) :
    GapsFirst (setDefault attributes d) := by
  rw [setDefault_eq h]
  refine List.pairwise_append.mpr
    ⟨?_, gapsFirst_of_forall fun _ => ne_none_of_mem_absent, fun _ _ _ hq _ => ne_none_of_mem_absent hq⟩
  refine List.pairwise_map.mpr (h.imp fun {p q} hgap heq => ?_)
  rw [fillIn_of_ne_none (hgap heq)]
  exact hgap heq

/-- Defaults of distinct names fill in the gaps in their places, and follow where their names are
not there. -/
theorem foldl_setDefault_eq (hds : (Pairs.keys ds).Nodup) (h : GapsFirst attributes) :
    ds.foldl setDefault attributes = attributes.map (fillIn ds) ++ absent ds attributes := by
  induction ds generalizing attributes with
  | nil =>
      have hnil : attributes.map (fillIn []) = attributes :=
        (List.map_congr_left fun p _ => fillIn_of_get?_eq_none rfl).trans (List.map_id attributes)
      rw [hnil]
      exact (List.append_nil attributes).symm
  | cons d ds ih =>
      obtain ⟨hd, hds⟩ := List.nodup_cons.mp hds
      have hfilled : (attributes.map (fillIn [d])).map (fillIn ds)
          = attributes.map (fillIn (d :: ds)) := by
        rw [List.map_map]
        exact List.map_congr_left fun p _ => fillIn_append [d] ds p
      calc (d :: ds).foldl setDefault attributes
          = (setDefault attributes d).map (fillIn ds) ++ absent ds (setDefault attributes d) :=
            ih hds (h.set d)
        _ = (attributes.map (fillIn [d]) ++ absent [d] attributes).map (fillIn ds)
              ++ absent ds attributes := by rw [absent_setDefault hd, setDefault_eq h]
        _ = attributes.map (fillIn (d :: ds)) ++ (absent [d] attributes ++ absent ds attributes) := by
            rw [List.map_append, hfilled, map_fillIn_of_forall fun _ => ne_none_of_mem_absent,
              List.append_assoc]
        _ = attributes.map (fillIn (d :: ds)) ++ absent (d :: ds) attributes := by
            rw [← absent_append]
            rfl

/-! ## Elements

Before an element has any gap, its defaults are simply those whose names are not there. -/

theorem complete_eq (element : String) (inputType : Option String)
    (attributes : List (String × Phrase)) :
    complete element inputType attributes
      = attributes ++ if isTextEditable element inputType
          then (textDefaults.filter fun d => !Pairs.has attributes d.1).map
            fun d => (d.1, Phrase.ofText d.2)
          else [] := by
  have hfilled : ∀ l : List (String × Phrase),
      (Pairs.mapValues some l).map (fun p => (p.1, p.2.getD (.ofText ""))) = l := by
    intro l
    rw [Pairs.mapValues, List.map_map]
    exact List.map_id' l
  have habsent : absent textDefaults (Pairs.mapValues some attributes)
      = Pairs.mapValues some ((textDefaults.filter fun d => !Pairs.has attributes d.1).map
          fun d => (d.1, Phrase.ofText d.2)) := by
    simp only [absent, Pairs.has_mapValues]
    rw [Pairs.mapValues, List.map_map]
    rfl
  have htexts : ∀ p ∈ Pairs.mapValues some attributes, p.2 ≠ none := by
    intro p hp
    obtain ⟨q, _, rfl⟩ := List.mem_map.mp hp
    exact Option.some_ne_none _
  show (withDefaults element inputType (Pairs.mapValues some attributes)).map _ = _
  unfold withDefaults
  split
  · rw [foldl_setDefault_eq (by decide) (gapsFirst_of_forall htexts), map_fillIn_of_forall htexts,
      habsent, ← Pairs.mapValues_append, hfilled]
  · rw [hfilled, List.append_nil]

/-- An element in which text is typed gets its defaults: every attribute stays in its place, a text
stays as it is, a gap is filled in if its name has a default, and the defaults that are not there
follow in order.  No other element gets any.  Doing it again changes nothing, and texts may be set
before it or after. -/
theorem withDefaults_completes (element : String) (inputType : Option String)
    {attributes : List (String × Option Phrase)} (h : (Pairs.keys attributes).Nodup) :
    withDefaults element inputType attributes
        = (if isTextEditable element inputType
            then attributes.map (fillIn textDefaults) ++ absent textDefaults attributes
            else attributes) ∧
      withDefaults element inputType (withDefaults element inputType attributes)
        = withDefaults element inputType attributes ∧
      ∀ (texts : List (String × Phrase)) (key : String),
        Pairs.get? (Pairs.setAll (withDefaults element inputType attributes)
            (Pairs.mapValues some texts)) key
          = Pairs.get? (withDefaults element inputType
              (Pairs.setAll attributes (Pairs.mapValues some texts))) key := by
  unfold withDefaults
  split
  · exact ⟨foldl_setDefault_eq (by decide) (gapsFirst_of_nodup h), foldl_setDefault_again _ _,
      get?_setAll_foldl_setDefault _ _⟩
  · exact ⟨rfl, rfl, fun _ _ => rfl⟩

/-- Attributes of a search box: two gaps, one of them under the name of a default, and a value. -/
def searchAttributes : List (String × Option Phrase) :=
  [("name", some (.ofText "q")), ("placeholder", none), ("list", none), ("value", some (.ofText "go")),
    ("spellcheck", some (.ofText "true"))]

/-- The box gets the four defaults that it lacks, one of them in its place, and a value that is set
wins, whether it is set before or after. -/
theorem search_completes :
    (Pairs.keys searchAttributes).Nodup ∧
      withDefaults "input" (some "search") searchAttributes
        = [("name", some (.ofText "q")), ("placeholder", some (.ofText "")), ("list", none),
            ("value", some (.ofText "go")), ("spellcheck", some (.ofText "true")),
            ("autocapitalize", some (.ofText "off")), ("autocomplete", some (.ofText "off")),
            ("autocorrect", some (.ofText "off"))] ∧
      ∀ key, Pairs.get? (Pairs.set (withDefaults "input" (some "search") searchAttributes) "placeholder"
          (some (.ofText "Search"))) key
        = Pairs.get? (withDefaults "input" (some "search")
            (Pairs.set searchAttributes "placeholder" (some (.ofText "Search")))) key := by
  have hkeys : (Pairs.keys searchAttributes).Nodup := by decide
  obtain ⟨hplaces, _, hset⟩ := withDefaults_completes "input" (some "search") hkeys
  exact ⟨hkeys, hplaces.trans (by decide +kernel), hset [("placeholder", .ofText "Search")]⟩

end WebForm.Element
