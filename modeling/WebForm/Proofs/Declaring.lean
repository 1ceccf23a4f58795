/-
Declared attributes, read back.

What is written down for a field is found again in its definition.  A definition has the
attributes that its field declares, as they are, and behind them those that the limits of the
field give rise to, where none of that name is declared:

    (ofField c f).attributes = f.declared.getD [] ++ (limits of f).filter (not declared)

so that what is declared counts.  The limits come from several declarations, the field's own
and those on its type, of which each may or may not limit the length or the text.  Of each
sort the last one counts (`Limit.last?_flatMap`), and the attributes have an order of their
own: least length, greatest length, pattern.  A pattern is shown as its source, whatever the
way in which it is searched for.

What is written down for a field's element has two parts, attributes with a place of their own
and any others, whose names may end in underscores to keep clear of reserved words.  All of it
is held in order as long as no name is written down twice, for then every attribute is a new
one.  Where two names come to one, the later value takes the place of the earlier; this is
left out of the statement.

`ofField_readsBack` puts the two together for all fields and all that can be written down for
them.
-/
import Mathlib.Data.List.DropRight
import WebForm.Proofs.Declared

namespace WebForm

/-! ## What is declared of limits

The limits of a field are a list, and each declaration adds a part to it in which a sort
occurs at most once.  So the last limit of a sort is that of the last declaration which has
one. -/

/-- What is declared of the limits on a type as a whole, the inner declarations first. -/
def Ty.outerDeclarations : Ty → List Limits
  | .limited t limits => t.outerDeclarations ++ [limits]
  | _ => []

/-- What is declared of the limits of a field: its own, and then those on its type as a whole. -/
def FieldOf.limitDeclarations (f : Field) : List Limits := f.limits :: f.type.outerDeclarations

theorem FieldOf.limitDeclarations_foldl (f : Field) (ds : List Limits) :
    FieldOf.limitDeclarations { f with type := ds.foldl .limited f.type }
      = f.limitDeclarations ++ ds := by
  have houter : ∀ t : Ty, (ds.foldl .limited t).outerDeclarations = t.outerDeclarations ++ ds := by
    induction ds with
    | nil => exact fun t => (List.append_nil _).symm
    | cons d ds ih =>
        intro t
        rw [List.foldl_cons, ih, Ty.outerDeclarations, List.append_assoc, List.singleton_append]
  rw [limitDeclarations, houter, limitDeclarations, List.cons_append]

theorem Ty.outerLimits_eq : ∀ t : Ty, t.outerLimits = t.outerDeclarations.flatMap Limits.toList
  | .limited t limits => by
      rw [outerLimits, outerDeclarations, outerLimits_eq t, List.flatMap_append, List.flatMap_singleton]
  | .any | .none | .str | .int | .float | .bool | .date | .bare _ | .many _ _ | .positions _
  | .dict _ _ | .optional _ | .choice _ _ | .literal _ | .enumeration _ | .record _ => rfl

theorem FieldOf.allLimits_eq (f : Field) :
    f.allLimits = f.limitDeclarations.flatMap Limits.toList := by
  rw [allLimits, limitDeclarations, List.flatMap_cons, Ty.outerLimits_eq]

namespace Limit

variable {α β : Type} {pick : Limit → Option α} {get : Limits → Option α}

/-- Of some declarations, the last that has a limit of a sort counts. -/
theorem last?_flatMap (h : ∀ d : Limits, d.toList.filterMap pick = (get d).toList)
    (ds : List Limits) : last? pick (ds.flatMap Limits.toList) = (ds.filterMap get).getLast? := by
  rw [last?, ← List.getLast?_filterMap, List.filterMap_flatMap]
  simp only [h]
  rw [List.filterMap_eq_flatMap_toList]

theorem filterMap_toList_map (make : β → Limit) (o : Option β) :
    (o.map make).toList.filterMap pick = (o.bind fun b => pick (make b)).toList := by
  cases o with
  | none => rfl
  | some b =>
      show [make b].filterMap pick = (pick (make b)).toList
      cases hpick : pick (make b) with
      | none => rw [List.filterMap_cons_none hpick]; rfl
      | some a => rw [List.filterMap_cons_some hpick]; rfl

theorem least?_flatMap (ds : List Limits) :
    least? (ds.flatMap Limits.toList) = (ds.filterMap (·.minLength)).getLast? :=
  last?_flatMap (fun d => by simp [Limits.toList, List.filterMap_append, filterMap_toList_map]) ds

theorem most?_flatMap (ds : List Limits) :
    most? (ds.flatMap Limits.toList) = (ds.filterMap (·.maxLength)).getLast? :=
  last?_flatMap (fun d => by simp [Limits.toList, List.filterMap_append, filterMap_toList_map]) ds

theorem pattern?_flatMap (ds : List Limits) :
    pattern? (ds.flatMap Limits.toList) = (ds.filterMap (·.pattern)).getLast? :=
  last?_flatMap (fun d => by simp [Limits.toList, List.filterMap_append, filterMap_toList_map]) ds

end Limit

namespace Definition

/-- The attributes of the limits that are declared: of each sort the last one, and of a pattern its
source, however it is searched for. -/
def ofDeclarations (ds : List Limits) : List (String × Value) :=
  ((ds.filterMap (·.minLength)).getLast?.map fun n : Nat => ("minLength", Value.int n)).toList
    ++ ((ds.filterMap (·.maxLength)).getLast?.map fun n : Nat => ("maxLength", Value.int n)).toList
    ++ ((ds.filterMap (·.pattern)).getLast?.map fun p => ("pattern", Value.str p.source)).toList

theorem ofLimits_flatMap (ds : List Limits) :
    ofLimits (ds.flatMap Limits.toList) = ofDeclarations ds := by
  unfold ofLimits ofDeclarations
  rw [Limit.least?_flatMap, Limit.most?_flatMap, Limit.pattern?_flatMap]
  cases (ds.filterMap (·.minLength)).getLast? <;> cases (ds.filterMap (·.maxLength)).getLast? <;>
    cases (ds.filterMap (·.pattern)).getLast? <;> rfl

theorem attributes_ofField (c : Config) (f : Field) :
    (ofField c f).attributes
      = f.declared.getD [] ++ (ofDeclarations f.limitDeclarations).filter fun p =>
          !Pairs.has (f.declared.getD []) p.1 := by
  rw [ofField, addMissing, f.allLimits_eq, ofLimits_flatMap]

end Definition

/-! ## What is written down for an element

The bare name of an attribute is what is left when all underscores at its end are taken away. -/

namespace Declaration

theorem toList_bareName (name : String) :
    (bareName name).toList = name.toList.rdropWhile (· = '_') := String.toList_ofList

theorem bareName_eq_iff {name bare : String} :
    bareName name = bare ↔
      (∃ n, name.toList = bare.toList ++ List.replicate n '_') ∧ bare.toList.getLast? ≠ some '_' := by
  constructor
  · rintro rfl
    rw [toList_bareName]
    constructor
    · have hall : ∀ c ∈ name.toList.rtakeWhile (· = '_'), c = '_' :=
        fun c hc => of_decide_eq_true (List.mem_rtakeWhile_imp (p := (· = '_')) hc)
      exact ⟨_, by rw [← List.eq_replicate_of_mem hall, List.rdropWhile_append_rtakeWhile]⟩
    · intro hlast
      have hne : name.toList.rdropWhile (· = '_') ≠ [] := by
        intro hnil
        rw [hnil] at hlast
        cases hlast
      rw [List.getLast?_eq_some_getLast hne] at hlast
      exact List.rdropWhile_last_not _ _ hne (decide_eq_true (Option.some.inj hlast))
  · rintro ⟨⟨n, hn⟩, hlast⟩
    refine String.toList_inj.mp ?_
    rw [toList_bareName, hn]
    clear hn
    induction n with
    | zero =>
        rw [List.replicate_zero, List.append_nil, List.rdropWhile_eq_self_iff]
        intro hne hunderscore
        rw [List.getLast?_eq_some_getLast hne] at hlast
        exact hlast (congrArg some (of_decide_eq_true hunderscore))
    | succ n ih =>
        rw [List.replicate_succ', ← List.append_assoc, List.rdropWhile_concat_pos _ _ _ (by decide), ih]

/-- The other attributes have distinct bare names, and none of them has a place of its own. -/
structure NamesApart (d : Declaration) : Prop where
  distinct : (d.others.map fun p => bareName p.1).Nodup
  other : ∀ p ∈ d.others, bareName p.1 ∉ Definition.ownMeaning

variable {d : Declaration}

/-- The attributes with a place of their own. -/
def ownAttributes (d : Declaration) : List (String × Value) :=
  [("element", d.element), ("inputType", d.inputType)] ++ d.optional

theorem keys_ownAttributes_sublist (d : Declaration) :
    (Pairs.keys d.ownAttributes).Sublist
      ["element", "inputType", "label", "hint", "endpoint", "placeholder", "elementValue"] := by
  have hoptional : (Pairs.keys d.optional).Sublist
      ["label", "hint", "endpoint", "placeholder", "elementValue"] := List.filter_sublist.map _
  rw [ownAttributes, Pairs.keys_append]
  exact (List.append_sublist_append_left _).mpr hoptional

theorem nodup_keys (h : d.NamesApart) :
    (Pairs.keys (d.ownAttributes ++ d.others.map fun p => (bareName p.1, p.2))).Nodup := by
  have hown := keys_ownAttributes_sublist d
  rw [Pairs.keys_append, List.nodup_append, Pairs.keys, Pairs.keys, List.map_map]
  refine ⟨hown.nodup (by decide), h.distinct, ?_⟩
  intro key hkey key' hkey' heq
  obtain ⟨p, hp, rfl⟩ := List.mem_map.mp hkey'
  refine h.other p hp ?_
  rw [← show key = bareName p.1 from heq]
  exact (by decide : ["element", "inputType", "label", "hint", "endpoint", "placeholder",
    "elementValue"] ⊆ Definition.ownMeaning) (hown.subset hkey)

theorem attributes_eq (h : d.NamesApart) :
    d.attributes = d.ownAttributes ++ d.others.map fun p => (bareName p.1, p.2) :=
  Pairs.setAll_of_nodup (nodup_keys h)

end Declaration

/-! ## Reading back -/

namespace Definition

/-- A definition has the declared attributes as they are, and then those of the limits that are not
declared, so that what is declared counts.  What is written down for an element is declared in order
and once: what has a place of its own, if it is there, and then every other attribute.  So all of it
is found in the definition. -/
theorem ofField_readsBack (c : Config) (f : Field) :
    ((ofField c f).attributes
        = f.declared.getD [] ++ (ofDeclarations f.limitDeclarations).filter fun p =>
            !Pairs.has (f.declared.getD []) p.1) ∧
      ∀ d : Declaration, d.NamesApart →
        d.attributes
            = [("element", d.element), ("inputType", d.inputType)]
              ++ [("label", d.label), ("hint", d.hint), ("endpoint", d.endpoint),
                  ("placeholder", d.placeholder), ("elementValue", d.elementValue)].filter
                  (fun p => p.2 != .null)
              ++ d.others.map (fun p => (Declaration.bareName p.1, p.2)) ∧
          (Pairs.keys d.attributes).Nodup ∧
          (f.declared = some d.attributes →
            ∀ p ∈ d.attributes, Pairs.get? (ofField c f).attributes p.1 = some p.2) := by
  refine ⟨attributes_ofField c f, fun d h => ?_⟩
  have hattributes := Declaration.attributes_eq h
  have hnodup : (Pairs.keys d.attributes).Nodup := hattributes ▸ Declaration.nodup_keys h
  refine ⟨hattributes, hnodup, fun hdeclared p hp => ?_⟩
  rw [attributes_ofField, hdeclared, Option.getD_some, Pairs.get?_append,
    (Pairs.get?_eq_some_iff hnodup).mpr hp]
  rfl

/-- What is written down for a nickname, with a limit on its length among it. -/
def nicknameDeclaration : Declaration where
  element := .str "input"
  inputType := .str "text"
  placeholder := .str ""
  hint := .map [(.str "en", .str "as you like")]
  others := [("class__", .str "wide"), ("maxLength", .int 8), ("autofocus", .bool true)]

/-- A nickname: its pattern and its greatest length are declared twice, and the least length on the
type alone. -/
def nicknameField : Field where
  name := "nickname"
  limits := { maxLength := some 20, pattern := some ⟨.anchored, "[a-z]*"⟩ }
  type := .limited (.limited .str { minLength := some 2, pattern := some ⟨.searching, "."⟩ })
    { maxLength := some 30, pattern := some ⟨.anchored, "[a-z]+"⟩ }
  declared := some nicknameDeclaration.attributes

/-- The declared length counts, and so does the pattern that is declared last. -/
theorem nickname_readsBack :
    nicknameDeclaration.NamesApart ∧
      nicknameField.declared = some nicknameDeclaration.attributes ∧
      (ofField {} nicknameField).attributes
        = [("element", .str "input"), ("inputType", .str "text"),
            ("hint", .map [(.str "en", .str "as you like")]), ("placeholder", .str ""),
            ("class", .str "wide"), ("maxLength", .int 8), ("autofocus", .bool true),
            ("minLength", .int 2), ("pattern", .str "[a-z]+")] ∧
      Pairs.get? (ofField {} nicknameField).attributes "maxLength" = some (.int 8) := by
  obtain ⟨hfield, hdeclaration⟩ := ofField_readsBack {} nicknameField
  have hnames : nicknameDeclaration.NamesApart := ⟨by decide, by decide⟩
  obtain ⟨hattributes, _, hfound⟩ := hdeclaration nicknameDeclaration hnames
  have hmember : ("maxLength", Value.int 8) ∈ nicknameDeclaration.attributes := by
    rw [hattributes]
    decide +kernel
  exact ⟨hnames, rfl, hfield.trans (by decide +kernel), hfound rfl _ hmember⟩

end Definition

end WebForm
