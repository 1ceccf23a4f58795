/-
The mark of a box, and the value that is supplied for it.

A tag is marked by a name without a value, which its field declares, or by the supplied value
that it finds under its own name.  The declared mark stays whatever is supplied, and a field
can declare another name for the tag, under which the value is then looked for.  `marked_iff`
gives both sources, and `forall₂_showsBox` says what follows on every page of a form, in every
language:

    e.Marked supplied ↔ d.DeclaresMark ∨ (the flag that is found is set)

So a box shows the state that is supplied exactly when its field declares no mark and its tag
keeps its name (`showsState_iff`).  The equivalence is over all values at once: if a mark is
declared, or another name, there are values for which the box shows the wrong state, and these
are given in the proof.

Two points are easily missed.  Attribute names are compared without regard to case by a
browser, so that the mark may be declared in any spelling; and a text under the name of the
mark is an attribute with a value and does not count as the mark.  Values are compared as
texts: the flag is found to be set when the value that is supplied is written `true`, so that
the text `true` sets it as well.
-/
import WebForm.Proofs.Repetition

namespace WebForm

open WebForm.Text
open Element (nonEmpty)

namespace Definition

/-- The field declares the mark of a box, in any spelling. -/
def DeclaresMark (d : Definition) : Prop :=
  ∃ a ∈ d.attributes, a.2 = .bool true ∧ lower a.1 = "checked"

/-- The tag of the field has the name of the field: no other is declared. -/
def KeepsName (lang : Option String) (d : Definition) : Prop :=
  d.name ≠ "" ∧ ∀ t, d.textUnder? lang "name" = some t → t.content = d.name

theorem checked_mem_bareNames_iff (d : Definition) :
    "checked" ∈ d.bareNames.map lower ↔ d.DeclaresMark := by
  have hrequired : lower "required" ≠ "checked" := by decide +kernel
  have hown : ∀ key ∈ ownMeaning, lower key ≠ "checked" := by decide +kernel
  constructor
  · intro hmem
    obtain ⟨n, hn, hlower⟩ := List.mem_map.mp hmem
    rcases List.mem_append.mp hn with hn | hn
    · split at hn
      · exact absurd (List.mem_singleton.mp hn ▸ hlower) hrequired
      · exact absurd hn List.not_mem_nil
    · obtain ⟨⟨key, v⟩, ha, hbare⟩ := List.mem_filterMap.mp hn
      unfold bareName? at hbare
      split at hbare
      · rename_i hv
        split at hbare
        · cases hbare
        · cases hbare
          exact ⟨_, ha, hv, hlower⟩
      · cases hbare
  · rintro ⟨⟨key, v⟩, ha, hv, hlower⟩
    dsimp only at hv hlower
    subst hv
    refine List.mem_map.mpr ⟨key, List.mem_append_right _ ?_, hlower⟩
    exact List.mem_filterMap.mpr ⟨_, ha, if_neg fun hkey => hown key hkey hlower⟩

end Definition

namespace Element

variable {idSuffix : String} {lang : Option String} {d : Definition} {e : Element}

theorem stateName?_eq_self_iff (h : ofDefinition idSuffix lang d = .ok e) :
    e.stateName? = some e.name ↔ d.KeepsName lang := by
  obtain ⟨_, _, made⟩ := exists_madeOf h
  rw [stateName?_of_ofDefinition h, nonEmpty_eq_some_iff, made.name, Definition.KeepsName]
  cases d.textUnder? lang "name" with
  | none => simp
  | some t => simp [and_comm]

/-- The tag carries the mark. -/
def Marked (e : Element) (supplied : Supplied) : Prop := "checked" ∈ e.tagNames supplied

theorem get?_eq_true_iff {values : Value} {supplied : Supplied}
    (hsupplied : Supplied.ofValue values = .ok supplied) (name : String) :
    Pairs.get? supplied name = some "true"
      ↔ ∃ v, Supplied.valueFor? values name = some v ∧ v.attributeText = "true" := by
  have htrue : Supplied.textOf (.str "true") = "true" := by decide +kernel
  rw [Supplied.get?_ofValue hsupplied, Option.map_eq_some_iff]
  refine exists_congr fun v => and_congr_right fun _ => ?_
  rw [← htrue, Supplied.textOf_eq_iff]
  rfl

section Box

variable (h : ofDefinition idSuffix lang d = .ok e) (hbox : e.isCheckbox = true) {values : Value}
  {supplied : Supplied}
include h hbox

/-! ## When a box is marked -/

/-- A box is marked if its field declares it, or if the value that it finds is set. -/
theorem marked_iff (hsupplied : Supplied.ofValue values = .ok supplied) :
    e.Marked supplied ↔ d.DeclaresMark ∨ ∃ name v, e.stateName? = some name ∧
      Supplied.valueFor? values name = some v ∧ v.attributeText = "true" := by
  have hwritten : "checked" ∉ (e.writtenKeys (Pairs.get? supplied e.name)).map lower := by
    intro hmem
    obtain ⟨k, hk, hlower⟩ := List.mem_map.mp hmem
    exact bne_iff_ne.mp (List.mem_filter.mp hk).2 hlower
  have hflags : "checked" ∈ e.flags.map lower ↔ d.DeclaresMark := by
    rw [flags_of_ofDefinition h]
    exact d.checked_mem_bareNames_iff
  have hmark : "checked" ∈ (if e.isMarked supplied then ["checked"] else [])
      ↔ "checked" ∉ e.flags ∧ ∃ name, e.stateName? = some name ∧
        Pairs.get? supplied name = some "true" := by
    have hin : "checked" ∈ (if e.isMarked supplied then ["checked"] else [])
        ↔ e.isMarked supplied = true := by
      cases e.isMarked supplied <;> simp
    rw [hin, isMarked, hbox]
    simp [Option.bind_eq_some_iff]
  have hlower : lower "checked" = "checked" := by decide +kernel
  unfold Marked
  rw [tagNames_eq, List.mem_cons, List.mem_append, List.mem_append, hflags, hmark]
  constructor
  · rintro (heq | hmem | hdeclared | ⟨_, name, hname, htrue⟩)
    · exact absurd heq (by decide)
    · exact absurd hmem hwritten
    · exact Or.inl hdeclared
    · obtain ⟨v, hv, htext⟩ := (get?_eq_true_iff hsupplied name).mp htrue
      exact Or.inr ⟨name, v, hname, hv, htext⟩
  · rintro (hdeclared | ⟨name, v, hname, hv, htext⟩)
    · exact Or.inr (Or.inr (Or.inl hdeclared))
    · by_cases hplain : "checked" ∈ e.flags
      · exact Or.inr (Or.inr (Or.inl (hflags.mp (List.mem_map.mpr ⟨_, hplain, hlower⟩))))
      · exact Or.inr (Or.inr (Or.inr ⟨hplain, name, hname,
          (get?_eq_true_iff hsupplied name).mpr ⟨v, hv, htext⟩⟩))

theorem marked_iff_of_supplied (hmark : ¬d.DeclaresMark) (hname : d.KeepsName lang)
    (hsupplied : Supplied.ofValue values = .ok supplied) {b : Bool}
    (hb : Supplied.valueFor? values e.name = some (.bool b)) : e.Marked supplied ↔ b = true := by
  have hstate := (stateName?_eq_self_iff h).mpr hname
  rw [marked_iff h hbox hsupplied, or_iff_right hmark]
  constructor
  · rintro ⟨name, v, hfound, hv, htext⟩
    obtain rfl := Option.some.inj (hstate.symm.trans hfound)
    obtain rfl := Option.some.inj (hb.symm.trans hv)
    cases b with
    | true => rfl
    | false => exact absurd htext (by decide)
  · rintro rfl
    exact ⟨e.name, _, hstate, hb, rfl⟩

theorem marked_iff_of_not_supplied (hname : d.KeepsName lang)
    (hsupplied : Supplied.ofValue values = .ok supplied)
    (hnone : Supplied.valueFor? values e.name = none) : e.Marked supplied ↔ d.DeclaresMark := by
  have hstate := (stateName?_eq_self_iff h).mpr hname
  rw [marked_iff h hbox hsupplied]
  refine or_iff_left ?_
  rintro ⟨name, v, hfound, hv, _⟩
  obtain rfl := Option.some.inj (hstate.symm.trans hfound)
  cases hnone.symm.trans hv

/-- A box shows every flag that is supplied only if its field declares no mark, and its tag keeps its
name. -/
theorem showsState_iff :
    (∀ values supplied b, Supplied.ofValue values = .ok supplied →
      Supplied.valueFor? values e.name = some (.bool b) → (e.Marked supplied ↔ b = true))
      ↔ ¬d.DeclaresMark ∧ d.KeepsName lang := by
  constructor
  · intro hshows
    have one : ∀ b, Supplied.ofValue (.ofPairs [(e.name, .bool b)])
          = .ok (Supplied.ofPairs [(e.name, .bool b)]) ∧
        Supplied.valueFor? (.ofPairs [(e.name, .bool b)]) e.name = some (.bool b) := by
      intro b
      have hb : Value.bool b ≠ .null := fun heq => nomatch heq
      exact ⟨Supplied.ofValue_single hb,
        (Supplied.valueFor?_single hb e.name).trans (if_pos (Or.inl rfl))⟩
    have hmark : ¬d.DeclaresMark := by
      intro hdeclared
      obtain ⟨hsupplied, hb⟩ := one false
      have hmarked := (marked_iff h hbox hsupplied).mpr (Or.inl hdeclared)
      cases (hshows _ _ _ hsupplied hb).mp hmarked
    refine ⟨hmark, ?_⟩
    rw [← stateName?_eq_self_iff h]
    -- the flag that is set is found, and under no other name than that of the field
    obtain ⟨hsupplied, hb⟩ := one true
    have hmarked := (hshows _ _ _ hsupplied hb).mpr rfl
    rw [marked_iff h hbox hsupplied, or_iff_right hmark] at hmarked
    obtain ⟨name, _, hstate, _, _⟩ := hmarked
    by_cases hname : name = e.name
    · rw [hstate, hname]
    · have both : ∀ p ∈ [(name, Value.bool true), (e.name, .bool false)], p.2 ≠ .null := by simp
      have hkeys : (Pairs.keys [(name, Value.bool true), (e.name, .bool false)]).Nodup := by
        simp [Pairs.keys, hname]
      have hset : Supplied.valueFor? (.ofPairs [(name, .bool true), (e.name, .bool false)]) name
          = some (.bool true) :=
        Supplied.valueFor?_of_mem both hkeys List.mem_cons_self
      have hunset : Supplied.valueFor? (.ofPairs [(name, .bool true), (e.name, .bool false)]) e.name
          = some (.bool false) :=
        Supplied.valueFor?_of_mem both hkeys (List.mem_cons_of_mem _ List.mem_cons_self)
      have hmarked := (marked_iff h hbox (Supplied.ofValue_ofPairs both)).mpr
        (Or.inr ⟨name, _, hstate, hset, rfl⟩)
      cases (hshows _ _ _ (Supplied.ofValue_ofPairs both) hunset).mp hmarked
  · rintro ⟨hmark, hname⟩ values supplied b hsupplied hb
    exact marked_iff_of_supplied h hbox hmark hname hsupplied hb

end Box

end Element

/-! ## Forms

Each box of a page, with its field. -/

namespace Form

variable {form : Form} {lang : Option String}

/-- The box that a page shows for a field. -/
structure ShowsBox (form : Form) (lang : Option String) (f : Field) (e : Element) : Prop where
  name : e.name = f.formName form.schema.config
  shown : ∀ values supplied, Supplied.ofValue values = .ok supplied →
    ∃ ps, form.pieces values lang = .ok ps ∧
      Markup.suppliedField supplied form.options e <:+: ps
  /-- The box is marked if its field declares it, or if the value that is found is set. -/
  marked : ∀ values supplied, Supplied.ofValue values = .ok supplied →
    (e.Marked supplied ↔ (Definition.ofField form.schema.config f).DeclaresMark ∨
      ∃ name v, e.stateName? = some name ∧ Supplied.valueFor? values name = some v ∧
        v.attributeText = "true")
  /-- It shows every flag that is supplied exactly when no mark is declared, and no other name. -/
  supplied : (∀ values supplied b, Supplied.ofValue values = .ok supplied →
      Supplied.valueFor? values e.name = some (.bool b) → (e.Marked supplied ↔ b = true))
    ↔ ¬(Definition.ofField form.schema.config f).DeclaresMark ∧
      (Definition.ofField form.schema.config f).KeepsName lang
  /-- Under its own name it shows the declared mark when nothing is supplied. -/
  declared : (Definition.ofField form.schema.config f).KeepsName lang →
    ∀ values supplied, Supplied.ofValue values = .ok supplied →
      Supplied.valueFor? values e.name = none →
      (e.Marked supplied ↔ (Definition.ofField form.schema.config f).DeclaresMark)

/-- Whatever a schema declares, in every language: each box of a page is marked as its field declares
or as is supplied, and by what is supplied alone where neither a mark nor another name is declared. -/
theorem forall₂_showsBox {elements : List Element} (h : form.elements lang = .ok elements) :
    List.Forall₂ (fun f e => e.isCheckbox = true → form.ShowsBox lang f e) form.schema.fields
      elements := by
  refine forall₂_of_built h fun f _ e he hbuilt hbox => ?_
  obtain ⟨_, _, made⟩ := Element.exists_madeOf hbuilt
  exact {
    name := made.name
    shown := fun _ supplied hsupplied =>
      ⟨_, pieces_eq_ok h hsupplied, infix_form he form supplied⟩
    marked := fun _ _ hsupplied => Element.marked_iff hbuilt hbox hsupplied
    supplied := Element.showsState_iff hbuilt hbox
    declared := fun hname _ _ hsupplied hnone =>
      Element.marked_iff_of_not_supplied hbuilt hbox hname hsupplied hnone }

/-- A box for which something else is declared. -/
def offersField (others : List (String × Value)) : Field where
  name := "offers"
  type := .bool
  declared := some (Declaration.attributes {
    element := .str "input", inputType := .str "checkbox", others })

/-- A form of that field. -/
def offersForm (others : List (String × Value)) : Form where
  schema := { name := "Signup", fields := [offersField others] }
  options := { passwordHideSvg := "", passwordShowSvg := "" }
  buttonLabel := "Submit"
  componentElement := defaultComponentElement

/-- Its element, with a text under the name of the mark. -/
def offersElement : Element where
  name := "offers"
  id := "offers_"
  element := "input"
  label := .ofText "Offers"
  inputType := some "checkbox"
  flags := ["required"]
  attributes := [("name", .ofText "offers"), ("id", .ofText "offers_"),
    ("type", .ofText "checkbox"), ("Checked", .ofText "yes")]

/-- A text under the name of the mark does not count, and what is supplied does. -/
theorem offers_showsBox :
    (offersForm [("Checked", .str "yes")]).elements none = .ok [offersElement] ∧
      ∀ b, ∃ supplied, Supplied.ofValue (.ofPairs [("offers", .bool b)]) = .ok supplied ∧
        (offersElement.Marked supplied ↔ b = true) := by
  have built : (offersForm [("Checked", .str "yes")]).elements none = .ok [offersElement] := by
    decide +kernel
  obtain _ | ⟨box, _⟩ := forall₂_showsBox built
  have hmark : ¬(Definition.ofField {} (offersField [("Checked", .str "yes")])).DeclaresMark := by
    unfold Definition.DeclaresMark
    decide +kernel
  have hnone : (Definition.ofField {} (offersField [("Checked", .str "yes")])).textUnder? none "name"
      = none := by
    decide +kernel
  have hname : (Definition.ofField {} (offersField [("Checked", .str "yes")])).KeepsName none := by
    refine ⟨by decide, fun t ht => ?_⟩
    cases hnone.symm.trans ht
  refine ⟨built, fun b => ?_⟩
  have hb : Value.bool b ≠ .null := fun heq => nomatch heq
  refine ⟨_, Supplied.ofValue_single hb, ?_⟩
  refine (box rfl).supplied.mpr ⟨hmark, hname⟩ _ _ b (Supplied.ofValue_single hb) ?_
  exact (Supplied.valueFor?_single hb _).trans (if_pos (Or.inl rfl))

/-- The page of such a form, around the tag of the box. -/
def offersPage (tag : String) : String :=
  "<form class=\x22normform\x22 method=\x22post\x22>\n<div class=\x22checkbox\x22>"
    ++ Element.hiddenInput "offers" "off" ++ tag ++ "<label for=\x22offers_\x22>Offers</label></div>\n"
    ++ Markup.submitButton "Submit" none ++ "\n</form>"

/-- A mark that is declared stays when the flag is supplied as unset, and a flag that is supplied as
set is not found under another name that is declared. -/
theorem supplied_state_not_shown :
    ((offersForm [("checked", .bool true)]).html (.ofPairs [("offers", .bool false)]) none).toOption
      = some (offersPage ("<input class=\x22offers\x22 name=\x22offers\x22 id=\x22offers_\x22"
        ++ " type=\x22checkbox\x22 value=\x22false\x22 required checked >")) ∧
    ((offersForm [("name", .str "agree")]).html (.ofPairs [("offers", .bool true)]) none).toOption
      = some (offersPage ("<input class=\x22offers\x22 name=\x22agree\x22 id=\x22offers_\x22"
        ++ " type=\x22checkbox\x22 value=\x22true\x22 required >")) := by
  decide +kernel

end Form

end WebForm
