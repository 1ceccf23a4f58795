/-
What building an element keeps.

An element is built by taking the declared attributes in turn, and each step may change the
tag, the names without a value, or a slot such as the label.  Most of what later modules need
to know of a step is what it can do to the tag, and `Draft.add_cases` says this once:

    set the one attribute for which the declared name stands,
    or add the declared name as an attribute without a value,
    or neither

where the label, the hint and the other slots leave the tag alone.  From it a run keeps the
name of the tag in front, and writes no value into a tag for which none is declared
(`IsBare`): an invariant of the steps, carried over the run by `foldlM_invariant`.

A tag is bare when its first attribute is the name of the field, and no attribute is called a
value in small letters.  Letter case matters because attribute names are compared by a browser
without it, while a declaration keeps it.  The defaults of a tag write no value that is not
empty, but they write one, and so the statement about elements is made of the tag before the
defaults are added.

The last section goes from one definition to a form: the elements are what the definitions
become, one by one, so that facts about one element reach all of them.
-/
import Mathlib.Data.List.Forall2
import WebForm.Markup.Element
import WebForm.Proofs.Pairs

namespace WebForm

open WebForm.Text

namespace Element

theorem exists_of_foldlM_cons {σ α ε : Type} {step : σ → α → Except ε σ} {a : α} {l : List α}
    {s s' : σ} (h : (a :: l).foldlM step s = .ok s') :
    ∃ mid, step s a = .ok mid ∧ l.foldlM step mid = .ok s' := by
  rw [List.foldlM_cons] at h
  cases hfirst : step s a with
  | error e =>
      rw [hfirst] at h
      cases h
  | ok mid =>
      rw [hfirst] at h
      exact ⟨mid, rfl, h⟩

/-- An invariant that every step keeps holds of what a fold comes to. -/
theorem foldlM_invariant {σ α ε : Type} {step : σ → α → Except ε σ} {P : σ → Prop} {l : List α}
    (hstep : ∀ a ∈ l, ∀ s s', P s → step s a = .ok s' → P s') {s s' : σ} (hs : P s)
    (h : l.foldlM step s = .ok s') : P s' := by
  induction l generalizing s with
  | nil =>
      cases h
      exact hs
  | cons a l ih =>
      obtain ⟨ha, hl⟩ := List.forall_mem_cons.mp hstep
      obtain ⟨mid, hfirst, hrest⟩ := exists_of_foldlM_cons h
      exact ih hl (ha s mid hs hfirst) hrest

/-- The attribute of the tag for which a declared name stands. -/
def attributeFor (key : String) : String :=
  match key with
  | "endpoint" => "data-endpoint"
  | "elementValue" => "value"
  | "inputType" => "type"
  | key => key

/-- What taking an attribute does to the tag: it sets the one for which its name stands, or adds its
name to those without a value, or neither. -/
theorem Draft.add_cases {name : String} {lang : Option String} {d d' : Draft} {key : String}
    {v : Value} (h : Draft.add name lang d (key, v) = .ok d') :
    (d'.attributes = d.attributes ∨
      ∃ t, d'.attributes = Pairs.set d.attributes (attributeFor key) t) ∧
    (d'.flags = d.flags ∨ d'.flags = d.flags ++ [key]) := by
  have localized : ∀ {f : Phrase → Draft},
      (v.inLanguage lang (some name)).map f = .ok d' → ∃ t, f t = d' := by
    intro f hf
    cases hv : v.inLanguage lang (some name) with
    | error e =>
        rw [hv] at hf
        cases hf
    | ok t =>
        rw [hv] at hf
        exact ⟨t, Except.ok.inj hf⟩
  unfold Draft.add at h
  dsimp only at h
  split at h
  · cases h
    exact ⟨Or.inl rfl, Or.inl rfl⟩
  · split at h
    · cases h
      exact ⟨Or.inl rfl, Or.inl rfl⟩
    · obtain ⟨t, rfl⟩ := localized h
      exact ⟨Or.inl rfl, Or.inl rfl⟩
    · obtain ⟨t, rfl⟩ := localized h
      exact ⟨Or.inl rfl, Or.inl rfl⟩
    · obtain ⟨t, rfl⟩ := localized h
      exact ⟨Or.inr ⟨t, rfl⟩, Or.inl rfl⟩
    · obtain ⟨t, rfl⟩ := localized h
      exact ⟨Or.inr ⟨t, rfl⟩, Or.inl rfl⟩
    · cases h
      exact ⟨Or.inr ⟨_, rfl⟩, Or.inl rfl⟩
    · cases h
      exact ⟨Or.inr ⟨_, rfl⟩, Or.inl rfl⟩
    · rename_i hendpoint hvalue htype
      cases h
      have hkey : attributeFor key = key := by
        unfold attributeFor
        split
        · exact absurd rfl hendpoint
        · exact absurd rfl hvalue
        · exact absurd rfl htype
        · rfl
      rw [hkey]
      unfold Draft.addOrdinary
      split
      · exact ⟨Or.inl rfl, Or.inr rfl⟩
      · exact ⟨Or.inl rfl, Or.inl rfl⟩
      · split
        · exact ⟨Or.inl rfl, Or.inl rfl⟩
        · exact ⟨Or.inr ⟨_, rfl⟩, Or.inl rfl⟩

/-! ## Tags without a value

One step keeps a tag bare if the name of the attribute writes neither a value nor a name. -/

/-- The name of an attribute writes neither a value nor a name into a tag. -/
def isBareKey (key : String) : Bool :=
  lower key != "value" && key != "elementValue" && key != "name"

/-- A tag with its name in front, into which no value is written. -/
structure IsBare (name : String) (attributes : List (String × Phrase)) (flags : List String) :
    Prop where
  named : ∃ rest, attributes = ("name", .ofText name) :: rest
  unvalued : ∀ p ∈ attributes, lower p.1 ≠ "value"
  unflagged : ∀ k ∈ flags, lower k ≠ "value"

theorem isBareKey_attributeFor {key : String} (h : isBareKey key = true) :
    attributeFor key ≠ "name" ∧ lower (attributeFor key) ≠ "value" := by
  unfold isBareKey at h
  rw [Bool.and_eq_true, Bool.and_eq_true, bne_iff_ne, bne_iff_ne, bne_iff_ne] at h
  obtain ⟨⟨hvalue, helement⟩, hname⟩ := h
  unfold attributeFor
  split
  · exact ⟨by decide, by decide +kernel⟩
  · exact absurd rfl helement
  · exact ⟨by decide, by decide +kernel⟩
  · exact ⟨hname, hvalue⟩

theorem IsBare.set {name : String} {attributes : List (String × Phrase)} {flags : List String}
    (h : IsBare name attributes flags) {key : String} (hname : key ≠ "name")
    (hvalue : lower key ≠ "value") (t : Phrase) : IsBare name (Pairs.set attributes key t) flags := by
  obtain ⟨rest, hrest⟩ := h.named
  refine ⟨⟨_, by rw [hrest, Pairs.set_cons_of_ne hname.symm]⟩, ?_, h.unflagged⟩
  intro p hp
  rcases Pairs.mem_of_mem_set hp with hp | rfl
  · exact h.unvalued p hp
  · exact hvalue

theorem IsBare.append {name : String} {attributes : List (String × Phrase)} {flags : List String}
    (h : IsBare name attributes flags) {more : List (String × Phrase)}
    (hmore : ∀ p ∈ more, lower p.1 ≠ "value") : IsBare name (attributes ++ more) flags := by
  obtain ⟨rest, hrest⟩ := h.named
  refine ⟨⟨rest ++ more, by rw [hrest, List.cons_append]⟩, ?_, h.unflagged⟩
  intro p hp
  exact (List.mem_append.mp hp).elim (h.unvalued p) (hmore p)

theorem Draft.isBare_add {name : String} {lang : Option String} {d d' : Draft} {p : String × Value}
    (hp : isBareKey p.1 = true) (hd : IsBare name d.attributes d.flags)
    (h : Draft.add name lang d p = .ok d') : IsBare name d'.attributes d'.flags := by
  obtain ⟨key, v⟩ := p
  obtain ⟨hname, hvalue⟩ := isBareKey_attributeFor hp
  obtain ⟨hattributes, hflags⟩ := Draft.add_cases h
  have hset : IsBare name d'.attributes d.flags := by
    rcases hattributes with heq | ⟨t, heq⟩
    · rw [heq]
      exact hd
    · rw [heq]
      exact hd.set hname hvalue t
  refine ⟨hset.named, hset.unvalued, ?_⟩
  rcases hflags with heq | heq
  · rw [heq]
    exact hd.unflagged
  · intro k hk
    rw [heq] at hk
    rcases List.mem_append.mp hk with hk | hk
    · exact hd.unflagged k hk
    · rw [List.mem_singleton.mp hk]
      intro heq
      unfold isBareKey at hp
      simp [heq] at hp

/-! ## Elements

A checkbox has no defaults, so that its tag is the one that was drafted. -/

theorem ofDefinition_eq_ok {idSuffix : String} {lang : Option String} {d : Definition} {e : Element}
    (h : ofDefinition idSuffix lang d = .ok e) :
    ∃ draft : Draft,
      d.attributes.foldlM (Draft.add d.name lang)
          { flags := if d.required then ["required"] else [],
            attributes := [("name", .ofText d.name), ("id", .ofText (d.name ++ "_" ++ idSuffix))] }
        = .ok draft ∧
      e.name = d.name ∧ e.flags = draft.flags ∧
      e.attributes = complete e.element e.inputType draft.attributes := by
  unfold ofDefinition at h
  dsimp only at h
  cases hdraft : d.attributes.foldlM (Draft.add d.name lang)
      { flags := if d.required then ["required"] else [],
        attributes := [("name", .ofText d.name), ("id", .ofText (d.name ++ "_" ++ idSuffix))] } with
  | error fault =>
      rw [hdraft] at h
      cases h
  | ok draft =>
      rw [hdraft] at h
      refine ⟨draft, rfl, ?_⟩
      simp only [bind, Except.bind] at h
      split at h
      · cases h
      · cases h
      · rename_i element inputType helement htype
        cases h
        exact ⟨rfl, rfl, rfl⟩

theorem complete_of_isCheckbox {e : Element} (h : e.isCheckbox = true)
    (attributes : List (String × Phrase)) :
    complete e.element e.inputType attributes = attributes := by
  unfold isCheckbox at h
  rw [Bool.and_eq_true, decide_eq_true_eq, decide_eq_true_eq] at h
  unfold complete withDefaults
  rw [h.1, h.2, if_neg (by decide), List.map_map]
  exact List.map_id' attributes

/-- Where no value is declared, none is written before the defaults of the tag are added. -/
theorem exists_isBare_of_ofDefinition {idSuffix : String} {lang : Option String} {d : Definition}
    {e : Element} (h : ofDefinition idSuffix lang d = .ok e)
    (hd : ∀ p ∈ d.attributes, isBareKey p.1 = true) :
    ∃ attributes, IsBare e.name attributes e.flags ∧
      e.attributes = complete e.element e.inputType attributes := by
  obtain ⟨draft, hdraft, hname, hflags, hattributes⟩ := ofDefinition_eq_ok h
  refine ⟨draft.attributes, ?_, hattributes⟩
  rw [hflags, hname]
  refine foldlM_invariant (P := fun draft => IsBare d.name draft.attributes draft.flags) ?_ ?_ hdraft
  · intro p hp draft draft' hbare hadd
    exact Draft.isBare_add (hd p hp) hbare hadd
  · refine ⟨⟨_, rfl⟩, ?_, ?_⟩
    · intro p hp
      rcases List.mem_cons.mp hp with rfl | hp
      · show lower "name" ≠ "value"
        decide +kernel
      · rw [List.mem_singleton.mp hp]
        show lower "id" ≠ "value"
        decide +kernel
    · intro k hk
      cases hrequired : d.required with
      | true =>
          rw [hrequired] at hk
          rw [List.mem_singleton.mp hk]
          decide +kernel
      | false =>
          rw [hrequired] at hk
          exact absurd hk List.not_mem_nil

theorem mem_flags_of_ofDefinition {idSuffix : String} {lang : Option String} {d : Definition}
    {e : Element} (h : ofDefinition idSuffix lang d = .ok e) :
    ∀ k ∈ e.flags, k = "required" ∨ k ∈ Pairs.keys d.attributes := by
  obtain ⟨draft, hdraft, _, hflags, _⟩ := ofDefinition_eq_ok h
  rw [hflags]
  refine foldlM_invariant
    (P := fun draft => ∀ k ∈ draft.flags, k = "required" ∨ k ∈ Pairs.keys d.attributes) ?_ ?_ hdraft
  · intro p hp draft draft' hold hadd k hk
    rcases (Draft.add_cases hadd).2 with heq | heq <;> rw [heq] at hk
    · exact hold k hk
    · rcases List.mem_append.mp hk with hk | hk
      · exact hold k hk
      · rw [List.mem_singleton.mp hk]
        exact Or.inr (List.mem_map.mpr ⟨p, hp, rfl⟩)
  · intro k hk
    dsimp only at hk
    split at hk
    · exact Or.inl (List.mem_singleton.mp hk)
    · exact absurd hk List.not_mem_nil

/-! ## Elements of a form

What comes of a list of definitions is what comes of its members. -/

theorem forall₂_of_mapM {α β ε : Type} {f : α → Except ε β} {l : List α} {bs : List β}
    (h : l.mapM f = .ok bs) : List.Forall₂ (fun a b => f a = .ok b) l bs := by
  induction l generalizing bs with
  | nil =>
      cases h
      exact List.Forall₂.nil
  | cons x xs ih =>
      rw [List.mapM_cons] at h
      cases hx : f x with
      | error e =>
          rw [hx] at h
          cases h
      | ok b =>
          cases hxs : xs.mapM f with
          | error e =>
              rw [hx, hxs] at h
              cases h
          | ok rest =>
              rw [hx, hxs] at h
              cases h
              exact List.Forall₂.cons hx (ih hxs)

theorem exists_mem_of_forall₂ {α β : Type} {R : α → β → Prop} {l : List α} {bs : List β}
    (h : List.Forall₂ R l bs) {a : α} (ha : a ∈ l) : ∃ b ∈ bs, R a b := by
  induction h with
  | nil => exact absurd ha List.not_mem_nil
  | cons hx _ ih =>
      rcases List.mem_cons.mp ha with rfl | ha
      · exact ⟨_, List.mem_cons_self, hx⟩
      · obtain ⟨b, hb, hab⟩ := ih ha
        exact ⟨b, List.mem_cons_of_mem _ hb, hab⟩

theorem forall₂_of_ofDefinitions {idSuffix : String} {lang : Option String} {ds : List Definition}
    {elements : List Element} (h : ofDefinitions idSuffix lang ds = .ok elements) :
    List.Forall₂ (fun d e => ofDefinition idSuffix lang d = .ok e) ds elements := by
  unfold ofDefinitions at h
  cases hlocalized : Definition.checkConsistency ds with
  | error f =>
      rw [hlocalized] at h
      cases h
  | ok localized =>
      rw [hlocalized] at h
      simp only [bind, Except.bind] at h
      split at h
      · cases h
      · exact forall₂_of_mapM h

theorem mem_of_ofDefinitions {idSuffix : String} {lang : Option String} {ds : List Definition}
    {elements : List Element} (h : ofDefinitions idSuffix lang ds = .ok elements) {d : Definition}
    (hd : d ∈ ds) {e : Element} (he : ofDefinition idSuffix lang d = .ok e) : e ∈ elements := by
  obtain ⟨e', he', hbuilt⟩ := exists_mem_of_forall₂ (forall₂_of_ofDefinitions h) hd
  rw [he] at hbuilt
  exact Except.ok.inj hbuilt ▸ he'

theorem forall_mem_ofField {P : String → Prop} {c : Config} {f : Field}
    (h : ∀ p ∈ f.declared.getD [], P p.1) (hlimits : ∀ key ∈ ["minLength", "maxLength", "pattern"], P key) :
    ∀ p ∈ (Definition.ofField c f).attributes, P p.1 := by
  intro p hp
  rcases List.mem_append.mp hp with hp | hp
  · exact h p hp
  · obtain ⟨q, hq, hv⟩ := List.mem_filterMap.mp (List.mem_filter.mp hp).1
    obtain ⟨v, _, rfl⟩ := Option.map_eq_some_iff.mp hv
    exact hlimits q.1 (List.mem_map.mpr ⟨q, hq, rfl⟩)

theorem isBareKey_of_ofField {c : Config} {f : Field}
    (h : ∀ p ∈ f.declared.getD [], isBareKey p.1 = true) :
    ∀ p ∈ (Definition.ofField c f).attributes, isBareKey p.1 = true :=
  forall_mem_ofField (P := fun key => isBareKey key = true) h (by decide +kernel)

end Element

end WebForm
