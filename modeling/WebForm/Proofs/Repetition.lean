/-
Names that a tag writes twice.

The names in a tag come from six places: its class, the texts that are declared over its name
and id, the defaults, a supplied value, the names that are declared without a value, and the
mark of a box.  Texts are collected by their exact names but written in small letters, and
names without a value are kept apart from them.  So a tag names an attribute twice where two
names differ in case alone, where a name is declared both with and without a value, and where
the class is declared again.

A browser heeds the first attribute of a name and drops the others.  A name that is written
twice is therefore a declaration that does not count, and that is why repetitions matter.

`Definition.SpellsOnce` says that a definition spells every name once, and it is exact.  For
every field of a form, in every language, `forall₂_namesOnce` says that

    the tag names no attribute twice, whatever values are supplied ↔ the definition spells once

and that everything which the definition declares is then heeded, texts as well as names
without a value, but for the mark of a box and for a text whose place a supplied value takes.
The quantifier over supplied values belongs to the left side of the equivalence: a definition
that declares a name and no value may be shown without a repetition as long as nothing is
supplied for it.

The conditions in `SpellsOnce` speak of the texts that a tag can hold, `tagKeys`, and not of
those that it does hold with given values.  `SpellsOnce.of_small` is the usual way to have
them: declare all names in small letters, and no class.
-/
import Mathlib.Data.List.Nodup
import WebForm.Proofs.Identity
import WebForm.Proofs.SmallLetters

namespace WebForm

open WebForm.Text

namespace Definition

/-- The names of all texts that a tag can hold: declared texts, defaults and supplied values. -/
def tagKeys (lang : Option String) (d : Definition) (e : Element) : List String :=
  "name" :: "id" :: "value" :: ((d.texts lang).map (·.1)
    ++ if Element.isTextEditable e.element e.inputType then Element.textDefaults.map (·.1) else [])

/-- No two attributes of a definition's tag have one name, case aside. -/
structure SpellsOnce (lang : Option String) (d : Definition) (e : Element) : Prop where
  /-- Texts go by one spelling of each name; a text for the mark of a box is not written. -/
  texts : ∀ k ∈ d.tagKeys lang e, ∀ k' ∈ d.tagKeys lang e,
    lower k = lower k' → lower k = "checked" ∨ k = k'
  bare : (d.bareNames.map lower).Nodup
  /-- The class of the tag is its name. -/
  class_texts : ∀ k ∈ d.tagKeys lang e, lower k ≠ "class"
  class_bare : ∀ n ∈ d.bareNames, lower n ≠ "class"
  apart : ∀ n ∈ d.bareNames, ∀ k ∈ d.tagKeys lang e, lower n = lower k → lower k = "checked"
  /-- A box that looks for its state finds its own mark under no other spelling. -/
  mark : e.isCheckbox = true → e.stateName? ≠ none →
    ∀ n ∈ d.bareNames, lower n = "checked" → n = "checked"

/-- Texts under small names, and other names without a value, spell every name once. -/
theorem SpellsOnce.of_small {lang : Option String} {d : Definition} {e : Element}
    (hsmall : ∀ k ∈ d.tagKeys lang e, lower k = k) (hclass : "class" ∉ d.tagKeys lang e)
    (hbare : (d.bareNames.map lower).Nodup)
    (hother : ∀ n ∈ d.bareNames.map lower, n ∉ "class" :: "checked" :: d.tagKeys lang e) :
    d.SpellsOnce lang e := by
  have other : ∀ n ∈ d.bareNames, lower n ∉ "class" :: "checked" :: d.tagKeys lang e :=
    fun n hn => hother _ (List.mem_map_of_mem hn)
  exact {
    texts := by
      intro k hk k' hk' heq
      rw [hsmall k hk, hsmall k' hk'] at heq
      exact Or.inr heq
    bare := hbare
    class_texts := by
      intro k hk heq
      rw [hsmall k hk] at heq
      exact hclass (heq ▸ hk)
    class_bare := by
      intro n hn heq
      exact other n hn (heq ▸ List.mem_cons_self)
    apart := by
      intro n hn k hk heq
      rw [hsmall k hk] at heq
      exact absurd (List.mem_cons_of_mem _ (List.mem_cons_of_mem _ (heq ▸ hk))) (other n hn)
    mark := by
      intro _ _ n hn heq
      exact absurd (heq ▸ List.mem_cons_of_mem _ List.mem_cons_self) (other n hn) }

end Definition

namespace Element

/-- The names of the attributes of the tag, in small letters. -/
def tagNames (e : Element) (supplied : Supplied) : List String :=
  (e.tagAttributes (Pairs.get? supplied e.name) supplied).map fun a => lower a.name

/-- The attribute that a browser heeds under a name: the first of that name, case aside. -/
def heeded? (e : Element) (supplied : Supplied) (name : String) : Option TagAttribute :=
  (e.tagAttributes (Pairs.get? supplied e.name) supplied).find? fun a => lower a.name = lower name

/-- The names of the texts that are written into the tag. -/
def writtenKeys (e : Element) (shown : Option String) : List String :=
  (Pairs.keys (e.shownAttributes shown)).filter fun k => lower k != "checked"

theorem tagNames_eq (e : Element) (supplied : Supplied) :
    e.tagNames supplied
      = "class" :: ((e.writtenKeys (Pairs.get? supplied e.name)).map lower
        ++ (e.flags.map lower ++ if e.isMarked supplied then ["checked"] else [])) := by
  have hclass : lower "class" = "class" := by decide +kernel
  have hchecked : lower "checked" = "checked" := by decide +kernel
  have hwritten : ∀ l : List (String × Piece),
      ((l.filter fun p => lower p.1 != "checked").map fun p =>
          (⟨lower p.1, some p.2⟩ : TagAttribute)).map (fun a => lower a.name)
        = ((Pairs.keys l).filter fun k => lower k != "checked").map lower := by
    intro l
    rw [Pairs.keys, List.filter_map, List.map_map, List.map_map]
    exact List.map_congr_left fun p _ => lower_lower p.1
  have hmark : (if e.isMarked supplied then [(⟨"checked", none⟩ : TagAttribute)] else []).map
      (fun a => lower a.name) = if e.isMarked supplied then ["checked"] else [] := by
    cases e.isMarked supplied
    · rfl
    · exact congrArg (fun s => [s]) hchecked
  unfold tagNames tagAttributes writtenKeys
  dsimp only
  rw [List.map_append, List.map_append, List.map_append, hwritten, hmark, List.map_map,
    List.map_singleton, hclass, List.append_assoc, List.append_assoc, List.singleton_append]
  rfl

variable {idSuffix : String} {lang : Option String} {d : Definition} {e : Element}

/-! ## Names of texts

The texts in a tag are those of the element, with the supplied value behind them if none of
them is the value.  So with a suitable value every name in `tagKeys` is in the tag, and no
other is with any. -/

theorem mem_keys_complete {element : String} {inputType : Option String}
    {attributes : List (String × Phrase)} {key : String} :
    key ∈ Pairs.keys (complete element inputType attributes)
      ↔ key ∈ Pairs.keys attributes ∨
        key ∈ if isTextEditable element inputType then textDefaults.map (·.1) else [] := by
  rw [complete_eq, Pairs.keys_append, List.mem_append]
  split
  · constructor
    · refine Or.imp_right fun hkey => ?_
      obtain ⟨_, hp, rfl⟩ := List.mem_map.mp hkey
      obtain ⟨d, hd, rfl⟩ := List.mem_map.mp hp
      exact List.mem_map.mpr ⟨d, (List.mem_filter.mp hd).1, rfl⟩
    · rintro (hkey | hkey)
      · exact Or.inl hkey
      · obtain ⟨d, hd, rfl⟩ := List.mem_map.mp hkey
        cases hhas : Pairs.has attributes d.1 with
        | true => exact Or.inl (Pairs.has_iff_mem_keys.mp hhas)
        | false =>
            refine Or.inr (List.mem_map.mpr ⟨_, List.mem_map.mpr ⟨d, ?_, rfl⟩, rfl⟩)
            exact List.mem_filter.mpr ⟨hd, by simp [hhas]⟩
  · rfl

theorem nodup_keys_complete {attributes : List (String × Phrase)}
    (h : (Pairs.keys attributes).Nodup) (element : String) (inputType : Option String) :
    (Pairs.keys (complete element inputType attributes)).Nodup := by
  rw [complete_eq, Pairs.keys_append]
  split
  · have hdefaults : (Pairs.keys textDefaults).Nodup := by decide
    rw [List.nodup_append, Pairs.keys, Pairs.keys, List.map_map]
    refine ⟨h, hdefaults.sublist (List.filter_sublist.map _), ?_⟩
    rintro a ha b hb rfl
    obtain ⟨d, hd, rfl⟩ := List.mem_map.mp hb
    have hhas : Pairs.has attributes d.1 = false := by simpa using (List.mem_filter.mp hd).2
    exact Bool.false_ne_true (hhas.symm.trans (Pairs.has_iff_mem_keys.mpr ha))
  · rw [← Pairs.keys_append, List.append_nil]
    exact h

theorem keys_shownAttributes (e : Element) (shown : Option String) :
    Pairs.keys (e.shownAttributes shown)
      = if shown.isSome ∧ "value" ∉ Pairs.keys e.attributes then Pairs.keys e.attributes ++ ["value"]
        else Pairs.keys e.attributes := by
  have hkeys : Pairs.keys (e.attributes.map fun p => (p.1, Piece.fixed p.2.written))
      = Pairs.keys e.attributes := by
    rw [Pairs.keys, List.map_map]
    rfl
  unfold shownAttributes
  cases shown with
  | none => simpa using hkeys
  | some v =>
      dsimp only
      rw [Pairs.keys_set, hkeys]
      by_cases hvalue : "value" ∈ Pairs.keys e.attributes <;> simp [hvalue]

theorem nodup_keys_shownAttributes (h : ofDefinition idSuffix lang d = .ok e)
    (shown : Option String) : (Pairs.keys (e.shownAttributes shown)).Nodup := by
  have hnodup : (Pairs.keys e.attributes).Nodup := by
    rw [attributes_of_ofDefinition h]
    exact nodup_keys_complete (Pairs.nodup_keys_setAll (by simp [Pairs.keys]) _) _ _
  rw [keys_shownAttributes]
  split
  · rename_i hshown
    rw [List.nodup_append]
    refine ⟨hnodup, List.nodup_singleton _, ?_⟩
    rintro a ha b hb rfl
    exact hshown.2 (List.mem_singleton.mp hb ▸ ha)
  · exact hnodup

theorem mem_keys_attributes (h : ofDefinition idSuffix lang d = .ok e) {key : String} :
    key ∈ d.tagKeys lang e ↔ key = "value" ∨ key ∈ Pairs.keys e.attributes := by
  rw [attributes_of_ofDefinition h, mem_keys_complete, Pairs.mem_keys_setAll, Definition.tagKeys]
  simp only [Pairs.keys, List.map_cons, List.map_nil, List.mem_cons, List.mem_append,
    List.not_mem_nil, or_false]
  tauto

theorem mem_tagKeys_of_shown (h : ofDefinition idSuffix lang d = .ok e) {shown : Option String}
    {key : String} (hkey : key ∈ Pairs.keys (e.shownAttributes shown)) : key ∈ d.tagKeys lang e := by
  rw [mem_keys_attributes h]
  rw [keys_shownAttributes] at hkey
  split at hkey
  · rcases List.mem_append.mp hkey with hkey | hkey
    · exact Or.inr hkey
    · exact Or.inl (List.mem_singleton.mp hkey)
  · exact Or.inr hkey

theorem mem_shown_of_tagKeys (h : ofDefinition idSuffix lang d = .ok e) {key : String}
    (hkey : key ∈ d.tagKeys lang e) (v : String) : key ∈ Pairs.keys (e.shownAttributes (some v)) := by
  rw [keys_shownAttributes]
  rcases (mem_keys_attributes h).mp hkey with rfl | hkey
  · by_cases hvalue : "value" ∈ Pairs.keys e.attributes <;> simp [hvalue]
  · split
    · exact List.mem_append_left _ hkey
    · exact hkey

/-! ## Tags without repetitions

The two directions of the equivalence.  The second needs a value to be supplied, in which a
text and a mark both turn up: a flag that is set is both. -/

theorem nodup_tagNames_of_spellsOnce (h : ofDefinition idSuffix lang d = .ok e)
    (hd : d.SpellsOnce lang e) (supplied : Supplied) : (e.tagNames supplied).Nodup := by
  have hwritten : ∀ k ∈ e.writtenKeys (Pairs.get? supplied e.name),
      k ∈ d.tagKeys lang e ∧ lower k ≠ "checked" := by
    intro k hk
    obtain ⟨hk, hchecked⟩ := List.mem_filter.mp hk
    exact ⟨mem_tagKeys_of_shown h hk, bne_iff_ne.mp hchecked⟩
  have hflags := flags_of_ofDefinition h
  have hmark : e.isMarked supplied = true → "checked" ∉ e.flags.map lower := by
    intro hmarked hmem
    obtain ⟨n, hn, hlower⟩ := List.mem_map.mp hmem
    simp only [isMarked, Bool.and_eq_true, Bool.not_eq_true', beq_iff_eq] at hmarked
    obtain ⟨⟨hbox, hchecked⟩, hstate⟩ := hmarked
    have hname : e.stateName? ≠ none := fun hnone => by
      rw [hnone] at hstate
      cases hstate
    rw [hflags] at hn hchecked
    rw [hd.mark hbox hname n hn hlower] at hn
    exact Bool.false_ne_true (hchecked.symm.trans (List.contains_iff_mem.mpr hn))
  rw [tagNames_eq, List.nodup_cons, List.nodup_append, List.nodup_append]
  refine ⟨?_, ?_, ⟨hflags ▸ hd.bare, ?_, ?_⟩, ?_⟩
  · intro hclass
    rcases List.mem_append.mp hclass with hclass | hclass
    · obtain ⟨k, hk, hlower⟩ := List.mem_map.mp hclass
      exact hd.class_texts k (hwritten k hk).1 hlower
    · rcases List.mem_append.mp hclass with hclass | hclass
      · obtain ⟨n, hn, hlower⟩ := List.mem_map.mp hclass
        exact hd.class_bare n (hflags ▸ hn) hlower
      · split at hclass
        · exact absurd (List.mem_singleton.mp hclass) (by decide)
        · exact absurd hclass List.not_mem_nil
  · refine (List.nodup_map_iff_inj_on ((nodup_keys_shownAttributes h _).filter _)).mpr ?_
    intro k hk k' hk' hlower
    exact (hd.texts k (hwritten k hk).1 k' (hwritten k' hk').1 hlower).resolve_left (hwritten k hk).2
  · split
    · exact List.nodup_singleton _
    · exact List.nodup_nil
  · intro a ha b hb hab
    split at hb
    · rename_i hmarked
      exact hmark hmarked (List.mem_singleton.mp hb ▸ hab ▸ ha)
    · exact absurd hb List.not_mem_nil
  · rintro a ha b hb rfl
    obtain ⟨k, hk, rfl⟩ := List.mem_map.mp ha
    obtain ⟨hkey, hchecked⟩ := hwritten k hk
    rcases List.mem_append.mp hb with hb | hb
    · obtain ⟨n, hn, hlower⟩ := List.mem_map.mp hb
      exact hchecked (hd.apart n (hflags ▸ hn) k hkey hlower)
    · split at hb
      · exact hchecked (List.mem_singleton.mp hb)
      · exact absurd hb List.not_mem_nil

theorem exists_supplied (name : String) : ∃ values supplied,
    Supplied.ofValue values = .ok supplied ∧ Pairs.get? supplied name = some "true" := by
  have hne : Value.str "true" ≠ .null := fun h => nomatch h
  refine ⟨.ofPairs [(name, .str "true")], _, Supplied.ofValue_single hne, ?_⟩
  rw [Supplied.get?_ofValue (Supplied.ofValue_single hne), Supplied.valueFor?_single hne,
    if_pos (Or.inl rfl)]
  show some (Supplied.textOf (.str "true")) = some "true"
  decide +kernel

theorem spellsOnce_of_nodup_tagNames (h : ofDefinition idSuffix lang d = .ok e)
    (hnodup : ∀ values supplied, Supplied.ofValue values = .ok supplied →
      (e.tagNames supplied).Nodup) : d.SpellsOnce lang e := by
  obtain ⟨values, supplied, hsupplied, hshown⟩ := exists_supplied e.name
  have hone := hnodup values supplied hsupplied
  rw [tagNames_eq, hshown, List.nodup_cons, List.nodup_append, List.nodup_append] at hone
  obtain ⟨hclass, hwritten, ⟨hbare, _, _⟩, hapart⟩ := hone
  have hflags := flags_of_ofDefinition h
  have written : ∀ k ∈ d.tagKeys lang e, lower k ≠ "checked" → k ∈ e.writtenKeys (some "true") :=
    fun k hk hchecked =>
      List.mem_filter.mpr ⟨mem_shown_of_tagKeys h hk _, bne_iff_ne.mpr hchecked⟩
  have hinj := (List.nodup_map_iff_inj_on ((nodup_keys_shownAttributes h _).filter _)).mp hwritten
  rw [hflags] at hbare hapart hclass
  refine ⟨?_, hbare, ?_, ?_, ?_, ?_⟩
  · intro k hk k' hk' hlower
    by_cases hchecked : lower k = "checked"
    · exact Or.inl hchecked
    · exact Or.inr (hinj k (written k hk hchecked) k' (written k' hk' (hlower ▸ hchecked)) hlower)
  · intro k hk hlower
    have hchecked : lower k ≠ "checked" := by
      rw [hlower]
      decide
    exact hclass (List.mem_append_left _ (List.mem_map.mpr ⟨k, written k hk hchecked, hlower⟩))
  · intro n hn hlower
    refine hclass (List.mem_append_right _ (List.mem_append_left _ ?_))
    exact List.mem_map.mpr ⟨n, hn, hlower⟩
  · intro n hn k hk hlower
    by_contra hchecked
    exact hapart (lower k) (List.mem_map.mpr ⟨k, written k hk hchecked, rfl⟩) (lower n)
      (List.mem_append_left _ (List.mem_map.mpr ⟨n, hn, rfl⟩)) hlower.symm
  · -- a box with another spelling of the mark is marked a second time by a supplied value
    intro hbox hstate n hn hlower
    by_contra hne
    obtain ⟨name, hname⟩ := Option.ne_none_iff_exists'.mp hstate
    obtain ⟨values', supplied', hsupplied', hshown'⟩ := exists_supplied name
    have hplain : "checked" ∉ e.flags := by
      intro hmem
      have hinj := (List.nodup_map_iff_inj_on (List.Nodup.of_map _ hbare)).mp hbare
      refine hne (hinj n hn "checked" (hflags ▸ hmem) (hlower.trans ?_))
      decide +kernel
    have hmarked : e.isMarked supplied' = true := by
      simp [isMarked, hbox, hplain, hname, hshown']
    have htwice := hnodup values' supplied' hsupplied'
    rw [tagNames_eq, List.nodup_cons, List.nodup_append, List.nodup_append, if_pos hmarked] at htwice
    obtain ⟨_, _, ⟨_, _, htwice⟩, _⟩ := htwice
    exact htwice "checked" (List.mem_map.mpr ⟨n, hflags ▸ hn, hlower⟩) "checked"
      (List.mem_singleton.mpr rfl) rfl

/-! ## Attributes that count

Where no name is repeated, the first attribute of a name is the only one, and so any attribute
of the tag is the one that counts. -/

theorem find?_of_nodup {α : Type} (key : α → String) {l : List α} (h : (l.map key).Nodup) {a : α}
    (ha : a ∈ l) : l.find? (fun b => key b = key a) = some a := by
  induction l with
  | nil => exact absurd ha List.not_mem_nil
  | cons b l ih =>
      obtain ⟨hb, hl⟩ := List.nodup_cons.mp h
      rcases List.mem_cons.mp ha with rfl | ha
      · exact List.find?_cons_of_pos (by simp)
      · have hne : key b ≠ key a := fun heq => hb (heq ▸ List.mem_map.mpr ⟨a, ha, rfl⟩)
        rw [List.find?_cons_of_neg (by simpa using hne), ih hl ha]

section Heeded

variable (h : ofDefinition idSuffix lang d = .ok e) (hd : d.SpellsOnce lang e) (supplied : Supplied)
include h hd

theorem heeded?_of_mem {a : TagAttribute}
    (ha : a ∈ e.tagAttributes (Pairs.get? supplied e.name) supplied) :
    e.heeded? supplied a.name = some a :=
  find?_of_nodup (fun a : TagAttribute => lower a.name) (nodup_tagNames_of_spellsOnce h hd supplied) ha

theorem heeded?_text {key : String} {t : Phrase} (ht : d.textUnder? lang key = some t)
    (hkey : lower key ≠ "checked") :
    e.heeded? supplied key = some ⟨lower key, some
      (if key = "value" then ((Pairs.get? supplied e.name).map Piece.hole).getD (.fixed t.written)
        else .fixed t.written)⟩ := by
  have hget := Pairs.get?_mapValues (fun t : Phrase => Piece.fixed t.written) e.attributes key
  rw [get?_attributes_of_textUnder? h ht, Pairs.mapValues, Option.map_some] at hget
  have hshown : Pairs.get? (e.shownAttributes (Pairs.get? supplied e.name)) key
      = some (if key = "value" then ((Pairs.get? supplied e.name).map Piece.hole).getD (.fixed t.written)
        else .fixed t.written) := by
    unfold shownAttributes
    cases Pairs.get? supplied e.name with
    | none => simp [hget]
    | some v =>
        dsimp only
        rw [Pairs.get?_set, hget]
        by_cases hvalue : key = "value"
        · rw [if_pos hvalue, if_pos hvalue.symm]
          rfl
        · rw [if_neg hvalue, if_neg (fun heq => hvalue heq.symm)]
  have hmem := heeded?_of_mem h hd supplied (a := ⟨lower key, some
    (if key = "value" then ((Pairs.get? supplied e.name).map Piece.hole).getD (.fixed t.written)
      else .fixed t.written)⟩) (by
    unfold tagAttributes
    refine List.mem_append_left _ (List.mem_append_left _ (List.mem_append_right _ ?_))
    refine List.mem_map.mpr ⟨_, List.mem_filter.mpr ⟨Pairs.mem_of_get?_eq_some hshown, ?_⟩, rfl⟩
    exact bne_iff_ne.mpr hkey)
  unfold heeded? at hmem ⊢
  rwa [lower_lower] at hmem

theorem heeded?_bare {n : String} (hn : n ∈ d.bareNames) :
    e.heeded? supplied n = some ⟨n, none⟩ := by
  refine heeded?_of_mem h hd supplied (a := ⟨n, none⟩) ?_
  unfold tagAttributes
  refine List.mem_append_left _ (List.mem_append_right _ (List.mem_map.mpr ⟨n, ?_, rfl⟩))
  rw [flags_of_ofDefinition h]
  exact hn

end Heeded

end Element

/-! ## Forms -/

namespace Form

variable {form : Form} {lang : Option String}

/-- When the tag of a field names no attribute twice, and what that is good for. -/
structure NamesOnce (form : Form) (lang : Option String) (f : Field) (e : Element) : Prop where
  once : (∀ values supplied, Supplied.ofValue values = .ok supplied → (e.tagNames supplied).Nodup)
    ↔ (Definition.ofField form.schema.config f).SpellsOnce lang e
  /-- Every declared text counts, but one for the mark of a box, and one for a value that is
  supplied. -/
  texts : (Definition.ofField form.schema.config f).SpellsOnce lang e → ∀ supplied key t,
    (Definition.ofField form.schema.config f).textUnder? lang key = some t →
      lower key ≠ "checked" →
      e.heeded? supplied key = some ⟨lower key, some
        (if key = "value" then ((Pairs.get? supplied e.name).map Piece.hole).getD (.fixed t.written)
          else .fixed t.written)⟩
  bare : (Definition.ofField form.schema.config f).SpellsOnce lang e → ∀ supplied,
    ∀ n ∈ (Definition.ofField form.schema.config f).bareNames, e.heeded? supplied n = some ⟨n, none⟩

/-- In every language, the tag of a field names no attribute twice, whatever values are supplied,
exactly when its definition spells every name once.  Then all that the field declares counts. -/
theorem forall₂_namesOnce {elements : List Element} (h : form.elements lang = .ok elements) :
    List.Forall₂ (form.NamesOnce lang) form.schema.fields elements := by
  have built := List.forall₂_map_left_iff (f := Definition.ofField form.schema.config).mp
    (Element.forall₂_of_ofDefinitions h)
  refine List.Forall₂.imp (fun f e hbuilt => ?_) built
  exact {
    once := ⟨Element.spellsOnce_of_nodup_tagNames hbuilt,
      fun hd _ supplied _ => Element.nodup_tagNames_of_spellsOnce hbuilt hd supplied⟩
    texts := fun hd supplied _ _ => Element.heeded?_text hbuilt hd supplied
    bare := fun hd supplied _ => Element.heeded?_bare hbuilt hd supplied }

/-- A text area with a width, a default that is declared, and a name without a value. -/
def bioField : Field where
  name := "bio"
  type := .str
  declared := some (Declaration.attributes {
    element := .str "textarea"
    inputType := .str "textarea"
    others := [("cols", .int 40), ("spellcheck", .str "true"), ("Autofocus", .bool true)] })

/-- A form of that field. -/
def bioForm : Form where
  schema := { name := "Profile", fields := [bioField] }
  options := { passwordHideSvg := "", passwordShowSvg := "" }
  buttonLabel := "Submit"
  componentElement := defaultComponentElement

/-- Its element. -/
def bioElement : Element where
  name := "bio"
  id := "bio_"
  element := "textarea"
  label := .ofText "Bio"
  inputType := some "textarea"
  flags := ["required", "Autofocus"]
  attributes := [("name", .ofText "bio"), ("id", .ofText "bio_"), ("type", .ofText "textarea"),
    ("cols", .ofText "40"), ("spellcheck", .ofText "true"), ("autocapitalize", .ofText "off"),
    ("autocomplete", .ofText "off"), ("autocorrect", .ofText "off"), ("placeholder", .ofText ""),
    ("value", .ofText "")]

/-- Whatever values are supplied, its tag repeats no name, and the declared text counts. -/
theorem bio_namesOnce : bioForm.elements none = .ok [bioElement] ∧
    ∀ values supplied, Supplied.ofValue values = .ok supplied →
      (bioElement.tagNames supplied).Nodup ∧
        bioElement.heeded? supplied "spellcheck" = some ⟨"spellcheck", some (.fixed "true")⟩ := by
  have built : bioForm.elements none = .ok [bioElement] := by decide +kernel
  have small : ((Definition.ofField bioForm.schema.config bioField).tagKeys none bioElement).all
      (fun k => k.toList.all fun c => c.toNat < 128 && c.toLower == c) = true := by
    decide +kernel
  have spells := Definition.SpellsOnce.of_small
    (fun k hk => lower_of_ascii_small (List.all_eq_true.mp small k hk))
    (by decide +kernel) (by decide +kernel) (by decide +kernel)
  have declared : (Definition.ofField bioForm.schema.config bioField).textUnder? none "spellcheck"
      = some (.ofText "true") := by
    decide +kernel
  obtain _ | ⟨tag, _⟩ := forall₂_namesOnce built
  refine ⟨built, fun values supplied hsupplied => ⟨tag.once.mpr spells values supplied hsupplied, ?_⟩⟩
  have hheeded := tag.texts spells supplied "spellcheck" _ declared (by decide +kernel)
  have hlower : lower "spellcheck" = "spellcheck" := by decide +kernel
  rw [hlower, if_neg (by decide)] at hheeded
  exact hheeded

/-- A text for which a class is declared. -/
def nickForm : Form where
  schema := { name := "Guest", fields := [
    { name := "nick", type := .str,
      declared := some (Declaration.attributes {
        element := .str "input", inputType := .str "text", others := [("class_", .str "wide")] }) }] }
  options := { passwordHideSvg := "", passwordShowSvg := "" }
  buttonLabel := "Submit"
  componentElement := defaultComponentElement

/-- Its tag has two classes, and the declared one does not count. -/
theorem declared_class_not_heeded :
    ((nickForm.elements none).toOption.map fun elements => elements.map fun e =>
      (e.tagNames [], Pairs.get? e.attributes "class", e.heeded? [] "class"))
        = some [(["class", "name", "id", "type", "class", "autocapitalize", "autocomplete",
            "autocorrect", "placeholder", "spellcheck", "value", "required"],
          some (.ofText "wide"), some ⟨"class", some (.fixed "nick")⟩)] := by
  decide +kernel

end Form

end WebForm
