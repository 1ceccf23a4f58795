/-
What a tag holds of the declared attributes.

An attribute that a field declares has one of a few meanings.  Some stand for something else
than themselves: the element, the type of an input, the label, the hint and the value have
places of their own.  Any other writes a text under its name, or, if its value is a flag, its
own name without a value, or nothing.  `textOf?` and `bareName?` are these meanings, for one
attribute and one language.

Taking the attributes of a definition one after another comes to setting their texts and
adding their names, whatever the language:

    draft.attributes = Pairs.setAll start.attributes (l.filterMap (textOf? lang))
    draft.flags = start.flags ++ l.filterMap bareName?

(`Draft.foldlM_add_eq_ok`).  The defaults of the tag follow where a name is not there.  So an
element can be read off its definition without a run: `attributes_of_ofDefinition` and
`flags_of_ofDefinition` are the two equations for the table and the names, and all that later
modules say of a tag is said of the lists `texts` and `bareNames` of its definition.

A run that fails gives no element, so that the language enters only through the texts that are
found in it.  That a value says something in a language does not depend on the field which a
fault would name, and this is why `textOf?` asks without a field.
-/
import WebForm.Proofs.Projection
import WebForm.Proofs.Tag

namespace WebForm

open WebForm.Text
open Element (Draft attributeFor nonEmpty)

namespace Definition

/-! ## What one attribute writes

An empty value writes nothing, and the attributes with places of their own write no name. -/

/-- The attributes that stand for something else than themselves. -/
def ownMeaning : List String :=
  ["element", "hint", "label", "placeholder", "endpoint", "elementValue", "inputType"]

/-- The text that an attribute without a meaning of its own writes, after its name. -/
def ordinaryText? (key : String) : Value → Option (String × Phrase)
  | .bool _ => none
  | v => if key = "type" then none else some (key, .ofText v.declaredText)

/-- The text that an attribute writes into the tag, after the name under which it is written. -/
def textOf? (lang : Option String) (a : String × Value) : Option (String × Phrase) :=
  let (key, v) := a
  if v.isEmpty then none
  else
    match key with
    | "element" | "hint" | "label" => none
    | "placeholder" | "endpoint" =>
      (v.inLanguage lang none).toOption.map fun t => (attributeFor key, t)
    | "elementValue" => some ("value", .ofText v.attributeText)
    | "inputType" => some ("type", .ofText v.text)
    | key => ordinaryText? key v

/-- The name that an attribute writes into the tag without a value. -/
def bareName? (a : String × Value) : Option String :=
  match a.2 with
  | .bool true => if a.1 ∈ ownMeaning then none else some a.1
  | _ => none

/-- The texts that a definition writes into the tag, in order. -/
def texts (lang : Option String) (d : Definition) : List (String × Phrase) :=
  d.attributes.filterMap (textOf? lang)

/-- The names that a definition writes into the tag without a value, in order. -/
def bareNames (d : Definition) : List String :=
  (if d.required then ["required"] else []) ++ d.attributes.filterMap bareName?

/-- The last text that a definition writes under a name. -/
def textUnder? (lang : Option String) (d : Definition) (name : String) : Option Phrase :=
  ((d.texts lang).reverse.find? fun p => p.1 = name).map (·.2)

theorem textOf?_of_isEmpty {key : String} {v : Value} (h : v.isEmpty = true) (lang : Option String) :
    textOf? lang (key, v) = none := if_pos h

theorem textOf?_of_not_mem {key : String} {v : Value} (hkey : key ∉ ownMeaning)
    (h : v.isEmpty = false) (lang : Option String) : textOf? lang (key, v) = ordinaryText? key v := by
  simp only [ownMeaning, List.mem_cons, List.not_mem_nil, or_false, not_or] at hkey
  obtain ⟨helement, hhint, hlabel, hplaceholder, hendpoint, hvalue, hinput⟩ := hkey
  unfold textOf?
  dsimp only
  rw [h, if_neg Bool.false_ne_true]
  split <;> first | contradiction | rfl

theorem bareName?_of_isEmpty {key : String} {v : Value} (h : v.isEmpty = true) :
    bareName? (key, v) = none := by
  cases v with
  | bool b => cases h
  | _ => rfl

theorem bareName?_of_mem {key : String} (hkey : key ∈ ownMeaning) (v : Value) :
    bareName? (key, v) = none := by
  unfold bareName?
  split
  · exact if_pos hkey
  · rfl

end Definition

open Definition (textOf? ordinaryText? bareName? ownMeaning)

theorem Value.toOption_inLanguage (v : Value) (lang field : Option String) :
    (v.inLanguage lang field).toOption = (v.inLanguage lang none).toOption := by
  unfold inLanguage
  split
  · rfl
  · split
    · rfl
    · split
      · rfl
      · split <;> rfl

theorem Value.exists_of_map_inLanguage {α : Type} {v : Value} {lang field : Option String}
    {f : Phrase → α} {a : α} (h : (v.inLanguage lang field).map f = .ok a) :
    ∃ t, (v.inLanguage lang none).toOption = some t ∧ f t = a := by
  cases hv : v.inLanguage lang field with
  | error e =>
      rw [hv] at h
      cases h
  | ok t =>
      rw [hv] at h
      refine ⟨t, ?_, Except.ok.inj h⟩
      rw [← Value.toOption_inLanguage v lang field, hv]
      rfl

namespace Element

/-! ## What a run of attributes writes

One attribute sets at most one text and adds at most one name, and the run is an induction on
that. -/

theorem Draft.addOrdinary_eq {key : String} (hkey : key ∉ ownMeaning) (d : Draft) (v : Value) :
    (d.addOrdinary key v).attributes = Pairs.setAll d.attributes (ordinaryText? key v).toList ∧
      (d.addOrdinary key v).flags = d.flags ++ (bareName? (key, v)).toList := by
  cases v with
  | bool b =>
      cases b with
      | true => exact ⟨rfl, by simp [addOrdinary, bareName?, hkey]⟩
      | false => exact ⟨rfl, (List.append_nil _).symm⟩
  | _ =>
      simp only [addOrdinary, ordinaryText?, bareName?]
      split
      · exact ⟨rfl, (List.append_nil _).symm⟩
      · exact ⟨rfl, (List.append_nil _).symm⟩

theorem Draft.add_eq_ok {name : String} {lang : Option String} {d d' : Draft} {a : String × Value}
    (h : Draft.add name lang d a = .ok d') :
    d'.attributes = Pairs.setAll d.attributes (textOf? lang a).toList ∧
      d'.flags = d.flags ++ (bareName? a).toList := by
  obtain ⟨key, v⟩ := a
  have bare : key ∈ ownMeaning → (bareName? (key, v)).toList = [] := by
    intro hkey
    rw [Definition.bareName?_of_mem hkey v]
    rfl
  unfold Draft.add at h
  dsimp only at h
  cases hv : v.isEmpty with
  | true =>
      rw [hv, if_pos rfl] at h
      cases h
      simp [Definition.textOf?_of_isEmpty hv lang, Definition.bareName?_of_isEmpty hv, Pairs.setAll]
  | false =>
      rw [hv, if_neg Bool.false_ne_true] at h
      split at h
      · cases h
        simp [textOf?, bare (by decide), Pairs.setAll]
      · obtain ⟨t, _, rfl⟩ := Value.exists_of_map_inLanguage h
        simp [textOf?, bare (by decide), Pairs.setAll]
      · obtain ⟨t, _, rfl⟩ := Value.exists_of_map_inLanguage h
        simp [textOf?, bare (by decide), Pairs.setAll]
      · obtain ⟨t, ht, rfl⟩ := Value.exists_of_map_inLanguage h
        simp [textOf?, hv, ht, bare (by decide), Pairs.setAll, Draft.set, attributeFor]
      · obtain ⟨t, ht, rfl⟩ := Value.exists_of_map_inLanguage h
        simp [textOf?, hv, ht, bare (by decide), Pairs.setAll, Draft.set, attributeFor]
      · cases h
        simp [textOf?, hv, bare (by decide), Pairs.setAll, Draft.set]
      · cases h
        simp [textOf?, hv, bare (by decide), Pairs.setAll, Draft.set]
      · rename_i helement hhint hlabel hplaceholder hendpoint hvalue hinput
        cases h
        have hkey : key ∉ ownMeaning := by
          simp only [ownMeaning, List.mem_cons, List.not_mem_nil, or_false, not_or]
          exact ⟨helement, hhint, hlabel, hplaceholder, hendpoint, hvalue, hinput⟩
        rw [Definition.textOf?_of_not_mem hkey hv lang]
        exact Draft.addOrdinary_eq hkey d v

/-- Attributes that are taken one after another set the texts that they write, and add the names. -/
theorem Draft.foldlM_add_eq_ok {name : String} {lang : Option String} {l : List (String × Value)}
    {d d' : Draft} (h : l.foldlM (Draft.add name lang) d = .ok d') :
    d'.attributes = Pairs.setAll d.attributes (l.filterMap (textOf? lang)) ∧
      d'.flags = d.flags ++ l.filterMap bareName? := by
  induction l generalizing d with
  | nil =>
      cases h
      exact ⟨rfl, (List.append_nil _).symm⟩
  | cons a l ih =>
      obtain ⟨mid, hfirst, hrest⟩ := exists_of_foldlM_cons h
      obtain ⟨hattributes, hflags⟩ := Draft.add_eq_ok hfirst
      obtain ⟨hattributes', hflags'⟩ := ih hrest
      rw [hattributes', hflags', hattributes, hflags, ← Pairs.setAll_append, List.append_assoc]
      have split : ∀ {β : Type} (f : String × Value → Option β),
          (a :: l).filterMap f = (f a).toList ++ l.filterMap f := by
        intro β f
        rw [List.filterMap_cons]
        cases f a <;> rfl
      exact ⟨by rw [split], by rw [split]⟩

/-! ## Elements

The name and the id are set before any attribute, so that they stand first in every tag, with
the last text that is declared for them. -/

/-- A draft before any attribute is taken. -/
def Draft.start (idSuffix : String) (d : Definition) : Draft where
  flags := if d.required then ["required"] else []
  attributes := [("name", .ofText d.name), ("id", .ofText (d.name ++ "_" ++ idSuffix))]

variable {idSuffix : String} {lang : Option String} {d : Definition} {e : Element}

/-- What an element is made of: a draft that took the attributes of its definition. -/
structure MadeOf (idSuffix : String) (d : Definition) (draft : Draft) (e : Element) : Prop where
  name : e.name = d.name
  id : e.id = d.name ++ "_" ++ idSuffix
  element : nonEmpty draft.element = some e.element
  inputType : nonEmpty draft.inputType = e.inputType
  typed : e.inputType ≠ none
  label : e.label = (Phrase.nonEmpty? draft.label).getD (.ofText (defaultLabel d.name))
  hint : e.hint = draft.hint
  elementValue : e.elementValue = draft.elementValue
  flags : e.flags = draft.flags
  attributes : e.attributes = complete e.element e.inputType draft.attributes

theorem exists_madeOf (h : ofDefinition idSuffix lang d = .ok e) :
    ∃ draft, d.attributes.foldlM (Draft.add d.name lang) (Draft.start idSuffix d) = .ok draft ∧
      MadeOf idSuffix d draft e := by
  unfold ofDefinition at h
  change (d.attributes.foldlM (Draft.add d.name lang) (Draft.start idSuffix d) >>= _) = _ at h
  cases hdraft : d.attributes.foldlM (Draft.add d.name lang) (Draft.start idSuffix d) with
  | error fault =>
      rw [hdraft] at h
      cases h
  | ok draft =>
      rw [hdraft] at h
      refine ⟨draft, rfl, ?_⟩
      simp only [bind, Except.bind] at h
      split at h
      · cases h
      · cases h
      · rename_i element inputType helement htype
        cases h
        exact ⟨rfl, rfl, helement, htype, Option.some_ne_none _, rfl, rfl, rfl, rfl, rfl⟩

theorem exists_setAll_eq (name id : Phrase) (texts : List (String × Phrase)) :
    ∃ rest, Pairs.setAll [("name", name), ("id", id)] texts
      = ("name", ((texts.reverse.find? fun p => p.1 = "name").map (·.2)).getD name)
        :: ("id", ((texts.reverse.find? fun p => p.1 = "id").map (·.2)).getD id) :: rest := by
  have hname := Pairs.get?_setAll [("name", name), ("id", id)] texts "name"
  have hid := Pairs.get?_setAll [("name", name), ("id", id)] texts "id"
  obtain ⟨ks, hkeys⟩ := Pairs.keys_prefix_setAll [("name", name), ("id", id)] texts
  generalize Pairs.setAll [("name", name), ("id", id)] texts = tag at hname hid hkeys ⊢
  obtain _ | ⟨⟨k, n⟩, _ | ⟨⟨k', i⟩, rest⟩⟩ := tag
  · cases hkeys
  · cases hkeys
  · obtain ⟨rfl, rfl, -⟩ : "name" = k ∧ "id" = k' ∧ _ := by simpa [Pairs.keys] using hkeys
    refine ⟨rest, ?_⟩
    have hn : n = ((texts.reverse.find? fun p => p.1 = "name").map (·.2)).getD name := by
      refine Option.some.inj (hname.trans ?_)
      cases (texts.reverse.find? fun p => p.1 = "name") <;> rfl
    have hi : i = ((texts.reverse.find? fun p => p.1 = "id").map (·.2)).getD id := by
      refine Option.some.inj (hid.trans ?_)
      cases (texts.reverse.find? fun p => p.1 = "id") <;> rfl
    rw [← hn, ← hi]

/-- The texts of a tag are those that its definition writes over the name and the id, and the
defaults. -/
theorem attributes_of_ofDefinition (h : ofDefinition idSuffix lang d = .ok e) :
    e.attributes = complete e.element e.inputType
      (Pairs.setAll [("name", .ofText d.name), ("id", .ofText (d.name ++ "_" ++ idSuffix))]
        (d.texts lang)) := by
  obtain ⟨draft, hdraft, made⟩ := exists_madeOf h
  rw [made.attributes, (Draft.foldlM_add_eq_ok hdraft).1]
  rfl

theorem get?_attributes_of_textUnder? (h : ofDefinition idSuffix lang d = .ok e) {key : String}
    {t : Phrase} (ht : d.textUnder? lang key = some t) : Pairs.get? e.attributes key = some t := by
  rw [attributes_of_ofDefinition h, complete_eq, Pairs.get?_append, Pairs.get?_setAll]
  rw [Definition.textUnder?] at ht
  rw [ht]
  rfl

theorem stateName?_of_ofDefinition (h : ofDefinition idSuffix lang d = .ok e) :
    e.stateName? = nonEmpty (some (((d.textUnder? lang "name").map (·.content)).getD e.name)) := by
  obtain ⟨_, _, made⟩ := exists_madeOf h
  obtain ⟨rest, hrest⟩ := exists_setAll_eq (.ofText d.name) (.ofText (d.name ++ "_" ++ idSuffix))
    (d.texts lang)
  have hname : Pairs.get? e.attributes "name"
      = some ((d.textUnder? lang "name").getD (.ofText d.name)) := by
    rw [attributes_of_ofDefinition h, hrest, complete_eq]
    rfl
  unfold stateName?
  rw [hname, made.name]
  cases d.textUnder? lang "name" <;> rfl

/-- The attributes of a tag without a value are the names that its definition writes. -/
theorem flags_of_ofDefinition (h : ofDefinition idSuffix lang d = .ok e) :
    e.flags = d.bareNames := by
  obtain ⟨draft, hdraft, made⟩ := exists_madeOf h
  rw [made.flags, (Draft.foldlM_add_eq_ok hdraft).2]
  rfl

end Element

end WebForm
