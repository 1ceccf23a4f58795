/-
Showing a schema in a language.

A schema may give a label, a hint or a text in several languages.  Showing it in one of them
is a projection: it comes to the same as showing the schema that has the text for that
language in the place of all texts by language (`Schema.told`), in whatever language that one
is shown.

    (ofDefinitions suffix (some L) schema.definitions).map (… plain …)
      = ofDefinitions suffix lang (schema.told L).definitions

Both sides are elements or faults, so that faults are projected as well.
`ofDefinitions_projects` adds that the language does not count where nothing is given by
language, and that texts for other languages never count: two schemas with the same projection
show the same.

The `plain` on the left is there because of options.  A text by language may be an option of
an enumeration, which is read as its value and written as its name, while its projection is a
plain text and is written as it is read.  So the two sides are equal as they are read, and
equal altogether if none of the texts is an option.  To have one proof for both, everything is
stated for a map of phrases that keeps what is read (`Phrase.Fixes`), of which the identity is
one example and `Phrase.plain` another.

Two attributes read alike, each in a language of its own, if the localizable ones say the same
phrase up to such a map and all others are the same.  Building an element keeps this at every
step: an attribute lands where its name says, and what is added by default is fixed by the
map.

The schema has to be told in the language: a language is given, nothing is mixed, and every
value by language has a text for it.  Otherwise the left side may be a fault that the right
side does not have.
-/
import Mathlib.Data.List.Forall2
import WebForm.Proofs.Defaults
import WebForm.Proofs.Precedence

namespace WebForm

open Element (nonEmpty)
open Definition (Mixed byLanguage isUntold localizable localizableNames)

/-! ## Maps of phrases

A map of phrases is carried along as the draft of an element grows, and commutes with each
thing that is done to a draft. -/

namespace Phrase

/-- The phrase as it is read: written as its text. -/
def plain (p : Phrase) : Phrase := .ofText p.content

/-- A map of phrases that keeps what is read, and every phrase that is written as it is read. -/
structure Fixes (g : Phrase → Phrase) : Prop where
  content : ∀ p, (g p).content = p.content
  ofText : ∀ s, g (.ofText s) = .ofText s

theorem fixes_plain : Fixes plain := ⟨fun _ => rfl, fun _ => rfl⟩

theorem fixes_id : Fixes (fun p => p) := ⟨fun _ => rfl, fun _ => rfl⟩

theorem Fixes.nonEmpty?_map {g : Phrase → Phrase} (hg : Fixes g) (p : Option Phrase) :
    nonEmpty? (p.map g) = (nonEmpty? p).map g := by
  cases p with
  | none => rfl
  | some p =>
      cases h : p.content.isEmpty <;> simp [nonEmpty?, isEmpty, Option.filter, hg.content, h]

end Phrase

namespace Element

/-- The element with its phrases mapped. -/
def mapPhrases (g : Phrase → Phrase) (e : Element) : Element :=
  { e with label := g e.label, hint := e.hint.map g, attributes := Pairs.mapValues g e.attributes }

theorem mapPhrases_id : mapPhrases (fun p => p) = fun e => e := by
  funext e
  simp [mapPhrases, Pairs.mapValues]

namespace Draft

/-- The draft with its phrases mapped. -/
def mapPhrases (g : Phrase → Phrase) (d : Draft) : Draft :=
  { d with
    label := d.label.map g, hint := d.hint.map g, attributes := Pairs.mapValues g d.attributes }

variable {g : Phrase → Phrase}

theorem mapPhrases_set (d : Draft) (key : String) (t : Phrase) :
    (d.set key t).mapPhrases g = (d.mapPhrases g).set key (g t) := by
  simp only [mapPhrases, set, Pairs.mapValues, Pairs.map_set]

theorem mapPhrases_put (key : String) (d : Draft) (t : Phrase) :
    (d.put key t).mapPhrases g = (d.mapPhrases g).put key (g t) := by
  unfold put
  split
  · rfl
  · rfl
  · exact mapPhrases_set ..
  · exact mapPhrases_set ..

theorem mapPhrases_addOrdinary (hg : Phrase.Fixes g) (key : String) (d : Draft) (v : Value) :
    (d.addOrdinary key v).mapPhrases g = (d.mapPhrases g).addOrdinary key v := by
  unfold addOrdinary
  split
  · rfl
  · rfl
  · split
    · rfl
    · rw [mapPhrases_set, hg.ofText]

theorem mapPhrases_take (hg : Phrase.Fixes g) (key : String) (d : Draft) (v : Value) :
    (d.take key v).mapPhrases g = (d.mapPhrases g).take key v := by
  unfold take
  split
  · rfl
  · rw [mapPhrases_set, hg.ofText]
    rfl
  · rw [mapPhrases_set, hg.ofText]
    rfl
  · exact mapPhrases_addOrdinary hg ..

end Draft

/-! ## Defaults

Defaults are texts that are written as they are read, and so every map of phrases keeps them. -/

section Defaults

variable {g : Phrase → Phrase} (hg : Phrase.Fixes g)
include hg

theorem complete_mapValues (element : String) (inputType : Option String)
    (attributes : List (String × Phrase)) :
    complete element inputType (Pairs.mapValues g attributes)
      = Pairs.mapValues g (complete element inputType attributes) := by
  have hfixed : ∀ ds : List (String × String),
      Pairs.mapValues g (ds.map fun d => (d.1, Phrase.ofText d.2))
        = ds.map fun d => (d.1, Phrase.ofText d.2) := by
    intro ds
    rw [Pairs.mapValues, List.map_map]
    exact List.map_congr_left fun d _ => Prod.ext rfl (hg.ofText d.2)
  simp only [complete_eq, Pairs.mapValues_append, Pairs.has_mapValues]
  split
  · rw [hfixed]
  · rfl

end Defaults

/-! ## Schemas that read alike

Taking one attribute, then all attributes of a definition, then all definitions.  The checks
of the schema as a whole are not part of this, and so it is assumed of both schemas that they
pass. -/

/-- An attribute in one language reads like another in another language. -/
structure ReadsLike (g : Phrase → Phrase) (lang lang' : Option String) (a b : String × Value) :
    Prop where
  key : b.1 = a.1
  empty : b.2.isEmpty = a.2.isEmpty
  localizable : a.1 ∈ localizableNames →
    ∀ field, b.2.inLanguage lang' field = (a.2.inLanguage lang field).map g
  other : a.1 ∉ localizableNames → b.2 = a.2

/-- Definitions of one field that read alike attribute by attribute. -/
structure DefinitionsAlike (g : Phrase → Phrase) (lang lang' : Option String) (d e : Definition) :
    Prop where
  name : e.name = d.name
  required : e.required = d.required
  attributes : List.Forall₂ (ReadsLike g lang lang') d.attributes e.attributes

section Alike

variable {g : Phrase → Phrase} (hg : Phrase.Fixes g) {lang lang' : Option String}
include hg

theorem Draft.add_of_readsLike (name : String) {a b : String × Value}
    (h : ReadsLike g lang lang' a b) (d : Draft) :
    Draft.add name lang' (d.mapPhrases g) b = (Draft.add name lang d a).map (mapPhrases g) := by
  obtain ⟨key, v⟩ := a
  obtain ⟨key', w⟩ := b
  obtain ⟨rfl, hempty, hlocalizable, hother⟩ := h
  dsimp only at hempty hlocalizable hother
  rw [Draft.add_eq, Draft.add_eq, hempty]
  split
  · rfl
  · by_cases hkey : key' ∈ localizableNames
    · rw [if_pos hkey, if_pos hkey, hlocalizable hkey]
      cases v.inLanguage lang (some name) with
      | error fault => rfl
      | ok t => simp only [Except.map, mapPhrases_put]
    · rw [if_neg hkey, if_neg hkey, hother hkey]
      simp only [Except.map, mapPhrases_take hg]

theorem Draft.foldlM_add_of_readsLike (name : String) {l l' : List (String × Value)}
    (h : List.Forall₂ (ReadsLike g lang lang') l l') (d : Draft) :
    l'.foldlM (Draft.add name lang') (d.mapPhrases g)
      = (l.foldlM (Draft.add name lang) d).map (mapPhrases g) := by
  induction h generalizing d with
  | nil => rfl
  | cons ha _ ih =>
      rw [List.foldlM_cons, List.foldlM_cons, Draft.add_of_readsLike hg name ha]
      cases Draft.add name lang d _ with
      | error fault => rfl
      | ok mid => exact ih mid

theorem ofDefinition_alike (idSuffix : String) {d e : Definition}
    (h : DefinitionsAlike g lang lang' d e) :
    ofDefinition idSuffix lang' e = (ofDefinition idSuffix lang d).map (mapPhrases g) := by
  obtain ⟨hname, hrequired, hattributes⟩ := h
  have hstart : ∀ start : Draft, start.mapPhrases g = start →
      e.attributes.foldlM (Draft.add d.name lang') start
        = (d.attributes.foldlM (Draft.add d.name lang) start).map (Draft.mapPhrases g) := by
    intro start hfixed
    rw [← Draft.foldlM_add_of_readsLike hg d.name hattributes start, hfixed]
  unfold ofDefinition
  dsimp only
  rw [hname, hrequired, hstart _ (by simp [Draft.mapPhrases, Pairs.mapValues, hg.ofText])]
  cases d.attributes.foldlM (Draft.add d.name lang) _ with
  | error fault => rfl
  | ok draft =>
      simp only [Except.map, bind, Except.bind, Draft.mapPhrases]
      cases nonEmpty draft.element with
      | none => rfl
      | some element =>
          cases nonEmpty draft.inputType with
          | none => rfl
          | some inputType =>
              have hlabel : ∀ p : Option Phrase, (p.map g).getD (.ofText (defaultLabel d.name))
                  = g (p.getD (.ofText (defaultLabel d.name))) := by
                rintro (_ | p)
                · exact (hg.ofText _).symm
                · rfl
              simp only [hg.nonEmpty?_map, hlabel, complete_mapValues hg]
              rfl

theorem mapM_alike (idSuffix : String) {ds es : List Definition}
    (h : List.Forall₂ (DefinitionsAlike g lang lang') ds es) :
    es.mapM (ofDefinition idSuffix lang')
      = (ds.mapM (ofDefinition idSuffix lang)).map (List.map (mapPhrases g)) := by
  induction h with
  | nil => rfl
  | cons ha _ ih =>
      rw [List.mapM_cons, List.mapM_cons, ofDefinition_alike hg idSuffix ha, ih]
      cases ofDefinition idSuffix lang _ with
      | error fault => rfl
      | ok e =>
          cases List.mapM (ofDefinition idSuffix lang) _ with
          | error fault => rfl
          | ok elements => rfl

theorem ofDefinitions_alike (idSuffix : String) {ds es : List Definition}
    (h : List.Forall₂ (DefinitionsAlike g lang lang') ds es)
    (hds : ¬Mixed (localizable ds)) (hds' : ¬(NeedsLanguage ds ∧ nonEmpty lang = none))
    (hes : ¬Mixed (localizable es)) (hes' : ¬(NeedsLanguage es ∧ nonEmpty lang' = none)) :
    ofDefinitions idSuffix lang' es
      = (ofDefinitions idSuffix lang ds).map (List.map (mapPhrases g)) := by
  rw [ofDefinitions_of_not_mixed idSuffix hds, ofDefinitions_of_not_mixed idSuffix hes,
    if_neg (mt lacking_iff.mp hds'), if_neg (mt lacking_iff.mp hes')]
  exact mapM_alike hg idSuffix h

end Alike

theorem not_mixed_of_not_localized {ds : List Definition}
    (h : ∀ v ∈ localizable ds, v.localized = false) : ¬Mixed (localizable ds) := by
  rintro ⟨v, hv, w, hw, hne⟩
  exact hne ((h v hv).trans (h w hw).symm)

theorem not_needsLanguage_of_not_localized {ds : List Definition}
    (h : ∀ v ∈ localizable ds, v.localized = false) : ¬NeedsLanguage ds := by
  rintro ⟨v, hv, htrue⟩
  exact absurd ((h v hv).symm.trans htrue) Bool.false_ne_true

theorem readsLike_self {a : String × Value} (h : byLanguage a = false) (lang lang' : Option String) :
    ReadsLike (fun p => p) lang lang' a a where
  key := rfl
  empty := rfl
  localizable := by
    intro hkey field
    have hv : a.2.isLocalized = false := (Definition.byLanguage_of_mem hkey a.2).symm.trans h
    rw [Value.inLanguage_of_not_isLocalized hv, Value.inLanguage_of_not_isLocalized hv]
    rfl
  other := fun _ => rfl

theorem ofDefinitions_of_not_localized (idSuffix : String) {ds : List Definition}
    (h : ∀ v ∈ localizable ds, v.localized = false) (lang lang' : Option String) :
    ofDefinitions idSuffix lang' ds = ofDefinitions idSuffix lang ds := by
  have hmixed := not_mixed_of_not_localized h
  have hneeds := not_needsLanguage_of_not_localized h
  have halike : List.Forall₂ (DefinitionsAlike (fun p => p) lang lang') ds ds :=
    List.forall₂_same.mpr fun d hd => ⟨rfl, rfl, List.forall₂_same.mpr fun a ha =>
      readsLike_self (Definition.byLanguage_eq_false h d hd a ha) lang lang'⟩
  rw [ofDefinitions_alike Phrase.fixes_id idSuffix halike hmixed (fun hl => hneeds hl.1) hmixed
    (fun hl => hneeds hl.1)]
  cases ofDefinitions idSuffix lang ds with
  | error fault => rfl
  | ok elements => simp only [Except.map, mapPhrases_id, List.map_id']

end Element

/-! ## The schema of one language

A schema whose texts have been told gives nothing by language, so that its checks pass. -/

/-- The text that a value by language has for a language. -/
def Value.textIn (lang : String) (v : Value) : String :=
  ((valueAt? v.entries lang).bind asText?).getD ""

namespace Definition

/-- The attribute with its text for a language in place of its texts by language. -/
def tell (lang : String) (a : String × Value) : String × Value :=
  if byLanguage a then (a.1, .str (a.2.textIn lang)) else a

/-- The definition with its texts for a language in place of those by language. -/
def told (lang : String) (d : Definition) : Definition :=
  { d with attributes := d.attributes.map (tell lang) }

theorem tell_fst (lang : String) (a : String × Value) : (tell lang a).1 = a.1 := by
  unfold tell
  split <;> rfl

theorem not_byLanguage_tell (lang : String) (a : String × Value) :
    byLanguage (tell lang a) = false := by
  unfold tell
  cases h : byLanguage a with
  | true => simp [byLanguage, Value.isLocalized]
  | false => simpa using h

theorem localizable_told (lang : String) (ds : List Definition) :
    ∀ v ∈ localizable (ds.map (told lang)), v.localized = false := by
  intro v hv
  obtain ⟨d, hd, hv⟩ := List.mem_flatMap.mp hv
  obtain ⟨d, _, rfl⟩ := List.mem_map.mp hd
  obtain ⟨b, hb, rfl⟩ := List.mem_map.mp hv
  obtain ⟨hb, hkey⟩ := List.mem_filter.mp hb
  obtain ⟨a, _, rfl⟩ := List.mem_map.mp hb
  have hplain := not_byLanguage_tell lang a
  rw [Bool.and_eq_true] at hkey
  rwa [byLanguage, hkey.1, Bool.true_and] at hplain

theorem tell_ofLimits (lang : String) {ls : List Limit} {a : String × Value}
    (h : a ∈ ofLimits ls) : tell lang a = a := by
  have hby : byLanguage a = false := by
    obtain ⟨p, hp, ha⟩ := List.mem_filterMap.mp h
    obtain ⟨v, _, rfl⟩ := Option.map_eq_some_iff.mp ha
    have hkeys : ∀ q ∈ ["minLength", "maxLength", "pattern"], q ∉ localizableNames := by decide
    have hkey : p.1 ∉ localizableNames := hkeys _ (by
      simp only [List.mem_cons, List.not_mem_nil, or_false] at hp ⊢
      rcases hp with rfl | rfl | rfl <;> simp)
    simp [byLanguage, hkey]
  simp [tell, hby]

end Definition

theorem Pairs.has_congr {α β : Type} {pairs : List (String × α)} {others : List (String × β)}
    (h : keys pairs = keys others) (key : String) : has pairs key = has others key := by
  have hnone : get? pairs key = none ↔ get? others key = none := by
    rw [get?_eq_none_iff, get?_eq_none_iff, h]
  unfold has
  cases hp : get? pairs key <;> cases hq : get? others key <;> simp_all

namespace Schema

open Definition (told tell)

/-- The schema with its texts for a language in place of those by language. -/
def told (lang : String) (schema : Schema) : Schema :=
  { schema with
    fields := schema.fields.map fun f =>
      { f with declared := f.declared.map (List.map (tell lang)) } }

theorem definitions_told (lang : String) (schema : Schema) :
    (schema.told lang).definitions = schema.definitions.map (Definition.told lang) := by
  simp only [SchemaOf.definitions, told, List.map_map]
  refine List.map_congr_left fun f _ => ?_
  have hdeclared : (f.declared.map (List.map (tell lang))).getD []
      = (f.declared.getD []).map (tell lang) := by
    cases f.declared <;> rfl
  have hkeys : ∀ l : List (String × Value), Pairs.keys (l.map (tell lang)) = Pairs.keys l := by
    intro l
    simp [Pairs.keys, Definition.tell_fst]
  have hmissing : ∀ l m : List (String × Value), (∀ a ∈ m, tell lang a = a) →
      Definition.addMissing (l.map (tell lang)) m
        = (Definition.addMissing l m).map (tell lang) := by
    intro l m hm
    have hfixed : (m.filter fun p => !Pairs.has l p.1).map (tell lang)
        = m.filter fun p => !Pairs.has l p.1 :=
      (List.map_congr_left fun a ha => hm a (List.mem_of_mem_filter ha)).trans (List.map_id _)
    simp only [Definition.addMissing, List.map_append, hfixed, Pairs.has_congr (hkeys l)]
  have hattributes := hmissing (f.declared.getD []) (Definition.ofLimits f.allLimits)
    fun a ha => Definition.tell_ofLimits lang ha
  rw [← hdeclared] at hattributes
  exact congrArg (Definition.mk _ _) hattributes

/-- The schema is consistent, and every value by language in it has a text for a language. -/
structure IsToldIn (schema : Schema) (lang : String) : Prop where
  given : lang.isEmpty = false
  consistent : ¬Mixed (localizable schema.definitions)
  told : ∀ d ∈ schema.definitions, ∀ a ∈ d.attributes, isUntold lang a = false

end Schema

namespace Element

theorem readsLike_tell {g : Phrase → Phrase} (hg : Phrase.Fixes g) {L : String}
    (hL : L.isEmpty = false) {a : String × Value} (h : isUntold L a = false)
    (hentry : ∀ t s, Value.valueAt? a.2.entries L = some t → t.asText? = some s →
      g ⟨s, t.text⟩ = .ofText s) (lang : Option String) :
    ReadsLike g (some L) lang a (Definition.tell L a) := by
  unfold Definition.tell
  cases hby : byLanguage a with
  | false =>
      rw [if_neg Bool.false_ne_true]
      refine ⟨rfl, rfl, fun hkey field => ?_, fun _ => rfl⟩
      have hv : a.2.isLocalized = false := (Definition.byLanguage_of_mem hkey a.2).symm.trans hby
      rw [Value.inLanguage_of_not_isLocalized hv, Value.inLanguage_of_not_isLocalized hv, Except.map,
        hg.ofText]
  | true =>
      obtain ⟨hkey, hv⟩ := Bool.and_eq_true_iff.mp hby
      rw [if_pos rfl]
      refine ⟨rfl, (Definition.isEmpty_of_isLocalized hv).symm, fun _ field => ?_, fun hne => ?_⟩
      · rw [isUntold, hby, Bool.true_and] at h
        obtain ⟨t, ht⟩ := Option.isSome_iff_exists.mp (Option.isNone_eq_false_iff.mp h)
        obtain ⟨s, hs, hphrase⟩ := Value.inLanguage_of_some hv hL ht field
        have htext : a.2.textIn L = s := by
          rw [Value.textIn, ht, Option.bind_some, hs, Option.getD_some]
        rw [htext, hphrase, Value.inLanguage_of_not_isLocalized rfl, Except.map, hentry t s ht hs]
        rfl
      · exact absurd (List.contains_iff_mem.mp hkey) hne

/-- A schema that is told in a language becomes what its texts for that language become, as far as a
map of phrases can tell that makes those texts plain. -/
theorem ofDefinitions_told {g : Phrase → Phrase} (hg : Phrase.Fixes g) (idSuffix : String)
    {L : String} {schema : Schema} (h : schema.IsToldIn L)
    (hentry : ∀ d ∈ schema.definitions, ∀ a ∈ d.attributes, ∀ t s,
      Value.valueAt? a.2.entries L = some t → t.asText? = some s → g ⟨s, t.text⟩ = .ofText s)
    (lang : Option String) :
    ofDefinitions idSuffix lang (schema.told L).definitions
      = (ofDefinitions idSuffix (some L) schema.definitions).map (List.map (mapPhrases g)) := by
  rw [Schema.definitions_told]
  have hplain := Definition.localizable_told L schema.definitions
  have halike : List.Forall₂ (DefinitionsAlike g (some L) lang) schema.definitions
      (schema.definitions.map (Definition.told L)) := by
    rw [List.forall₂_map_right_iff, List.forall₂_same]
    intro d hd
    refine ⟨rfl, rfl, ?_⟩
    rw [Definition.told, List.forall₂_map_right_iff, List.forall₂_same]
    exact fun a ha => readsLike_tell hg h.given (h.told d hd a ha) (hentry d hd a ha) lang
  have hgiven : nonEmpty (some L) ≠ none := by
    rw [nonEmpty_eq_some_iff.mpr ⟨rfl, h.given⟩]
    exact Option.some_ne_none L
  exact ofDefinitions_alike hg idSuffix halike h.consistent (fun hl => hgiven hl.2)
    (not_mixed_of_not_localized hplain) fun hl => not_needsLanguage_of_not_localized hplain hl.1

/-- Showing a schema in a language is a projection.  Where nothing is given by language, the language
does not count.  A schema that is told in a language becomes, elements and faults alike, what its
texts for that language become in any language: equal as they are read, and equal altogether where
none of those texts is an option of an enumeration.  Texts of other languages never count. -/
theorem ofDefinitions_projects (schema : Schema) (idSuffix : String) :
    ((∀ v ∈ localizable schema.definitions, v.localized = false) → ∀ lang lang',
      ofDefinitions idSuffix lang schema.definitions
        = ofDefinitions idSuffix lang' schema.definitions) ∧
    ∀ L, schema.IsToldIn L →
      (∀ lang, (ofDefinitions idSuffix (some L) schema.definitions).map
            (List.map (mapPhrases Phrase.plain))
          = ofDefinitions idSuffix lang (schema.told L).definitions) ∧
      ((∀ d ∈ schema.definitions, ∀ a ∈ d.attributes, ∀ t,
          Value.valueAt? a.2.entries L = some t → ∃ s, t = .str s) → ∀ lang,
        ofDefinitions idSuffix (some L) schema.definitions
          = ofDefinitions idSuffix lang (schema.told L).definitions) ∧
      ∀ schema' : Schema, schema'.IsToldIn L → schema'.told L = schema.told L →
        (ofDefinitions idSuffix (some L) schema'.definitions).map
            (List.map (mapPhrases Phrase.plain))
          = (ofDefinitions idSuffix (some L) schema.definitions).map
            (List.map (mapPhrases Phrase.plain)) := by
  have plain : ∀ {L : String} {schema : Schema}, schema.IsToldIn L → ∀ lang,
      ofDefinitions idSuffix lang (schema.told L).definitions
        = (ofDefinitions idSuffix (some L) schema.definitions).map
            (List.map (mapPhrases Phrase.plain)) :=
    fun h => ofDefinitions_told Phrase.fixes_plain idSuffix h fun _ _ _ _ _ _ _ _ => rfl
  refine ⟨fun h lang lang' => ofDefinitions_of_not_localized idSuffix h lang' lang,
    fun L h => ⟨fun lang => (plain h lang).symm, fun hstr lang => ?_, fun schema' h' heq => ?_⟩⟩
  · have hentry : ∀ d ∈ schema.definitions, ∀ a ∈ d.attributes, ∀ t s,
        Value.valueAt? a.2.entries L = some t → t.asText? = some s →
          Phrase.mk s t.text = .ofText s := by
      intro d hd a ha t s ht hs
      obtain ⟨_, rfl⟩ := hstr d hd a ha t ht
      cases hs
      rfl
    rw [ofDefinitions_told Phrase.fixes_id idSuffix h hentry lang]
    cases ofDefinitions idSuffix (some L) schema.definitions with
    | error fault => rfl
    | ok elements => simp only [Except.map, mapPhrases_id, List.map_id']
  · rw [← plain h none, ← plain h' none, heq]

/-- A field that is labelled in Spanish, and in another language by some text. -/
def doorplate (english : String) : Schema where
  name := "Doorplate"
  fields := [
    { name := "name", type := .str,
      declared := some [("element", .str "input"), ("inputType", .str "text"),
        ("label", .ofPairs [("en", .str english), ("es", .str "Nombre")])] }]

/-- In Spanish the English text does not count. -/
theorem doorplate_in_spanish :
    ofDefinitions "" (some "en") ((doorplate "Name").told "es").definitions
        = ofDefinitions "" none ((doorplate "Name").told "es").definitions ∧
      ofDefinitions "" (some "es") (doorplate "Name").definitions
        = ofDefinitions "" none ((doorplate "Name").told "es").definitions ∧
      (ofDefinitions "" (some "es") (doorplate "First name").definitions).map
          (List.map (mapPhrases Phrase.plain))
        = (ofDefinitions "" (some "es") (doorplate "Name").definitions).map
          (List.map (mapPhrases Phrase.plain)) := by
  have hplain : ∀ v ∈ localizable ((doorplate "Name").told "es").definitions,
      v.localized = false := by decide +kernel
  have htold : ∀ english, localizable (doorplate english).definitions = [⟨"name", "label", true⟩] →
      (∀ d ∈ (doorplate english).definitions, ∀ a ∈ d.attributes, isUntold "es" a = false) →
      (doorplate english).IsToldIn "es" := by
    intro english hvalues huntold
    refine ⟨by decide, ?_, huntold⟩
    rw [hvalues]
    rintro ⟨v, hv, w, hw, hne⟩
    rw [List.mem_singleton.mp hv, List.mem_singleton.mp hw] at hne
    exact hne rfl
  have hname := htold "Name" (by decide +kernel) (by decide +kernel)
  have hfirst := htold "First name" (by decide +kernel) (by decide +kernel)
  obtain ⟨hall, hone⟩ := ofDefinitions_projects (doorplate "Name") ""
  obtain ⟨_, hexact, hothers⟩ := hone "es" hname
  refine ⟨(ofDefinitions_projects ((doorplate "Name").told "es") "").1 hplain _ _,
    hexact ?_ none, hothers (doorplate "First name") hfirst ?_⟩
  · have hentries : ∀ d ∈ (doorplate "Name").definitions, ∀ a ∈ d.attributes,
        Value.valueAt? a.2.entries "es" ∈ [none, some (.str "Nombre")] := by decide +kernel
    intro d hd a ha t ht
    have hmem := hentries d hd a ha
    rw [ht] at hmem
    exact ⟨"Nombre", by simpa using hmem⟩
  · rfl

end Element

end WebForm
