/-
Values by language: what the definitions of a schema agree on, and what a value says in one
language.

A label, a hint, a placeholder or an endpoint is a text, or a mapping that gives a text for
each of some languages.  Over a whole schema these values are of one kind or mixed, and
nothing else decides what the check of their consistency comes to: `agreement_of_not_mixed`
and `agreement_of_mixed` are its two cases, and where it reports the fault is left to the
module that takes the values one by one.

A value by language says its text in a language for which it has an entry, is a fault in any
other, and asks for a language where none is given.  Every other value says one text in all
languages.  A value that is empty declares nothing, and a mapping without entries is empty; so
what is given by language declares something, and that is why an attribute given by language
always counts among the values of its schema.

`Draft.add_eq` is what the development of elements rests on: taking an attribute of a
definition passes over an empty value, puts the text of a localizable attribute in its place
(`Draft.put`), and takes any other in a way that does not look at the language (`Draft.take`).
Only the first of these can be a fault.
-/
import WebForm.Element.Build

namespace WebForm

open Element (nonEmpty)

namespace Definition

/-- Two of the values are of different kinds: one is given by language and the other is not. -/
def Mixed (values : List LocalizableValue) : Prop :=
  ∃ v ∈ values, ∃ w ∈ values, v.localized ≠ w.localized

/-- Values that are not mixed agree on whether one of them is given by language. -/
theorem agreement_of_not_mixed {values : List LocalizableValue} (h : ¬Mixed values) :
    agreement values = .ok (values.any (·.localized)) := by
  cases values with
  | nil => rfl
  | cons first rest =>
      have same : ∀ v ∈ first :: rest, v.localized = first.localized := by
        intro v hv
        exact Decidable.byContradiction fun hne => h ⟨v, hv, first, List.mem_cons_self, hne⟩
      have hodd : rest.find? (fun v => v.localized != first.localized) = none := by
        rw [List.find?_eq_none]
        intro v hv
        simp [same v (List.mem_cons_of_mem _ hv)]
      have hany : (first :: rest).any (·.localized) = first.localized := by
        cases hfirst : first.localized with
        | true => simp [hfirst]
        | false =>
            rw [List.any_eq_false]
            intro v hv
            rw [same v hv, hfirst]
            exact Bool.false_ne_true
      simp only [agreement, hodd, hany]

/-- Mixed values do not agree, whatever their order. -/
theorem agreement_of_mixed {values : List LocalizableValue} (h : Mixed values) :
    ∃ place localized confirmed,
      agreement values = .error (.mixedLocalization place localized confirmed) := by
  cases values with
  | nil =>
      obtain ⟨v, hv, _⟩ := h
      cases hv
  | cons first rest =>
      cases hodd : rest.find? (fun v => v.localized != first.localized) with
      | some odd =>
          simp only [agreement, hodd]
          exact ⟨_, _, _, rfl⟩
      | none =>
          have same : ∀ v ∈ first :: rest, v.localized = first.localized := by
            intro v hv
            rcases List.mem_cons.mp hv with rfl | hv
            · rfl
            · simpa using List.find?_eq_none.mp hodd v hv
          obtain ⟨v, hv, w, hw, hne⟩ := h
          exact absurd ((same v hv).trans (same w hw).symm) hne

/-- The attribute is given by language. -/
def byLanguage (a : String × Value) : Bool := localizableNames.contains a.1 && a.2.isLocalized

/-! ## What a value says in a language

A value is asked for its text in a language, or in none.  The field is named for the fault
alone. -/

theorem isEmpty_of_isLocalized {v : Value} (h : v.isLocalized = true) : v.isEmpty = false := by
  cases v with
  | map entries =>
      rw [Value.isLocalized, Bool.and_eq_true, Bool.not_eq_true'] at h
      exact h.1
  | _ => cases h

theorem localizable_of_byLanguage {ds : List Definition} {d : Definition} (hd : d ∈ ds)
    {a : String × Value} (ha : a ∈ d.attributes) (h : byLanguage a = true) :
    ⟨d.name, a.1, true⟩ ∈ localizable ds := by
  rw [byLanguage, Bool.and_eq_true] at h
  refine List.mem_flatMap.mpr ⟨d, hd, List.mem_map.mpr ⟨a, List.mem_filter.mpr ⟨ha, ?_⟩, ?_⟩⟩
  · rw [h.1, isEmpty_of_isLocalized h.2]
    rfl
  · rw [h.2]

theorem byLanguage_eq_false {ds : List Definition}
    (h : ∀ v ∈ localizable ds, v.localized = false) :
    ∀ d ∈ ds, ∀ a ∈ d.attributes, byLanguage a = false := by
  intro d hd a ha
  cases hby : byLanguage a with
  | false => rfl
  | true => exact absurd (h _ (localizable_of_byLanguage hd ha hby)) Bool.noConfusion

end Definition

/-! ## What a value says in a language -/

namespace Value

theorem inLanguage_of_not_isLocalized {v : Value} (h : v.isLocalized = false)
    (lang field : Option String) : v.inLanguage lang field = .ok (.ofText v.text) := by
  simp [inLanguage, h]

theorem phrase?_of_valueAt? {v t : Value} {lang : String} (h : v.isLocalized = true)
    (ht : valueAt? v.entries lang = some t) : ∃ s, t.asText? = some s ∧ t.phrase? = some ⟨s, t.text⟩ := by
  cases v with
  | map entries =>
      rw [isLocalized, Bool.and_eq_true, List.all_eq_true] at h
      obtain ⟨e, he, rfl⟩ := Option.map_eq_some_iff.mp ht
      obtain ⟨s, hs⟩ := Option.isSome_iff_exists.mp (h.2 e (List.mem_of_find?_eq_some he))
      exact ⟨s, hs, by rw [phrase?, hs, Option.map_some]⟩
  | _ => cases h

theorem inLanguage_of_some {v t : Value} {lang : String} (h : v.isLocalized = true)
    (hlang : lang.isEmpty = false) (ht : valueAt? v.entries lang = some t) (field : Option String) :
    ∃ s, t.asText? = some s ∧ v.inLanguage (some lang) field = .ok ⟨s, t.text⟩ := by
  obtain ⟨s, hs, hphrase⟩ := phrase?_of_valueAt? h ht
  exact ⟨s, hs, by simp [inLanguage, h, hlang, ht, hphrase]⟩

theorem inLanguage_of_none {v : Value} {lang : String} (h : v.isLocalized = true)
    (hlang : lang.isEmpty = false) (hnone : valueAt? v.entries lang = none) (field : Option String) :
    v.inLanguage (some lang) field = .error (.unknownLanguage lang field) := by
  simp [inLanguage, h, hlang, hnone]

end Value

namespace Element

theorem nonEmpty_eq_some_iff {t : Option String} {s : String} :
    nonEmpty t = some s ↔ t = some s ∧ s.isEmpty = false := by
  simp [nonEmpty, Option.filter_eq_some_iff]

/-! ## Attributes that heed the language, and the others

Taking an attribute is split here into the parts that the modules on elements treat apart. -/

/-- Puts what a localizable attribute says where it belongs. -/
def Draft.put (key : String) (d : Draft) (t : Phrase) : Draft :=
  match key with
  | "hint" => { d with hint := some t }
  | "label" => { d with label := some t }
  | "placeholder" => d.set "placeholder" t
  | _ => d.set "data-endpoint" t

/-- Takes an attribute that is the same in all languages. -/
def Draft.take (key : String) (d : Draft) (v : Value) : Draft :=
  match key with
  | "element" => { d with element := some v.text }
  | "elementValue" =>
    { d with elementValue := some v.attributeText }.set "value" (.ofText v.attributeText)
  | "inputType" => { d with inputType := some v.text }.set "type" (.ofText v.text)
  | key => d.addOrdinary key v

theorem Draft.take_of_ordinary {key : String} (helement : key ≠ "element")
    (hvalue : key ≠ "elementValue") (hinput : key ≠ "inputType") (d : Draft) (v : Value) :
    Draft.take key d v = d.addOrdinary key v := by
  unfold Draft.take
  split
  · exact absurd rfl helement
  · exact absurd rfl hvalue
  · exact absurd rfl hinput
  · rfl

/-- Taking an attribute: one that declares nothing is passed over, and the localizable ones alone heed
the language. -/
theorem Draft.add_eq (name : String) (lang : Option String) (d : Draft) (key : String)
    (v : Value) :
    Draft.add name lang d (key, v)
      = if v.isEmpty then .ok d
        else if key ∈ Definition.localizableNames then
          (v.inLanguage lang (some name)).map (Draft.put key d)
        else .ok (Draft.take key d v) := by
  unfold Draft.add
  dsimp only
  refine ite_congr rfl (fun _ => rfl) fun _ => ?_
  split
  · rfl
  · rfl
  · rfl
  · rfl
  · rfl
  · rfl
  · rfl
  · rename_i helement hhint hlabel hplaceholder hendpoint hvalue hinput
    have hkey : key ∉ Definition.localizableNames := by
      simp only [Definition.localizableNames, List.mem_cons, List.not_mem_nil, or_false, not_or]
      exact ⟨hlabel, hhint, hplaceholder, hendpoint⟩
    rw [if_neg hkey, Draft.take_of_ordinary helement hvalue hinput]

end Element

end WebForm
