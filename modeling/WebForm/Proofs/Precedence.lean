/-
Which fault a schema shows, when several things are wrong with it.

Three kinds of things can be wrong.  Values that are given by language in one place and not in
another are mixed, which is a fault of the schema as a whole and comes before everything else.
If values are given by language and no language is asked for, the language is lacking, which
again concerns the whole.  After that each definition is looked at by itself: an attribute may
be given in other languages alone, and the tag or the input type may be missing.
`Definition.fault?` is the first fault of one definition, read off its attributes without
building anything, and the first definition that has one decides.  `ofDefinitions_outcome` is
all of this at once, with an equivalence for each of the first two faults:

    mixed fault            ↔ Mixed (localizable definitions)
    missing language       ↔ some value by language, and no language     (if nothing is mixed)
    first fault, or one element for each field in order                  (if no language is lacking)

It also says that once no language is lacking, no attribute asks for one, so that the second
fault never comes up late, in the middle of the definitions.

Taking an attribute can come to two things, and both are decided by the attribute: it is told
in the language and is taken (`Draft.exists_add_of_isTold`), or it is told in other languages
alone and is a fault (`Draft.add_of_isUntold`).  A run of attributes stops at the first of the
second sort.  An empty text asks for no language, just as none at all, and `nonEmpty`
identifies the two.
-/
import WebForm.Proofs.Slot

namespace WebForm

open Element (nonEmpty)

namespace Definition

/-! ## What is wrong with one definition

An attribute by language is told in a language if it has a text in it.  All other attributes
are told in every language and in none. -/

/-- The attribute is given by language, but not in this one. -/
def isUntold (lang : String) (a : String × Value) : Bool :=
  byLanguage a && (Value.valueAt? a.2.entries lang).isNone

/-- The text that some attributes declare under a name: the last of them that declares something
counts. -/
def lastText? (attributes : List (String × Value)) (key : String) : Option String :=
  (attributes.reverse.find? (declares key)).map (·.2.text)

/-- The first thing that is wrong with a definition in a language. -/
def fault? (lang : String) (d : Definition) : Option ConfigurationFault :=
  if d.attributes.any (isUntold lang) then some (.unknownLanguage lang (some d.name))
  else if nonEmpty (lastText? d.attributes "element") = none then some (.missingElement d.name)
  else if nonEmpty (lastText? d.attributes "inputType") = none then some (.missingInputType d.name)
  else none

/-- The attribute says something where a language may or may not be given: it is not given by
language, or it is in the one that is given. -/
def IsTold (lang : Option String) (a : String × Value) : Prop :=
  byLanguage a = true →
    ∃ l, lang = some l ∧ l.isEmpty = false ∧ (Value.valueAt? a.2.entries l).isSome = true

theorem isTold_of_not_isUntold {lang : String} (hlang : lang.isEmpty = false)
    {a : String × Value} (h : isUntold lang a = false) : IsTold (some lang) a := by
  intro hby
  refine ⟨lang, rfl, hlang, ?_⟩
  rw [isUntold, hby, Bool.true_and] at h
  simpa using h

theorem isTold_of_not_byLanguage {lang : Option String} {a : String × Value}
    (h : byLanguage a = false) : IsTold lang a :=
  fun hby => absurd (h.symm.trans hby) Bool.false_ne_true

theorem not_isUntold_of_not_byLanguage {lang : String} {a : String × Value}
    (h : byLanguage a = false) : isUntold lang a = false := by
  rw [isUntold, h, Bool.false_and]

theorem byLanguage_of_mem {key : String} (h : key ∈ localizableNames) (v : Value) :
    byLanguage (key, v) = v.isLocalized := by
  simp [byLanguage, h]

theorem IsTold.inLanguage {lang : Option String} {key : String} {v : Value}
    (h : IsTold lang (key, v)) (hkey : key ∈ localizableNames) (field : Option String) :
    ∃ t, v.inLanguage lang field = .ok t := by
  cases hv : v.isLocalized with
  | false => exact ⟨_, Value.inLanguage_of_not_isLocalized hv lang field⟩
  | true =>
      obtain ⟨l, rfl, hl, hsome⟩ := h ((byLanguage_of_mem hkey v).trans hv)
      obtain ⟨t, ht⟩ := Option.isSome_iff_exists.mp hsome
      obtain ⟨_, _, heq⟩ := Value.inLanguage_of_some hv hl ht field
      exact ⟨_, heq⟩

end Definition

open Definition

namespace Element

/-! ## Taking attributes

Of a run that succeeds only two parts matter afterwards, the tag and the input type, and these
are the last texts that are declared for them. -/

theorem lastText?_eq (l : List (String × Value)) (key : String) :
    lastText? l key = (lastDeclared? l key).map Value.text := by
  rw [lastText?, lastDeclared?, Option.map_map]
  rfl

/-- An attribute that says something is taken. -/
theorem Draft.exists_add_of_isTold (name : String) {lang : Option String} {a : String × Value}
    (h : IsTold lang a) (d : Draft) : ∃ d', Draft.add name lang d a = .ok d' := by
  obtain ⟨key, v⟩ := a
  rw [Draft.add_eq]
  cases v.isEmpty with
  | true => exact ⟨d, rfl⟩
  | false =>
      rw [if_neg Bool.false_ne_true]
      by_cases hkey : key ∈ localizableNames
      · obtain ⟨t, ht⟩ := h.inLanguage hkey (some name)
        rw [if_pos hkey, ht]
        exact ⟨d.put key t, rfl⟩
      · rw [if_neg hkey]
        exact ⟨d.take key v, rfl⟩

/-- An attribute that is given in other languages alone is a fault. -/
theorem Draft.add_of_isUntold {name lang : String} (hlang : lang.isEmpty = false)
    {a : String × Value} (h : isUntold lang a = true) (d : Draft) :
    Draft.add name (some lang) d a = .error (.unknownLanguage lang (some name)) := by
  obtain ⟨key, v⟩ := a
  rw [isUntold, byLanguage, Bool.and_eq_true, Bool.and_eq_true, List.contains_iff_mem,
    Option.isNone_iff_eq_none] at h
  obtain ⟨⟨hkey, hv⟩, hnone⟩ := h
  have hfault := Value.inLanguage_of_none hv hlang hnone (some name)
  rw [Draft.add_eq, isEmpty_of_isLocalized hv, if_neg Bool.false_ne_true, if_pos hkey, hfault]
  rfl

theorem Draft.exists_foldlM_add_of_isTold (name : String) {lang : Option String}
    {l : List (String × Value)} (h : ∀ a ∈ l, IsTold lang a) (d : Draft) :
    ∃ d', l.foldlM (Draft.add name lang) d = .ok d' := by
  induction l generalizing d with
  | nil => exact ⟨d, rfl⟩
  | cons a l ih =>
      obtain ⟨ha, hl⟩ := List.forall_mem_cons.mp h
      obtain ⟨mid, hmid⟩ := Draft.exists_add_of_isTold name ha d
      rw [List.foldlM_cons, hmid]
      exact ih hl mid

/-- Attributes that all say something are taken one by one, and their last texts tell the tag and
the input type. -/
theorem Draft.foldlM_add_of_isTold (name : String) {lang : Option String}
    {l : List (String × Value)} (h : ∀ a ∈ l, IsTold lang a) (d : Draft) :
    ∃ d', l.foldlM (Draft.add name lang) d = .ok d' ∧
      d'.element = (lastText? l "element").or d.element ∧
      d'.inputType = (lastText? l "inputType").or d.inputType := by
  obtain ⟨d', hd'⟩ := Draft.exists_foldlM_add_of_isTold name h d
  rw [lastText?_eq, lastText?_eq]
  exact ⟨d', hd', (Draft.slot_element name lang).run hd', (Draft.slot_inputType name lang).run hd'⟩

theorem Draft.foldlM_add_of_isUntold {name lang : String} (hlang : lang.isEmpty = false)
    {l : List (String × Value)} (h : l.any (isUntold lang) = true) (d : Draft) :
    l.foldlM (Draft.add name (some lang)) d = .error (.unknownLanguage lang (some name)) := by
  induction l generalizing d with
  | nil => exact absurd h Bool.false_ne_true
  | cons a l ih =>
      rw [List.foldlM_cons]
      cases ha : isUntold lang a with
      | true =>
          rw [Draft.add_of_isUntold hlang ha]
          rfl
      | false =>
          rw [List.any_cons, ha, Bool.false_or] at h
          obtain ⟨mid, hmid⟩ :=
            Draft.exists_add_of_isTold name (isTold_of_not_isUntold hlang ha) d
          rw [hmid]
          exact ih h mid

/-! ## Building one element -/

/-- The definition is told in a language: one is given, or none of its attributes needs one. -/
def Speaks (lang : Option String) (d : Definition) : Prop :=
  (∃ l, nonEmpty lang = some l) ∨ ∀ a ∈ d.attributes, byLanguage a = false

theorem ofDefinition_eq (idSuffix : String) {lang : Option String} {d : Definition}
    (h : Speaks lang d) :
    (∀ fault, fault? (lang.getD "") d = some fault → ofDefinition idSuffix lang d = .error fault) ∧
    (fault? (lang.getD "") d = none →
      ∃ e, ofDefinition idSuffix lang d = .ok e ∧ e.name = d.name) := by
  unfold fault?
  cases hany : d.attributes.any (isUntold (lang.getD "")) with
  | true =>
      rcases h with ⟨l, hl⟩ | hnone
      · obtain ⟨rfl, hne⟩ := nonEmpty_eq_some_iff.mp hl
        rw [if_pos rfl]
        rw [Option.getD_some] at hany
        refine ⟨?_, fun hfault => nomatch hfault⟩
        rintro fault ⟨⟩
        simp only [ofDefinition, Draft.foldlM_add_of_isUntold hne hany]
        rfl
      · obtain ⟨a, ha, hun⟩ := List.any_eq_true.mp hany
        rw [not_isUntold_of_not_byLanguage (hnone a ha)] at hun
        exact absurd hun Bool.false_ne_true
  | false =>
      have told : ∀ a ∈ d.attributes, IsTold lang a := by
        intro a ha
        rcases h with ⟨l, hl⟩ | hnone
        · obtain ⟨rfl, hne⟩ := nonEmpty_eq_some_iff.mp hl
          exact isTold_of_not_isUntold hne (Bool.eq_false_iff.mpr (List.any_eq_false.mp hany a ha))
        · exact isTold_of_not_byLanguage (hnone a ha)
      obtain ⟨draft, hdraft, helement, hinput⟩ := Draft.foldlM_add_of_isTold d.name told
        { flags := if d.required then ["required"] else [],
          attributes := [("name", .ofText d.name), ("id", .ofText (d.name ++ "_" ++ idSuffix))] }
      rw [Option.or_none] at helement hinput
      rw [if_neg Bool.false_ne_true]
      simp only [ofDefinition, hdraft, bind, Except.bind, helement, hinput]
      cases nonEmpty (lastText? d.attributes "element") with
      | none =>
          refine ⟨?_, fun hfault => nomatch hfault⟩
          rintro fault ⟨⟩
          rfl
      | some element =>
          cases nonEmpty (lastText? d.attributes "inputType") with
          | none =>
              refine ⟨?_, fun hfault => nomatch hfault⟩
              rintro fault ⟨⟩
              rfl
          | some inputType => exact ⟨fun _ hfault => (nomatch hfault), fun _ => ⟨_, rfl, rfl⟩⟩

/-! ## Building all elements

The definitions are built one after the other, up to the first error. -/

theorem mapM_eq_findSome? {α β ε κ : Type} {f : α → Except ε β} (fault : α → Option ε)
    (key : α → κ) (key' : β → κ) {l : List α}
    (h : ∀ a ∈ l, (∀ e, fault a = some e → f a = .error e) ∧
      (fault a = none → ∃ b, f a = .ok b ∧ key' b = key a)) :
    (∀ e, l.findSome? fault = some e → l.mapM f = .error e) ∧
    (l.findSome? fault = none → ∃ bs, l.mapM f = .ok bs ∧ bs.map key' = l.map key) := by
  induction l with
  | nil => exact ⟨fun _ he => (nomatch he), fun _ => ⟨[], rfl, rfl⟩⟩
  | cons a l ih =>
      obtain ⟨⟨hfails, hmaps⟩, hl⟩ := List.forall_mem_cons.mp h
      obtain ⟨hfails', hmaps'⟩ := ih hl
      rw [List.findSome?_cons, List.mapM_cons]
      cases hfault : fault a with
      | some e =>
          refine ⟨?_, fun he => nomatch he⟩
          rintro _ ⟨⟩
          rw [hfails e hfault]
          rfl
      | none =>
          obtain ⟨b, hb, hkey⟩ := hmaps hfault
          rw [hb]
          constructor
          · intro e he
            simp only [hfails' e he, bind, Except.bind]
          · intro hnone
            obtain ⟨bs, hbs, hkeys⟩ := hmaps' hnone
            refine ⟨b :: bs, ?_, ?_⟩
            · rw [hbs]
              rfl
            · rw [List.map_cons, List.map_cons, hkey, hkeys]

/-- Some value is given by language. -/
def NeedsLanguage (ds : List Definition) : Prop := ∃ v ∈ localizable ds, v.localized = true

variable (idSuffix : String) {lang : Option String} {ds : List Definition}

theorem ofDefinitions_of_mixed (h : Mixed (localizable ds)) :
    ∃ place localized confirmed, ofDefinitions idSuffix lang ds
      = .error (.mixedLocalization place localized confirmed) := by
  obtain ⟨place, localized, confirmed, heq⟩ := agreement_of_mixed h
  refine ⟨place, localized, confirmed, ?_⟩
  simp only [ofDefinitions, checkConsistency, heq]
  rfl

theorem ofDefinitions_of_not_mixed (h : ¬Mixed (localizable ds)) :
    ofDefinitions idSuffix lang ds
      = if (localizable ds).any (·.localized) && (nonEmpty lang).isNone then .error .missingLanguage
        else ds.mapM (ofDefinition idSuffix lang) := by
  simp only [ofDefinitions, checkConsistency, agreement_of_not_mixed h]
  rfl

theorem lacking_iff :
    ((localizable ds).any (·.localized) && (nonEmpty lang).isNone) = true
      ↔ NeedsLanguage ds ∧ nonEmpty lang = none := by
  rw [Bool.and_eq_true, List.any_eq_true, Option.isNone_iff_eq_none, NeedsLanguage]

theorem speaks_of_not_lacking (h : ¬(NeedsLanguage ds ∧ nonEmpty lang = none)) :
    ∀ d ∈ ds, Speaks lang d := by
  intro d hd
  cases hlang : nonEmpty lang with
  | some l => exact Or.inl ⟨l, hlang⟩
  | none =>
      refine Or.inr (byLanguage_eq_false ?_ d hd)
      intro v hv
      exact Bool.eq_false_iff.mpr fun hby => h ⟨⟨v, hv, hby⟩, hlang⟩

theorem Speaks.inLanguage_ne {d : Definition} (h : Speaks lang d) {a : String × Value}
    (ha : a ∈ d.attributes) (hkey : a.1 ∈ localizableNames) (field : Option String) :
    a.2.inLanguage lang field ≠ .error .missingLanguage := by
  cases hby : a.2.isLocalized with
  | false =>
      rw [Value.inLanguage_of_not_isLocalized hby]
      exact fun heq => nomatch heq
  | true =>
      rcases h with ⟨l, hl⟩ | hnone
      · obtain ⟨rfl, hne⟩ := nonEmpty_eq_some_iff.mp hl
        cases hentry : Value.valueAt? a.2.entries l with
        | none =>
            rw [Value.inLanguage_of_none hby hne hentry]
            exact fun heq => nomatch heq
        | some t =>
            obtain ⟨_, _, heq⟩ := Value.inLanguage_of_some hby hne hentry field
            rw [heq]
            exact fun heq => nomatch heq
      · have hfalse := hnone a ha
        rw [byLanguage_of_mem hkey a.2, hby] at hfalse
        exact absurd hfalse.symm Bool.false_ne_true

theorem fault?_ne {lang : String} {d : Definition} {fault : ConfigurationFault}
    (h : fault? lang d = some fault) :
    fault ≠ .missingLanguage ∧ ∀ place localized confirmed,
      fault ≠ .mixedLocalization place localized confirmed := by
  unfold fault? at h
  split at h
  · cases h
    exact ⟨ConfigurationFault.noConfusion, fun _ _ _ => ConfigurationFault.noConfusion⟩
  · split at h
    · cases h
      exact ⟨ConfigurationFault.noConfusion, fun _ _ _ => ConfigurationFault.noConfusion⟩
    · split at h
      · cases h
        exact ⟨ConfigurationFault.noConfusion, fun _ _ _ => ConfigurationFault.noConfusion⟩
      · cases h

theorem ofDefinitions_of_not_lacking (h : ¬Mixed (localizable ds))
    (h' : ¬(NeedsLanguage ds ∧ nonEmpty lang = none)) :
    (∀ fault, ds.findSome? (fault? (lang.getD "")) = some fault →
      ofDefinitions idSuffix lang ds = .error fault) ∧
    (ds.findSome? (fault? (lang.getD "")) = none →
      ∃ elements, ofDefinitions idSuffix lang ds = .ok elements ∧
        elements.map (·.name) = ds.map (·.name)) := by
  rw [ofDefinitions_of_not_mixed idSuffix h, if_neg (mt lacking_iff.mp h')]
  exact mapM_eq_findSome? _ _ _ fun d hd => ofDefinition_eq idSuffix (speaks_of_not_lacking h' d hd)

theorem ofDefinitions_ne (h : ¬Mixed (localizable ds))
    (h' : ¬(NeedsLanguage ds ∧ nonEmpty lang = none)) :
    ofDefinitions idSuffix lang ds ≠ .error .missingLanguage ∧
      ∀ place localized confirmed, ofDefinitions idSuffix lang ds
        ≠ .error (.mixedLocalization place localized confirmed) := by
  obtain ⟨hfails, hbuilds⟩ := ofDefinitions_of_not_lacking idSuffix h h'
  cases hfault : ds.findSome? (fault? (lang.getD "")) with
  | none =>
      obtain ⟨elements, heq, _⟩ := hbuilds hfault
      rw [heq]
      exact ⟨fun hne => (nomatch hne), fun _ _ _ hne => (nomatch hne)⟩
  | some fault =>
      obtain ⟨d, _, hd⟩ := List.exists_of_findSome?_eq_some hfault
      obtain ⟨hmissing, hmixed⟩ := fault?_ne hd
      rw [hfails fault hfault]
      exact ⟨fun heq => hmissing (Except.error.inj heq),
        fun _ _ _ heq => hmixed _ _ _ (Except.error.inj heq)⟩

/-- What a schema comes to in a language.  Mixed values are the first fault, whatever the language and
whatever else is wrong.  Of values that are not mixed, one by language needs a language.  Where none is
lacking, the first fault of the first definition that has one decides; else there is an element for
each field, in order, and no value asks for a language any more. -/
theorem ofDefinitions_outcome (schema : Schema) (idSuffix : String) (lang : Option String) :
    ((∃ place localized confirmed, ofDefinitions idSuffix lang schema.definitions
        = .error (.mixedLocalization place localized confirmed))
      ↔ Mixed (localizable schema.definitions)) ∧
    (¬Mixed (localizable schema.definitions) →
      (ofDefinitions idSuffix lang schema.definitions = .error .missingLanguage
        ↔ NeedsLanguage schema.definitions ∧ nonEmpty lang = none)) ∧
    (¬Mixed (localizable schema.definitions) →
      ¬(NeedsLanguage schema.definitions ∧ nonEmpty lang = none) →
      (∀ fault, schema.definitions.findSome? (fault? (lang.getD "")) = some fault →
        ofDefinitions idSuffix lang schema.definitions = .error fault) ∧
      (schema.definitions.findSome? (fault? (lang.getD "")) = none →
        ∃ elements, ofDefinitions idSuffix lang schema.definitions = .ok elements ∧
          elements.map (·.name) = schema.fields.map (·.formName schema.config)) ∧
      ∀ d ∈ schema.definitions, ∀ a ∈ d.attributes, a.1 ∈ localizableNames →
        a.2.inLanguage lang (some d.name) ≠ .error .missingLanguage) := by
  refine ⟨⟨?_, ofDefinitions_of_mixed idSuffix⟩, ?_, ?_⟩
  · rintro ⟨place, localized, confirmed, heq⟩
    refine Classical.byContradiction fun hmixed => ?_
    by_cases hlacking : NeedsLanguage schema.definitions ∧ nonEmpty lang = none
    · rw [ofDefinitions_of_not_mixed idSuffix hmixed, if_pos (lacking_iff.mpr hlacking)] at heq
      cases heq
    · exact (ofDefinitions_ne idSuffix hmixed hlacking).2 _ _ _ heq
  · intro hmixed
    constructor
    · intro heq
      exact Classical.byContradiction fun hlacking => (ofDefinitions_ne idSuffix hmixed hlacking).1 heq
    · intro hlacking
      rw [ofDefinitions_of_not_mixed idSuffix hmixed, if_pos (lacking_iff.mpr hlacking)]
  · intro hmixed hlacking
    have names : schema.definitions.map (·.name)
        = schema.fields.map (·.formName schema.config) := by
      simp only [SchemaOf.definitions, List.map_map]
      rfl
    obtain ⟨hfails, hbuilds⟩ := ofDefinitions_of_not_lacking idSuffix hmixed hlacking
    rw [names] at hbuilds
    exact ⟨hfails, hbuilds, fun d hd a ha hkey =>
      (speaks_of_not_lacking hlacking d hd).inLanguage_ne ha hkey _⟩

/-- A text field and a field without a tag that is labelled in English alone. -/
def greeting : Schema where
  name := "Greeting"
  fields := [
    { name := "name", type := .str,
      declared := some [("element", .str "input"), ("inputType", .str "text"),
        ("label", .ofPairs [("en", .str "Name"), ("es", .str "Nombre")])] },
    { name := "title", type := .str, declared := some [("label", .ofPairs [("en", .str "Title")])] }]

/-- In Spanish the lacking label is the fault, in English the lacking tag. -/
theorem greeting_faults :
    ofDefinitions "" (some "es") greeting.definitions
        = .error (.unknownLanguage "es" (some "title")) ∧
      ofDefinitions "" (some "en") greeting.definitions = .error (.missingElement "title") := by
  have consistent : ¬Mixed (localizable greeting.definitions) := by
    rintro ⟨v, hv, w, hw, hne⟩
    have all : ∀ v ∈ localizable greeting.definitions, v.localized = true := by decide +kernel
    exact hne ((all v hv).trans (all w hw).symm)
  have given : ∀ l, nonEmpty (some l) = some l →
      ¬(NeedsLanguage greeting.definitions ∧ nonEmpty (some l) = none) := by
    intro l hl hlacking
    rw [hl] at hlacking
    cases hlacking.2
  obtain ⟨_, _, spanish⟩ := ofDefinitions_outcome greeting "" (some "es")
  obtain ⟨_, _, english⟩ := ofDefinitions_outcome greeting "" (some "en")
  have first : greeting.definitions.findSome? (fault? "es")
      = some (.unknownLanguage "es" (some "title")) := by decide +kernel
  have second : greeting.definitions.findSome? (fault? "en") = some (.missingElement "title") := by
    decide +kernel
  obtain ⟨hes, _⟩ := spanish consistent (given "es" rfl)
  obtain ⟨hen, _⟩ := english consistent (given "en" rfl)
  exact ⟨hes _ first, hen _ second⟩

end Element

end WebForm
