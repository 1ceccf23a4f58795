/-
What a definition gives to its element: everything once, and nothing else.

Each declared attribute writes one entry into the tag, or nothing at all, and `Writes` says
which, with one constructor for each way to be written: a text under its own name, a text
under the name for which it stands, a name without a value, or a slot of the element itself.
`BuiltFrom` collects what this comes to over the whole definition, and
`builtFrom_of_ofDefinition` says that every element is built in this way:

    ofDefinition idSuffix lang d = .ok e → BuiltFrom idSuffix lang d e

Its parts are the entries of the tag in order, together with the attributes that wrote them,
so that nothing is lost; that each attribute writes at most one entry, so that nothing is
written twice; and the slots: the kind of element, the type of an input, the value, the label
and the hint are each what was declared last for them, or what they are by default.

A text goes under a name to which several attributes may write.  So the texts of a tag are the
names in the order in which they were first written, each with what was written there last;
that is what setting pairs one after another comes to in general (`Pairs.setAll_eq_settled`).
The name and the id of the element stand in front, and what the element needs by default
follows where nothing of that name is there.

Nothing is said here of definitions for which there is no element.  Which these are is decided
by their values by language alone, and by the two slots that have to be filled.
-/
import Mathlib.Data.List.Induction
import WebForm.Proofs.Declared

namespace WebForm

/-! ## Pairs that are set one after another

The table of a tag is filled by setting.  A key keeps the place of its first pair and takes
the value of its last. -/

namespace Pairs

variable {α : Type}

/-- The last value under a key. -/
def last? (pairs : List (String × α)) (key : String) : Option α :=
  (pairs.reverse.find? fun p => p.1 = key).map (·.2)

/-- The keys in the order of their first pairs, each with the value of its last. -/
def settled (pairs : List (String × α)) : List (String × α) :=
  (keys pairs).eraseDups.filterMap fun key => (last? pairs key).map fun value => (key, value)

theorem keys_setAll_nil (pairs : List (String × α)) :
    keys (setAll [] pairs) = (keys pairs).eraseDups := by
  induction pairs using List.reverseRecOn with
  | nil => rfl
  | append_singleton pairs p ih =>
      have hset : setAll [] (pairs ++ [p]) = set (setAll [] pairs) p.1 p.2 := setAll_append _ _ _
      have hkeys : keys (pairs ++ [p]) = keys pairs ++ [p.1] := keys_append _ _
      rw [hset, keys_set, hkeys, List.eraseDups_append, ih]
      by_cases hkey : p.1 ∈ keys pairs
      · rw [if_pos (List.mem_eraseDups.mpr hkey)]
        simp [List.removeAll, hkey]
      · rw [if_neg fun h => hkey (List.mem_eraseDups.mp h)]
        simp [List.removeAll, List.eraseDups_cons, hkey]

theorem filterMap_get?_keys {pairs : List (String × α)} (h : (keys pairs).Nodup) :
    ((keys pairs).filterMap fun key => (get? pairs key).map fun value => (key, value)) = pairs := by
  rw [keys, List.filterMap_map]
  refine Eq.trans (List.filterMap_congr fun p hp => ?_) List.filterMap_some
  show (get? pairs p.1).map (fun value => (p.1, value)) = some p
  rw [(get?_eq_some_iff h).mpr hp]
  rfl

/-- Setting pairs one after another comes to the last value of each key, in the order of the first
ones. -/
theorem setAll_nil_eq_settled (pairs : List (String × α)) : setAll [] pairs = settled pairs := by
  have hnil : (keys ([] : List (String × α))).Nodup := List.nodup_nil
  have hnodup := nodup_keys_setAll hnil pairs
  rw [← filterMap_get?_keys hnodup, keys_setAll_nil, settled]
  refine List.filterMap_congr fun key _ => ?_
  rw [get?_setAll]
  exact congrArg _ (Option.or_none)

theorem setAll_eq_settled {pairs : List (String × α)} (h : (keys pairs).Nodup)
    (more : List (String × α)) : setAll pairs more = settled (pairs ++ more) := by
  rw [← setAll_nil_eq_settled, setAll_append, setAll_nil_of_nodup h]

theorem has_settled (pairs : List (String × α)) (key : String) :
    has (settled pairs) key = has pairs key := by
  rw [Bool.eq_iff_iff, has_iff_mem_keys, has_iff_mem_keys, ← setAll_nil_eq_settled, keys_setAll_nil,
    List.mem_eraseDups]

end Pairs

open WebForm.Text
open Element (attributeFor)
open Definition (lastDeclared? localizableNames ownMeaning textOf? bareName? ordinaryText?)

/-! ## What an attribute writes

The relation is functional (`Writes.unique`), and total on attributes that can be taken: those
that are empty, or not by language, or by a language that they have. -/

/-- What is written into a tag. -/
inductive Entry where
  /-- A text under a name. -/
  | text (name : String) (t : Phrase)
  /-- A name without a value. -/
  | flag (name : String)

namespace Entry

/-- The text of an entry, after its name. -/
def text? : Entry → Option (String × Phrase)
  | .text name t => some (name, t)
  | .flag _ => none

/-- The name of an entry without a value. -/
def flag? : Entry → Option String
  | .text .. => none
  | .flag name => some name

end Entry

namespace Definition

/-- What one declared attribute of a field writes into its tag in a language: one entry, or nothing. -/
inductive Writes (lang : Option String) (field : String) : String × Value → Option Entry → Prop
  /-- A value that declares nothing. -/
  | empty {key : String} {v : Value} (hv : v.isEmpty = true) : Writes lang field (key, v) none
  /-- What stands beside the tag, and the tag's own name. -/
  | beside {key : String} {v : Value} (hkey : key ∈ ["element", "hint", "label"]) :
      Writes lang field (key, v) none
  | placeholder {v : Value} {t : Phrase} (hv : v.isEmpty = false)
      (ht : v.inLanguage lang (some field) = .ok t) :
      Writes lang field ("placeholder", v) (some (.text "placeholder" t))
  | endpoint {v : Value} {t : Phrase} (hv : v.isEmpty = false)
      (ht : v.inLanguage lang (some field) = .ok t) :
      Writes lang field ("endpoint", v) (some (.text "data-endpoint" t))
  | elementValue {v : Value} (hv : v.isEmpty = false) :
      Writes lang field ("elementValue", v) (some (.text "value" (.ofText v.attributeText)))
  | inputType {v : Value} (hv : v.isEmpty = false) :
      Writes lang field ("inputType", v) (some (.text "type" (.ofText v.text)))
  | set {key : String} (hkey : key ∉ ownMeaning) :
      Writes lang field (key, .bool true) (some (.flag key))
  | unset {key : String} (hkey : key ∉ ownMeaning) : Writes lang field (key, .bool false) none
  /-- The type comes from the input type alone. -/
  | type {v : Value} (hv : ∀ b, v ≠ .bool b) : Writes lang field ("type", v) none
  | ordinary {key : String} {v : Value} (hkey : key ∉ ownMeaning) (htype : key ≠ "type")
      (hv : v.isEmpty = false) (hbool : ∀ b, v ≠ .bool b) :
      Writes lang field (key, v) (some (.text key (.ofText v.declaredText)))

variable {lang : Option String} {field : String}

theorem exists_writes {a : String × Value}
    (h : a.2.isEmpty = false → a.1 ∈ localizableNames →
      ∃ t, a.2.inLanguage lang (some field) = .ok t) :
    ∃ w, Writes lang field a w := by
  obtain ⟨key, v⟩ := a
  cases hv : v.isEmpty with
  | true => exact ⟨_, .empty hv⟩
  | false =>
      by_cases hkey : key ∈ ownMeaning
      · simp only [ownMeaning, List.mem_cons, List.not_mem_nil, or_false] at hkey
        rcases hkey with rfl | rfl | rfl | rfl | rfl | rfl | rfl
        · exact ⟨_, .beside (by decide)⟩
        · exact ⟨_, .beside (by decide)⟩
        · exact ⟨_, .beside (by decide)⟩
        · obtain ⟨t, ht⟩ := h hv (by decide : "placeholder" ∈ localizableNames)
          exact ⟨_, .placeholder hv ht⟩
        · obtain ⟨t, ht⟩ := h hv (by decide : "endpoint" ∈ localizableNames)
          exact ⟨_, .endpoint hv ht⟩
        · exact ⟨_, .elementValue hv⟩
        · exact ⟨_, .inputType hv⟩
      · by_cases hbool : ∃ b, v = .bool b
        · obtain ⟨b, rfl⟩ := hbool
          cases b with
          | true => exact ⟨_, .set hkey⟩
          | false => exact ⟨_, .unset hkey⟩
        · by_cases htype : key = "type"
          · subst htype
            exact ⟨_, .type fun b heq => hbool ⟨b, heq⟩⟩
          · exact ⟨_, .ordinary hkey htype hv fun b heq => hbool ⟨b, heq⟩⟩

theorem ordinaryText?_of_ne_bool {v : Value} (h : ∀ b, v ≠ .bool b) (key : String) :
    ordinaryText? key v = (if key = "type" then none else some (key, .ofText v.declaredText)) ∧
      bareName? (key, v) = none := by
  cases v with
  | bool b => exact absurd rfl (h b)
  | _ => exact ⟨rfl, rfl⟩

/-- What an attribute writes is its text or its name. -/
theorem Writes.told {a : String × Value} {w : Option Entry} (h : Writes lang field a w) :
    w.bind Entry.text? = textOf? lang a ∧ w.bind Entry.flag? = bareName? a := by
  have localized : ∀ {v : Value} {t : Phrase}, v.inLanguage lang (some field) = .ok t →
      (v.inLanguage lang none).toOption = some t := by
    intro v t ht
    rw [← Value.toOption_inLanguage v lang (some field), ht]
    rfl
  have bare : ∀ {key : String} {v : Value}, key ∈ ownMeaning → none = bareName? (key, v) :=
    fun hkey => (bareName?_of_mem hkey _).symm
  cases h with
  | empty hv => exact ⟨(textOf?_of_isEmpty hv lang).symm, (bareName?_of_isEmpty hv).symm⟩
  | beside hkey =>
      refine ⟨?_, bare ((by decide : ["element", "hint", "label"] ⊆ ownMeaning) hkey)⟩
      simp only [List.mem_cons, List.not_mem_nil, or_false] at hkey
      rcases hkey with rfl | rfl | rfl <;> simp [textOf?]
  | placeholder hv ht =>
      exact ⟨by simp [textOf?, hv, localized ht, Entry.text?, attributeFor], bare (by decide)⟩
  | endpoint hv ht =>
      exact ⟨by simp [textOf?, hv, localized ht, Entry.text?, attributeFor], bare (by decide)⟩
  | elementValue hv => exact ⟨by simp [textOf?, hv, Entry.text?], bare (by decide)⟩
  | inputType hv => exact ⟨by simp [textOf?, hv, Entry.text?], bare (by decide)⟩
  | set hkey => exact ⟨(textOf?_of_not_mem (v := .bool true) hkey rfl lang).symm, (if_neg hkey).symm⟩
  | unset hkey => exact ⟨(textOf?_of_not_mem (v := .bool false) hkey rfl lang).symm, rfl⟩
  | @type v hbool =>
      obtain ⟨htext, hbare⟩ := ordinaryText?_of_ne_bool hbool "type"
      refine ⟨?_, hbare.symm⟩
      cases hv : v.isEmpty with
      | true => exact (textOf?_of_isEmpty hv lang).symm
      | false => exact ((textOf?_of_not_mem (by decide) hv lang).trans htext).symm
  | @ordinary key v hkey htype hv hbool =>
      obtain ⟨htext, hbare⟩ := ordinaryText?_of_ne_bool hbool key
      rw [textOf?_of_not_mem hkey hv, htext, if_neg htype, hbare]
      exact ⟨rfl, rfl⟩

/-- An attribute does not write two things. -/
theorem Writes.unique {a : String × Value} {w w' : Option Entry} (h : Writes lang field a w)
    (h' : Writes lang field a w') : w = w' := by
  have htext := h.told.1.trans h'.told.1.symm
  have hflag := h.told.2.trans h'.told.2.symm
  rcases w with _ | _ | _ <;> rcases w' with _ | _ | _ <;>
    simp_all [Entry.text?, Entry.flag?]

theorem exists_forall₂_writes {l : List (String × Value)}
    (h : ∀ a ∈ l, a.2.isEmpty = false → a.1 ∈ localizableNames →
      ∃ t, a.2.inLanguage lang (some field) = .ok t) :
    ∃ written, List.Forall₂ (Writes lang field) l written := by
  induction l with
  | nil => exact ⟨[], .nil⟩
  | cons a l ih =>
      obtain ⟨ha, hl⟩ := List.forall_mem_cons.mp h
      obtain ⟨w, hw⟩ := exists_writes ha
      obtain ⟨written, hwritten⟩ := ih hl
      exact ⟨w :: written, .cons hw hwritten⟩

theorem filterMap_eq_of_writes {l : List (String × Value)} {written : List (Option Entry)}
    (h : List.Forall₂ (Writes lang field) l written) :
    written.filterMap (·.bind Entry.text?) = l.filterMap (textOf? lang) ∧
      written.filterMap (·.bind Entry.flag?) = l.filterMap bareName? := by
  induction h with
  | nil => exact ⟨rfl, rfl⟩
  | cons hw _ ih =>
      obtain ⟨htext, hflag⟩ := hw.told
      simp only [List.filterMap_cons, htext, hflag, ih.1, ih.2, and_self]

end Definition

namespace Element

/-! ## Elements and their definitions

The entries are read off the run of the attributes, and the slots off the last of each kind. -/

/-- A tag holds what the attributes of its definition write, one entry or nothing each.  Its texts
follow the name and the id, and then come the defaults that are not there; its names follow the one
that says that the element has to be filled. -/
structure TagOf (idSuffix : String) (lang : Option String) (d : Definition) (e : Element)
    (entries : List (Option Entry)) (pairs : List (String × Phrase)) : Prop where
  written : List.Forall₂ (Definition.Writes lang d.name) d.attributes entries
  once : ∀ others, List.Forall₂ (Definition.Writes lang d.name) d.attributes others →
    others = entries
  texts : pairs = [("name", .ofText d.name), ("id", .ofText (d.name ++ "_" ++ idSuffix))]
    ++ entries.filterMap (·.bind Entry.text?)
  attributes : e.attributes = Pairs.settled pairs
    ++ if isTextEditable e.element e.inputType
        then (textDefaults.filter fun p => !Pairs.has pairs p.1).map fun p => (p.1, .ofText p.2)
        else []
  flags : e.flags = (if d.required then ["required"] else [])
    ++ entries.filterMap (·.bind Entry.flag?)

/-- An element has all that its definition gives to it in a language, and nothing else. -/
structure BuiltFrom (idSuffix : String) (lang : Option String) (d : Definition) (e : Element) :
    Prop where
  name : e.name = d.name
  id : e.id = d.name ++ "_" ++ idSuffix
  element : (lastDeclared? d.attributes "element").map Value.text = some e.element
  element_ne_empty : e.element ≠ ""
  hint : e.hint.map .ok
    = (lastDeclared? d.attributes "hint").map fun v => v.inLanguage lang (some d.name)
  /-- A label without a text counts as none. -/
  label : ∃ declared : Option Phrase,
    declared.map .ok
      = (lastDeclared? d.attributes "label").map (fun v => v.inLanguage lang (some d.name)) ∧
    e.label = (Phrase.nonEmpty? declared).getD (.ofText (defaultLabel d.name))
  elementValue : e.elementValue
    = (lastDeclared? d.attributes "elementValue").map Value.attributeText
  /-- The input type is the type of the tag, wherever the two are declared. -/
  inputType : ∃ t, e.inputType = some t ∧ t ≠ "" ∧
    (lastDeclared? d.attributes "inputType").map Value.text = some t ∧
    Pairs.get? e.attributes "type" = some (.ofText t)
  tag : ∃ entries pairs, TagOf idSuffix lang d e entries pairs

section BuiltFrom

variable {idSuffix : String} {lang : Option String} {d : Definition} {e : Element}

theorem exists_tagOf (h : ofDefinition idSuffix lang d = .ok e) :
    ∃ entries pairs, TagOf idSuffix lang d e entries pairs := by
  obtain ⟨draft, hdraft, _⟩ := exists_madeOf h
  obtain ⟨entries, hwritten⟩ :=
    Definition.exists_forall₂_writes (Draft.exists_inLanguage_of_foldlM hdraft)
  obtain ⟨htexts, hflags⟩ := Definition.filterMap_eq_of_writes hwritten
  refine ⟨entries, _, hwritten, fun others hothers => ?_, rfl, ?_, ?_⟩
  · have unique : Relator.RightUnique (Definition.Writes lang d.name) :=
      fun _ _ _ hw hw' => hw.unique hw'
    exact List.right_unique_forall₂' unique hothers hwritten
  · have hown : (Pairs.keys [("name", Phrase.ofText d.name),
        ("id", .ofText (d.name ++ "_" ++ idSuffix))]).Nodup :=
      (by decide : ["name", "id"].Nodup)
    rw [attributes_of_ofDefinition h, complete_eq, Pairs.setAll_eq_settled hown, htexts]
    simp only [Pairs.has_settled]
    rfl
  · rw [flags_of_ofDefinition h, hflags]
    rfl

/-- Building an element loses nothing of its definition and invents nothing. -/
theorem builtFrom_of_ofDefinition (h : ofDefinition idSuffix lang d = .ok e) :
    BuiltFrom idSuffix lang d e := by
  obtain ⟨draft, hdraft, made⟩ := exists_madeOf h
  -- nothing is set in a draft before its attributes are taken
  have last : ∀ {α : Type} {key : String} {read : Value → α} {part : Draft → Option α},
      Draft.Slot d.name lang key read part → part (Draft.start idSuffix d) = none →
      part draft = (lastDeclared? d.attributes key).map read := by
    intro α key read part hpart hstart
    rw [hpart.run hdraft, hstart, Option.or_none]
  obtain ⟨helement, hsaid⟩ := nonEmpty_eq_some_iff.mp made.element
  obtain ⟨t, ht⟩ := Option.ne_none_iff_exists'.mp made.typed
  obtain ⟨hinput, htyped⟩ := nonEmpty_eq_some_iff.mp (made.inputType.trans ht)
  have hlast := (last (Draft.slot_inputType d.name lang) rfl).symm.trans hinput
  refine ⟨made.name, made.id, ?_, ?_, ?_, ⟨draft.label, ?_, made.label⟩, ?_, ⟨t, ht, ?_, hlast, ?_⟩,
    exists_tagOf h⟩
  · rw [← last (Draft.slot_element d.name lang) rfl, helement]
  · intro heq
    rw [heq] at hsaid
    cases hsaid
  · rw [made.hint]
    exact last (Draft.slot_hint d.name lang) rfl
  · exact last (Draft.slot_label d.name lang) rfl
  · rw [made.elementValue]
    exact last (Draft.slot_elementValue d.name lang) rfl
  · rintro rfl
    cases htyped
  · obtain ⟨v, hv, hread⟩ := Option.map_eq_some_iff.mp hlast
    rw [made.attributes, complete_eq, Pairs.get?_append, last (Draft.slot_type d.name lang) rfl, hv,
      ← hread]
    rfl

/-- A counter whose type is declared twice, and which can be written by language. -/
def counter : Definition where
  name := "count"
  required := true
  attributes := [("type", .str "text"), ("element", .str "input"),
    ("placeholder", .ofPairs [("en", .str "How many"), ("es", .str "Cuántos")]),
    ("inputType", .str "number"), ("value", .int 1), ("endpoint", .ofPairs [("en", .str "/count")]),
    ("min", .float (.nearest 2)), ("disabled", .bool true), ("multiple", .bool false),
    ("hint", .null), ("elementValue", .int 3), ("id", .str "total")]

/-- The counter in English. -/
def counterElement : Element where
  name := "count"
  id := "count_form"
  element := "input"
  label := .ofText "Count"
  inputType := some "number"
  elementValue := some "3"
  flags := ["required", "disabled"]
  attributes := [("name", .ofText "count"), ("id", .ofText "total"),
    ("placeholder", .ofText "How many"), ("type", .ofText "number"), ("value", .ofText "3"),
    ("data-endpoint", .ofText "/count"), ("min", .ofText "2"), ("autocapitalize", .ofText "off"),
    ("autocomplete", .ofText "off"), ("autocorrect", .ofText "off"),
    ("spellcheck", .ofText "false")]

theorem counter_builtFrom :
    ofDefinition "form" (some "en") counter = .ok counterElement ∧
      BuiltFrom "form" (some "en") counter counterElement := by
  have built : ofDefinition "form" (some "en") counter = .ok counterElement := by decide +kernel
  exact ⟨built, builtFrom_of_ofDefinition built⟩

end BuiltFrom

end Element

end WebForm
