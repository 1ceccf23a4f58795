/-
What a draft holds of the attributes that it took.

A draft of an element is built from attributes one after the other.  Six parts of it hold what
is read of the values under one name each: the element, the input type and the type of the
tag, the value, the hint and the label.  Taking an attribute of that name sets the part, and
taking any other leaves it as it is.  This is what `Draft.Slot` says, of one attribute, and it
says so with the reading: a slot for a label holds the phrase in the language, and one for the
element the text.

By induction a slot holds, after a run of attributes, what is read of the last value under its
name, and what it held before if there is none (`Draft.Slot.run`):

    part d' = ((lastDeclared? l key).map read).or (part d)

An attribute that is empty declares nothing, and so does not count as the last.

That each of the six parts is a slot comes from two functions.  `Draft.put` takes a phrase in
a language, and `Draft.take` a value that is the same in all languages; which of them is used
is decided by the name.  `Puts` and `Takes` say once, for all parts together, what these do,
and `Slot.of_put_take` makes a slot of a part that both of them treat as one.  So a part that
is added to drafts needs a line in each of the two structures and one theorem of its own.

The tags' other attributes are no slots.  They are found in a list by their names, and a value
by default can be among them.
-/
import WebForm.Proofs.Consistency
import WebForm.Proofs.Drafting

namespace WebForm

namespace Definition

/-- The attribute declares something under a name. -/
def declares (key : String) (a : String × Value) : Bool := a.1 = key && !a.2.isEmpty

/-- The last value that some attributes declare under a name. -/
def lastDeclared? (attributes : List (String × Value)) (key : String) : Option Value :=
  (attributes.reverse.find? (declares key)).map (·.2)

theorem lastDeclared?_cons (a : String × Value) (l : List (String × Value)) (key : String) :
    lastDeclared? (a :: l) key
      = (lastDeclared? l key).or (if declares key a then some a.2 else none) := by
  simp only [lastDeclared?, List.reverse_cons, List.find?_append]
  cases l.reverse.find? (declares key) with
  | some b => rfl
  | none =>
      cases h : declares key a with
      | true =>
          rw [List.find?_cons_of_pos h]
          rfl
      | false =>
          rw [List.find?_cons_of_neg (by simp [h])]
          rfl

end Definition

open Definition (declares lastDeclared? lastDeclared?_cons localizableNames)

namespace Element

namespace Draft

variable {name : String} {lang : Option String}

/-- What one attribute declares under a name. -/
def told? (key : String) (a : String × Value) : Option Value :=
  if declares key a then some a.2 else none

/-- A part of a draft that holds what is read of the values declared under a name, the last of which
counts. -/
def Slot {α : Type} (name : String) (lang : Option String) (key : String) (read : Value → α)
    (part : Draft → Option α) : Prop :=
  ∀ ⦃a d d'⦄, Draft.add name lang d a = .ok d' → part d' = ((told? key a).map read).or (part d)

/-- After a run of attributes a part of the draft holds what is read of the last value. -/
theorem Slot.run {α : Type} {key : String} {read : Value → α} {part : Draft → Option α}
    (hpart : Slot name lang key read part) {l : List (String × Value)} {d d' : Draft}
    (h : l.foldlM (Draft.add name lang) d = .ok d') :
    part d' = ((lastDeclared? l key).map read).or (part d) := by
  induction l generalizing d with
  | nil =>
      cases h
      rfl
  | cons a l ih =>
      obtain ⟨mid, hfirst, hrest⟩ := exists_of_foldlM_cons h
      rw [ih hrest, hpart hfirst, lastDeclared?_cons, Option.map_or, Option.or_assoc]
      rfl

theorem exists_of_add {key : String} {v : Value} {d d' : Draft}
    (h : Draft.add name lang d (key, v) = .ok d') :
    (v.isEmpty = true ∧ d' = d) ∨
    (v.isEmpty = false ∧ key ∈ localizableNames ∧
      ∃ t, v.inLanguage lang (some name) = .ok t ∧ d' = d.put key t) ∨
    (v.isEmpty = false ∧ key ∉ localizableNames ∧ d' = d.take key v) := by
  rw [Draft.add_eq] at h
  cases hv : v.isEmpty with
  | true =>
      rw [hv, if_pos rfl] at h
      exact Or.inl ⟨rfl, (Except.ok.inj h).symm⟩
  | false =>
      rw [hv, if_neg Bool.false_ne_true] at h
      refine Or.inr ?_
      by_cases hkey : key ∈ localizableNames
      · rw [if_pos hkey] at h
        cases ht : v.inLanguage lang (some name) with
        | error fault =>
            rw [ht] at h
            cases h
        | ok t =>
            rw [ht] at h
            exact Or.inl ⟨rfl, hkey, t, rfl, (Except.ok.inj h).symm⟩
      · rw [if_neg hkey] at h
        exact Or.inr ⟨rfl, hkey, (Except.ok.inj h).symm⟩

/-- A part is a slot if taking a value sets it or leaves it, by the name. -/
theorem Slot.of_put_take {α : Type} {key : String} {read : Value → α} {part : Draft → Option α}
    (hput : ∀ k ∈ localizableNames, ∀ d v t, v.inLanguage lang (some name) = .ok t →
      part (d.put k t) = if k = key then some (read v) else part d)
    (htake : ∀ k ∉ localizableNames, ∀ d v,
      part (d.take k v) = if k = key then some (read v) else part d) :
    Slot name lang key read part := by
  rintro ⟨k, v⟩ d d' h
  have told : v.isEmpty = false →
      ((told? key (k, v)).map read).or (part d) = if k = key then some (read v) else part d := by
    intro hv
    by_cases hkey : k = key <;> simp [told?, declares, hv, hkey]
  rcases exists_of_add h with ⟨hv, rfl⟩ | ⟨hv, hkey, t, ht, rfl⟩ | ⟨hv, hkey, rfl⟩
  · simp [told?, declares, hv]
  · rw [told hv, hput k hkey d v t ht]
  · rw [told hv, htake k hkey]

/-- What a text in a language sets. -/
structure Puts (k : String) (t : Phrase) (d d' : Draft) : Prop where
  element : d'.element = d.element
  inputType : d'.inputType = d.inputType
  elementValue : d'.elementValue = d.elementValue
  hint : d'.hint = if k = "hint" then some t else d.hint
  label : d'.label = if k = "label" then some t else d.label
  type : Pairs.get? d'.attributes "type" = Pairs.get? d.attributes "type"

theorem puts {k : String} (hk : k ∈ localizableNames) (d : Draft) (t : Phrase) :
    Puts k t d (d.put k t) := by
  simp only [localizableNames, List.mem_cons, List.not_mem_nil, or_false] at hk
  rcases hk with rfl | rfl | rfl | rfl
  · exact ⟨rfl, rfl, rfl, rfl, rfl, rfl⟩
  · exact ⟨rfl, rfl, rfl, rfl, rfl, rfl⟩
  · exact ⟨rfl, rfl, rfl, rfl, rfl, by simp [put, set, Pairs.get?_set]⟩
  · exact ⟨rfl, rfl, rfl, rfl, rfl, by simp [put, set, Pairs.get?_set]⟩

/-- What a value that is the same in all languages sets. -/
structure Takes (k : String) (v : Value) (d d' : Draft) : Prop where
  element : d'.element = if k = "element" then some v.text else d.element
  inputType : d'.inputType = if k = "inputType" then some v.text else d.inputType
  elementValue : d'.elementValue
    = if k = "elementValue" then some v.attributeText else d.elementValue
  hint : d'.hint = d.hint
  label : d'.label = d.label
  type : Pairs.get? d'.attributes "type"
    = if k = "inputType" then some (.ofText v.text) else Pairs.get? d.attributes "type"

theorem exists_addOrdinary_eq (k : String) (d : Draft) (v : Value) :
    ∃ flags attributes,
      d.addOrdinary k v = { d with flags := flags, attributes := attributes } ∧
        Pairs.get? attributes "type" = Pairs.get? d.attributes "type" := by
  unfold addOrdinary
  split
  · exact ⟨_, _, rfl, rfl⟩
  · exact ⟨_, _, rfl, rfl⟩
  · split
    · exact ⟨_, _, rfl, rfl⟩
    · rename_i htype
      refine ⟨_, _, rfl, ?_⟩
      rw [Pairs.get?_set, if_neg htype]

theorem takes (k : String) (d : Draft) (v : Value) : Takes k v d (d.take k v) := by
  unfold take
  split
  · exact ⟨rfl, rfl, rfl, rfl, rfl, rfl⟩
  · exact ⟨rfl, rfl, rfl, rfl, rfl, by simp [set, Pairs.get?_set]⟩
  · exact ⟨rfl, rfl, rfl, rfl, rfl, by simp [set, Pairs.get?_set]⟩
  · rename_i helement hvalue hinput
    obtain ⟨flags, attributes, heq, htype⟩ := exists_addOrdinary_eq k d v
    rw [heq]
    exact ⟨(if_neg helement).symm, (if_neg hinput).symm, (if_neg hvalue).symm, rfl, rfl,
      htype.trans (if_neg hinput).symm⟩

section Slots

variable (name : String) (lang : Option String)

theorem ne_of_mem_localizableNames {k key : String} (hk : k ∈ localizableNames)
    (hkey : key ∉ localizableNames) : k ≠ key := fun heq => hkey (heq ▸ hk)

theorem slot_element : Slot name lang "element" Value.text Draft.element := by
  refine .of_put_take (fun k hk d v t _ => ?_) fun k _ d v => (takes k d v).element
  rw [(puts hk d t).element, if_neg (ne_of_mem_localizableNames hk (by decide))]

theorem slot_inputType : Slot name lang "inputType" Value.text Draft.inputType := by
  refine .of_put_take (fun k hk d v t _ => ?_) fun k _ d v => (takes k d v).inputType
  rw [(puts hk d t).inputType, if_neg (ne_of_mem_localizableNames hk (by decide))]

theorem slot_type : Slot name lang "inputType" (fun v => Phrase.ofText v.text)
    fun d => Pairs.get? d.attributes "type" := by
  refine .of_put_take (fun k hk d v t _ => ?_) fun k _ d v => (takes k d v).type
  rw [(puts hk d t).type, if_neg (ne_of_mem_localizableNames hk (by decide))]

theorem slot_elementValue : Slot name lang "elementValue" Value.attributeText Draft.elementValue := by
  refine .of_put_take (fun k hk d v t _ => ?_) fun k _ d v => (takes k d v).elementValue
  rw [(puts hk d t).elementValue, if_neg (ne_of_mem_localizableNames hk (by decide))]

theorem slot_hint : Slot name lang "hint" (fun v => v.inLanguage lang (some name))
    fun d => d.hint.map .ok := by
  refine .of_put_take (fun k hk d v t ht => ?_) fun k hk d v => ?_
  · rw [(puts hk d t).hint, ht]
    split <;> rfl
  · rw [(takes k d v).hint, if_neg (ne_of_mem_localizableNames (by decide) hk).symm]

theorem slot_label : Slot name lang "label" (fun v => v.inLanguage lang (some name))
    fun d => d.label.map .ok := by
  refine .of_put_take (fun k hk d v t ht => ?_) fun k hk d v => ?_
  · rw [(puts hk d t).label, ht]
    split <;> rfl
  · rw [(takes k d v).label, if_neg (ne_of_mem_localizableNames (by decide) hk).symm]

end Slots

theorem exists_inLanguage_of_foldlM {name : String} {lang : Option String}
    {l : List (String × Value)} {d d' : Draft}
    (h : l.foldlM (Draft.add name lang) d = .ok d') :
    ∀ a ∈ l, a.2.isEmpty = false → a.1 ∈ localizableNames →
      ∃ t, a.2.inLanguage lang (some name) = .ok t := by
  induction l generalizing d with
  | nil => exact fun a ha => absurd ha List.not_mem_nil
  | cons b l ih =>
      obtain ⟨mid, hfirst, hrest⟩ := exists_of_foldlM_cons h
      refine List.forall_mem_cons.mpr ⟨fun hv hkey => ?_, ih hrest⟩
      rcases exists_of_add hfirst with ⟨hempty, _⟩ | ⟨_, _, t, ht, _⟩ | ⟨_, hother, _⟩
      · rw [hempty] at hv
        cases hv
      · exact ⟨t, ht⟩
      · exact absurd hkey hother

end Draft

end Element

end WebForm
