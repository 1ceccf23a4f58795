/-
What a browser reads off the tag of an element.

A browser looks for three attributes of a tag by their names: the name under which it sends
something, the value that it sends, and for a box whether it is marked.  Of several attributes
with one name it takes the first, and that could be one which was declared for something else.
So it has to be known what stands in a tag before the attribute that is looked for.

Where no value is declared this can be said of all elements at once, whatever else is
declared.  A tag starts with its class and its name; then come attributes that are neither the
value nor a mark; and the value is at the end, behind all of them
(`IsPlain.tagAttributes_eq`).  If the element has a value by default, the supplied value takes
the place of it, and otherwise it is added.  The three look-ups are read off that:

    tagAttribute? "name"      the name of the element
    tagAttribute? "value"     the supplied value, or else the one by default
    tagAttribute? "checked"   whether the box is marked

An element is plain if its texts are bare ones, with one value at most behind them
(`IsPlain`).  Every element is plain that is built from a definition without a value and
without another name (`isPlain_of_ofDefinition`), where a box has no value by default and an
element in which text is typed an empty one.  Elements of other kinds are not covered, and a
browser sends nothing for most of them.
-/
import WebForm.Proofs.Defaults
import WebForm.Proofs.Drafting
import WebForm.Proofs.Holes

namespace WebForm

open WebForm.Text

namespace Element

/-- The first attribute of the tag that has a name. -/
def tagAttribute? (e : Element) (supplied : Supplied) (name : String) : Option TagAttribute :=
  (e.tagAttributes (Pairs.get? supplied e.name) supplied).find? fun a => a.name = name

/-- The attributes without a value as they stand in the tag. -/
def flagAttributes (e : Element) (supplied : Supplied) : List TagAttribute :=
  e.flags.map (fun f => ⟨f, none⟩) ++ if e.isMarked supplied then [⟨"checked", none⟩] else []

/-- A tag with its name in front, and no value but one by default, behind all other attributes. -/
def IsPlain (e : Element) (fallback : Option String) : Prop :=
  ∃ bare, IsBare e.name bare e.flags ∧
    e.attributes = bare ++ (fallback.map fun t => ("value", Phrase.ofText t)).toList

/-- The value in a tag: the supplied one, or else the one by default. -/
def valuePiece? (shown fallback : Option String) : Option Piece :=
  (shown.map .hole).or (fallback.map .fixed)

/-! ## Elements as they are built

Defaults are added to the declared texts behind them, and of all defaults only that of an
element in which text is typed is a value. -/

theorem exists_isBare_of_isTextEditable {name : String} {attributes : List (String × Phrase)}
    {flags : List String} (h : IsBare name attributes flags) {element : String}
    {inputType : Option String} (heditable : isTextEditable element inputType = true) :
    ∃ bare, IsBare name bare flags ∧
      complete element inputType attributes = bare ++ [("value", Phrase.ofText "")] := by
  have hvalues : ∀ d ∈ textDefaults.dropLast, lower d.1 ≠ "value" := by decide +kernel
  have hvalue : Pairs.has attributes "value" = false := by
    rw [← Bool.not_eq_true, Pairs.has_iff_mem_keys]
    intro hmem
    obtain ⟨p, hp, heq⟩ := List.mem_map.mp hmem
    exact h.unvalued p hp (by rw [heq, lower_value])
  -- the value is the last default, and no attribute before it is one
  have hsplit : textDefaults = textDefaults.dropLast ++ [("value", "")] := rfl
  refine ⟨attributes ++ (textDefaults.dropLast.filter fun d => !Pairs.has attributes d.1).map
    fun d => (d.1, Phrase.ofText d.2), h.append fun p hp => ?_, ?_⟩
  · obtain ⟨d, hd, rfl⟩ := List.mem_map.mp hp
    exact hvalues d (List.mem_filter.mp hd).1
  · rw [complete_eq, if_pos heditable, hsplit, List.filter_append, List.map_append,
      ← List.append_assoc, List.filter_cons_of_pos (by simp [hvalue])]
    rfl

/-- An element for which no value is declared is plain: a box has no value, and an element in which
text is typed an empty one. -/
theorem isPlain_of_ofDefinition {idSuffix : String} {lang : Option String} {d : Definition}
    {e : Element} (h : ofDefinition idSuffix lang d = .ok e)
    (hd : ∀ p ∈ d.attributes, isBareKey p.1 = true) :
    (e.isCheckbox = true → e.IsPlain none) ∧
      (isTextEditable e.element e.inputType = true → e.IsPlain (some "")) := by
  obtain ⟨attributes, hbare, hattributes⟩ := exists_isBare_of_ofDefinition h hd
  constructor
  · intro hbox
    rw [complete_of_isCheckbox hbox] at hattributes
    exact ⟨attributes, hbare, hattributes.trans (List.append_nil _).symm⟩
  · intro heditable
    obtain ⟨bare, hbare, hcomplete⟩ := exists_isBare_of_isTextEditable hbare heditable
    exact ⟨bare, hbare, hattributes.trans hcomplete⟩

/-! ## Tags

The mark of a box is written from the flags or from the supplied value.  If it is not among
the flags, a mark in the tag comes from the supplied value. -/

namespace IsPlain

variable {e : Element} {fallback : Option String} {supplied : Supplied}

theorem shownAttributes_eq {bare : List (String × Phrase)} (h : IsBare e.name bare e.flags)
    (hattributes : e.attributes
      = bare ++ (fallback.map fun t => ("value", Phrase.ofText t)).toList) (shown : Option String) :
    e.shownAttributes shown = bare.map (fun p => (p.1, Piece.fixed p.2.written))
      ++ ((valuePiece? shown fallback).map fun v => ("value", v)).toList := by
  have hkeys : ∀ p ∈ bare.map (fun p => (p.1, Piece.fixed p.2.written)), p.1 ≠ "value" := by
    intro p hp heq
    obtain ⟨q, hq, rfl⟩ := List.mem_map.mp hp
    exact h.unvalued q hq (by rw [show q.1 = "value" from heq, lower_value])
  unfold shownAttributes
  rw [hattributes, List.map_append]
  cases shown with
  | none => cases fallback <;> rfl
  | some v =>
      dsimp only
      rw [Pairs.set_append_of_not_mem hkeys]
      cases fallback <;> rfl

/-- A tag has its class and its name in front, and its value behind all attributes that are
declared. -/
theorem tagAttributes_eq (h : e.IsPlain fallback) (supplied : Supplied) (shown : Option String) :
    ∃ others, (∀ a ∈ others, a.name ≠ "value" ∧ a.name ≠ "checked") ∧
      e.tagAttributes shown supplied
        = ⟨"class", some (.fixed e.name)⟩ :: ⟨"name", some (.fixed e.name)⟩ ::
          (others ++ (((valuePiece? shown fallback).map fun v => ⟨"value", some v⟩).toList
            ++ e.flagAttributes supplied)) := by
  obtain ⟨bare, hbare, hattributes⟩ := h
  have hname : lower "name" = "name" := by decide +kernel
  obtain ⟨rest, hrest⟩ := hbare.named
  refine ⟨((rest.map fun p => (p.1, Piece.fixed p.2.written)).filter
    fun p => lower p.1 != "checked").map fun p => ⟨lower p.1, some p.2⟩, ?_, ?_⟩
  · intro a ha
    obtain ⟨p, hp, rfl⟩ := List.mem_map.mp ha
    obtain ⟨hp, hchecked⟩ := List.mem_filter.mp hp
    obtain ⟨q, hq, rfl⟩ := List.mem_map.mp hp
    refine ⟨hbare.unvalued q ?_, bne_iff_ne.mp hchecked⟩
    rw [hrest]
    exact List.mem_cons_of_mem _ hq
  · have hvalue : ((((valuePiece? shown fallback).map fun v => ("value", v)).toList).filter
          fun p => lower p.1 != "checked").map (fun p => (⟨lower p.1, some p.2⟩ : TagAttribute))
        = ((valuePiece? shown fallback).map fun v => ⟨"value", some v⟩).toList := by
      cases valuePiece? shown fallback with
      | none => rfl
      | some v => simp [lower_value]
    unfold tagAttributes flagAttributes
    dsimp only
    rw [shownAttributes_eq hbare hattributes, List.filter_append, List.map_append, hvalue, hrest,
      List.map_cons, List.filter_cons_of_pos (by rw [hname]; decide), List.map_cons, hname]
    simp only [List.append_assoc, List.cons_append, List.nil_append]
    rfl

theorem tagAttribute?_name (h : e.IsPlain fallback) :
    e.tagAttribute? supplied "name" = some ⟨"name", some (.fixed e.name)⟩ := by
  obtain ⟨others, _, htag⟩ := h.tagAttributes_eq supplied (Pairs.get? supplied e.name)
  unfold tagAttribute?
  rw [htag, List.find?_cons_of_neg (by simp), List.find?_cons_of_pos (by simp)]

theorem find?_flagAttributes {name : String} (hflags : name ∉ e.flags) :
    (e.flagAttributes supplied).find? (fun a => a.name = name)
      = if name = "checked" ∧ e.isMarked supplied = true then some ⟨"checked", none⟩ else none := by
  have hdeclared : (e.flags.map fun f => (⟨f, none⟩ : TagAttribute)).find? (fun a => a.name = name)
      = none := by
    rw [List.find?_eq_none]
    intro a ha
    obtain ⟨k, hk, rfl⟩ := List.mem_map.mp ha
    intro heq
    exact hflags (of_decide_eq_true heq ▸ hk)
  unfold flagAttributes
  rw [List.find?_append, hdeclared, Option.none_or]
  cases e.isMarked supplied with
  | false => simp
  | true =>
      by_cases hname : name = "checked"
      · simp [hname]
      · rw [if_pos rfl, List.find?_cons_of_neg (by simpa using fun h => hname h.symm)]
        simp [hname]

theorem tagAttribute?_value (h : e.IsPlain fallback) :
    e.tagAttribute? supplied "value"
      = (valuePiece? (Pairs.get? supplied e.name) fallback).map fun v => ⟨"value", some v⟩ := by
  obtain ⟨others, hothers, htag⟩ :=
    h.tagAttributes_eq supplied (Pairs.get? supplied e.name)
  obtain ⟨bare, hbare, _⟩ := h
  have hflags : "value" ∉ e.flags := fun hmem => hbare.unflagged _ hmem lower_value
  unfold tagAttribute?
  rw [htag, List.find?_cons_of_neg (by simp), List.find?_cons_of_neg (by simp), List.find?_append,
    List.find?_eq_none.mpr fun a ha => by simpa using (hothers a ha).1, Option.none_or,
    List.find?_append, find?_flagAttributes hflags, if_neg (by simp), Option.or_none]
  cases valuePiece? (Pairs.get? supplied e.name) fallback with
  | none => rfl
  | some v => rfl

theorem tagAttribute?_checked (h : e.IsPlain fallback) (hflags : "checked" ∉ e.flags) :
    (e.tagAttribute? supplied "checked").isSome = e.isMarked supplied := by
  obtain ⟨others, hothers, htag⟩ :=
    h.tagAttributes_eq supplied (Pairs.get? supplied e.name)
  unfold tagAttribute?
  rw [htag, List.find?_cons_of_neg (by simp), List.find?_cons_of_neg (by simp), List.find?_append,
    List.find?_eq_none.mpr fun a ha => by simpa using (hothers a ha).2, Option.none_or,
    List.find?_append, find?_flagAttributes hflags]
  cases e.isMarked supplied <;> cases valuePiece? (Pairs.get? supplied e.name) fallback <;> simp

theorem stateName?_eq (h : e.IsPlain fallback) (hname : e.name ≠ "") :
    e.stateName? = some e.name := by
  obtain ⟨bare, hbare, hattributes⟩ := h
  obtain ⟨rest, hrest⟩ := hbare.named
  unfold stateName?
  rw [hattributes, hrest]
  simp [Pairs.get?, nonEmpty, Phrase.ofText, hname]

end IsPlain

end Element

end WebForm
