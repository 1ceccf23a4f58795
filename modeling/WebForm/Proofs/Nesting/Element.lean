/-
Fields whose texts leave the markup around them alone.

A form writes declared texts into markup as they are: labels, hints, values of attributes, and
names of attributes and elements.  A text with a bracket in it could open a tag of its own,
and one with a double quote end the value that it stands in.  So what is asked of a
declaration is that it has neither, and that what stands for a name is a name of markup.

    isTidyAttribute lang a    the attribute has a name of markup, and so has an element that it
                              declares, and the text that it shows in the language is quiet
    d.isTidy lang             the definition has a quiet name and tidy attributes

Both are decided on the declaration.  The main result, `isTidy_of_ofDefinition`, is that what
a tidy definition becomes is tidy in all that its tag and its block write, `Element.IsTidy`:
the name of its element, the names and values of its attributes, the names without a value,
its label and its hint.

That is not immediate, as not all of this is declared.  Names are written in small letters,
some under another name than they are declared, defaults are added, and where no label is
declared one is made of the field's name with a capital in front.  The capital of a character
can be any character or several; that none of them is a bracket or a quote is a fact about the
table of capitals (`isQuietChar_of_mem_upperChar`).

Only the language that is shown counts: a bracket in the text for another language does no
harm.
-/
import WebForm.Proofs.Declared
import WebForm.Proofs.Nesting.Tags
import WebForm.Proofs.SmallLetters

namespace WebForm

open WebForm.Text
open WebForm.Markup (isQuiet isQuietChar isMarkupName isNameChar)
open WebForm.Element (Draft attributeFor nonEmpty)

/-! ## Changes of case

Names of markup are in ASCII, and there letters are made small one by one. -/

namespace Markup

theorem toNat_lt_of_isNameChar {c : Char} (h : isNameChar c = true) : c.toNat < 128 := by
  have hclass : (decide ('A'.val ≤ c.val ∧ c.val ≤ 'Z'.val)
      || (decide ('a'.val ≤ c.val) && decide (c.val ≤ 'z'.val))
      || (decide ('0'.val ≤ c.val) && decide (c.val ≤ '9'.val)) || decide (c = '-')) = true := h
  simp only [Bool.or_eq_true, Bool.and_eq_true, decide_eq_true_eq, UInt32.le_iff_toNat_le] at hclass
  rcases hclass with ((⟨_, h⟩ | ⟨_, h⟩) | ⟨_, h⟩) | rfl
  · exact Nat.lt_of_le_of_lt h (by decide)
  · exact Nat.lt_of_le_of_lt h (by decide)
  · exact Nat.lt_of_le_of_lt h (by decide)
  · decide

theorem isNameChar_toLower {c : Char} (h : isNameChar c = true) :
    isNameChar c.toLower = true ∧ (c.isAlpha = true → c.toLower.isAlpha = true) := by
  have table : ∀ n : Fin 128, isNameChar (Char.ofNat n) = true →
      isNameChar (Char.ofNat n).toLower = true ∧
        ((Char.ofNat n).isAlpha = true → (Char.ofNat n).toLower.isAlpha = true) := by
    decide +kernel
  have hc := table ⟨c.toNat, toNat_lt_of_isNameChar h⟩
  rw [Char.ofNat_toNat] at hc
  exact hc h

theorem isMarkupName_lower {s : String} (h : isMarkupName s = true) :
    isMarkupName (lower s) = true := by
  have hchars := fun c hc => isNameChar_of_mem h (c := c) hc
  have hlower := lower_of_ascii fun c hc => toNat_lt_of_isNameChar (hchars c hc)
  unfold isMarkupName at h
  rw [hlower, isMarkupName, String.toList_ofList]
  split at h
  · cases h
  · rename_i c cs hs
    rw [hs] at hchars ⊢
    obtain ⟨hc, hcs⟩ := List.forall_mem_cons.mp hchars
    rw [Bool.and_eq_true] at h
    rw [List.map_cons, Bool.and_eq_true, List.all_map, List.all_eq_true]
    exact ⟨(isNameChar_toLower hc).2 h.1, fun d hd => (isNameChar_toLower (hcs d hd)).1⟩

/-- No letter becomes a bracket or a quote when it is made a capital. -/
theorem isQuietChar_of_mem_upperChar {c d : Char} (hc : isQuietChar c = true)
    (h : d ∈ upperChar c) : isQuietChar d = true := by
  have special : upperSpecial.all (fun e => e.2.all fun n => isQuietChar (Char.ofNat n)) = true := by
    decide +kernel
  have runs : upperRuns.all (fun r => 0x3e < r.1 + r.2.2.2) = true := by decide +kernel
  unfold upperChar at h
  split at h
  · rename_i n cs hfound
    obtain ⟨k, hk, rfl⟩ := List.mem_map.mp h
    have hentry := List.all_eq_true.mp special _ (List.mem_of_find?_eq_some hfound)
    exact List.all_eq_true.mp hentry k hk
  · split at h
    · rename_i r hfound
      rw [List.mem_singleton.mp h, CaseRun.shift]
      have hrun := List.all_eq_true.mp runs r (List.mem_of_find?_eq_some hfound)
      have hholds : r.holds c.toNat = true := by simpa using List.find?_some hfound
      simp only [CaseRun.holds, Bool.and_eq_true, decide_eq_true_eq] at hrun hholds
      have hfar : 0x3e < (c.toNat + r.2.2.2).toNat := by omega
      generalize (c.toNat + r.2.2.2).toNat = m at hfar
      by_cases hvalid : m.isValidChar
      · have hm : (Char.ofNat m).toNat = m := by
          rw [Char.ofNat, dif_pos hvalid]
          rfl
        have apart : ∀ k : Char, k.toNat ≤ 0x3e → Char.ofNat m ≠ k := by
          rintro k hk rfl
          omega
        simp [isQuietChar, apart '<' (by decide), apart '>' (by decide), apart '"' (by decide)]
      · rw [Char.ofNat, dif_neg hvalid]
        decide
    · rw [List.mem_singleton.mp h]
      exact hc

end Markup

open WebForm.Markup

theorem Element.isQuiet_defaultLabel {name : String} (h : isQuiet name = true) :
    isQuiet (defaultLabel name) = true := by
  have hchars := List.all_eq_true.mp h
  unfold defaultLabel
  split
  · rfl
  · rename_i c cs hname
    rw [hname] at hchars
    obtain ⟨hc, hcs⟩ := List.forall_mem_cons.mp hchars
    rw [isQuiet, String.toList_ofList, List.all_append, Bool.and_eq_true]
    exact ⟨List.all_eq_true.mpr fun d hd => isQuietChar_of_mem_upperChar hc hd,
      List.all_eq_true.mpr hcs⟩

/-! ## Tidy definitions -/

namespace Definition

/-- The text in which a declared attribute is shown in a language. -/
def shownText? (lang : Option String) (a : String × Value) : Option String :=
  if a.2.isEmpty then none
  else
    match a.1 with
    | "element" => some a.2.text
    | "label" | "hint" => (a.2.inLanguage lang none).toOption.map (·.written)
    | _ => (textOf? lang a).map (·.2.written)

/-- The name of a declared attribute is one of markup, so is an element that it declares, and the
text that it shows has neither brackets nor double quotes. -/
def isTidyAttribute (lang : Option String) (a : String × Value) : Bool :=
  isMarkupName a.1 && (shownText? lang a).all (if a.1 = "element" then isMarkupName else isQuiet)

/-- The name of the definition has neither brackets nor double quotes, and its attributes are
tidy. -/
def isTidy (lang : Option String) (d : Definition) : Bool :=
  isQuiet d.name && d.attributes.all (isTidyAttribute lang)

end Definition

open Definition (shownText? isTidyAttribute textOf? ordinaryText? bareName? ownMeaning)

namespace Element

variable {idSuffix : String} {lang : Option String} {d : Definition} {e : Element}

/-! ## Tidy elements

A draft is kept tidy by each attribute that it takes; the texts of a tag are looked at apart
from that, as the draft does not say under which name they are written. -/

/-- What a draft has taken for its element and its block is tidy. -/
structure Draft.IsTidy (draft : Draft) : Prop where
  element : ∀ t, draft.element = some t → isMarkupName t = true
  inputType : ∀ t, draft.inputType = some t → isQuiet t = true
  label : ∀ t, draft.label = some t → isQuiet t.written = true
  hint : ∀ t, draft.hint = some t → isQuiet t.written = true

theorem Draft.IsTidy.add {name : String} {draft draft' : Draft} {a : String × Value}
    (hdraft : draft.IsTidy) (ha : isTidyAttribute lang a = true)
    (h : Draft.add name lang draft a = .ok draft') : draft'.IsTidy := by
  obtain ⟨key, v⟩ := a
  rw [isTidyAttribute, Bool.and_eq_true] at ha
  have htext := ha.2
  unfold Draft.add at h
  dsimp only at h htext
  cases hv : v.isEmpty with
  | true =>
      rw [hv, if_pos rfl] at h
      cases h
      exact hdraft
  | false =>
      rw [hv, if_neg Bool.false_ne_true] at h
      split at h
      · cases h
        have hname : isMarkupName v.text = true := by simpa [shownText?, hv] using htext
        exact { hdraft with element := fun t ht => Option.some.inj ht ▸ hname }
      · obtain ⟨t, ht, rfl⟩ := Value.exists_of_map_inLanguage h
        have hquiet : isQuiet t.written = true := by simpa [shownText?, hv, ht] using htext
        exact { hdraft with hint := fun t ht => Option.some.inj ht ▸ hquiet }
      · obtain ⟨t, ht, rfl⟩ := Value.exists_of_map_inLanguage h
        have hquiet : isQuiet t.written = true := by simpa [shownText?, hv, ht] using htext
        exact { hdraft with label := fun t ht => Option.some.inj ht ▸ hquiet }
      · obtain ⟨t, _, rfl⟩ := Value.exists_of_map_inLanguage h
        exact { hdraft with }
      · obtain ⟨t, _, rfl⟩ := Value.exists_of_map_inLanguage h
        exact { hdraft with }
      · cases h
        exact { hdraft with }
      · cases h
        have hquiet : isQuiet v.text = true := by
          simpa [shownText?, textOf?, hv, Phrase.ofText] using htext
        exact { hdraft with inputType := fun t ht => Option.some.inj ht ▸ hquiet }
      · cases h
        unfold Draft.addOrdinary
        split
        · exact { hdraft with }
        · exact hdraft
        · split
          · exact hdraft
          · exact { hdraft with }

theorem Draft.isTidy_start (idSuffix : String) (d : Definition) :
    (Draft.start idSuffix d).IsTidy where
  element _ h := nomatch h
  inputType _ h := nomatch h
  label _ h := nomatch h
  hint _ h := nomatch h

/-- All that the tag and the block of the element write is tidy. -/
structure IsTidy (e : Element) : Prop where
  name : isQuiet e.name = true
  id : isQuiet e.id = true
  element : isMarkupName e.element = true
  inputType : ∀ t, e.inputType = some t → isQuiet t = true
  label : isQuiet e.label.written = true
  hint : ∀ t, e.hint = some t → isQuiet t.written = true
  flags : ∀ f ∈ e.flags, isMarkupName f = true
  attributes : ∀ p ∈ e.attributes, isMarkupName p.1 = true ∧ isQuiet p.2.written = true

theorem isMarkupName_attributeFor {key : String} (h : isMarkupName key = true) :
    isMarkupName (attributeFor key) = true := by
  unfold attributeFor
  split
  · decide
  · decide
  · decide
  · exact h

theorem of_textOf? {a : String × Value} {p : String × Phrase} (h : textOf? lang a = some p) :
    p.1 = attributeFor a.1 ∧ a.1 ≠ "element" ∧ shownText? lang a = some p.2.written := by
  obtain ⟨key, v⟩ := a
  have hshown : (textOf? lang (key, v)).map (·.2.written) = some p.2.written := by rw [h]; rfl
  unfold shownText?
  unfold textOf? at h
  dsimp only at h ⊢
  split at h
  · cases h
  · rename_i hv
    rw [if_neg hv]
    split at h
    · cases h
    · cases h
    · cases h
    · obtain ⟨t, ht, rfl⟩ := Option.map_eq_some_iff.mp h
      exact ⟨rfl, by simp, hshown⟩
    · obtain ⟨t, ht, rfl⟩ := Option.map_eq_some_iff.mp h
      exact ⟨rfl, by simp, hshown⟩
    · cases h
      exact ⟨rfl, by simp, hshown⟩
    · cases h
      exact ⟨rfl, by simp, hshown⟩
    · rename_i helement hhint hlabel hplaceholder hendpoint hvalue hinput
      have hname : p.1 = key := by
        unfold ordinaryText? at h
        split at h
        · cases h
        · split at h
          · cases h
          · cases h
            rfl
      have hwritten : attributeFor key = key := by
        unfold attributeFor
        split <;> first | contradiction | rfl
      refine ⟨hname.trans hwritten.symm, helement, ?_⟩
      split
      · contradiction
      · contradiction
      · contradiction
      · exact hshown

theorem tidy_of_textOf? {a : String × Value} (ha : isTidyAttribute lang a = true)
    {p : String × Phrase} (h : textOf? lang a = some p) :
    isMarkupName p.1 = true ∧ isQuiet p.2.written = true := by
  obtain ⟨hkey, helement, hshown⟩ := of_textOf? h
  rw [isTidyAttribute, Bool.and_eq_true, hshown, if_neg helement] at ha
  exact ⟨hkey ▸ isMarkupName_attributeFor ha.1, ha.2⟩

theorem isQuiet_label {draft : Draft} (hdraft : draft.IsTidy) {name : String}
    (hname : isQuiet name = true) :
    isQuiet ((Phrase.nonEmpty? draft.label).getD (.ofText (defaultLabel name))).written = true := by
  cases hlabel : Phrase.nonEmpty? draft.label with
  | none => exact isQuiet_defaultLabel hname
  | some t => exact hdraft.label t (Option.eq_some_of_filter_eq_some hlabel)

theorem isMarkupName_of_mem_bareNames (ha : ∀ a ∈ d.attributes, isTidyAttribute lang a = true)
    {name : String} (h : name ∈ d.bareNames) : isMarkupName name = true := by
  rcases List.mem_append.mp h with h | h
  · split at h
    · rw [List.mem_singleton.mp h]
      decide
    · exact absurd h List.not_mem_nil
  · obtain ⟨a, hmem, hbare⟩ := List.mem_filterMap.mp h
    have hkey := (Bool.and_eq_true_iff.mp (ha a hmem)).1
    unfold bareName? at hbare
    split at hbare
    · split at hbare
      · cases hbare
      · exact Option.some.inj hbare ▸ hkey
    · cases hbare

theorem tidy_of_mem_texts (ha : ∀ a ∈ d.attributes, isTidyAttribute lang a = true)
    {name id : String} (hname : isQuiet name = true) (hid : isQuiet id = true)
    {p : String × Phrase}
    (h : p ∈ Pairs.setAll [("name", .ofText name), ("id", .ofText id)] (d.texts lang)) :
    isMarkupName p.1 = true ∧ isQuiet p.2.written = true := by
  rcases Pairs.mem_of_mem_setAll h with h | h
  · rcases List.mem_pair.mp h with rfl | rfl
    · exact ⟨(by decide : isMarkupName "name" = true), hname⟩
    · exact ⟨(by decide : isMarkupName "id" = true), hid⟩
  · obtain ⟨a, hmem, htext⟩ := List.mem_filterMap.mp h
    exact tidy_of_textOf? (ha a hmem) htext

theorem tidy_of_mem_complete {element : String} {inputType : Option String}
    {attributes : List (String × Phrase)}
    (ha : ∀ p ∈ attributes, isMarkupName p.1 = true ∧ isQuiet p.2.written = true)
    {p : String × Phrase} (h : p ∈ complete element inputType attributes) :
    isMarkupName p.1 = true ∧ isQuiet p.2.written = true := by
  have defaults : ∀ d ∈ textDefaults, isMarkupName d.1 = true ∧ isQuiet d.2 = true := by decide
  rw [complete_eq] at h
  rcases List.mem_append.mp h with h | h
  · exact ha p h
  · split at h
    · obtain ⟨d, hd, rfl⟩ := List.mem_map.mp h
      exact defaults d (List.mem_filter.mp hd).1
    · exact absurd h List.not_mem_nil

/-- What a tidy definition becomes is tidy. -/
theorem isTidy_of_ofDefinition (h : ofDefinition idSuffix lang d = .ok e)
    (hd : d.isTidy lang = true) (hsuffix : isQuiet idSuffix = true) : e.IsTidy := by
  obtain ⟨draft, hdraft, made⟩ := exists_madeOf h
  rw [Definition.isTidy, Bool.and_eq_true] at hd
  obtain ⟨hname, hattributes⟩ := hd
  have ha := List.all_eq_true.mp hattributes
  have tidy : draft.IsTidy :=
    foldlM_invariant (fun a hmem _ _ hs hadd => hs.add (ha a hmem) hadd)
      (Draft.isTidy_start idSuffix d) hdraft
  have hid : isQuiet (d.name ++ "_" ++ idSuffix) = true :=
    isQuiet_append (isQuiet_append hname rfl) hsuffix
  exact {
    name := made.name ▸ hname
    id := made.id ▸ hid
    element := tidy.element _ (nonEmpty_eq_some_iff.mp made.element).1
    inputType := fun t ht => tidy.inputType t (nonEmpty_eq_some_iff.mp (made.inputType.trans ht)).1
    label := made.label ▸ isQuiet_label tidy hname
    hint := made.hint ▸ tidy.hint
    flags := fun f hf => isMarkupName_of_mem_bareNames ha (flags_of_ofDefinition h ▸ hf)
    attributes := fun p hp => tidy_of_mem_complete (fun q hq => tidy_of_mem_texts ha hname hid hq)
      (attributes_of_ofDefinition h ▸ hp) }

end Element

end WebForm
