/-
Which supplied value a field shows, and what does not matter for it.

Values are supplied to a page as entries with texts as keys.  A value is supplied under the
exact name of a field or else under a key that becomes the name in small letters; of several
such keys the last counts, and null counts as nothing.  `Finds` says this with one constructor
for each way, and `finds_iff` that it is what the table of supplied values holds.

A field looks for a value under its own name alone if it declares no other.  So its block is
the same for all values that say the same for that name, and `Agrees` gives two ways to do so:
the entries that concern the name stand in one order, or the name itself is supplied and the
entries are the same up to their order.  Entries for other names may come, go, change and
move.  `supplied_by_name` compares two runs of the page:

    Agrees name pairs others →
      the block of the field on the page for pairs = its block on the page for others

together with the rule for what is found.  Both sides are pages, so that the second statement
needs nothing about how a page is made.

The second way to agree is not contained in the first.  If the name itself is supplied, keys
that become it in small letters do not count and may stand anywhere; if it is not, the last of
them counts and their order matters.
-/
import WebForm.Proofs.Repetition

namespace WebForm

open WebForm.Text
open Definition (declares ownMeaning textOf? ordinaryText?)

namespace Supplied

/-! ## Values with texts as keys -/

/-- The values are written out as entries with distinct texts as keys. -/
structure Lists (values : Value) (pairs : List (String × Value)) : Prop where
  entries : ∃ entries, values.dumpedEntries? = some entries ∧
    entries.map (fun e => (e.1.asText?, e.2)) = pairs.map fun p => (some p.1, p.2)
  distinct : (Pairs.keys pairs).Nodup

theorem lists_ofPairs {pairs : List (String × Value)} (h : (Pairs.keys pairs).Nodup) :
    Lists (.ofPairs pairs) pairs := by
  refine ⟨⟨_, rfl, ?_⟩, h⟩
  rw [List.map_map]
  rfl

theorem Lists.ofValue_eq {values : Value} {pairs : List (String × Value)} (h : Lists values pairs) :
    ofValue values = .ok (ofPairs (present pairs)) := by
  obtain ⟨entries, hentries, hpairs⟩ := h.entries
  unfold ofValue
  split
  · cases hentries
  · rw [hentries]
    show (given entries).map ofPairs = _
    rw [given_eq hpairs]
    rfl

/-! ## The value for a name -/

/-- What is supplied for a name: the text of the value under exactly the name, or else of the last
one under a key that becomes the name in small letters; null is no value. -/
inductive Finds (pairs : List (String × Value)) (name : String) : Option String → Prop
  | exact {v : Value} (hmem : (name, v) ∈ pairs) (hv : v ≠ .null) :
      Finds pairs name (some (escape v.attributeText))
  | lowered {before after : List (String × Value)} {key : String} {v : Value}
      (hexact : ∀ w, (name, w) ∈ pairs → w = .null) (hsplit : pairs = before ++ (key, v) :: after)
      (hkey : lower key = name) (hv : v ≠ .null)
      (hlast : ∀ p ∈ after, lower p.1 = name → p.2 = .null) :
      Finds pairs name (some (escape v.attributeText))
  | nothing (hexact : ∀ w, (name, w) ∈ pairs → w = .null)
      (hlower : ∀ p ∈ pairs, lower p.1 = name → p.2 = .null) : Finds pairs name none

section Finds

variable {pairs : List (String × Value)} {ask : String → Bool}

/-- What is supplied for a name is the text of the entry that counts for it. -/
theorem finds_iff (h : (Pairs.keys pairs).Nodup) {name : String} {r : Option String} :
    (entryFor? pairs name).map (fun p => textOf p.2) = r ↔ Finds pairs name r := by
  unfold entryFor?
  constructor
  · rintro rfl
    cases hexact : lastWhere? pairs (fun k => k = name) with
    | some p =>
        obtain ⟨rfl, hmem, hv⟩ := (lastWhere?_exact_iff h).mp hexact
        exact .exact hmem hv
    | none =>
        rw [lastWhere?_eq_none_iff] at hexact
        have hnull : ∀ w, (name, w) ∈ pairs → w = .null :=
          fun w hw => hexact _ hw (decide_eq_true rfl)
        cases hlower : lastWhere? pairs (fun k => lower k = name) with
        | some p =>
            obtain ⟨hv, hkey, before, after, hsplit, hlast⟩ := lastWhere?_eq_some_iff.mp hlower
            exact .lowered hnull hsplit (of_decide_eq_true hkey) hv
              fun q hq heq => hlast q hq (decide_eq_true heq)
        | none =>
            rw [lastWhere?_eq_none_iff] at hlower
            exact .nothing hnull fun p hp heq => hlower p hp (decide_eq_true heq)
  · have absent : (∀ w, (name, w) ∈ pairs → w = .null) →
        lastWhere? pairs (fun k => k = name) = none := by
      intro hnull
      rw [lastWhere?_eq_none_iff]
      rintro ⟨key, v⟩ hp hkey
      obtain rfl : key = name := of_decide_eq_true hkey
      exact hnull v hp
    intro hfinds
    cases hfinds with
    | exact hmem hv =>
        rw [(lastWhere?_exact_iff h).mpr ⟨rfl, hmem, hv⟩]
        rfl
    | @lowered before after key v hnull hsplit hkey hv hlast =>
        have hlower : lastWhere? pairs (fun k => lower k = name) = some (key, v) :=
          lastWhere?_eq_some_iff.mpr ⟨hv, decide_eq_true hkey, before, after, hsplit,
            fun q hq heq => hlast q hq (of_decide_eq_true heq)⟩
        rw [absent hnull, hlower]
        rfl
    | nothing hnull hlower =>
        rw [absent hnull, lastWhere?_eq_none_iff.mpr fun p hp heq =>
          hlower p hp (of_decide_eq_true heq)]
        rfl

/-! ## What does not matter

The entries that do not concern a name can be left out, whatever their number. -/

/-- The key of an entry is a name, or becomes it in small letters. -/
def concerns (name : String) (p : String × Value) : Bool := p.1 = name || lower p.1 = name

/-- Values that say the same for a name: the entries that concern it stand in one order, or the name
itself is supplied and there are no other entries. -/
inductive Agrees (name : String) (pairs others : List (String × Value)) : Prop
  | elsewhere (h : others.filter (concerns name) = pairs.filter (concerns name))
  | reordered {v : Value} (h : pairs.Perm others) (hmem : (name, v) ∈ pairs) (hv : v ≠ .null)

theorem lastWhere?_filter {name : String} (h : ∀ k, ask k = true → k = name ∨ lower k = name)
    (pairs : List (String × Value)) :
    lastWhere? (pairs.filter (concerns name)) ask = lastWhere? pairs ask := by
  unfold lastWhere?
  rw [← List.filter_reverse, List.find?_filter]
  refine congrArg (List.find? · pairs.reverse) (funext fun p => ?_)
  cases hask : ask p.1 with
  | false => simp
  | true =>
      rw [Bool.eq_iff_iff]
      simp [concerns, h p.1 hask]

theorem entryFor?_filter (pairs : List (String × Value)) (name : String) :
    entryFor? (pairs.filter (concerns name)) name = entryFor? pairs name := by
  unfold entryFor?
  rw [lastWhere?_filter fun k hk => Or.inl (of_decide_eq_true hk),
    lastWhere?_filter fun k hk => Or.inr (of_decide_eq_true hk)]

theorem Agrees.entryFor?_eq {name : String} {others : List (String × Value)}
    (h : Agrees name pairs others) (hpairs : (Pairs.keys pairs).Nodup)
    (hothers : (Pairs.keys others).Nodup) : entryFor? others name = entryFor? pairs name := by
  cases h with
  | elsewhere h => rw [← entryFor?_filter, h, entryFor?_filter]
  | reordered h hmem hv =>
      have own : ∀ {l : List (String × Value)}, (Pairs.keys l).Nodup → ∀ {v}, (name, v) ∈ l →
          v ≠ .null → entryFor? l name = some (name, v) := by
        intro l hl v hmem hv
        unfold entryFor?
        rw [(lastWhere?_exact_iff hl).mpr ⟨rfl, hmem, hv⟩]
        rfl
      rw [own hpairs hmem hv, own hothers (h.subset hmem) hv]

end Finds

end Supplied

/-! ## Blocks

A block is a function of the element and of the one value that it finds. -/

namespace Definition

theorem textUnder?_name_eq_none {d : Definition}
    (h : ∀ a ∈ d.attributes, declares "name" a = false) (lang : Option String) :
    d.textUnder? lang "name" = none := by
  have habsent : (d.texts lang).reverse.find? (fun p => p.1 = "name") = none := by
    rw [List.find?_eq_none]
    rintro ⟨name, t⟩ hp heq
    obtain rfl : name = "name" := of_decide_eq_true heq
    obtain ⟨⟨key, v⟩, ha, htext⟩ := List.mem_filterMap.mp (List.mem_reverse.mp hp)
    have hnot := h _ ha
    cases hv : v.isEmpty with
    | true =>
        rw [textOf?_of_isEmpty hv] at htext
        cases htext
    | false =>
        by_cases hkey : key ∈ ownMeaning
        · simp only [ownMeaning, List.mem_cons, List.not_mem_nil, or_false] at hkey
          rcases hkey with rfl | rfl | rfl | rfl | rfl | rfl | rfl <;>
            simp [textOf?, hv, Element.attributeFor] at htext
        · rw [textOf?_of_not_mem hkey hv] at htext
          unfold ordinaryText? at htext
          split at htext
          · cases htext
          · split at htext
            · cases htext
            · cases htext
              simp [declares, hv] at hnot
  rw [textUnder?, habsent]
  rfl

end Definition

namespace Element

variable {idSuffix : String} {lang : Option String} {d : Definition} {e : Element}

theorem suppliedField_congr (h : ofDefinition idSuffix lang d = .ok e)
    (hname : ∀ a ∈ d.attributes, declares "name" a = false) {supplied supplied' : Supplied}
    (heq : Pairs.get? supplied' e.name = Pairs.get? supplied e.name) (o : Options) :
    Markup.suppliedField supplied' o e = Markup.suppliedField supplied o e := by
  have hstate : e.stateName?.bind (Pairs.get? supplied')
      = e.stateName?.bind (Pairs.get? supplied) := by
    rw [stateName?_of_ofDefinition h, Definition.textUnder?_name_eq_none hname, Option.map_none,
      Option.getD_none]
    cases hown : nonEmpty (some e.name) with
    | none => rfl
    | some name =>
        obtain ⟨hsame, _⟩ := nonEmpty_eq_some_iff.mp hown
        rw [Option.some.inj hsame] at heq
        exact heq
  unfold Markup.suppliedField fieldPieces pieces tagAttributes isMarked content
  rw [heq, hstate]

end Element

/-! ## Forms

Elements do not depend on what is supplied, so that two pages of a form in one language have
the same blocks in the same places. -/

namespace Form

/-- The page of a form with some elements. -/
def page (form : Form) (elements : List Element) (supplied : Supplied) : List Piece :=
  Markup.form elements supplied form.options form.buttonLabel form.message form.details

/-- The block of a field stays as it is, on the page for other values that say the same for its
name. -/
structure KeepsBlock (form : Form) (lang : Option String) (elements : List Element)
    (pairs : List (String × Value)) (supplied : Supplied) (f : Field) (e : Element) : Prop where
  name : e.name = f.formName form.schema.config
  shown : Markup.suppliedField supplied form.options e <:+: form.page elements supplied
  kept : (∀ a ∈ (Definition.ofField form.schema.config f).attributes, declares "name" a = false) →
    ∀ others pairs', Supplied.Lists others pairs' → Supplied.Agrees e.name pairs pairs' →
      ∃ supplied', Supplied.ofValue others = .ok supplied' ∧
        form.pieces others lang = .ok (form.page elements supplied') ∧
        Markup.suppliedField supplied' form.options e
          = Markup.suppliedField supplied form.options e

/-- Values are found by the exact name first and then by small letters, and a block heeds nothing but
what is found for its own name. -/
theorem supplied_by_name {values : Value} {pairs : List (String × Value)}
    (hvalues : Supplied.Lists values pairs) :
    ∃ supplied, Supplied.ofValue values = .ok supplied ∧
      (∀ name r, Pairs.get? supplied name = r ↔ Supplied.Finds pairs name r) ∧
      ∀ (form : Form) (lang : Option String) (elements : List Element),
        form.elements lang = .ok elements →
        form.pieces values lang = .ok (form.page elements supplied) ∧
          List.Forall₂ (form.KeepsBlock lang elements pairs supplied) form.schema.fields elements := by
  have hsupplied := hvalues.ofValue_eq
  refine ⟨_, hsupplied, fun name r => ?_, fun form lang elements helements => ⟨?_, ?_⟩⟩
  · rw [Supplied.get?_present]
    exact Supplied.finds_iff hvalues.distinct
  · exact pieces_eq_ok helements hsupplied
  · refine forall₂_of_built helements fun f _ e he hbuilt => ?_
    obtain ⟨_, _, made⟩ := Element.exists_madeOf hbuilt
    refine ⟨made.name, infix_form he form _, fun hname others pairs' hothers hagrees => ?_⟩
    refine ⟨_, hothers.ofValue_eq, pieces_eq_ok helements hothers.ofValue_eq, ?_⟩
    refine Element.suppliedField_congr hbuilt hname ?_ _
    rw [Supplied.get?_present, Supplied.get?_present,
      hagrees.entryFor?_eq hvalues.distinct hothers.distinct]

/-- A text for which no name is declared. -/
def cityField : Field where
  name := "city"
  type := .str
  declared := some (Declaration.attributes { element := .str "input", inputType := .str "text" })

/-- A form of that field. -/
def cityForm : Form where
  schema := { name := "Address", fields := [cityField] }
  options := { passwordHideSvg := "", passwordShowSvg := "" }
  buttonLabel := "Submit"
  componentElement := defaultComponentElement

/-- Its element. -/
def cityElement : Element where
  name := "city"
  id := "city_"
  element := "input"
  label := .ofText "City"
  inputType := some "text"
  flags := ["required"]
  attributes := [("name", .ofText "city"), ("id", .ofText "city_"), ("type", .ofText "text"),
    ("autocapitalize", .ofText "off"), ("autocomplete", .ofText "off"),
    ("autocorrect", .ofText "off"), ("placeholder", .ofText ""), ("spellcheck", .ofText "false"),
    ("value", .ofText "")]

/-- Two cities under other spellings of the name, and nothing under the name itself. -/
def cities : List (String × Value) :=
  [("City", .str "Bonn"), ("CITY", .str "Rome"), ("age", .int 3), ("city", .null)]

/-- The last of the two is shown, and the age does not matter. -/
theorem last_city_shown : cityForm.elements none = .ok [cityElement] ∧
    ∃ supplied, Supplied.ofValue (.ofPairs cities) = .ok supplied ∧
      Pairs.get? supplied "city" = some "Rome" ∧
      ∃ supplied', Supplied.ofValue (.ofPairs (("zip", .int 100) :: cities.eraseIdx 2)) = .ok supplied' ∧
        Markup.suppliedField supplied' cityForm.options cityElement
          = Markup.suppliedField supplied cityForm.options cityElement := by
  have built : cityForm.elements none = .ok [cityElement] := by decide +kernel
  obtain ⟨supplied, hsupplied, hfinds, hforms⟩ :=
    supplied_by_name (Supplied.lists_ofPairs (by decide : (Pairs.keys cities).Nodup))
  refine ⟨built, supplied, hsupplied, (hfinds _ _).mpr ?_, ?_⟩
  · have hrome : escape (Value.str "Rome").attributeText = "Rome" := by decide +kernel
    have hlast : ∀ p ∈ [("age", Value.int 3), ("city", .null)], lower p.1 = "city" → p.2 = .null := by
      decide +kernel
    have hnull : ∀ w, ("city", w) ∈ cities → w = .null := by
      intro w hw
      simpa [cities] using hw
    have hsplit : cities = [("City", .str "Bonn")] ++ ("CITY", .str "Rome")
        :: [("age", .int 3), ("city", .null)] := rfl
    rw [← hrome]
    exact .lowered hnull hsplit (by decide +kernel) (fun heq => nomatch heq) hlast
  · obtain ⟨-, _ | ⟨block, _⟩⟩ := hforms cityForm none _ built
    have hname : ∀ a ∈ (Definition.ofField {} cityField).attributes, declares "name" a = false := by
      decide +kernel
    obtain ⟨supplied', hsupplied', -, hkept⟩ := block.kept hname _
      (("zip", .int 100) :: cities.eraseIdx 2) (Supplied.lists_ofPairs (by decide))
      (.elsewhere (by decide +kernel))
    exact ⟨supplied', hsupplied', hkept⟩

end Form

end WebForm
