/-
What a submission is read as, name by name.

Reading a submission goes through the fields by their names in the form, each of which counts
once, and then through the keys that are no field's name.  For most statements about a single
field all of this comes down to one equation:

    Value.valueAt? (s.parse schema) name = (s.values? name).bind (readField? f)

if the name is that of the field f (`valueAt?_parse`).  So what is read under a field's name
is a function of what was sent under it: the other keys do not matter, and neither does their
order.  Of two fields with one name the later one reads, which is why the hypothesis is about
the table of fields and not about membership in the schema.

The other lemmas are the shapes of what can come out.  A single value is read as it is, as a
flag or as a number (`coerce_cases`); a field holds the list of what it has read or the one
value (`readField?_cases`); and collapsing turns a list of flags into a flag and leaves all
else (`collapseValue_cases`).  They are stated as disjunctions because the proofs that use
them go through the cases.

Lookups are by text.  A key that is no text is never a field's name, and it is passed on.
-/
import WebForm.Proofs.Pairs
import WebForm.Submission.Report

namespace WebForm

namespace Value

theorem valueAt?_append (entries more : List (Value × Value)) (name : String) :
    valueAt? (entries ++ more) name = (valueAt? entries name).or (valueAt? more name) := by
  unfold valueAt?
  rw [List.find?_append]
  cases entries.find? (fun e => e.1.asText? = some name) with
  | none => rfl
  | some e => rfl

theorem valueAt?_eq_none {entries : List (Value × Value)} {name : String}
    (h : ∀ e ∈ entries, e.1.asText? ≠ some name) : valueAt? entries name = none := by
  unfold valueAt?
  rw [List.find?_eq_none.mpr, Option.map_none]
  intro e he
  simpa using h e he

theorem valueAt?_cons (e : Value × Value) (entries : List (Value × Value)) (name : String) :
    valueAt? (e :: entries) name
      = if e.1.asText? = some name then some e.2 else valueAt? entries name := by
  unfold valueAt?
  by_cases h : e.1.asText? = some name
  · rw [List.find?_cons_of_pos (by simpa using h), if_pos h]
    rfl
  · rw [List.find?_cons_of_neg (by simpa using h), if_neg h]

theorem valueAt?_filterMap {α : Type} (read : String × α → Option Value)
    {pairs : List (String × α)} (h : (Pairs.keys pairs).Nodup) (name : String) :
    valueAt? (pairs.filterMap fun p => (read p).map fun v => (.str p.1, v)) name
      = (Pairs.get? pairs name).bind fun a => read (name, a) := by
  induction pairs with
  | nil => rfl
  | cons p rest ih =>
      obtain ⟨key, a⟩ := p
      obtain ⟨hkey, hrest⟩ := List.nodup_cons.mp h
      by_cases hname : key = name
      · subst hname
        have absent : Pairs.get? rest key = none := (Pairs.get?_eq_none_iff rest key).mpr hkey
        simp only [Pairs.get?, if_pos, Option.bind_some]
        cases hread : read (key, a) with
        | none =>
            rw [List.filterMap_cons_none (by rw [hread]; rfl), ih hrest, absent]
            rfl
        | some v =>
            rw [List.filterMap_cons_some (by rw [hread]; rfl), valueAt?_cons]
            exact if_pos rfl
      · simp only [Pairs.get?, if_neg hname]
        cases hread : read (key, a) with
        | none =>
            rw [List.filterMap_cons_none (by rw [hread]; rfl)]
            exact ih hrest
        | some v =>
            rw [List.filterMap_cons_some (by rw [hread]; rfl), valueAt?_cons, if_neg, ih hrest]
            intro heq
            exact hname (Option.some.inj heq)

end Value

namespace Submission

theorem valueAt?_collapse (data : List (Value × Value)) (name : String) :
    Value.valueAt? (collapse data) name = (Value.valueAt? data name).map collapseValue := by
  induction data with
  | nil => rfl
  | cons e data ih =>
      simp only [collapse, List.map_cons, Value.valueAt?_cons] at ih ⊢
      split
      · rfl
      · exact ih

theorem mem_collapse_key {data : List (Value × Value)} {e : Value × Value} (h : e ∈ collapse data) :
    ∃ e' ∈ data, e'.1 = e.1 := by
  obtain ⟨e', he', rfl⟩ := List.mem_map.mp h
  exact ⟨e', he', rfl⟩

theorem nodup_fieldsByName (schema : Schema) : (Pairs.keys (fieldsByName schema)).Nodup :=
  Pairs.nodup_keys_setAll (show (Pairs.keys []).Nodup from List.nodup_nil) _

theorem get?_fieldsByName {schema : Schema} {before after : List Field} {f : Field}
    (hfields : schema.fields = before ++ f :: after)
    (h : ∀ g ∈ after, g.formName schema.config ≠ f.formName schema.config) :
    Pairs.get? (fieldsByName schema) (f.formName schema.config) = some f := by
  unfold fieldsByName
  rw [hfields, List.map_append, List.map_cons, Pairs.setAll_append]
  show Pairs.get? (Pairs.setAll (Pairs.set _ _ f) _) _ = _
  rw [Pairs.get?_setAll_of_ne, Pairs.get?_set, if_pos rfl]
  intro p hp
  obtain ⟨g, hg, rfl⟩ := List.mem_map.mp hp
  exact h g hg

/-- Under the name of a field, reading a submission gives what the field reads of the values that
were sent under it. -/
theorem valueAt?_parse {schema : Schema} {name : String} {f : Field}
    (h : Pairs.get? (fieldsByName schema) name = some f) (s : Submission) :
    Value.valueAt? (s.parse schema) name = (s.values? name).bind (readField? f) := by
  unfold parse
  dsimp only
  rw [Value.valueAt?_append]
  have known := Value.valueAt?_filterMap (fun p => (s.values? p.1).bind (readField? p.2))
    (nodup_fieldsByName schema) name
  rw [h] at known
  rw [known, Option.bind_some]
  rw [Value.valueAt?_eq_none, Option.or_none]
  intro e he htext
  obtain ⟨e', he', rfl⟩ := List.mem_map.mp he
  have hother := (List.mem_filter.mp he').2
  have hname : isName (fieldsByName schema) e'.1 = true := by
    unfold isName
    rw [htext, Option.any_some]
    exact Pairs.has_iff.mpr ⟨f, h⟩
  rw [hname] at hother
  exact absurd hother (by decide)

theorem mem_parse_key {schema : Schema} {s : Submission} {e : Value × Value}
    (h : e ∈ s.parse schema) : e.1.asText?.isSome = true ∨ ∃ e' ∈ s.entries, e'.1 = e.1 := by
  rcases List.mem_append.mp h with h | h
  · obtain ⟨p, _, hp⟩ := List.mem_filterMap.mp h
    obtain ⟨v, _, rfl⟩ := Option.map_eq_some_iff.mp hp
    exact Or.inl rfl
  · obtain ⟨e', he', rfl⟩ := List.mem_map.mp h
    exact Or.inr ⟨e', (List.mem_filter.mp he').1, rfl⟩

/-- One value is read as it is, as a flag or as a number. -/
theorem coerce_cases (target : Ty) (raw : Value) :
    coerce target raw = raw ∨ (∃ b, coerce target raw = .bool b) ∨ (∃ i, coerce target raw = .int i) ∨
      ∃ x, coerce target raw = .float x := by
  unfold coerce
  split
  · rename_i t _
    cases hread : readText? target t with
    | none => exact Or.inl rfl
    | some v =>
        rw [Option.getD_some]
        unfold readText? at hread
        split at hread
        · obtain ⟨b, _, rfl⟩ := Option.map_eq_some_iff.mp hread
          exact Or.inr (Or.inl ⟨b, rfl⟩)
        · obtain ⟨i, _, rfl⟩ := Option.map_eq_some_iff.mp hread
          exact Or.inr (Or.inr (Or.inl ⟨i, rfl⟩))
        · obtain ⟨x, _, rfl⟩ := Option.map_eq_some_iff.mp hread
          exact Or.inr (Or.inr (Or.inr ⟨x, rfl⟩))
        · cases hread
  · exact Or.inl rfl

/-- A field holds the list of the values that it reads, or the one value. -/
theorem readField?_cases {f : Field} {raw : List Value} {v : Value} (h : readField? f raw = some v) :
    v = .list (raw.map (coerce f.type.kind.scalar)) ∨
      raw.map (coerce f.type.kind.scalar) = [v] := by
  unfold readField? at h
  dsimp only at h
  split at h
  · cases h
  · split at h
    · cases h
      exact Or.inl rfl
    · split at h
      · rename_i w heq
        split at h
        · cases h
        · cases h
          exact Or.inr heq
      · cases h
        exact Or.inl rfl

/-- A list of flags that collapses is a flag; everything else stays. -/
theorem collapseValue_cases (v : Value) : collapseValue v = v ∨ collapseValue v = .bool true := by
  unfold collapseValue
  split
  · split
    · exact Or.inr rfl
    · exact Or.inl rfl
  · exact Or.inl rfl

theorem values?_single (name : String) (v : Value) :
    (Submission.single [(.str name, v)]).values? name = some (spread v) := by
  simp [values?, entries, Value.asText?]

theorem mem_of_values? {s : Submission} {name : String} {raw : List Value}
    (h : s.values? name = some raw) : ∃ q ∈ s.entries, q.1.asText? = some name ∧ q.2 = raw := by
  obtain ⟨q, hq, rfl⟩ := Option.map_eq_some_iff.mp h
  have hname := List.find?_some hq
  exact ⟨q, List.mem_of_find?_eq_some hq, of_decide_eq_true hname, rfl⟩

theorem values?_multi (fields : List (String × List Value)) (name : String) :
    (Submission.multi fields).values? name = Pairs.get? fields name := by
  show ((fields.map fun p => (Value.str p.1, p.2)).find? fun e => e.1.asText? = some name).map (·.2)
    = _
  induction fields with
  | nil => rfl
  | cons p fields ih =>
      rw [List.map_cons, Pairs.get?]
      by_cases h : p.1 = name
      · rw [if_pos h, List.find?_cons_of_pos (by simpa [Value.asText?] using h)]
        rfl
      · rw [if_neg h, List.find?_cons_of_neg (by simpa [Value.asText?] using h), ih]

end Submission

end WebForm
