/-
What is read of a value's own text.

A field reads a text as a number or a flag if its scalar says so and the text can be read, and
keeps it as a text otherwise.  A page shows what was read by the text of the value, which is a
text that the field may have to read once more.  For everything but floats the second reading
gives what the first one gave (`coerce_attributeText`):

    coerce scalar (.str (coerce scalar (.str t)).attributeText) = coerce scalar (.str t)

It follows for a whole field of one value, `holds?_again`: the field holds the same of a text
and of the text of what it holds, where an empty text stands for a field that holds nothing.
This is the step that showing and sending a page any number of times rests on.

A float is left out, and has to be: its text may have fewer digits than the number, so that
the second reading gives a different number from the first.

The last part is about all fields of a schema.  Among fields with distinct names each name
leads to its field, and a submission of fields alone is checked as the list of what the fields
hold, in the order of the fields and not in that of the submission (`sentEntries_eq`).
Nothing is said there about texts for other names, which `Covers` excludes.
-/
import WebForm.Proofs.Carrying
import WebForm.Proofs.Endpoint

namespace WebForm

open WebForm.Number Submission

@[simp] theorem Value.attributeText_str (t : String) : (Value.str t).attributeText = t := rfl

@[simp] theorem Value.attributeText_bool (b : Bool) :
    (Value.bool b).attributeText = if b then "true" else "false" := rfl

@[simp] theorem Value.attributeText_int (i : Int) : (Value.int i).attributeText = intText i := by
  rw [attributeText, text, shown]
  all_goals intros; contradiction

/-! ## Values

What is read of a text is a flag, an integer or the text itself.  The text of the first two is
one of two words or a numeral, and no such text is empty. -/

theorem readText?_attributeText {scalar : Ty} (h : scalar ≠ .float) {t : String} {v : Value}
    (hread : readText? scalar t = some v) : readText? scalar v.attributeText = some v := by
  cases scalar with
  | bool =>
      have hwords : ∀ b : Bool, readFlag? (if b then "true" else "false") = some b := by
        decide +kernel
      rw [readText?] at hread
      obtain ⟨b, _, rfl⟩ := Option.map_eq_some_iff.mp hread
      rw [Value.attributeText_bool, readText?, hwords]
      rfl
  | int =>
      rw [readText?] at hread
      obtain ⟨i, hi, rfl⟩ := Option.map_eq_some_iff.mp hread
      rw [Value.attributeText_int, readText?, readInteger?_intText hi]
      rfl
  | float => exact absurd rfl h
  | _ => cases hread

/-- Reading the text of what was read changes nothing, unless it is a float. -/
theorem coerce_attributeText {scalar : Ty} (h : scalar ≠ .float) (t : String) :
    coerce scalar (.str (coerce scalar (.str t)).attributeText) = coerce scalar (.str t) := by
  rw [coerce_str, coerce_str]
  cases hread : readText? scalar t with
  | none => rw [Option.getD_none, Value.attributeText_str, hread, Option.getD_none]
  | some v => rw [Option.getD_some, readText?_attributeText h hread, Option.getD_some]

theorem asText?_coerce_eq_empty_iff (scalar : Ty) (t : String) :
    (coerce scalar (.str t)).asText? = some "" ↔ coerce scalar (.str t) = .str "" := by
  rcases coerce_cases scalar (.str t) with heq | ⟨_, heq⟩ | ⟨_, heq⟩ | ⟨_, heq⟩ <;>
    rw [heq] <;> simp [Value.asText?]

/-! ## Fields of one value

An empty text that may be dropped leaves nothing, and nothing is shown by an empty text.  So
an empty text is the one case that has to be followed through all lemmas here. -/

namespace Field

variable {f : Field}

theorem readField?_text (h : f.type.kind.multi = false) (t : String) :
    readField? f [.str t]
      = if coerce f.type.kind.scalar (.str t) = .str "" ∧ f.isRequired = false then none
        else some (coerce f.type.kind.scalar (.str t)) := by
  unfold readField?
  simp only [List.map_cons, List.map_nil, h, List.isEmpty_cons, Bool.false_eq_true, if_false,
    Bool.and_eq_true, decide_eq_true_eq, Bool.not_eq_true', asText?_coerce_eq_empty_iff]

theorem holds?_text (h : f.type.kind.multi = false) (t : String) :
    f.holds? (.list [.str t])
      = if coerce f.type.kind.scalar (.str t) = .str "" ∧ f.isRequired = false then none
        else some (coerce f.type.kind.scalar (.str t)) := by
  have hcollapse : collapseValue (coerce f.type.kind.scalar (.str t))
      = coerce f.type.kind.scalar (.str t) := by
    rcases coerce_cases f.type.kind.scalar (.str t) with heq | ⟨_, heq⟩ | ⟨_, heq⟩ | ⟨_, heq⟩ <;>
      rw [heq] <;> rfl
  show (readField? f [.str t]).map collapseValue = _
  rw [readField?_text h]
  split
  · rfl
  · rw [Option.map_some, hcollapse]

theorem text_holds?_text (h : f.type.kind.multi = false) (t : String) :
    ((f.holds? (.list [.str t])).map Value.attributeText).getD ""
      = (coerce f.type.kind.scalar (.str t)).attributeText := by
  rw [holds?_text h]
  split
  · rename_i hdropped
    rw [hdropped.1]
    rfl
  · rfl

/-- A field of one value that is no float holds the same of a text and of the text of what it
holds. -/
theorem holds?_again (h : f.type.kind.multi = false) (hfloat : f.type.kind.scalar ≠ .float)
    (t : String) :
    f.holds? (.list [.str (((f.holds? (.list [.str t])).map Value.attributeText).getD "")])
      = f.holds? (.list [.str t]) := by
  rw [text_holds?_text h, holds?_text h, holds?_text h, coerce_attributeText hfloat]

end Field

/-! ## All fields of a schema -/

namespace Schema

variable {schema : Schema} {s : Submission}

/-- The fields have distinct names in the form. -/
def NamesApart (schema : Schema) : Prop :=
  (schema.fields.map fun f => f.formName schema.config).Nodup

/-- A submission gives fields of the schema and nothing else. -/
def Covers (schema : Schema) (s : Submission) : Prop :=
  ∀ e ∈ s.entries, ∃ f ∈ schema.fields, e.1.asText? = some (f.formName schema.config)

/-- What a field holds of a submission. -/
def held? (schema : Schema) (s : Submission) (f : Field) : Option Value :=
  (s.values? (f.formName schema.config)).bind fun raw => f.holds? (.list raw)

/-- What the fields hold of a submission, under their names. -/
def heldPairs (schema : Schema) (s : Submission) : List (String × Value) :=
  schema.fields.filterMap fun f => (schema.held? s f).map fun v => (f.formName schema.config, v)

theorem fieldsByName_eq (hnames : schema.NamesApart) :
    fieldsByName schema = schema.fields.map fun f => (f.formName schema.config, f) := by
  refine Pairs.setAll_nil_of_nodup ?_
  rw [Pairs.keys, List.map_map]
  exact hnames

theorem get?_fieldsByName_formName (hnames : schema.NamesApart) {f : Field} (hf : f ∈ schema.fields) :
    Pairs.get? (fieldsByName schema) (f.formName schema.config) = some f := by
  rw [fieldsByName_eq hnames]
  exact Pairs.get?_map hnames id hf

/-- A schema of distinct names checks what its fields hold, if nothing else is sent. -/
theorem sentEntries_eq (hnames : schema.NamesApart) (hcovers : schema.Covers s) :
    Value.map (schema.sentEntries s) = .ofPairs (schema.heldPairs s) := by
  have hfields := fieldsByName_eq hnames
  have hothers : s.entries.filter (fun e => !isName (fieldsByName schema) e.1) = [] := by
    rw [List.filter_eq_nil_iff]
    intro e he
    obtain ⟨f, hf, htext⟩ := hcovers e he
    have hname : Pairs.has (fieldsByName schema) (f.formName schema.config) = true := by
      rw [hfields, Pairs.has_iff_mem_keys]
      exact List.mem_map.mpr ⟨_, List.mem_map.mpr ⟨f, hf, rfl⟩, rfl⟩
    rw [isName, htext, Option.any_some, hname]
    exact Bool.false_ne_true
  unfold sentEntries parse
  dsimp only
  rw [hothers, List.map_nil, List.append_nil, hfields, List.filterMap_map]
  unfold collapse heldPairs Value.ofPairs
  rw [List.map_filterMap, List.map_filterMap]
  refine congrArg Value.map (congrArg (List.filterMap · schema.fields) (funext fun f => ?_))
  unfold held? Field.holds?
  dsimp only [Function.comp_apply]
  cases s.values? (f.formName schema.config) with
  | none => rfl
  | some raw =>
      dsimp only [Option.bind_some, spread]
      cases readField? f raw <;> rfl

theorem reportForm_eq (schema : Schema) (s : Submission) :
    schema.reportForm s = Report.ofOutcome (.map (schema.sentEntries s))
      (schema.check (some false) (.map (schema.sentEntries s))) := rfl

theorem get?_heldPairs (hnames : schema.NamesApart) {f : Field} (hf : f ∈ schema.fields) :
    Pairs.get? (schema.heldPairs s) (f.formName schema.config) = schema.held? s f :=
  Pairs.get?_filterMap hnames _ hf

end Schema

end WebForm
