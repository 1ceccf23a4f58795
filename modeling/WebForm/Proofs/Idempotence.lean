/-
What was read of a submission, read again.

A handler may read a submission and hand what it has read to a form, which reads it again.
`Schema.parse_again` says that this changes nothing, for every schema and everything that a
browser can send:

    (Submission.single (s.parse schema)).parse schema = s.parse schema

with the same keys in the same order, and that the report on what was read is the report on
the submission.

A text that is read as a flag or a number is no text any more, and one that cannot be read
stays a text that cannot be read; so a list of readings is read as itself (`coerce_coerce`).
What a name holds is a list of readings or the one reading, and either stands for the same
values when it is read again (`spread_unwrap`, `readField?_spread`).  What was dropped is no
longer there.  The order is kept since the names of fields come first in both runs, as the
fields are declared, and the others follow in the order in which they came.

The values that are sent must be no lists themselves, and those of a browser are texts.  A
list that stands alone in a list of values is held as it is, and would then be taken for the
values; the example after `parse_parse` shows that this is not idle.
-/
import WebForm.Proofs.Partition

namespace WebForm

open Submission

namespace Submission

/-! ## One value

What a flag or a number is read of is a text, and what it is read as is none. -/

/-- Reading a value a second time changes nothing. -/
theorem coerce_coerce (target : Ty) (raw : Value) :
    coerce target (coerce target raw) = coerce target raw := by
  have untouched : ∀ {v : Value}, v.asText? = none → coerce target v = v := by
    intro v hv
    rw [coerce, hv]
  rcases coerce_cases target raw with heq | ⟨b, heq⟩ | ⟨i, heq⟩ | ⟨x, heq⟩
  · rw [heq, heq]
  · rw [heq, untouched rfl]
  · rw [heq, untouched rfl]
  · rw [heq, untouched rfl]

theorem spread_coerce {raw : Value} (h : spread raw = [raw]) (target : Ty) :
    spread (coerce target raw) = [coerce target raw] := by
  rcases coerce_cases target raw with heq | ⟨_, heq⟩ | ⟨_, heq⟩ | ⟨_, heq⟩
  · rw [heq, h]
  all_goals rw [heq]; rfl

theorem spread_unwrap {values : List Value} (h : ∀ v ∈ values, spread v = [v]) :
    spread (unwrap values) = values := by
  rcases values with _ | ⟨v, _ | ⟨w, rest⟩⟩
  · rfl
  · exact h v List.mem_cons_self
  · rfl

/-! ## One field

Reading the readings of some values is reading the values, whatever becomes of them
afterwards. -/

variable {f : Field} {raw : List Value} {v : Value}

theorem readField?_map_coerce (f : Field) (raw : List Value) :
    readField? f (raw.map (coerce f.type.kind.scalar)) = readField? f raw := by
  have hcoerce : coerce f.type.kind.scalar ∘ coerce f.type.kind.scalar
      = coerce f.type.kind.scalar := funext (coerce_coerce _)
  unfold readField?
  rw [List.map_map, hcoerce, List.isEmpty_map]

/-- What a field holds stands for the values that it has read. -/
theorem spread_of_readField? (hraw : ∀ r ∈ raw, spread r = [r]) (h : readField? f raw = some v) :
    spread v = raw.map (coerce f.type.kind.scalar) := by
  rcases readField?_cases h with rfl | hone
  · rfl
  · have hv : v ∈ raw.map (coerce f.type.kind.scalar) := hone ▸ List.mem_cons_self
    obtain ⟨r, hr, rfl⟩ := List.mem_map.mp hv
    rw [hone, spread_coerce (hraw r hr)]

/-- A field holds the same of what it holds. -/
theorem readField?_spread (hraw : ∀ r ∈ raw, spread r = [r]) (h : readField? f raw = some v) :
    readField? f (spread v) = some v := by
  rw [spread_of_readField? hraw h, readField?_map_coerce, h]

/-! ## All names

What is read has two parts, the names of fields and the others.  Each part is read again by
itself. -/

/-- No value that is sent is a list itself. -/
def IsFlat (s : Submission) : Prop := ∀ e ∈ s.entries, ∀ v ∈ e.2, spread v = [v]

theorem Gives.isFlat {sent : List (String × List String)} {s : Submission} (h : s.Gives sent) :
    s.IsFlat := by
  intro e he v hv
  rw [h.entries_eq] at he
  obtain ⟨p, _, rfl⟩ := List.mem_map.mp he
  obtain ⟨t, _, rfl⟩ := List.mem_map.mp hv
  rfl

theorem values?_single_entries (entries : List (Value × Value)) (name : String) :
    (Submission.single entries).values? name = (Value.valueAt? entries name).map spread := by
  unfold values? Value.valueAt? Submission.entries
  rw [List.find?_map, Option.map_map, Option.map_map]
  rfl

variable {schema : Schema} {s : Submission}

/-- What is read of the names that are a field's. -/
def knownEntries (schema : Schema) (s : Submission) : List (Value × Value) :=
  (fieldsByName schema).filterMap fun p =>
    ((s.values? p.1).bind (readField? p.2)).map fun v => (.str p.1, v)

/-- What is read of all other names. -/
def otherEntries (schema : Schema) (s : Submission) : List (Value × Value) :=
  (s.entries.filter fun e => !isName (fieldsByName schema) e.1).map fun e => (e.1, unwrap e.2)

theorem parse_eq_append (schema : Schema) (s : Submission) :
    s.parse schema = knownEntries schema s ++ otherEntries schema s := rfl

theorem knownEntries_parse (h : s.IsFlat) :
    knownEntries schema (.single (s.parse schema)) = knownEntries schema s := by
  refine List.filterMap_congr fun p hp => congrArg (Option.map _) ?_
  have hfield : Pairs.get? (fieldsByName schema) p.1 = some p.2 :=
    (Pairs.get?_eq_some_iff (nodup_fieldsByName schema)).mpr hp
  rw [values?_single_entries, valueAt?_parse hfield]
  cases hraw : s.values? p.1 with
  | none => rfl
  | some raw =>
      obtain ⟨e, he, _, rfl⟩ := mem_of_values? hraw
      rw [Option.bind_some]
      cases hread : readField? p.2 e.2 with
      | none => rfl
      | some v => exact readField?_spread (h e he) hread

theorem otherEntries_parse (h : s.IsFlat) :
    otherEntries schema (.single (s.parse schema)) = otherEntries schema s := by
  have hknown : ∀ e ∈ knownEntries schema s, isName (fieldsByName schema) e.1 = true := by
    intro e he
    obtain ⟨p, hp, hread⟩ := List.mem_filterMap.mp he
    obtain ⟨v, _, rfl⟩ := Option.map_eq_some_iff.mp hread
    exact Pairs.has_iff_mem_keys.mpr (List.mem_map.mpr ⟨p, hp, rfl⟩)
  have hother : ∀ e ∈ otherEntries schema s,
      isName (fieldsByName schema) e.1 = false ∧ unwrap (spread e.2) = e.2 := by
    intro e he
    obtain ⟨e', he', rfl⟩ := List.mem_map.mp he
    obtain ⟨hsent, hname⟩ := List.mem_filter.mp he'
    exact ⟨(Bool.not_eq_true' _).mp hname, by rw [spread_unwrap (h e' hsent)]⟩
  show (((s.parse schema).map fun e => (e.1, spread e.2)).filter _).map _ = _
  rw [parse_eq_append, List.filter_map, List.filter_append, List.map_map]
  rw [List.filter_eq_nil_iff.mpr, List.filter_eq_self.mpr, List.nil_append]
  · refine Eq.trans (List.map_congr_left fun e he => ?_) (List.map_id _)
    exact Prod.ext rfl (hother e he).2
  · intro e he
    simp [hother e he]
  · intro e he
    simp [hknown e he]

/-- A submission of values that are no lists is read once and for all. -/
theorem parse_parse (h : s.IsFlat) (schema : Schema) :
    (Submission.single (s.parse schema)).parse schema = s.parse schema := by
  rw [parse_eq_append, knownEntries_parse h, otherEntries_parse h, ← parse_eq_append]

/-- A list that stands alone in a list of values is taken apart each time. -/
example :
    (Submission.single [(.str "day", .list [.list [.str "monday"]])]).parse { name := "", fields := [] }
        = [(.str "day", .list [.str "monday"])] ∧
      (Submission.single [(.str "day", .list [.str "monday"])]).parse { name := "", fields := [] }
        = [(.str "day", .str "monday")] := by decide +kernel

end Submission

/-! ## Texts

A browser sends a list of texts for each name, in one of several forms. -/

namespace Schema

/-- What was read of the texts of a submission is read as it is, in the same order, and a report on
it is the report on the submission. -/
theorem parse_again {sent : List (String × List String)} {s : Submission} (h : s.Gives sent)
    (schema : Schema) :
    (Submission.single (s.parse schema)).parse schema = s.parse schema ∧
      schema.reportForm (.single (s.parse schema)) = schema.reportForm s := by
  have hparse := parse_parse h.isFlat schema
  refine ⟨hparse, ?_⟩
  unfold reportForm
  rw [hparse]

/-- A review: stars, marks, whether it may be printed, and a note that has to be there. -/
def review : Schema where
  name := "Review"
  fields := [
    { name := "stars", type := .optional .float, default := some .null },
    { name := "marks", type := .many .tuple .int, knownAs := some "points" },
    { name := "printed", type := .bool, default := some (.bool false) },
    { name := "note", type := .str },
    { name := "title", type := .str, default := some (.str "") }]

/-- What is sent for a review, in an order of its own and with other names among it. -/
def sentReview : List (String × List String) :=
  [("save", ["1"]), ("note", [""]), ("printed", ["off", "on"]), ("points", ["007"]), ("title", [""]),
    ("stars", [" NaN "]), ("marks", ["1", "2"]), ("reset", [])]

/-- What is read of it: the title is dropped, and the points are a list of one. -/
def readReview : List (Value × Value) :=
  [(.str "stars", .float .nan), (.str "points", .list [.int 7]),
    (.str "printed", .list [.bool false, .bool true]), (.str "note", .str ""),
    (.str "save", .str "1"), (.str "marks", .list [.str "1", .str "2"]), (.str "reset", .list [])]

/-- A number that is none, a list of one, two flags and a button are read as they are. -/
theorem review_parsed_again :
    (Submission.multi (sentReview.map fun p => (p.1, p.2.map .str))).parse review = readReview ∧
      (Submission.single readReview).parse review = readReview := by
  have hparse : (Submission.multi (sentReview.map fun p => (p.1, p.2.map .str))).parse review
      = readReview := by decide +kernel
  have hagain := (parse_again (Gives.multi : Gives sentReview _) review).1
  rw [hparse] at hagain
  exact ⟨hparse, hagain⟩

end Schema

end WebForm
