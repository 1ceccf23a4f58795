/-
What reading a submission keeps, and where.

The names of a submission fall into two parts.  Those of the schema's fields come first, as
they are declared, and each holds what its field reads of the texts under it.  All other names
follow as they were sent, with their texts as they are: one text stands alone and several are
a list.  `parse_parts` says so for every schema whose names are distinct, in one equation for
every way in which the texts are handed in:

    s.Gives sent → s.parse schema = (known ++ others).map fun p => (.str p.1, p.2)

where `Parts` describes the two lists: their keys in order, no key twice, and under each key
what is kept of its own texts.  No text moves from one name to another, and none is lost but
in two cases: a name without texts is left out, and so is a lone empty text for a field of one
value that can do without (`Field.Keeps`).

The texts of a name may come as a list of values, as a single list, or as the text alone if
there is one.  These are the forms in which web frameworks hand in what a browser sent, and
that they make no difference is part of the statement.

Distinct names are needed, since of two fields with one name only the last reads.
-/
import WebForm.Proofs.Rereading

namespace WebForm

open Submission

/-! ## How texts are handed in

`Value.Gives` is for one name and `Submission.Gives` for all of them. -/

/-- A value gives some texts: it is the list of them, or the text alone if there is one. -/
inductive Value.Gives : List String → Value → Prop where
  | list (texts : List String) : Gives texts (.list (texts.map .str))
  | alone (t : String) : Gives [t] (.str t)

/-- A submission gives some texts for each name: as such, or with a value for each name that gives
its texts. -/
inductive Submission.Gives (sent : List (String × List String)) : Submission → Prop where
  | multi : Gives sent (.multi (sent.map fun p => (p.1, p.2.map .str)))
  | single {entries : List (Value × Value)}
      (h : List.Forall₂ (fun p e => e.1 = .str p.1 ∧ e.2.Gives p.2) sent entries) :
      Gives sent (.single entries)

theorem Value.Gives.spread_eq {texts : List String} {v : Value} (h : v.Gives texts) :
    spread v = texts.map .str := by
  cases h with
  | list => rfl
  | alone => rfl

theorem Value.gives_unwrap (texts : List String) : (unwrap (texts.map .str)).Gives texts := by
  rcases texts with _ | ⟨t, _ | ⟨u, rest⟩⟩
  · exact .list []
  · exact .alone t
  · exact .list (t :: u :: rest)

namespace Submission

variable {sent : List (String × List String)} {s : Submission}

theorem gives_of_forall {write : List String → Value} (h : ∀ texts, (write texts).Gives texts)
    (sent : List (String × List String)) :
    (Submission.single (sent.map fun p => (.str p.1, write p.2))).Gives sent :=
  .single (List.forall₂_map_right_iff.mpr (List.forall₂_same.mpr fun p _ => ⟨rfl, h p.2⟩))

/-- However the texts are handed in, they stand under their names, in order. -/
theorem Gives.entries_eq (h : s.Gives sent) :
    s.entries = sent.map fun p => (.str p.1, p.2.map .str) := by
  cases h with
  | multi => exact List.map_map
  | single h =>
      show List.map _ _ = _
      induction h with
      | nil => rfl
      | cons hp _ ih =>
          obtain ⟨hkey, hvalue⟩ := hp
          rw [List.map_cons, List.map_cons, ih, hkey, hvalue.spread_eq]

theorem Gives.values?_eq (h : s.Gives sent) (name : String) :
    s.values? name = (Pairs.get? sent name).map fun texts => texts.map .str := by
  have hmulti : s.values? name
      = (Submission.multi (Pairs.mapValues (·.map .str) sent)).values? name := by
    unfold values?
    rw [h.entries_eq, ← (Gives.multi : Gives sent _).entries_eq]
    rfl
  rw [hmulti, values?_multi, Pairs.get?_mapValues]

end Submission

/-! ## What a field keeps

A field is asked about the texts under its name alone. -/

namespace Field

/-- What a field reads of some texts, one by one. -/
def readings (f : Field) (texts : List String) : List Value :=
  texts.map fun t => coerce f.type.kind.scalar (.str t)

/-- A field keeps what is sent for it, if anything is; but one of one value that can do without
keeps no lone empty text. -/
def Keeps (f : Field) (texts : List String) : Prop :=
  texts ≠ [] ∧
    ¬(f.type.kind.multi = false ∧ f.readings texts = [.str ""] ∧ f.isRequired = false)

instance (f : Field) (texts : List String) : Decidable (f.Keeps texts) :=
  inferInstanceAs (Decidable (_ ∧ _))

/-- What a field holds of some texts: the one value for a field of one value, or else the list. -/
def reading (f : Field) (texts : List String) : Value :=
  match f.type.kind.multi, f.readings texts with
  | false, [v] => v
  | _, vs => .list vs

theorem readField?_eq (f : Field) (texts : List String) :
    readField? f (texts.map .str) = if f.Keeps texts then some (f.reading texts) else none := by
  rcases texts with _ | ⟨t, _ | ⟨u, rest⟩⟩
  · have hkeeps : ¬f.Keeps [] := fun h => h.1 rfl
    rw [if_neg hkeeps]
    rfl
  · have hkeeps : f.Keeps [t]
        ↔ ¬(f.type.kind.multi = false ∧ coerce f.type.kind.scalar (.str t) = .str "" ∧
          f.isRequired = false) := by
      simp [Keeps, readings]
    cases hmulti : f.type.kind.multi with
    | true =>
        rw [if_pos (hkeeps.mpr fun h => by rw [hmulti] at h; cases h.1)]
        simp [readField?, reading, readings, hmulti]
    | false =>
        have hreading : f.reading [t] = coerce f.type.kind.scalar (.str t) := by
          simp [reading, readings, hmulti]
        simp only [hkeeps, hmulti, true_and, ite_not, hreading]
        exact readField?_text hmulti t
  · have hkeeps : f.Keeps (t :: u :: rest) := by simp [Keeps, readings]
    rw [if_pos hkeeps]
    cases hmulti : f.type.kind.multi <;> simp [readField?, reading, readings, hmulti]

end Field

/-! ## Parts of a submission

The two parts are defined by going through the fields and through what was sent; that they are
what reading gives is a computation. -/

namespace Schema

/-- The names of the fields in the form, as they are declared. -/
def formNames (schema : Schema) : List String :=
  schema.fields.map fun f => f.formName schema.config

/-- The two parts of what is read of some texts for each name. -/
structure Parts (schema : Schema) (sent : List (String × List String))
    (known others : List (String × Value)) : Prop where
  distinct : (Pairs.keys (known ++ others)).Nodup
  /-- First come the fields that keep what is sent for them, as they are declared. -/
  keys_known : Pairs.keys known
    = (schema.fields.filter fun f : Field =>
        (Pairs.get? sent (f.formName schema.config)).any fun texts => f.Keeps texts).map
      fun f => f.formName schema.config
  /-- The names that are no field's follow, as they were sent. -/
  keys_others : Pairs.keys others = (Pairs.keys sent).filter fun name => name ∉ schema.formNames
  /-- Each field that is kept holds its own reading of the texts under its name. -/
  get?_known : ∀ f : Field, f ∈ schema.fields → ∀ texts,
    Pairs.get? sent (f.formName schema.config) = some texts → f.Keeps texts →
      Pairs.get? known (f.formName schema.config) = some (f.reading texts)
  /-- Each other name holds its one text, or the list of its texts. -/
  get?_others : ∀ name texts, name ∉ schema.formNames → Pairs.get? sent name = some texts →
    Pairs.get? others name = some (unwrap (texts.map .str))

variable {schema : Schema} {sent : List (String × List String)} {s : Submission}

/-- What a field keeps of the texts under its name. -/
def kept? (schema : Schema) (sent : List (String × List String)) (f : Field) : Option Value :=
  (Pairs.get? sent (f.formName schema.config)).bind fun texts =>
    if f.Keeps texts then some (f.reading texts) else none

/-- The fields that keep something, with what they hold. -/
def known (schema : Schema) (sent : List (String × List String)) : List (String × Value) :=
  schema.fields.filterMap fun f => (schema.kept? sent f).map fun v => (f.formName schema.config, v)

/-- The other names, with their texts. -/
def others (schema : Schema) (sent : List (String × List String)) : List (String × Value) :=
  (sent.filter fun p => p.1 ∉ schema.formNames).map fun p => (p.1, unwrap (p.2.map .str))

theorem isName_iff (hnames : schema.NamesApart) (name : String) :
    isName (fieldsByName schema) (.str name) = true ↔ name ∈ schema.formNames := by
  unfold isName
  rw [fieldsByName_eq hnames]
  show Pairs.has _ name = true ↔ _
  rw [Pairs.has_iff_mem_keys, Pairs.keys, List.map_map]
  exact Iff.rfl

theorem parse_eq (hnames : schema.NamesApart) (h : s.Gives sent) :
    s.parse schema
      = (schema.known sent ++ schema.others sent).map fun p => (.str p.1, p.2) := by
  unfold parse
  dsimp only
  rw [List.map_append]
  refine congr (congrArg _ ?_) ?_
  · rw [fieldsByName_eq hnames, List.filterMap_map, known, List.map_filterMap]
    refine congrArg (List.filterMap · schema.fields) (funext fun f => ?_)
    dsimp only [Function.comp_apply]
    rw [h.values?_eq, kept?]
    cases Pairs.get? sent (f.formName schema.config) with
    | none => rfl
    | some texts =>
        rw [Option.map_some, Option.bind_some, Option.bind_some, Field.readField?_eq]
        split <;> rfl
  · rw [h.entries_eq, others, List.filter_map, List.map_map, List.map_map]
    refine congrArg (List.map _) (List.filter_congr fun p _ => ?_)
    simp only [Function.comp_apply, ← isName_iff hnames, Bool.not_eq_true, Bool.decide_eq_false]

theorem keys_known : Pairs.keys (schema.known sent)
    = (schema.fields.filter fun f : Field =>
        (Pairs.get? sent (f.formName schema.config)).any fun texts => f.Keeps texts).map
      fun f => f.formName schema.config := by
  refine (Pairs.keys_filterMap (fun f : Field => f.formName schema.config) _ _).trans ?_
  refine congrArg (List.map _) (List.filter_congr fun f _ => ?_)
  unfold kept?
  cases Pairs.get? sent (f.formName schema.config) with
  | none => rfl
  | some texts =>
      rw [Option.bind_some, Option.any_some]
      split <;> simp [*]

theorem keys_others : Pairs.keys (schema.others sent)
    = (Pairs.keys sent).filter fun name => name ∉ schema.formNames := by
  unfold others Pairs.keys
  rw [List.map_map, List.filter_map]
  rfl

theorem parts_known_others (hnames : schema.NamesApart) (hsent : (Pairs.keys sent).Nodup) :
    schema.Parts sent (schema.known sent) (schema.others sent) where
  distinct := by
    rw [Pairs.keys_append, List.nodup_append]
    refine ⟨Pairs.nodup_keys_filterMap hnames _, keys_others ▸ hsent.filter _, ?_⟩
    intro a ha b hb heq
    have hfield : a ∈ schema.formNames := by
      rw [keys_known] at ha
      exact List.map_subset _ List.filter_sublist.subset ha
    rw [keys_others, List.mem_filter, decide_eq_true_eq] at hb
    exact hb.2 (heq ▸ hfield)
  keys_known := keys_known
  keys_others := keys_others
  get?_known := by
    intro f hf texts hsent hkeeps
    rw [known, Pairs.get?_filterMap hnames _ hf, kept?, hsent, Option.bind_some, if_pos hkeeps]
  get?_others := by
    intro name texts hname hsent
    have hget := Pairs.get?_mapValues (fun texts : List String => unwrap (texts.map .str))
      (sent.filter fun p => p.1 ∉ schema.formNames) name
    rw [Pairs.get?_filter (fun name => decide (name ∉ schema.formNames)) (decide_eq_true hname),
      hsent] at hget
    exact hget

/-- Reading a submission parts its names into those of the fields and all others, and each keeps its
own texts; and it reads the same however the texts are handed in. -/
theorem parse_parts (hnames : schema.NamesApart) (hsent : (Pairs.keys sent).Nodup) :
    ∃ known others, schema.Parts sent known others ∧
      ∀ s : Submission, s.Gives sent →
        s.parse schema = (known ++ others).map fun p => (.str p.1, p.2) :=
  ⟨_, _, parts_known_others hnames hsent, fun _ h => parse_eq hnames h⟩

/-- A cart: its number under an alias, a note, whether it is a gift, tags and a code. -/
def cart : Schema where
  name := "Cart"
  fields := [
    { name := "number", type := .int, knownAs := some "no" },
    { name := "note", type := .str, default := some (.str "") },
    { name := "gift", type := .optional .bool, default := some .null },
    { name := "tags", type := .many .list .int },
    { name := "code", type := .str }]

/-- What is sent for a cart, with a field's own name and a button among it. -/
def sentCart : List (String × List String) :=
  [("number", ["1", "2"]), ("code", [""]), ("go", []), ("tags", [" 1_0", "x"]), ("gift", [""]),
    ("note", [""]), ("no", ["+07"]), ("save", [""])]

/-- A lone empty text is left out of the note alone: it unsets the flag, it is all that is known of
the code, which has to be given, and no field reads it from the button.  And one-element lists may
be sent as their texts. -/
theorem cart_parsed :
    (Submission.multi (sentCart.map fun p => (p.1, p.2.map .str))).parse cart =
        [(.str "no", .int 7), (.str "gift", .bool false), (.str "tags", .list [.int 10, .str "x"]),
          (.str "code", .str ""), (.str "number", .list [.str "1", .str "2"]), (.str "go", .list []),
          (.str "save", .str "")] ∧
      (Submission.single (sentCart.map fun p => (.str p.1, unwrap (p.2.map .str)))).parse cart
        = (Submission.multi (sentCart.map fun p => (p.1, p.2.map .str))).parse cart := by
  have hnames : cart.NamesApart := show List.Nodup _ by decide
  have hsent : (Pairs.keys sentCart).Nodup := by decide
  obtain ⟨known, others, _, hparse⟩ := parse_parts hnames hsent
  refine ⟨by decide +kernel, ?_⟩
  rw [hparse _ .multi, hparse _ (gives_of_forall Value.gives_unwrap sentCart)]

end Schema

end WebForm
