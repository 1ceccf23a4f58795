/-
Instances of a schema as values of its form.

A handler often has an instance of the schema, made by validation, and gives it to the form:
to check it, or to show it.  `instance_usable` says when the form takes it.  The first half is
that an instance of a steady schema is accepted as an object, strictly checked, without an
error,

    form.act (.checkObject c.value heading) = (form, valid report on c.value)

and that the form is as it was.  The second half is that the form shows the instance as it
shows the mapping of its fields' values under their names in the form, provided that the
fields are written under these names.

An instance is written out by the names under which its fields go, and then it is checked as a
mapping that is read.  So it is accepted where fields are read under the names by which they
are written, and it fills the form where those are the form's names; an alias for reading or
for writing alone breaks one or the other (`instance_refused`).  To be steady is a condition
on the types of the schema that can be evaluated: whatever a check in any setting passes, the
strict check passes again as it is written out.  `Suits` asks of what the instance was made
from that no record in it came ready, of a shape that a check cannot have made.

Both conditions are about the schema and what it was given, not about the instance.
-/
import WebForm.Form
import WebForm.Proofs.Rechecking.Type
import WebForm.Proofs.Supply

namespace WebForm

open Outcome

namespace Schema

/-- Every field is written under its name in the form, and no two names are alike. -/
def isWrittenAsShown (schema : Schema) : Bool :=
  schema.fields.all (fun f => f.writeName schema.config == f.formName schema.config)
    && decide schema.writeNames.Nodup

variable {schema : Schema} {entries : List (Value × Value)} {c : Checked}

theorem dumpedEntries?_of_check (h : schema.check none (.map entries) = .ok c) :
    c.value.dumpedEntries? = some ((schema.dumpedPairs entries).map fun p => (.str p.1, p.2)) := by
  have hdump := dump_of_check h
  rw [(of_check_eq_ok h).2.2] at hdump ⊢
  unfold Value.dumpedEntries?
  dsimp only
  rw [hdump]
  rfl

/-- An instance of a steady schema is accepted as one. -/
theorem reportObject_of_check (hsteady : (Ty.record schema).isSteady = true)
    (hsuits : (Ty.record schema).Suits (.map entries))
    (h : schema.check none (.map entries) = .ok c) :
    schema.reportObject c.value = .ok { data := c.value } := by
  obtain ⟨hnames, hfields⟩ : schema.isWrittenAsRead = true ∧ Ty.fieldsSteady schema.fields = true :=
    Bool.and_eq_true_iff.mp hsteady
  have hsuits : ∀ f ∈ schema.fields, Field.SuitsIn schema.config f.type.Suits entries f := by
    rw [Ty.suits_record] at hsuits
    exact hsuits
  obtain ⟨r, hr⟩ := check_again hnames h (Ty.fields_settle hfields schema.config) hsuits
  rw [dump_of_check h, Value.ofPairs] at hr
  have hentries : objectEntries? c.value
      = some ((schema.dumpedPairs entries).map fun p => (.str p.1, p.2)) := by
    rw [← dumpedEntries?_of_check h, (of_check_eq_ok h).2.2]
    rfl
  unfold reportObject
  rw [hentries]
  dsimp only
  rw [hr]
  rfl

end Schema

namespace Form

variable {form : Form} {entries : List (Value × Value)} {c : Checked}

theorem html_congr {v w : Value} {shown : List (Value × Value)} (hv : v.dumpedEntries? = some shown)
    (hw : w.dumpedEntries? = some shown) (lang : Option String) :
    form.html v lang = form.html w lang := by
  have supplied : ∀ {v : Value}, v.dumpedEntries? = some shown →
      Supplied.ofValue v = (Supplied.given shown).map Supplied.ofPairs := by
    intro v hv
    unfold Supplied.ofValue
    split
    · cases hv
    · rw [hv]
  unfold html pieces
  rw [supplied hv, supplied hw]

/-- An instance of a steady schema is accepted without an error; and where the fields are written
under their names in the form, the form shows the instance as it shows the values of its fields
under these names. -/
theorem instance_usable (h : form.schema.check none (.map entries) = .ok c) :
    ((Ty.record form.schema).isSteady = true → (Ty.record form.schema).Suits (.map entries) →
      ∀ heading, form.act (.checkObject c.value heading)
        = (form, .ok (.report { data := c.value, errors := [], details := [], valid := true }))) ∧
    (form.schema.isWrittenAsShown = true → form.schema.config.extras ≠ .allow →
      ∃ values : Field → Value,
        c.value = .record form.schema.name
          (form.schema.fields.map fun f => f.formName form.schema.config)
          (form.schema.fields.map fun f => (f.name, values f)) ∧
        ∀ lang, form.html c.value lang
          = form.html (.ofPairs (form.schema.fields.map fun f =>
              (f.formName form.schema.config, (values f).dump))) lang) := by
  refine ⟨fun hsteady hsuits heading => ?_, fun hshown hextras => ?_⟩
  · unfold act showOutcome
    dsimp only
    rw [Schema.reportObject_of_check hsteady hsuits h]
    rfl
  · obtain ⟨hagree, hnodup⟩ := Bool.and_eq_true_iff.mp hshown
    have hnodup := of_decide_eq_true hnodup
    have hkept := Schema.kept_eq_nil h hextras
    have names : ∀ values : Field → Value,
        form.schema.fields.map (fun f => (f.writeName form.schema.config, values f))
          = form.schema.fields.map fun f => (f.formName form.schema.config, values f) := by
      intro values
      refine List.map_congr_left fun f hf => ?_
      rw [eq_of_beq (List.all_eq_true.mp hagree f hf)]
    have written : form.schema.fields.map (fun f => f.writeName form.schema.config)
        = form.schema.fields.map fun f => f.formName form.schema.config :=
      List.map_congr_left fun f hf => eq_of_beq (List.all_eq_true.mp hagree f hf)
    refine ⟨form.schema.taken entries, ?_, fun lang => ?_⟩
    · rw [(Schema.of_check_eq_ok h).2.2, hkept, List.map_nil, List.map_nil, List.append_nil,
        List.append_nil, written]
    · have hentries := Schema.dumpedEntries?_of_check h
      rw [Schema.dumpedPairs_of_kept_eq_nil hnodup hkept, names] at hentries
      exact html_congr hentries rfl lang

/-- A profile with aliases made by a rule, one of its own for the user, texts that are stripped, a
set, and a place that is a record itself. -/
def profile : Form :=
  .make
    { name := "Profile"
      fields := [
        { name := "user_name", type := .str, limits := { minLength := some 3 }, knownAs := some "login" },
        { name := "birth_day", type := .optional .date },
        { name := "tags", type := .many .set .str },
        { name := "home", type := .record {
            name := "Place"
            fields := [{ name := "zip_code", type := .int, readAs := some "zip" }]
            config := { byName := true } } }]
      config := { extras := .forbid, strip := true, aliasing := some .camel } }
    {} none defaultComponentElement

/-- What a profile is made of. -/
def profileEntries : List (Value × Value) :=
  [(.str "login", .str " ada "), (.str "birthDay", .str "2001-02-03"),
    (.str "tags", .list [.str "a", .str "b ", .str "a"]),
    (.str "home", .map [(.str "zip", .str "8001")])]

theorem profile_usable : ∃ c, profile.schema.check none (.map profileEntries) = .ok c ∧
    profile.act (.checkObject c.value none)
      = (profile, .ok (.report { data := c.value, errors := [], details := [], valid := true })) ∧
    c.value.dump = .ofPairs [("login", .str "ada"), ("birthDay", .date ⟨2001, 2, 3⟩),
      ("tags", .set [.str "a", .str "b"]), ("home", .map [(.str "zip_code", .int 8001)])] ∧
    ∃ values : Field → Value, ∀ lang, profile.html c.value lang
      = profile.html (.ofPairs (profile.schema.fields.map fun f =>
          (f.formName profile.schema.config, (values f).dump))) lang := by
  have passed : (profile.schema.check none (.map profileEntries)).toOption.map (·.value.dump)
      = some (.ofPairs [("login", .str "ada"), ("birthDay", .date ⟨2001, 2, 3⟩),
          ("tags", .set [.str "a", .str "b"]), ("home", .map [(.str "zip_code", .int 8001)])]) := by
    decide +kernel
  obtain ⟨c, hc, hdump⟩ := exists_of_map_toOption passed
  have steady : (Ty.record profile.schema).isSteady = true := by
    decide +kernel
  have suits : (Ty.record profile.schema).Suits (.map profileEntries) := by
    rw [Ty.suits_record]
    show ∀ f ∈ profile.schema.fields, _
    refine List.forall_mem_cons.mpr ⟨?_, List.forall_mem_cons.mpr ⟨?_, List.forall_mem_cons.mpr
      ⟨?_, List.forall_mem_singleton.mpr ?_⟩⟩⟩
    · exact Field.suitsIn_of_given (v := .str " ada ") (by decide +kernel) trivial
    · exact Field.suitsIn_of_given (v := .str "2001-02-03") (by decide +kernel) trivial
    · refine Field.suitsIn_of_given (v := .list [.str "a", .str "b ", .str "a"]) (by decide +kernel) ?_
      exact fun _ _ _ _ => trivial
    · refine Field.suitsIn_of_given (v := .map [(.str "zip", .str "8001")]) (by decide +kernel) ?_
      exact ⟨Field.suitsIn_of_given (v := .str "8001") (by decide +kernel) rfl, trivial⟩
  obtain ⟨values, _, hhtml⟩ := (instance_usable hc).2 (by decide +kernel) (by decide)
  exact ⟨c, hc, (instance_usable hc).1 steady suits none, hdump, values, hhtml⟩

/-- A field that is written under a name of its own: its instance is refused, as the field is looked
for under its name in the form, and for that name the instance gives no value to show. -/
def renamedOutput : Form :=
  .make { name := "M", fields := [{ name := "a", type := .str, writeAs := some "z" }] }
    {} none defaultComponentElement

/-- The instance of a field with a name for writing alone is refused, and the form shows nothing
for it. -/
theorem instance_refused :
    (renamedOutput.schema.fields.map fun f => f.formName renamedOutput.schema.config) = ["a"] ∧
    (renamedOutput.schema.check none (.map [(.str "a", .str "x")])).toOption.map (fun c =>
        ((renamedOutput.schema.reportObject c.value).toOption.map fun r => (r.valid, r.errors),
          Supplied.valueFor? c.value "a"))
      = some (some (false, ["a: Field required"]), none) := by
  decide +kernel

end Form

end WebForm
