/-
Editing an instance in a form.

An instance of a schema is shown on a page, and the page is sent back without being changed.
What the form reads then is compared with the instance, field by field, in `edit_round_trip`:

    Field.Writes f (values f) → the field reads Field.readBack f (values f)
    all fields are written    → the report is valid, and no error is left in the form
    values f is an option     → the field reads it back ↔ its text is its printed name

`Field.readBack` is the value itself, but for an empty text where one need not be given and
for an unmarked box.  The last line is about options of a clear enumeration, and it is the
only kind of value that is both shown and lost: an option is shown by its name, and looked up
by its value.

An instance is shown by what it is written out as.  A field therefore has three names that
matter, the one that it is written under, the one that its element has and the one that it is
looked for first in a submission, and `Editable` asks that they agree.  If a field is written
under another name than its element has, the page shows it empty; if it is looked for under
another name, nothing is found.  Beyond that the form can be sent again as it is
(`Redisplayable`) and every field offers one of the basic types.

The instance is what the schema's check gives, for some entries.  A default that was filled in
without a check need not be a value of its field, and so the fields that were not given must
have defaults which their checks give.  What an instance keeps besides its fields is written
out as well; it stays out of the way if no key in it turns into the name of a field that holds
nothing.

The module ends with a form for which all of this holds, and one in which each assumption
fails for some field.
-/
import WebForm.Proofs.Conserving
import WebForm.Proofs.Editing.Field
import WebForm.Proofs.Instance

namespace WebForm

open WebForm.Text Outcome

/-! ## What a field holds of a submission

Where a field is reported on, named and held under one name, what it reads from what it holds
is what comes of it in the report.  This goes in both directions, since an option that is not
read back must not come from elsewhere. -/

namespace Schema

variable {schema : Schema} {s : Submission} {f : Field} {v : Value}

/-- Under no name but that in the form a submission gives the field anything. -/
def GivesOnlyAtFormName (schema : Schema) (s : Submission) (f : Field) : Prop :=
  ∀ name ∈ f.readNames schema.config, s.values? name ≠ none → name = f.formName schema.config

theorem givenAt?_of_held (hnames : schema.NamesApart) (hf : f ∈ schema.fields)
    (hread : f.reportedName schema.config = f.formName schema.config) {x : Value}
    (hheld : schema.held? s f = some x) :
    schema.givenAt? s f = some (f.formName schema.config) := by
  have hentry := valueAt?_formName (s := s) hnames hf
  rw [hheld, ← hread] at hentry
  rw [← hread]
  exact Check.FieldCheck.givenName?_of_present (f := f.fieldCheck (some false) schema.config) hentry

theorem givenAt?_of_not_held (hnames : schema.NamesApart) (hf : f ∈ schema.fields)
    (honly : schema.GivesOnlyAtFormName s f) (hheld : schema.held? s f = none) :
    schema.givenAt? s f = none := by
  unfold givenAt? Check.FieldCheck.givenName?
  rw [List.find?_eq_none]
  intro name hname
  have habsent : Value.valueAt? (schema.sentEntries s) name = none := by
    by_cases hsent : s.values? name = none
    · exact valueAt?_of_not_sent hsent
    · rw [honly name hname hsent, valueAt?_formName hnames hf, hheld]
  rw [habsent]
  decide

/-- What the field reads from what it holds comes of it in the submission. -/
theorem outcomeOf_of_reads (hnames : schema.NamesApart) (hf : f ∈ schema.fields)
    (hread : f.reportedName schema.config = f.formName schema.config)
    (honly : schema.GivesOnlyAtFormName s f)
    (h : f.Reads schema.config (schema.held? s f) v) :
    ∃ p, schema.outcomeOf s f = .ok p ∧ p.value = v := by
  cases hheld : schema.held? s f with
  | some x =>
      rw [hheld] at h
      obtain ⟨p, hp, hvalue⟩ := h
      rw [outcomeOf_eq hnames hf hread hheld, hp]
      exact ⟨p, rfl, hvalue⟩
  | none =>
      rw [hheld] at h
      have hgiven : (f.fieldCheck (some false) schema.config).givenName? schema.config
          (schema.sentEntries s) = none := givenAt?_of_not_held hnames hf honly hheld
      have hdefault : (f.fieldCheck (some false) schema.config).traits.default = some v := h
      refine ⟨{ value := v }, ?_, rfl⟩
      unfold outcomeOf Check.FieldCheck.outcome
      rw [hgiven, hdefault]
      rfl

theorem reads_of_outcomeOf (hnames : schema.NamesApart) (hf : f ∈ schema.fields)
    (hread : f.reportedName schema.config = f.formName schema.config)
    (hheld : schema.held? s f ≠ none) {p : Checked} (hp : schema.outcomeOf s f = .ok p) :
    f.Reads schema.config (schema.held? s f) p.value := by
  obtain ⟨x, hx⟩ := Option.ne_none_iff_exists'.mp hheld
  rw [outcomeOf_eq hnames hf hread hx, under_eq_ok_iff] at hp
  rw [hx]
  exact ⟨p, hp, rfl⟩

theorem check_of_outcomes (hnames : schema.NamesApart) (hcovers : schema.Covers s)
    (hread : ∀ f ∈ schema.fields, f.reportedName schema.config = f.formName schema.config)
    (h : ∀ f ∈ schema.fields, ∃ p, schema.outcomeOf s f = .ok p) :
    ∃ r, schema.check (some false) (.map (schema.sentEntries s)) = .ok r := by
  rw [check_map]
  refine Check.exists_runEntries fun o ho => ?_
  rcases List.mem_append.mp ho with ho | ho
  · rw [List.map_map] at ho
    obtain ⟨f, hf, rfl⟩ := List.mem_map.mp ho
    exact h f hf
  · obtain ⟨e, he, rfl⟩ := List.mem_map.mp ho
    have hextra := Check.mem_extraEntries_of_mem_keptEntries he
    have hentries : schema.sentEntries s = (schema.heldPairs s).map fun p => (.str p.1, p.2) :=
      Value.map.inj (sentEntries_eq hnames hcovers)
    have hmem : e ∈ schema.sentEntries s := (List.mem_filter.mp hextra).1
    rw [hentries] at hmem
    obtain ⟨p, hp, rfl⟩ := List.mem_map.mp hmem
    obtain ⟨g, hg, hheld⟩ := List.mem_filterMap.mp hp
    obtain ⟨x, hx, rfl⟩ := Option.map_eq_some_iff.mp hheld
    have hcheck : g.fieldCheck (some false) schema.config
        ∈ schema.fields.map (Field.fieldCheck (some false) schema.config) :=
      List.mem_map.mpr ⟨g, hg, rfl⟩
    exact absurd rfl (Check.asText?_ne_of_givenName? hcheck
      (givenAt?_of_held hnames hg (hread g hg) hx) hextra)

/-! ## Instances

What an instance holds for a field is a value that the field's check gave, and is what the
page is given for the element of the field. -/

variable {entries : List (Value × Value)} {c : Checked}

theorem values_of_record {name : String} {written : List String} {values : Field → Value}
    {others : List (String × Value)} (h : schema.check none (.map entries) = .ok c)
    (hvalue : c.value = .record name written
      (schema.fields.map (fun f => (f.name, values f)) ++ others)) :
    (∀ f ∈ schema.fields, values f = schema.taken entries f) ∧
      others = (schema.kept entries).map fun e => (keyText e, e.2) := by
  rw [(of_check_eq_ok h).2.2] at hvalue
  injection hvalue with _ _ hfields
  obtain ⟨htaken, hkept⟩ := List.append_inj hfields (by simp)
  refine ⟨fun f hf => ?_, hkept.symm⟩
  exact (Prod.mk.inj (List.map_inj_left.mp htaken f hf)).2.symm

theorem gives_taken (h : schema.check none (.map entries) = .ok c) (hf : f ∈ schema.fields)
    (hdefault : f.given? schema.config entries = none →
      ∀ d, f.default = some d → f.Gives schema.config d) :
    f.Gives schema.config (schema.taken entries f) := by
  obtain ⟨p, hp, hvalue⟩ := (of_check_eq_ok h).1 f hf
  rw [← hvalue]
  rcases Field.of_outcome_eq_ok hp with ⟨w, _, hw⟩ | ⟨hnone, d, hd, heq⟩
  · exact ⟨w, p, hw, rfl⟩
  · rw [heq]
    exact hdefault hnone d hd

/-- The form of an instance shows the value of a field, and nothing for nothing, where no other value
goes under the field's name in small letters. -/
theorem valueFor?_instance (h : schema.check none (.map entries) = .ok c)
    (hwritten : ∀ f ∈ schema.fields, f.writeName schema.config = f.formName schema.config)
    (hread : ∀ f ∈ schema.fields, f.reportedName schema.config = f.formName schema.config)
    (hnames : schema.NamesApart) (hf : f ∈ schema.fields)
    (hfields : ∀ g ∈ schema.fields,
      lower (g.formName schema.config) = f.formName schema.config → g = f)
    (hkept : schema.taken entries f = .null → ∀ e ∈ schema.kept entries,
      lower (keyText e) = f.formName schema.config → e.2 = .null)
    (hdump : (schema.taken entries f).dump = schema.taken entries f) :
    Supplied.valueFor? c.value (f.formName schema.config)
      = if schema.taken entries f = .null then none else some (schema.taken entries f) := by
  have hwrites : schema.writeNames = schema.fields.map fun f => f.formName schema.config :=
    List.map_congr_left hwritten
  have hget : Pairs.get? (schema.dumpedPairs entries) (f.formName schema.config)
      = some (schema.taken entries f) := by
    rw [← hdump, ← hwritten f hf]
    refine get?_dumpedPairs_of_kept (by rw [hwrites]; exact hnames) hf fun e he heq => ?_
    exact keyText_ne_of_mem_kept h he hf (heq.trans ((hwritten f hf).trans (hread f hf).symm))
  have hnone : (Pairs.keys ([] : List (String × Value))).Nodup := List.nodup_nil
  have hkeys : (Pairs.keys (schema.dumpedPairs entries)).Nodup := Pairs.nodup_keys_setAll hnone _
  refine Supplied.valueFor?_of_dumped (dumpedEntries?_of_check h) hkeys
    (Pairs.mem_of_get?_eq_some hget) fun hnull q hq hlower => ?_
  dsimp only at hnull hlower
  rcases Pairs.mem_of_mem_setAll hq with hnil | hmore
  · exact absurd hnil List.not_mem_nil
  · rcases List.mem_append.mp hmore with hq | hq
    · obtain ⟨g, hg, rfl⟩ := List.mem_map.mp hq
      dsimp only at hlower ⊢
      rw [hwritten g hg] at hlower
      rw [hfields g hg hlower, hdump, hnull]
    · obtain ⟨e, he, rfl⟩ := List.mem_map.mp hq
      dsimp only at hlower ⊢
      rw [hkept hnull e he hlower]
      rfl

end Schema

/-! ## Pages of instances

An element shows the value of its field, and sends the text of it; what the field holds of
that is read by the results on single fields. -/

namespace Form

/-- The form can be sent again, and its fields offer basic types.  Each field is written, shown and
read first under one name, under which no other field is read. -/
structure Editable (form : Form) (lang : Option String) : Prop extends form.Redisplayable lang where
  typed : ∀ f ∈ form.schema.fields, ∃ basic : Ty, basic.isBasic = true ∧ basic.Offers f.type
  written : ∀ f ∈ form.schema.fields,
    f.writeName form.schema.config = f.formName form.schema.config
  read : ∀ f ∈ form.schema.fields,
    f.reportedName form.schema.config = f.formName form.schema.config
  own : ∀ f ∈ form.schema.fields, ∀ g ∈ form.schema.fields,
    g.formName form.schema.config ∈ f.readNames form.schema.config →
      g.formName form.schema.config = f.formName form.schema.config

variable {form : Form} {lang : Option String} {f : Field} {v : Value}

theorem Editable.offers_of_scalar_eq (hform : form.Editable lang) (hf : f ∈ form.schema.fields)
    {basic : Ty} (hscalar : f.type.kind.scalar = basic) : basic.Offers f.type := by
  obtain ⟨_, hbasic, hoffers⟩ := hform.typed f hf
  rwa [← hscalar, hoffers.scalar_eq hbasic]

theorem Builds.isCheckbox_eq_false {e : Element} (h : form.Builds lang f e)
    (hform : form.Redisplayable lang) (hf : f ∈ form.schema.fields)
    (hscalar : f.type.kind.scalar ≠ .bool) : e.isCheckbox = false := by
  cases hbox : e.isCheckbox with
  | false => rfl
  | true => exact absurd (congrArg Kind.scalar (hform.flag f hf e h hbox).kind_eq) hscalar

theorem Builds.resent_text {e : Element} (h : form.Builds lang f e)
    (hform : form.Redisplayable lang) (hf : f ∈ form.schema.fields) {values : Value}
    {supplied : Supplied} (hsupplied : Supplied.ofValue values = .ok supplied)
    (hbox : e.isCheckbox = false) :
    e.resent supplied
      = [.str (((Supplied.valueFor? values e.name).map Value.attributeText).getD "")] := by
  have hplain := h.isPlain hform hf
  rw [hbox] at hplain
  rw [Element.resent, if_neg (by rw [hbox]; exact Bool.false_ne_true),
    hplain.shownText_eq (h.name_ne_empty hform hf) hsupplied]

/-- A field reads its value back of an element that shows the value. -/
theorem Builds.reads_resent {e : Element} (h : form.Builds lang f e) (hform : form.Editable lang)
    (hf : f ∈ form.schema.fields) {values : Value} {supplied : Supplied}
    (hsupplied : Supplied.ofValue values = .ok supplied)
    (hvalue : Supplied.valueFor? values e.name = if v = .null then none else some v)
    (hv : f.Writes form.schema.config v) (hgives : f.Gives form.schema.config v) :
    f.Reads form.schema.config (f.holds? (.list (e.resent supplied))) (f.readBack v) := by
  have hplain := h.isPlain hform.toRedisplayable hf
  have hname := h.name_ne_empty hform.toRedisplayable hf
  cases hbox : e.isCheckbox with
  | true =>
      rw [hbox] at hplain
      have hflags := h.checked_not_mem_flags hform.toRedisplayable hf
      have hflag := hform.flag f hf e h hbox
      have hscalar : f.type.kind.scalar = .bool := congrArg Kind.scalar hflag.kind_eq
      rcases hv with hv | ⟨rfl, _, hunset⟩
      · rw [hscalar] at hv
        cases hv with
        | flag b =>
            rw [if_neg (Ty.Writes.flag b).ne_null] at hvalue
            rw [hplain.resent_box hname hbox hflags hsupplied hvalue, Field.readBack_flag]
            exact Field.reads_box hflag hgives
      · rw [if_pos rfl] at hvalue
        rw [hplain.resent_box_of_none hname hbox hflags hsupplied hvalue, Field.readBack_null,
          hscalar]
        exact Field.reads_box hflag (hunset hscalar)
  | false =>
      obtain ⟨basic, hbasic, hoffers⟩ := hform.typed f hf
      have hscalar := hoffers.scalar_eq hbasic
      rw [h.resent_text hform.toRedisplayable hf hsupplied hbox, hvalue]
      rcases hv with hv | ⟨rfl, hdefault, hunset⟩
      · rw [hscalar] at hv
        rw [if_neg hv.ne_null]
        exact Field.reads_text hoffers hv hgives
      · rw [if_pos rfl]
        exact Field.reads_empty hoffers hbasic hdefault hunset

/-- A field of options holds something of an element that shows an option, and reads the option from
it exactly if the option stands for the text by which it is shown. -/
theorem Builds.reads_resent_option {b : Element} (h : form.Builds lang f b)
    (hform : form.Editable lang) (hf : f ∈ form.schema.fields) {values : Value}
    {supplied : Supplied} (hsupplied : Supplied.ofValue values = .ok supplied)
    (hvalue : Supplied.valueFor? values b.name = if v = .null then none else some v)
    {e : Enumeration} (hscalar : f.type.kind.scalar = .enumeration e) (he : e.IsClear)
    {name t : String} {place : Nat} (hv : v = .option e.name e.kind name (.str t) place)
    (hoption : e.option? name = some v) (hgives : f.Gives form.schema.config v) :
    f.holds? (.list (b.resent supplied)) ≠ none ∧
      (f.Reads form.schema.config (f.holds? (.list (b.resent supplied))) v
        ↔ t = e.name ++ "." ++ name) := by
  have hoffers := hform.offers_of_scalar_eq hf hscalar
  have hbox := h.isCheckbox_eq_false hform.toRedisplayable hf (by rw [hscalar]; nofun)
  have hnull : v ≠ .null := by
    rw [hv]
    rintro ⟨⟩
  have htext : v.attributeText ≠ "" := by
    rw [hv]
    exact Value.attributeText_option_ne_empty _ _ _ _ _
  -- the element sends the text of the option, and the field holds that text as it is sent
  have hresent : b.resent supplied = [.str v.attributeText] := by
    rw [h.resent_text hform.toRedisplayable hf hsupplied hbox, hvalue, if_neg hnull, Option.map_some,
      Option.getD_some]
  rw [hresent]
  refine ⟨?_, Field.reads_option_iff hoffers he hv hoption hgives⟩
  rw [Field.holds?_option hoffers htext]
  exact Option.some_ne_none _

theorem givesOnlyAtFormName_resent (hform : form.Editable lang) {elements : List Element}
    (helements : form.elements lang = .ok elements) (hf : f ∈ form.schema.fields)
    (supplied : Supplied) :
    form.schema.GivesOnlyAtFormName (.multi (Markup.resent elements supplied)) f := by
  intro name hname hsent
  rw [Submission.values?_multi] at hsent
  obtain ⟨vs, hvs⟩ := Option.ne_none_iff_exists'.mp hsent
  obtain ⟨e, he, heq⟩ := List.mem_map.mp (Pairs.mem_of_get?_eq_some hvs)
  have hkey : name ∈ elements.map fun e => e.sentName supplied :=
    List.mem_map.mpr ⟨e, he, congrArg Prod.fst heq⟩
  rw [map_sentName hform.toRedisplayable helements] at hkey
  obtain ⟨g, hg, rfl⟩ := List.mem_map.mp hkey
  exact hform.own f hf g hg hname

theorem resubmission_eq_ok {values : Value} {fields : List (String × List Value)}
    (h : form.resubmission values lang = .ok fields) :
    ∃ elements supplied, form.elements lang = .ok elements ∧
      Supplied.ofValue values = .ok supplied ∧ fields = Markup.resent elements supplied := by
  obtain ⟨⟨elements, supplied⟩, hshown, rfl⟩ := Outcome.exists_of_map_eq_ok h
  refine ⟨elements, supplied, ?_⟩
  unfold shown at hshown
  split at hshown
  · cases hshown
  · rename_i _ helements
    split at hshown
    · cases hshown
    · rename_i _ hsupplied
      cases hshown
      exact ⟨helements, hsupplied, rfl⟩

theorem Editable.exists_builds (hform : form.Editable lang) {entries : List (Value × Value)}
    {c : Checked} (h : form.schema.check none (.map entries) = .ok c) {elements : List Element}
    (helements : form.elements lang = .ok elements) (hf : f ∈ form.schema.fields)
    (hv : v = form.schema.taken entries f)
    (hkept : v = .null → ∀ e ∈ form.schema.kept entries,
      lower (Schema.keyText e) = f.formName form.schema.config → e.2 = .null)
    (hdump : v.dump = v) :
    ∃ e, form.Builds lang f e ∧
      Supplied.valueFor? c.value e.name = (if v = .null then none else some v) ∧
      ∀ supplied, form.schema.held? (.multi (Markup.resent elements supplied)) f
        = Field.holds? f (.list (e.resent supplied)) := by
  obtain ⟨e, he, hbuilds⟩ := Element.exists_mem_of_forall₂ (forall₂_builds helements) hf
  refine ⟨e, hbuilds, ?_, fun supplied => held?_multi hform.toRedisplayable helements supplied hf he hbuilds⟩
  subst hv
  rw [hbuilds.name_eq]
  exact Schema.valueFor?_instance h hform.written hform.read hform.namesApart hf
    (fun g hg => hform.eq_of_lower_eq hf hg) hkept hdump

/-- Let the page of an instance be sent again as it is.  Each field whose value is written reads it
back, up to what an empty text and an unmarked box stand for; and if all values are written, the
form accepts what is sent.  A field that holds an option with a text for its value reads it back exactly
if this text is the name of the option, as it is shown. -/
theorem edit_round_trip {entries : List (Value × Value)} {c : Checked} {written : List String}
    {values : Field → Value} {others : List (String × Value)} {fields : List (String × List Value)}
    (hform : form.Editable lang) (h : form.schema.check none (.map entries) = .ok c)
    (hdefaults : ∀ f ∈ form.schema.fields, Field.given? form.schema.config entries f = none →
      ∀ d, f.default = some d → Field.Gives form.schema.config f d)
    (hvalues : c.value = .record form.schema.name written
      (form.schema.fields.map (fun f => (f.name, values f)) ++ others))
    (hothers : ∀ f ∈ form.schema.fields, values f = .null → ∀ p ∈ others,
      lower p.1 = f.formName form.schema.config → p.2 = .null)
    (hsent : form.resubmission c.value lang = .ok fields) :
    (∀ f ∈ form.schema.fields, Field.Writes form.schema.config f (values f) →
      ∃ p, form.schema.outcomeOf (.multi fields) f = .ok p ∧
        p.value = Field.readBack f (values f)) ∧
    ((∀ f ∈ form.schema.fields, Field.Writes form.schema.config f (values f)) → ∀ heading,
      form.act (.submit (.fields fields) heading)
        = (form, .ok (.report
            { data := .map (form.schema.sentEntries (.multi fields)), errors := [], details := [],
              valid := true }))) ∧
    ∀ f ∈ form.schema.fields, ∀ (e : Enumeration) (name text : String) (place : Nat),
      f.type.kind.scalar = .enumeration e → e.IsClear →
      values f = .option e.name e.kind name (.str text) place → e.option? name = some (values f) →
        ((∃ p, form.schema.outcomeOf (.multi fields) f = .ok p ∧ p.value = values f)
          ↔ text = e.name ++ "." ++ name) := by
  obtain ⟨htaken, rfl⟩ := Schema.values_of_record h hvalues
  have hnames := hform.namesApart
  obtain ⟨elements, supplied, helements, hsupplied, rfl⟩ := resubmission_eq_ok hsent
  have shown : ∀ f ∈ form.schema.fields, (values f).dump = values f →
      ∃ e, form.Builds lang f e ∧
        Supplied.valueFor? c.value e.name = (if values f = .null then none else some (values f)) ∧
        ∀ supplied, form.schema.held? (.multi (Markup.resent elements supplied)) f
          = Field.holds? f (.list (e.resent supplied)) :=
    fun f hf hdump => hform.exists_builds h helements hf (htaken f hf)
      (fun hnull e he => hothers f hf hnull _ (List.mem_map.mpr ⟨e, he, rfl⟩)) hdump
  have gives : ∀ f ∈ form.schema.fields, Field.Gives form.schema.config f (values f) := by
    intro f hf
    rw [htaken f hf]
    exact Schema.gives_taken h hf (hdefaults f hf)
  have back : ∀ f ∈ form.schema.fields, ∀ v,
      Field.Reads form.schema.config f (form.schema.held? (.multi (Markup.resent elements supplied)) f) v →
        ∃ p, form.schema.outcomeOf (.multi (Markup.resent elements supplied)) f = .ok p ∧ p.value = v :=
    fun f hf _ => Schema.outcomeOf_of_reads hnames hf (hform.read f hf)
      (givesOnlyAtFormName_resent hform helements hf supplied)
  have reads : ∀ f ∈ form.schema.fields, Field.Writes form.schema.config f (values f) →
      ∃ p, form.schema.outcomeOf (.multi (Markup.resent elements supplied)) f = .ok p ∧
        p.value = Field.readBack f (values f) := by
    intro f hf hv
    obtain ⟨e, hbuilds, hvalue, hheld⟩ := shown f hf hv.dump_eq
    refine back f hf _ ?_
    rw [hheld supplied]
    exact hbuilds.reads_resent hform hf hsupplied hvalue hv (gives f hf)
  refine ⟨reads, fun hall heading => ?_, fun f hf e name text place hscalar he hv hoption => ?_⟩
  · have hcovers := covers_resent hform.toRedisplayable helements supplied
    obtain ⟨r, hr⟩ := Schema.check_of_outcomes hnames hcovers hform.read fun f hf => by
      obtain ⟨p, hp, _⟩ := reads f hf (hall f hf)
      exact ⟨p, hp⟩
    show form.showOutcome (form.schema.reportForm _) heading = _
    rw [Schema.reportForm_eq, hr]
    rfl
  · obtain ⟨b, hbuilds, hvalue, hheld⟩ := shown f hf (by rw [hv]; rfl)
    obtain ⟨hholds, hreads⟩ :=
      hbuilds.reads_resent_option hform hf hsupplied hvalue hscalar he hv hoption (gives f hf)
    rw [← hheld supplied] at hholds hreads
    rw [← hreads]
    refine ⟨?_, back f hf _⟩
    rintro ⟨p, hp, hvalue⟩
    rw [← hvalue]
    exact Schema.reads_of_outcomeOf hnames hf (hform.read f hf) hholds hp

/-! ## A form that is edited -/

/-- The plans of a member: the value of one is what is shown for it. -/
def plan : Enumeration where
  name := "Plan"
  kind := .text
  members := [("FREE", .str "Plan.FREE"), ("PAID", .str "paid")]

theorem isClear_plan : plan.IsClear where
  kind := by decide
  names := by decide
  values := by
    simp only [plan, List.mem_cons, List.not_mem_nil, or_false, forall_eq_or_imp, forall_eq]
    exact ⟨nofun, nofun⟩

/-- A member with an alias for the name, an age within bounds, a plan, a day of birth, a word in a text
area and a box, where the last three can be left out. -/
def member : Form :=
  .make
    { name := "Member"
      fields := [
        { name := "name", type := .str, limits := { minLength := some 2 }, knownAs := some "login",
          declared := some [("element", .str "input"), ("inputType", .str "text")] },
        { name := "age", type := .limited .int { atLeast := some (.int (-9)) },
          declared := some [("element", .str "input"), ("inputType", .str "text")] },
        { name := "plan", type := .enumeration plan,
          declared := some [("element", .str "input"), ("inputType", .str "text")] },
        { name := "born", type := .optional .date, default := some .null,
          declared := some [("element", .str "input"), ("inputType", .str "text")] },
        { name := "bio", type := .choice .barred [.str, .none], default := some .null,
          declared := some [("element", .str "textarea"), ("inputType", .str "textarea")] },
        { name := "news", type := .optional .bool, default := some .null,
          declared := some [("element", .str "input"), ("inputType", .str "checkbox")] }]
      config := { extras := .forbid, strip := true, byName := true } }
    {} none defaultComponentElement

theorem editable_member : member.Editable none := by
  have shown : ∀ f ∈ member.schema.fields,
      ((Element.ofDefinition "" none (Definition.ofField member.schema.config f)).toOption.all
        fun e => (e.element == "input" || e.element == "textarea")
          && (!e.isCheckbox || f.type.kind.scalar == .bool)) = true := by
    decide +kernel
  have shows : ∀ f ∈ member.schema.fields, ∀ e, member.Builds none f e →
      (e.element = "input" ∨ e.element = "textarea") ∧
        (e.isCheckbox = true → f.type.kind.scalar = .bool) := by
    intro f hf e h
    have hshown := shown f hf
    have hbuilt : Element.ofDefinition "" none (Definition.ofField member.schema.config f) = .ok e := h
    rw [hbuilt] at hshown
    simp only [Except.toOption, Option.all_some, Bool.and_eq_true, Bool.or_eq_true, beq_iff_eq,
      Bool.not_eq_true'] at hshown
    refine ⟨hshown.1, fun hbox => hshown.2.resolve_left fun hno => ?_⟩
    rw [hbox] at hno
    cases hno
  have typed : ∀ f ∈ member.schema.fields, ∃ basic : Ty, basic.isBasic = true ∧
      basic.Offers f.type := by
    simp only [member, make, List.mem_cons, List.not_mem_nil, or_false, forall_eq_or_imp, forall_eq]
    exact ⟨⟨.str, rfl, .self⟩, ⟨.int, rfl, .limited .self⟩, ⟨.enumeration plan, rfl, .self⟩,
      ⟨.date, rfl, .optional .self⟩, ⟨.str, rfl, .orNone .self⟩, ⟨.bool, rfl, .optional .self⟩⟩
  exact
    { apart := by decide +kernel
      named := by decide +kernel
      single := by decide +kernel
      exact := fun f hf heq => by
        obtain ⟨basic, hbasic, hoffers⟩ := typed f hf
        rw [hoffers.scalar_eq hbasic] at heq
        rw [heq] at hbasic
        cases hbasic
      bare := by decide +kernel
      editable := fun f hf e h => (shows f hf e h).1
      flag := fun f hf e h hbox => by
        obtain ⟨basic, hbasic, hoffers⟩ := typed f hf
        have hscalar := (shows f hf e h).2 hbox
        rw [hoffers.scalar_eq hbasic] at hscalar
        rw [hscalar] at hoffers
        exact Ty.isFlag_iff_offers.mpr hoffers
      typed
      written := by decide +kernel
      read := by decide +kernel
      own := by decide +kernel }

/-- What a member is made of. -/
def memberEntries : List (Value × Value) :=
  [(.str "name", .str " Ada <b>"), (.str "age", .str "-7.0"), (.str "plan", .str "Plan.FREE"),
    (.str "born", .str "2001-02-03"), (.str "bio", .str " "), (.str "news", .str "t")]

/-- The values of the member. -/
def memberValues : List (String × Value) :=
  [("name", .str "Ada <b>"), ("age", .int (-7)),
    ("plan", .option "Plan" .text "FREE" (.str "Plan.FREE") 0), ("born", .date ⟨2001, 2, 3⟩),
    ("bio", .str ""), ("news", .bool true)]

/-- What the member's page sends. -/
def memberFields : List (String × List Value) :=
  [("login", [.str "Ada <b>"]), ("age", [.str "-7"]), ("plan", [.str "Plan.FREE"]),
    ("born", [.str "2001-02-03"]), ("bio", [.str ""]), ("news", [.str "off", .str "true"])]

theorem member_edited : ∃ c, member.schema.check none (.map memberEntries) = .ok c ∧
    member.resubmission c.value none = .ok memberFields ∧
    member.act (.submit (.fields memberFields) none)
      = (member, .ok (.report
          { data := .ofPairs [("login", .str "Ada <b>"), ("age", .int (-7)), ("plan", .str "Plan.FREE"),
              ("born", .str "2001-02-03"), ("news", .bool true)] })) ∧
    ∀ f ∈ member.schema.fields, ∃ p, member.schema.outcomeOf (.multi memberFields) f = .ok p ∧
      p.value = Field.readBack f ((Pairs.get? memberValues f.name).getD .null) := by
  have passed : (member.schema.check none (.map memberEntries)).toOption.map (·.value)
      = some (.record member.schema.name ["login", "age", "plan", "born", "bio", "news"]
          (member.schema.fields.map (fun f => (f.name, (Pairs.get? memberValues f.name).getD .null))
            ++ [])) := by
    decide +kernel
  obtain ⟨c, hc, hvalue⟩ := exists_of_map_toOption passed
  have sent : (member.resubmission c.value none).toOption.map (fun fields => fields)
      = some memberFields := by
    rw [hvalue]
    decide +kernel
  obtain ⟨_, hsent, rfl⟩ := exists_of_map_toOption sent
  have data : Value.map (member.schema.sentEntries (.multi memberFields))
      = .ofPairs [("login", .str "Ada <b>"), ("age", .int (-7)), ("plan", .str "Plan.FREE"),
          ("born", .str "2001-02-03"), ("news", .bool true)] := by
    decide +kernel
  have given : ∀ f ∈ member.schema.fields,
      Field.given? member.schema.config memberEntries f ≠ none := by
    decide +kernel
  have writes : ∀ f ∈ member.schema.fields,
      Field.Writes member.schema.config f ((Pairs.get? memberValues f.name).getD .null) := by
    simp only [member, make, List.mem_cons, List.not_mem_nil, or_false, forall_eq_or_imp, forall_eq]
    refine ⟨Or.inl (.text "Ada <b>"), Or.inl (.integer (by decide +kernel)),
      Or.inl (.option isClear_plan (by decide +kernel)),
      Or.inl (.date ⟨by decide, by decide, by decide⟩), Or.inl (.text ""), Or.inl (.flag true)⟩
  obtain ⟨hreads, hvalid, _⟩ := edit_round_trip editable_member hc
    (fun f hf hnone => absurd hnone (given f hf)) hvalue
    (fun f hf hnull p hp => absurd hp List.not_mem_nil) hsent
  refine ⟨c, hc, hsent, ?_, fun f hf => hreads f hf (writes f hf)⟩
  rw [← data]
  exact hvalid writes none

/-! ## A form that does not read back what it shows -/

/-- A guest: a nick and a number of visits by default, a box for news, a note, a colour from a list,
and a city that is written under another name. -/
def guest : Form :=
  .make
    { name := "Guest"
      fields := [
        { name := "nick", type := .str, default := some (.str "guest"),
          declared := some [("element", .str "input"), ("inputType", .str "text")] },
        { name := "visits", type := .int, limits := { atLeast := some (.int 1) },
          default := some (.int 0),
          declared := some [("element", .str "input"), ("inputType", .str "text")] },
        { name := "news", type := .optional .bool, default := some .null,
          declared := some [("element", .str "input"), ("inputType", .str "checkbox")] },
        { name := "note", type := .optional .str, default := some .null,
          declared := some [("element", .str "textarea"), ("inputType", .str "textarea")] },
        { name := "color",
          type := .enumeration { name := "Color", kind := .text, members := [("RED", .str "red")] },
          declared := some [("element", .str "input"), ("inputType", .str "text")] },
        { name := "city", type := .str, writeAs := some "town",
          declared := some [("element", .str "input"), ("inputType", .str "text")] }]
      config := { extras := .allow } }
    {} none defaultComponentElement

/-- What a guest is made of. -/
def guestEntries : List (Value × Value) :=
  [(.str "nick", .str ""), (.str "NOTE", .str "late"), (.str "color", .str "red"),
    (.str "city", .str "Bern")]

/-- What the guest's page sends. -/
def guestFields : List (String × List Value) :=
  [("nick", [.str ""]), ("visits", [.str "0"]), ("news", [.str "off"]), ("note", [.str "late"]),
    ("color", [.str "Color.RED"]), ("city", [.str ""])]

/-- A guest is not read back.  The default takes the place of an empty nick, and no check has passed
that of the visits; the box has two states, and what is kept besides is shown for the note.  The
option is shown by its name, and the city under another name. -/
theorem guest_not_read_back :
    (guest.schema.check none (.map guestEntries)).toOption.map
        (fun c => (c.value, (guest.resubmission c.value none).toOption))
      = some (.record "Guest" ["nick", "visits", "news", "note", "color", "town", "NOTE"]
          [("nick", .str ""), ("visits", .int 0), ("news", .null), ("note", .null),
            ("color", .option "Color" .text "RED" (.str "red") 0), ("city", .str "Bern"),
            ("NOTE", .str "late")], some guestFields) ∧
    (guest.schema.fields.map fun f =>
        (guest.schema.outcomeOf (.multi guestFields) f).toOption.map (·.value))
      = [some (.str "guest"), none, some (.bool false), some (.str "late"), none, some (.str "")] ∧
    (guest.schema.reportForm (.multi guestFields)).toOption.map (fun r => (r.valid, r.errors))
      = some (false, ["visits: Input should be greater than or equal to 1",
          "color: Input should be 'red'"]) := by
  decide +kernel

end Form

end WebForm
