/-
The name and the id of a field, in its tag and around it.

The block of a field is its tag with what stands around it: a hidden input before a box, a
label before or behind, and what follows.  All of these go by a name or by an id.  What stands
around the tag takes them from the element itself, and so does a submission, which is read
under the element's name.  The tag takes them from its attributes, and a field can declare a
text under either.  So the block may speak of two names or of two ids, and then a box sends
its value under a name that is not read, or a label is for an id that no tag has.

`forall₂_showsBlock` says, for every form and every language, that each block of a page reads,
hides and labels by the name and the id of its element, and that

    e.SpeaksAsOne supplied ↔ nothing else is declared under the name, nor, if there is a label, under the id

whatever values are supplied.  A declared name that is the element's own is allowed.  The id
is asked for only where there is a label, since nothing else in the block refers to it.

A tag writes its name and its id as its first attributes, each with the last text that is
declared under it (`exists_tagAttributes_eq`).  Attributes with the same name in another
spelling follow behind, and a browser heeds the first.
-/
import WebForm.Proofs.Checkbox
import WebForm.Proofs.Declared

namespace WebForm

open WebForm.Text

namespace Element

variable {idSuffix : String} {lang : Option String} {d : Definition} {e : Element}

/-! ## Labels

An element has a label before it or, if it is a box, behind it; hidden elements have none. -/

/-- The block of the element has a label. -/
def hasLabel (e : Element) : Bool :=
  e.isCheckbox || (e.inputType != some "checkbox" && e.inputType != some "hidden"
    && e.element != "textarea")

theorem labelMarkup_ne (e : Element) : "" ≠ e.labelMarkup := by
  intro h
  have hlist := congrArg String.toList h
  simp [labelMarkup] at hlist

theorem hasLabel_iff (e : Element) (o : Options) :
    e.hasLabel = true ↔ e.before = e.labelMarkup ∨ e.after o = e.labelMarkup := by
  unfold hasLabel
  cases hbox : e.isCheckbox with
  | true => exact ⟨fun _ => Or.inr (by rw [after, if_pos hbox]), fun _ => rfl⟩
  | false =>
      rw [Bool.false_or]
      cases hlabel : (e.inputType != some "checkbox" && e.inputType != some "hidden"
          && e.element != "textarea") with
      | true =>
          rw [Bool.and_eq_true, Bool.and_eq_true, bne_iff_ne, bne_iff_ne, bne_iff_ne] at hlabel
          obtain ⟨⟨hcheckbox, hhidden⟩, htextarea⟩ := hlabel
          refine ⟨fun _ => Or.inl ?_, fun _ => rfl⟩
          simp [before, hbox, hcheckbox, hhidden, htextarea]
      | false =>
          refine ⟨fun h => absurd h Bool.false_ne_true, fun h => ?_⟩
          rcases h with h | h
          · have hbefore : e.before = "" := by
              unfold before
              rw [hbox, if_neg Bool.false_ne_true, if_neg]
              simpa using hlabel
            exact absurd (hbefore.symm.trans h) e.labelMarkup_ne
          · have hafter : e.after o = "" := by
              unfold after
              rw [hbox, if_neg Bool.false_ne_true, if_neg]
              intro hpassword
              simp only [Bool.and_eq_true, decide_eq_true_eq] at hpassword
              simp [hpassword.1.1.1, hpassword.1.1.2] at hlabel
            exact absurd (hafter.symm.trans h) e.labelMarkup_ne

/-! ## Tags

The first three attributes of a tag are known, whatever is declared. -/

/-- A tag has a class, a name and an id in front, the latter two as they were last declared. -/
theorem exists_tagAttributes_eq (h : ofDefinition idSuffix lang d = .ok e) (shown : Option String)
    (supplied : Supplied) :
    ∃ rest, e.tagAttributes shown supplied
      = ⟨"class", some (.fixed e.name)⟩
        :: ⟨"name", some (.fixed (((d.textUnder? lang "name").map (·.written)).getD e.name))⟩
        :: ⟨"id", some (.fixed (((d.textUnder? lang "id").map (·.written)).getD e.id))⟩ :: rest := by
  obtain ⟨_, _, made⟩ := exists_madeOf h
  obtain ⟨rest, hrest⟩ := exists_setAll_eq (.ofText d.name) (.ofText (d.name ++ "_" ++ idSuffix))
    (d.texts lang)
  have hattributes := attributes_of_ofDefinition h
  rw [hrest, complete_eq, List.cons_append, List.cons_append] at hattributes
  have hname : lower "name" = "name" := by decide +kernel
  have hid : lower "id" = "id" := by decide +kernel
  have hwritten : ∀ (t : Option Phrase) (s : String),
      (t.getD (.ofText s)).written = (t.map (·.written)).getD s := by
    rintro (_ | t) s <;> rfl
  have hshown : ∃ rest, e.shownAttributes shown
      = ("name", .fixed (((d.textUnder? lang "name").map (·.written)).getD e.name))
        :: ("id", .fixed (((d.textUnder? lang "id").map (·.written)).getD e.id)) :: rest := by
    unfold shownAttributes
    rw [hattributes, made.name, made.id, List.map_cons, List.map_cons, hwritten, hwritten]
    cases shown with
    | none => exact ⟨_, rfl⟩
    | some v =>
        dsimp only
        rw [Pairs.set_cons_of_ne (by simp), Pairs.set_cons_of_ne (by simp)]
        exact ⟨_, rfl⟩
  obtain ⟨others, hothers⟩ := hshown
  unfold tagAttributes
  dsimp only
  rw [hothers, List.filter_cons_of_pos (by rw [hname]; decide),
    List.filter_cons_of_pos (by rw [hid]; decide), List.map_cons, List.map_cons, hname, hid]
  exact ⟨_, rfl⟩

/-- The block of an element speaks of one name and one id: the first name in its tag is the
element's own, and so is the first id if there is a label for it. -/
structure SpeaksAsOne (e : Element) (supplied : Supplied) : Prop where
  name : e.tagAttribute? supplied "name" = some ⟨"name", some (.fixed e.name)⟩
  id : e.hasLabel = true → e.tagAttribute? supplied "id" = some ⟨"id", some (.fixed e.id)⟩

/-- A block speaks of one name and one id exactly when what is declared under them is its own. -/
theorem speaksAsOne_iff (h : ofDefinition idSuffix lang d = .ok e) (supplied : Supplied) :
    e.SpeaksAsOne supplied
      ↔ (∀ t, d.textUnder? lang "name" = some t → t.written = e.name) ∧
        (e.hasLabel = true → ∀ t, d.textUnder? lang "id" = some t → t.written = e.id) := by
  obtain ⟨rest, htag⟩ := exists_tagAttributes_eq h (Pairs.get? supplied e.name) supplied
  have hname : e.tagAttribute? supplied "name"
      = some ⟨"name", some (.fixed (((d.textUnder? lang "name").map (·.written)).getD e.name))⟩ := by
    unfold tagAttribute?
    rw [htag, List.find?_cons_of_neg (by simp), List.find?_cons_of_pos (by simp)]
  have hid : e.tagAttribute? supplied "id"
      = some ⟨"id", some (.fixed (((d.textUnder? lang "id").map (·.written)).getD e.id))⟩ := by
    unfold tagAttribute?
    rw [htag, List.find?_cons_of_neg (by simp), List.find?_cons_of_neg (by simp),
      List.find?_cons_of_pos (by simp)]
  have own : ∀ (name own : String) (t : Option Phrase),
      (some (⟨name, some (.fixed ((t.map (·.written)).getD own))⟩ : TagAttribute)
          = some ⟨name, some (.fixed own)⟩)
        ↔ ∀ p, t = some p → p.written = own := by
    rintro name own (_ | p) <;> simp
  constructor
  · intro hone
    refine ⟨(own "name" _ _).mp (hname ▸ hone.name), fun hlabel => ?_⟩
    exact (own "id" _ _).mp (hid ▸ hone.id hlabel)
  · rintro ⟨hnames, hids⟩
    refine ⟨hname.trans ((own "name" _ _).mpr hnames), fun hlabel => ?_⟩
    exact hid.trans ((own "id" _ _).mpr (hids hlabel))

end Element

/-! ## Forms

From the fields of a schema to the blocks of a page: every element has its block on every
page. -/

namespace Form

variable {form : Form} {lang : Option String} {values : Value}

theorem forall₂_of_built {R : Field → Element → Prop} {elements : List Element}
    (h : form.elements lang = .ok elements)
    (hone : ∀ f ∈ form.schema.fields, ∀ e ∈ elements,
      Element.ofDefinition (form.options.idSuffix.getD "") lang
        (Definition.ofField form.schema.config f) = .ok e → R f e) :
    List.Forall₂ R form.schema.fields elements := by
  have built := List.forall₂_map_left_iff (f := Definition.ofField form.schema.config).mp
    (Element.forall₂_of_ofDefinitions h)
  rw [List.forall₂_iff_get] at built ⊢
  obtain ⟨hlength, hbuilt⟩ := built
  exact ⟨hlength, fun i hf he => hone _ (List.get_mem _ _) _ (List.get_mem _ _) (hbuilt i hf he)⟩

theorem pieces_eq_ok {elements : List Element} (helements : form.elements lang = .ok elements)
    {supplied : Supplied} (hsupplied : Supplied.ofValue values = .ok supplied) :
    form.pieces values lang = .ok (Markup.form elements supplied form.options form.buttonLabel
      form.message form.details) := by
  unfold pieces
  rw [helements, hsupplied]

theorem infix_form {elements : List Element} {e : Element} (he : e ∈ elements)
    (form : Form) (supplied : Supplied) :
    Markup.suppliedField supplied form.options e <:+: Markup.form elements supplied form.options
      form.buttonLabel form.message form.details := by
  obtain ⟨before, after, rfl⟩ := List.append_of_mem he
  have hfields : Markup.suppliedField supplied form.options e
      <:+: (before ++ e :: after).flatMap (Markup.suppliedField supplied form.options) := by
    rw [List.flatMap_append, List.flatMap_cons]
    exact List.infix_append' _ _ _
  exact hfields.trans ⟨_, _, rfl⟩

theorem infix_pieces {elements : List Element} (helements : form.elements lang = .ok elements)
    {e : Element} (he : e ∈ elements) {ps : List Piece} (h : form.pieces values lang = .ok ps) :
    ∃ supplied, Supplied.ofValue values = .ok supplied ∧
      Markup.suppliedField supplied form.options e <:+: ps := by
  unfold pieces at h
  rw [helements] at h
  cases hsupplied : Supplied.ofValue values with
  | error fault =>
      rw [hsupplied] at h
      cases h
  | ok supplied =>
      rw [hsupplied] at h
      cases h
      exact ⟨supplied, rfl, infix_form he form supplied⟩

/-- The block that a page shows for a field. -/
structure ShowsBlock (form : Form) (lang : Option String) (f : Field) (e : Element) : Prop where
  /-- The element has the name under which a submission is read for the field. -/
  name : e.name = f.formName form.schema.config
  read : e.name ∈ Pairs.keys (Submission.fieldsByName form.schema)
  /-- A box has a hidden input of that name before it. -/
  companion : e.isCheckbox = true → e.before = Element.hiddenInput e.name "off"
  label : e.hasLabel = true ↔ e.before = e.labelMarkup ∨ e.after form.options = e.labelMarkup
  shown : ∀ values ps, form.pieces values lang = .ok ps →
    ∃ supplied, Supplied.ofValue values = .ok supplied ∧
      Markup.suppliedField supplied form.options e <:+: ps
  /-- Tag, hidden input and label agree exactly when no other name or id is declared. -/
  agrees : ∀ supplied, e.SpeaksAsOne supplied
    ↔ (∀ t, (Definition.ofField form.schema.config f).textUnder? lang "name" = some t →
        t.written = e.name) ∧
      (e.hasLabel = true →
        ∀ t, (Definition.ofField form.schema.config f).textUnder? lang "id" = some t →
          t.written = e.id)

theorem showsBlock_of_built {elements : List Element} (h : form.elements lang = .ok elements)
    {f : Field} (hf : f ∈ form.schema.fields) {e : Element} (he : e ∈ elements)
    (hbuilt : Element.ofDefinition (form.options.idSuffix.getD "") lang
      (Definition.ofField form.schema.config f) = .ok e) : form.ShowsBlock lang f e := by
  obtain ⟨_, _, made⟩ := Element.exists_madeOf hbuilt
  have hname : e.name = f.formName form.schema.config := made.name
  exact {
    name := hname
    read := by
      refine Pairs.mem_keys_setAll.mpr (Or.inr ?_)
      rw [hname]
      exact List.mem_map.mpr ⟨_, List.mem_map.mpr ⟨f, hf, rfl⟩, rfl⟩
    companion := Element.before_of_isCheckbox
    label := Element.hasLabel_iff _ _
    shown := fun _ _ => infix_pieces h he
    agrees := Element.speaksAsOne_iff hbuilt }

/-- Whatever a schema declares, in every language: each block of a page reads, hides and labels by
the name and the id of its element, and its tag does exactly where none other is declared. -/
theorem forall₂_showsBlock {elements : List Element} (h : form.elements lang = .ok elements) :
    List.Forall₂ (form.ShowsBlock lang) form.schema.fields elements := by
  have built := List.forall₂_map_left_iff (f := Definition.ofField form.schema.config).mp
    (Element.forall₂_of_ofDefinitions h)
  rw [List.forall₂_iff_get] at built ⊢
  obtain ⟨hlength, hbuilt⟩ := built
  exact ⟨hlength, fun i hf he =>
    showsBlock_of_built h (List.get_mem _ _) (List.get_mem _ _) (hbuilt i hf he)⟩

/-- A text that declares its own id, and a name with a capital. -/
def mailField : Field where
  name := "email"
  type := .str
  declared := some [("element", .str "input"), ("inputType", .str "email"), ("id", .str "email_"),
    ("Name", .str "mail")]

/-- A form of that field. -/
def mailForm : Form where
  schema := { name := "Order", fields := [mailField] }
  options := { passwordHideSvg := "", passwordShowSvg := "" }
  buttonLabel := "Submit"
  componentElement := defaultComponentElement

/-- Its element. -/
def mailElement : Element where
  name := "email"
  id := "email_"
  element := "input"
  label := .ofText "Email"
  inputType := some "email"
  flags := ["required"]
  attributes := [("name", .ofText "email"), ("id", .ofText "email_"), ("type", .ofText "email"),
    ("Name", .ofText "mail"), ("autocapitalize", .ofText "off"), ("autocomplete", .ofText "off"),
    ("autocorrect", .ofText "off"), ("placeholder", .ofText ""), ("spellcheck", .ofText "false"),
    ("value", .ofText "")]

/-- Its block speaks of one name and one id, though its tag has another name behind the first. -/
theorem mail_speaksAsOne : mailForm.elements none = .ok [mailElement] ∧
    ∀ supplied, mailElement.SpeaksAsOne supplied := by
  have built : mailForm.elements none = .ok [mailElement] := by decide +kernel
  refine ⟨built, fun supplied => ?_⟩
  obtain _ | ⟨block, _⟩ := forall₂_showsBlock built
  have hname : (Definition.ofField mailForm.schema.config mailField).textUnder? none "name" = none := by
    decide +kernel
  have hid : (Definition.ofField mailForm.schema.config mailField).textUnder? none "id"
      = some (.ofText "email_") := by
    decide +kernel
  refine (block.agrees supplied).mpr ⟨fun t ht => ?_, fun _ t ht => ?_⟩
  · cases hname.symm.trans ht
  · cases hid.symm.trans ht
    rfl

/-- A box whose name is declared again, and a text whose id is. -/
def termsForm : Form where
  schema := { name := "Order", fields := [
    { name := "terms", type := .bool,
      declared := some [("element", .str "input"), ("inputType", .str "checkbox"),
        ("name", .str "agree")] },
    { name := "email", type := .str,
      declared := some [("element", .str "input"), ("inputType", .str "email"),
        ("id", .str "mail"), ("class", .str "wide")] }] }
  options := { passwordHideSvg := "", passwordShowSvg := "" }
  buttonLabel := "Submit"
  componentElement := defaultComponentElement

/-- Such a box sends its value under one name and is read under another, and the label of such a
text is for an id that its tag does not have. -/
theorem declared_name_not_read :
    ((termsForm.elements none).toOption.map fun elements => elements.map fun e =>
      (e.before, e.tagAttribute? [] "name", e.tagAttribute? [] "id"))
        = some [
          (Element.hiddenInput "terms" "off", some ⟨"name", some (.fixed "agree")⟩,
            some ⟨"id", some (.fixed "terms_")⟩),
          ("<label for=\x22email_\x22>Email</label>", some ⟨"name", some (.fixed "email")⟩,
            some ⟨"id", some (.fixed "mail")⟩)] ∧
      Value.valueAt? (termsForm.schema.sentEntries
          (.multi [("terms", [.str "off"]), ("agree", [.str "on"])])) "terms"
        = some (.bool false) := by
  decide +kernel

end Form

end WebForm
