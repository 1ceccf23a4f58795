/-
Types in wrappings.

A declared type is often wrapped: limits are put on it, nothing is allowed beside it, it is
made a choice of one.  The kind of a type, which decides whether a field takes many values and
what each is read as, sees through all of that, in whatever order the wrappings are put around
the type and however often.

    Wraps t w → w.kind = t.kind
    Wraps (.many c x) w → w.kind = ⟨true, x.kind.scalar⟩
    Nests x w → w.kind = ⟨true, x.kind.scalar⟩

A collection is the one thing that shows: it is read as many values of the scalar of its
items.  The third line says that a collection of collections, of any depth and with wrappings
anywhere between them, is still read as many values of the scalar of the innermost items.
`kind_in_wrappings` is the three lines together.

The reason is that a type offers alternatives which settle its own kind (`settle_options`),
whatever the type is.  Limits are one alternative of the kind within, and to add nothing to a
choice adds no alternative.  So each wrapping is one lemma, and the rest is an induction on
the wrappings.

A choice between different types is no wrapping, and its kind may be that of none of them: a
number or a text is read as anything.  Such a choice can itself be wrapped, and then the
results apply to it.
-/
import WebForm.Schema.Kind

namespace WebForm.Ty

open KindSurvey

/-- The second type is the first in wrappings: in choices of it alone, with nothing added to them
anywhere, and under limits. -/
inductive Wraps (t : Ty) : Ty → Prop where
  | self : Wraps t t
  | optional {w : Ty} : Wraps t w → Wraps t (.optional w)
  | limited {w : Ty} {limits : Limits} : Wraps t w → Wraps t (.limited w limits)
  | alone {style : ChoiceStyle} {w : Ty} : Wraps t w → Wraps t (.choice style [w])
  | addNone {style style' : ChoiceStyle} {before after : List Ty} :
      Wraps t (.choice style (before ++ after)) → Wraps t (.choice style' (before ++ .none :: after))

/-- The second type is a collection of the first: of the type itself or of a collection of it, each
of them in wrappings. -/
inductive Nests (x : Ty) : Ty → Prop where
  | items (c : Collection) {t : Ty} : Wraps x t → Nests x (.many c t)
  | within (c : Collection) {t : Ty} : Nests x t → Nests x (.many c t)
  | wrapped {t w : Ty} : Nests x t → Wraps t w → Nests x w

variable {t w x : Ty}

theorem Wraps.orNone {style : ChoiceStyle} (h : Wraps t w) : Wraps t (.choice style [w, .none]) :=
  @addNone t style style [w] [] (.alone h)

theorem Wraps.noneOr {style : ChoiceStyle} (h : Wraps t w) : Wraps t (.choice style [.none, w]) :=
  @addNone t style style [] [w] (.alone h)

/-! ## Kinds

One lemma for each thing that can be put around a type. -/

/-- The alternatives of a type settle its kind. -/
theorem settle_options (t : Ty) : settle t.surveyKind.options = t.kind := by
  cases t with
  | bare c => cases c <;> rfl
  | _ => rfl

theorem kind_optional (t : Ty) : (Ty.optional t).kind = t.kind := settle_options t

theorem kind_limited (t : Ty) (limits : Limits) : (Ty.limited t limits).kind = t.kind := rfl

theorem kind_choice (style : ChoiceStyle) (ts : List Ty) :
    (Ty.choice style ts).kind = settle (surveyKinds ts) := rfl

theorem kind_many (c : Collection) (t : Ty) : (Ty.many c t).kind = ⟨true, t.kind.scalar⟩ := rfl

theorem surveyKinds_append (ts us : List Ty) :
    surveyKinds (ts ++ us) = surveyKinds ts ++ surveyKinds us := by
  induction ts with
  | nil => rfl
  | cons t ts ih => rw [List.cons_append, surveyKinds, surveyKinds, ih, List.append_assoc]

theorem kind_choice_alone (style : ChoiceStyle) (t : Ty) : (Ty.choice style [t]).kind = t.kind := by
  rw [kind_choice, surveyKinds, surveyKinds, List.append_nil, settle_options]

theorem kind_choice_none (style style' : ChoiceStyle) (before after : List Ty) :
    (Ty.choice style (before ++ .none :: after)).kind = (Ty.choice style' (before ++ after)).kind := by
  rw [kind_choice, kind_choice, surveyKinds_append, surveyKinds_append]
  rfl

theorem Wraps.kind_eq (h : Wraps t w) : w.kind = t.kind := by
  induction h with
  | self => rfl
  | @optional w _ ih => rw [kind_optional, ih]
  | limited _ ih => rw [kind_limited, ih]
  | alone _ ih => rw [kind_choice_alone, ih]
  | @addNone style _ _ _ _ ih => rw [kind_choice_none _ style, ih]

theorem Nests.kind_eq (h : Nests x w) : w.kind = ⟨true, x.kind.scalar⟩ := by
  induction h with
  | items c h => rw [kind_many, h.kind_eq]
  | within c _ ih => rw [kind_many, ih]
  | wrapped _ h ih => rw [h.kind_eq, ih]

/-- A type in wrappings has its own kind.  So a collection in wrappings is read as many values of the
scalar of its items, and so is a collection of collections, however deep and in whatever wrappings. -/
theorem kind_in_wrappings :
    (∀ t w : Ty, Wraps t w → w.kind = t.kind) ∧
      (∀ (c : Collection) (x w : Ty), Wraps (.many c x) w → w.kind = ⟨true, x.kind.scalar⟩) ∧
      ∀ x w : Ty, Nests x w → w.kind = ⟨true, x.kind.scalar⟩ :=
  ⟨fun _ _ h => h.kind_eq, fun c x _ h => h.kind_eq.trans (kind_many c x), fun _ _ h => h.kind_eq⟩

/-- A number or a text. -/
def number : Ty := .choice .named [.int, .str]

/-- A number or a text, or nothing, under a limit and with nothing beside it. -/
def wrappedNumber : Ty :=
  .optional (.limited (.choice .barred [.int, .none, .str]) { pattern := some ⟨.searching, "[0-9]"⟩ })

/-- Some seats of a row, or nothing. -/
def seats : Ty := .limited (.many .set (.choice .named [.int, .none])) { maxLength := some 4 }

/-- Rows of seats, under a limit and with nothing beside them. -/
def rows : Ty := .choice .barred [.none, .limited (.many .list (.optional seats)) { minLength := some 1 }]

/-- What may be a number or a text is read as anything; the rows are many values, each as an
integer. -/
theorem rows_kind :
    (Wraps number wrappedNumber ∧ wrappedNumber.kind = ⟨false, .any⟩) ∧
      (Wraps (.many .list (.optional seats)) rows ∧ rows.kind = ⟨true, (Ty.optional seats).kind.scalar⟩) ∧
      Nests .int rows ∧ rows.kind = ⟨true, .int⟩ := by
  obtain ⟨wrapped, collection, nested⟩ := kind_in_wrappings
  have hnumber : Wraps number wrappedNumber :=
    .optional (.limited (@Wraps.addNone number .named .barred [.int] [.str] .self))
  have hrows : Wraps (.many .list (.optional seats)) rows := .noneOr (.limited .self)
  have hseats : Nests .int seats := .wrapped (.items .set (.orNone .self)) (.limited .self)
  have hnested : Nests .int rows := .wrapped (.within .list (.wrapped hseats (.optional .self))) hrows
  exact ⟨⟨hnumber, wrapped _ _ hnumber⟩, ⟨hrows, collection _ _ _ hrows⟩, hnested, nested _ _ hnested⟩

end WebForm.Ty
