/-
The error that a page shows after any number of actions.

A form carries one error between its actions: a message, and lines under it.  An action sets
it, clears it, shows a report, or leaves it alone.  What an action leaves is decided by the
action and the schema, and not by the state of the form (`Action.Leaves`), and an action that
leaves no error changes nothing at all (`act_of_not_leavesError`).  So a whole run can be
replaced by the last action that leaves an error, and `page_after_run` says so of the pages,
for every list of actions and every page:

    new.run (before ++ a :: after) shows what new.act a shows
    page = top ++ errorText message details ++ new.ending

where `top ++ new.ending` is the page of a new form, and `errorText` is the text of the error,
spelled out.  If no action leaves an error, the page is that of the new form.  Clearing counts
as an action that leaves an error, the one without a message; its text is empty.

The text is given by `errorText` and not by the block that a form writes, because a page that
contains whatever `Markup.errors` returns would contain it also if that were nothing.
`errors_eq_errorText` says that the two agree.

Failures are quiet: an action that fails leaves the form as it was, and so does a report
without errors.  An error from an earlier submission is therefore still shown after a later
one was accepted.
-/
import Mathlib.Data.List.Induction
import WebForm.Proofs.ErrorBlock

namespace WebForm

open WebForm.Element (nonEmpty)

/-- The heading over the errors of a report. -/
def Form.headingText (heading : Option String) : String :=
  (nonEmpty heading).getD Form.defaultHeading

/-- The action leaves a message and its lines as the error of every form of the schema: one that is
set, none at all once it is cleared, or the errors of a report that is not valid. -/
inductive Action.Leaves (schema : Schema) : Action → String → List String → Prop where
  | setError (message : String) (details : List String) :
      Leaves schema (.setError message details) message details
  | clearError : Leaves schema .clearError "" []
  | showErrors {r : Report} (heading : Option String) (h : r.valid = false) :
      Leaves schema (.showErrors r heading) (Form.headingText heading) r.errors
  | submit {data : Posted} {r : Report} (heading : Option String)
      (hr : schema.reportPosted data = .ok r) (h : r.valid = false) :
      Leaves schema (.submit data heading) (Form.headingText heading) r.errors
  | checkObject {v : Value} {r : Report} (heading : Option String)
      (hr : schema.reportObject v = .ok r) (h : r.valid = false) :
      Leaves schema (.checkObject v heading) (Form.headingText heading) r.errors

/-- The action leaves an error in the forms of the schema. -/
def Action.LeavesError (schema : Schema) (a : Action) : Prop :=
  ∃ message details, a.Leaves schema message details

/-- The action shows a page or checks a single field, or all that comes of it is a failure or a
report that is valid. -/
inductive Form.Quiet (form : Form) : Action → Prop where
  | render (values : Value) (lang : Option String) : Quiet form (.render values lang)
  | renderComponent (values : Value) (lang : Option String) :
      Quiet form (.renderComponent values lang)
  | checkField (name : String) (v : Value) : Quiet form (.checkField name v)
  | fails {a : Action} {e : FormError} (h : (form.act a).2 = .error e) : Quiet form a
  | valid {a : Action} {r : Report} (h : (form.act a).2 = .ok (.report r)) (hr : r.valid = true) :
      Quiet form a

namespace Form

/-! ## One action

A report is shown if it is not valid, by its heading and its errors, and else does nothing.
Every action is one of three: it leaves an error, it shows a valid report, or it does not
touch the form. -/

theorem showReport_of_valid (form : Form) {r : Report} (h : r.valid = true)
    (heading : Option String) : form.showReport r heading = form := by
  unfold showReport
  rw [if_pos h]

theorem showReport_of_not_valid (form : Form) {r : Report} (h : r.valid = false)
    (heading : Option String) :
    form.showReport r heading = form.setError (headingText heading) r.errors := by
  unfold showReport
  rw [if_neg (by rw [h]; exact Bool.false_ne_true)]
  rfl

theorem act_of_leaves (form : Form) {a : Action} {message : String} {details : List String}
    (h : a.Leaves form.schema message details) : (form.act a).1 = form.setError message details := by
  cases h with
  | setError => rfl
  | clearError => rfl
  | showErrors heading h => exact showReport_of_not_valid form h heading
  | submit heading hr h | checkObject heading hr h =>
      simp only [act, showOutcome, hr]
      exact showReport_of_not_valid form h heading

theorem showOutcome_of_valid (form : Form) {o : Except ReportError Report} (heading : Option String)
    (h : ∀ r, o = .ok r → r.valid = true) : (form.showOutcome o heading).1 = form := by
  cases o with
  | error e => rfl
  | ok r => exact showReport_of_valid form (h r rfl) heading

/-- An action that leaves no error changes nothing. -/
theorem act_of_not_leavesError (form : Form) {a : Action} (h : ¬a.LeavesError form.schema) :
    (form.act a).1 = form := by
  have valid : ∀ {r : Report}, (r.valid = false → a.LeavesError form.schema) → r.valid = true := by
    intro r hr
    cases hv : r.valid with
    | true => rfl
    | false => exact absurd (hr hv) h
  cases a with
  | render => rfl
  | renderComponent => rfl
  | checkField => rfl
  | setError message details => exact absurd ⟨message, details, .setError message details⟩ h
  | clearError => exact absurd ⟨"", [], .clearError⟩ h
  | showErrors r heading =>
      exact showReport_of_valid form (valid fun hv => ⟨_, _, .showErrors heading hv⟩) heading
  | submit data heading =>
      exact showOutcome_of_valid form heading fun r hr =>
        valid fun hv => ⟨_, _, .submit heading hr hv⟩
  | checkObject v heading =>
      exact showOutcome_of_valid form heading fun r hr =>
        valid fun hv => ⟨_, _, .checkObject heading hr hv⟩

theorem Quiet.act_eq {form : Form} {a : Action} (h : form.Quiet a) : (form.act a).1 = form := by
  refine act_of_not_leavesError form ?_
  rintro ⟨message, details, hleaves⟩
  cases h with
  | render => cases hleaves
  | renderComponent => cases hleaves
  | checkField => cases hleaves
  | fails he =>
      cases hleaves with
      | setError | clearError | showErrors => cases he
      | submit heading hr | checkObject heading hr =>
          simp only [act, showOutcome, hr] at he
          cases he
  | valid hr hvalid =>
      cases hleaves with
      | setError | clearError => cases hr
      | showErrors heading hnot =>
          cases hr
          exact Bool.false_ne_true (hnot.symm.trans hvalid)
      | submit heading hreport hnot | checkObject heading hreport hnot =>
          simp only [act, showOutcome, hreport] at hr
          cases hr
          exact Bool.false_ne_true (hnot.symm.trans hvalid)

/-! ## Runs

The error is all that a run can change, so that what comes before the last action that leaves
one has no effect on anything but the error, and that action replaces it. -/

theorem run_append (form : Form) (before after : List Action) :
    form.run (before ++ after) = (form.run before).run after := by
  unfold run
  rw [List.foldl_append]

theorem exists_run_eq (form : Form) (actions : List Action) :
    ∃ message details, form.run actions = form.setError message details := by
  induction actions using List.reverseRecOn with
  | nil => exact ⟨form.message, form.details, rfl⟩
  | append_singleton before a ih =>
      obtain ⟨message, details, hbefore⟩ := ih
      rw [run_append, hbefore]
      show ∃ message' details', ((form.setError message details).act a).1 = _
      by_cases hleaves : a.LeavesError form.schema
      · obtain ⟨message', details', hleaves⟩ := hleaves
        exact ⟨message', details', act_of_leaves (form.setError message details) hleaves⟩
      · exact ⟨message, details,
          act_of_not_leavesError (form.setError message details) hleaves⟩

theorem run_of_forall_not_leavesError (form : Form) {actions : List Action}
    (h : ∀ a ∈ actions, ¬a.LeavesError form.schema) : form.run actions = form := by
  induction actions with
  | nil => rfl
  | cons a actions ih =>
      obtain ⟨ha, hactions⟩ := List.forall_mem_cons.mp h
      show ((form.act a).1).run actions = form
      rw [act_of_not_leavesError form ha, ih hactions]

/-- After the last action that leaves an error, a run stands where that action alone would have led. -/
theorem run_of_last (form : Form) {before after : List Action} {a : Action} {message : String}
    {details : List String} (hlast : a.Leaves form.schema message details)
    (hafter : ∀ b ∈ after, ¬b.LeavesError form.schema) :
    form.run (before ++ a :: after) = (form.act a).1 := by
  obtain ⟨message', details', hbefore⟩ := exists_run_eq form before
  have hset : ((form.run before).act a).1 = form.setError message details := by
    rw [hbefore]
    exact act_of_leaves (form.setError message' details') hlast
  rw [run_append, act_of_leaves form hlast]
  show (((form.run before).act a).1).run after = _
  rw [hset]
  exact run_of_forall_not_leavesError (form.setError message details) hafter

theorem exists_last_leaves (schema : Schema) (actions : List Action) :
    (∀ a ∈ actions, ¬a.LeavesError schema) ∨
      ∃ before a after message details, actions = before ++ a :: after ∧
        a.Leaves schema message details ∧ ∀ b ∈ after, ¬b.LeavesError schema := by
  induction actions with
  | nil => exact Or.inl fun a ha => absurd ha List.not_mem_nil
  | cons a actions ih =>
      rcases ih with hnone | ⟨before, b, after, message, details, rfl, hleaves, hafter⟩
      · by_cases ha : a.LeavesError schema
        · obtain ⟨message, details, ha⟩ := ha
          exact Or.inr ⟨[], a, actions, message, details, rfl, ha, hnone⟩
        · exact Or.inl (List.forall_mem_cons.mpr ⟨ha, hnone⟩)
      · exact Or.inr ⟨a :: before, b, after, message, details, rfl, hleaves, hafter⟩

/-! ## What a page shows

The text of an error is said here by its lines, and not through the block that a form writes.  A page
with an error is the page without one in which that text stands before what ends the form. -/

/-- The text of an error: none without a message, the message alone, or the message over its lines. -/
def errorText (message : String) (details : List String) : String :=
  if message = "" then ""
  else if details = [] then "<div class=\x22error\x22>\n" ++ message ++ "\n\n</div>"
  else
    "<div class=\x22error\x22>\n<span>" ++ message ++ ":</span>\n<ul>\n"
      ++ String.join (details.map fun d => "<li>\n" ++ d ++ "</li>\n") ++ "</ul>\n</div>"

/-- What ends a form. -/
def ending (form : Form) : String :=
  (Markup.fieldset form.options.fieldset form.options.legend).2
    ++ Markup.submitButton form.buttonLabel none ++ "\n</form>"

theorem join_items (d : String) (ds : List String) :
    String.join ((d :: ds).map fun d => "<li>\n" ++ d ++ "</li>\n")
      = "<li>\n" ++ "</li>\n<li>\n".intercalate (d :: ds) ++ "</li>\n" := by
  induction ds generalizing d with
  | nil => simp
  | cons e ds ih =>
      have hsep : "</li>\n<li>\n" = "</li>\n" ++ "<li>\n" := rfl
      rw [List.map_cons, String.join_cons, ih, String.intercalate_cons_cons, hsep]
      simp only [String.append_assoc]

theorem errors_eq_errorText (message : String) (details : List String) :
    Markup.errors message details = errorText message details := by
  unfold errorText
  by_cases hmessage : message = ""
  · rw [if_pos hmessage, hmessage]
    rfl
  · have hempty : message.isEmpty = false := by simpa using hmessage
    rw [if_neg hmessage]
    cases details with
    | nil =>
        unfold Markup.errors
        rw [hempty]
        simp [String.append_assoc]
    | cons d ds =>
        have hopen : "</li>\n</ul>" = "</li>\n" ++ "</ul>" := rfl
        rw [Markup.errors_eq hempty, if_neg (List.cons_ne_nil d ds), join_items, hopen]
        simp only [String.append_assoc]
        rfl

/-- What a page writes before the errors. -/
def top (form : Form) (elements : List Element) (supplied : Supplied) : String :=
  Piece.write ([.fixed (Markup.formTag form.options),
      .fixed (Markup.fieldset form.options.fieldset form.options.legend).1,
      .fixed (form.options.extraHtml.getD ""), .fixed "\n"]
    ++ elements.flatMap (Markup.suppliedField supplied form.options)) ++ "\n"

theorem write_form (form : Form) (elements : List Element) (supplied : Supplied) (message : String)
    (details : List String) :
    Piece.write (Markup.form elements supplied form.options form.buttonLabel message details)
      = form.top elements supplied ++ errorText message details ++ form.ending := by
  unfold Markup.form top ending
  rw [errors_eq_errorText, Piece.write_append]
  simp only [Piece.write_cons, Piece.write_nil, Piece.text, String.append_empty, String.append_assoc]

theorem html_setError (form : Form) (values : Value) (lang : Option String) :
    (∃ e, ∀ message details, (form.setError message details).html values lang = .error e) ∨
      ∃ top, ∀ message details, (form.setError message details).html values lang
        = .ok (top ++ errorText message details ++ form.ending) := by
  unfold html
  cases hshown : form.shown values lang with
  | error e =>
      refine Or.inl ⟨e, fun message details => ?_⟩
      have hshown : (form.setError message details).shown values lang = .error e := hshown
      rw [pieces_eq, hshown]
      rfl
  | ok p =>
      refine Or.inr ⟨form.top p.1 p.2, fun message details => ?_⟩
      have hshown : (form.setError message details).shown values lang = .ok p := hshown
      rw [pieces_eq, hshown, ← write_form]
      rfl

/-- A run of a new form has a last action that leaves an error, or none.  After it a page is that of a
new form on which the last one alone was done: the page of a new form, with the text of the error before
what ends it.  If no action leaves an error, it is the page of a new form; and a quiet action changes
nothing, at whatever point of a run it comes. -/
theorem page_after_run (schema : Schema) (options : Options) (buttonLabel : Option String)
    (componentElement : String) (actions : List Action) :
    let new := make schema options buttonLabel componentElement
    (((∀ a ∈ actions, ¬a.LeavesError schema) ∧
        ∀ values lang, (new.run actions).html values lang = new.html values lang) ∨
      ∃ before a after message details, actions = before ++ a :: after ∧
        a.Leaves schema message details ∧ ∀ b ∈ after, ¬b.LeavesError schema) ∧
    (∀ before a after message details, actions = before ++ a :: after →
      a.Leaves schema message details → (∀ b ∈ after, ¬b.LeavesError schema) → ∀ values lang,
        (new.run actions).html values lang = (new.act a).1.html values lang ∧
        ∀ page, (new.run actions).html values lang = .ok page →
          ∃ top, new.html values lang = .ok (top ++ new.ending) ∧
            page = top ++ errorText message details ++ new.ending) ∧
    ∀ before a, (new.run before).Quiet a → new.run (before ++ [a]) = new.run before := by
  intro new
  refine ⟨?_, fun before a after message details hactions hleaves hafter values lang => ?_,
    fun before a hquiet => ?_⟩
  · rcases exists_last_leaves schema actions with hnone | hlast
    · refine Or.inl ⟨hnone, fun values lang => ?_⟩
      rw [run_of_forall_not_leavesError new hnone]
    · exact Or.inr hlast
  · rw [hactions, run_of_last new hleaves hafter]
    refine ⟨rfl, fun page hpage => ?_⟩
    rw [act_of_leaves new hleaves] at hpage
    rcases html_setError new values lang with ⟨e, herror⟩ | ⟨top, hpages⟩
    · rw [herror] at hpage
      cases hpage
    · rw [hpages] at hpage
      cases hpage
      have hnew := hpages "" []
      rw [show errorText "" [] = "" from rfl, String.append_empty] at hnew
      exact ⟨top, hnew, rfl⟩
  · rw [run_append]
    exact hquiet.act_eq

/-- A delivery: how many, and a note. -/
def delivery : Schema where
  name := "Delivery"
  fields := [
    { name := "amount", type := .int,
      declared := some (Declaration.attributes { element := .str "input", inputType := .str "text" }) },
    { name := "note", type := .str,
      declared := some (Declaration.attributes { element := .str "input", inputType := .str "text" }) }]

/-- A delivery that is refused, and one that is accepted. -/
def wrongDelivery : Posted := .value (.ofPairs [("amount", .str "two")])
def rightDelivery : Posted := .value (.ofPairs [("amount", .str "2"), ("note", .str "soon")])

/-- What is done after a delivery was refused: a note is refused alone, a page fails, an object fails, and
a delivery is accepted. -/
def afterRefusal : List Action :=
  [.checkField "note" (.int 3), .render (.int 3) none, .checkObject (.int 3) none,
    .submit rightDelivery (some "Again")]

/-- The page shows the errors of the delivery that was refused, and neither what was set before nor
anything of what was done after. -/
theorem refused_delivery_shown :
    let form := make delivery {} none defaultComponentElement
    ∃ top, form.html .null none = .ok (top ++ form.ending) ∧
      (form.run (.setError "Closed" ["until monday"] :: .submit wrongDelivery none :: afterRefusal)).html
          .null none
        = .ok (top
          ++ ("<div class=\x22error\x22>\n<span>Validation Errors:</span>\n<ul>\n"
            ++ "<li>\namount: Input should be a valid integer, unable to parse string as an integer</li>\n"
            ++ "<li>\nnote: Field required</li>\n" ++ "</ul>\n</div>")
          ++ form.ending) := by
  intro form
  have refused : (delivery.reportPosted wrongDelivery).toOption.map (fun r => (r.valid, r.errors))
      = some (false, ["amount: Input should be a valid integer, unable to parse string as an integer",
          "note: Field required"]) := by
    decide +kernel
  have accepted : (delivery.reportPosted rightDelivery).toOption.map (·.valid) = some true := by
    decide +kernel
  obtain ⟨r, hr, hresult⟩ := Outcome.exists_of_map_toOption refused
  obtain ⟨hvalid, herrors⟩ := Prod.mk.inj hresult
  have hleaves : (Action.submit wrongDelivery none).Leaves delivery "Validation Errors" r.errors :=
    .submit none hr hvalid
  have hafter : ∀ b ∈ afterRefusal, ¬b.LeavesError delivery := by
    simp only [afterRefusal, List.mem_cons, List.not_mem_nil, or_false, forall_eq_or_imp, forall_eq]
    refine ⟨?_, ?_, ?_, ?_⟩ <;> rintro ⟨message, details, hb⟩ <;> cases hb
    · rename_i hobject
      cases hobject
    · rename_i hnot hright
      rw [hright] at accepted
      exact Bool.false_ne_true (hnot.symm.trans (Option.some.inj accepted))
  have shown : ((form.run (.setError "Closed" ["until monday"] :: .submit wrongDelivery none
      :: afterRefusal)).html .null none).toOption.map (fun _ => ()) = some () := by
    decide +kernel
  obtain ⟨page, hpage, -⟩ := Outcome.exists_of_map_toOption shown
  obtain ⟨-, hlast, -⟩ := page_after_run delivery {} none defaultComponentElement
    (.setError "Closed" ["until monday"] :: .submit wrongDelivery none :: afterRefusal)
  obtain ⟨top, hnew, rfl⟩ := (hlast [.setError "Closed" ["until monday"]] (.submit wrongDelivery none)
    afterRefusal _ _ rfl hleaves hafter .null none).2 page hpage
  refine ⟨top, hnew, ?_⟩
  rw [hpage, herrors]
  exact congrArg (fun text => Except.ok (top ++ text ++ form.ending)) (by decide +kernel)

end Form

end WebForm
