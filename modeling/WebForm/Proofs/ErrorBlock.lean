/-
The block of errors after a submission.

The block writes the reported lines as they are, without escaping them.  Their messages are
made of the schema's own texts.  Their paths are not, since a path can repeat a key of what
was sent.  The question is when what was sent can change the markup of the page, and
`errorBlock_plain_iff` answers it: after a submission that is refused, the tags of the block
are those of its layout,

    brackets block = brackets (errorLayout number of errors)

exactly when no step of a reported path holds a bracket.  The layout depends on the number of
errors and on nothing else.  A step that does hold one is a key that was sent: one that the
schema does not know, unless it ignores such keys, or one of a mapping within a value.  And
the block is what every later page of the form shows.

The texts of the schema are assumed to be plain, and so are the heading and the names of
enumerations whose options are sent as values; these are the author's own, and a bracket in
them is not the sender's doing.  The equivalence is about brackets alone.  A path may hold any
other character, and it is written as it is.

That a bracket in a path comes from a key is proved through the account of what a check can
say (`Outcome.Tells`), taken here with all plain texts and the steps to the keys that were
sent.  The case is not empty: a schema that forbids names which it does not know repeats such
a name, and a name that is a tag becomes a tag of the block (`forbidden_name_writes_tag`).
-/
import WebForm.Form
import WebForm.Proofs.Parsing
import WebForm.Proofs.Refusal.Type

namespace WebForm

open WebForm.Element (nonEmpty)

/-! ## Brackets

The brackets of a text are a list, and so those of joined texts can be counted: they are as
many as in the separators exactly if the texts have none. -/

/-- The brackets of tags in a text, in order. -/
def brackets (s : String) : List Char := s.toList.filter fun c => c == '<' || c == '>'

theorem brackets_append (s t : String) : brackets (s ++ t) = brackets s ++ brackets t := by
  unfold brackets
  rw [String.toList_append, List.filter_append]

theorem brackets_eq_nil_iff {s : String} : brackets s = [] ↔ isPlain s = true := by
  unfold brackets isPlain
  rw [List.filter_eq_nil_iff, List.all_eq_true]
  simp only [Bool.or_eq_true, beq_iff_eq, not_or, Bool.and_eq_true, bne_iff_ne]

theorem brackets_intercalate_cons (sep t u : String) (ts : List String) :
    brackets (sep.intercalate (t :: u :: ts))
      = brackets t ++ (brackets sep ++ brackets (sep.intercalate (u :: ts))) := by
  rw [String.intercalate_cons_cons, brackets_append, brackets_append, List.append_assoc]

theorem brackets_intercalate_of_plain (sep : String) {ts : List String}
    (h : ∀ t ∈ ts, isPlain t = true) :
    brackets (sep.intercalate ts) = brackets (sep.intercalate (List.replicate ts.length "")) := by
  induction ts with
  | nil => rfl
  | cons t ts ih =>
      obtain ⟨ht, hts⟩ := List.forall_mem_cons.mp h
      have hnone : brackets t = brackets "" := brackets_eq_nil_iff.mpr ht
      cases ts with
      | nil =>
          show brackets (sep.intercalate [t]) = brackets (sep.intercalate [""])
          rw [String.intercalate_singleton, String.intercalate_singleton, hnone]
      | cons u ts =>
          show _ = brackets (sep.intercalate ("" :: "" :: List.replicate ts.length ""))
          rw [brackets_intercalate_cons, brackets_intercalate_cons, hnone, ih hts]
          rfl

theorem length_brackets_intercalate (sep : String) (ts : List String) :
    (brackets (sep.intercalate ts)).length
      = (brackets (sep.intercalate (List.replicate ts.length ""))).length
        + (ts.flatMap brackets).length := by
  induction ts with
  | nil => rfl
  | cons t ts ih =>
      cases ts with
      | nil =>
          show (brackets (sep.intercalate [t])).length = (brackets (sep.intercalate [""])).length + _
          rw [String.intercalate_singleton, String.intercalate_singleton]
          simp [brackets]
      | cons u ts =>
          show _ = (brackets (sep.intercalate ("" :: "" :: List.replicate ts.length ""))).length + _
          rw [brackets_intercalate_cons, brackets_intercalate_cons, List.flatMap_cons]
          simp only [List.length_append] at ih ⊢
          rw [ih]
          have hempty : (brackets "").length = 0 := rfl
          simp only [List.length_cons, List.replicate_succ, hempty]
          omega

theorem isPlain_intercalate_iff {sep : String} (hsep : isPlain sep = true) (ts : List String) :
    isPlain (sep.intercalate ts) = true ↔ ∀ t ∈ ts, isPlain t = true := by
  induction ts with
  | nil =>
      constructor
      · intro _ t ht
        exact absurd ht List.not_mem_nil
      · intro _
        rw [String.intercalate_nil]
        rfl
  | cons t ts ih =>
      cases ts with
      | nil =>
          rw [String.intercalate_singleton, List.forall_mem_singleton]
      | cons u ts =>
          rw [String.intercalate_cons_cons, isPlain_append, isPlain_append, List.forall_mem_cons,
            ← ih, hsep, Bool.and_true, Bool.and_eq_true]

/-! ## Lines

A line is the path, joined, and then the message. -/

theorem isPlain_line_iff {d : Detail} (h : isPlain d.message = true) :
    isPlain d.line = true ↔ ∀ step ∈ d.path, isPlain step.text = true := by
  have hpath : isPlain (Fault.pathText d.path) = true ↔ ∀ step ∈ d.path, isPlain step.text = true := by
    unfold Fault.pathText
    rw [isPlain_intercalate_iff (isPlain_of_all rfl), List.forall_mem_map]
  rw [← hpath]
  unfold Detail.line Fault.lineText
  dsimp only
  split
  · rename_i hempty
    rw [String.isEmpty_iff] at hempty
    rw [hempty, h]
    exact ⟨fun _ => rfl, fun _ => rfl⟩
  · have hcolon : isPlain ": " = true := isPlain_of_all rfl
    rw [isPlain_append, isPlain_append, h, hcolon, Bool.and_true, Bool.and_true]

/-! ## The layout of the block

The layout is the block itself with nothing written in it, one empty line for each error. -/

namespace Markup

/-- The block of some errors with nothing written in it. -/
def errorLayout (n : Nat) : String := if n = 0 then "" else errors " " (List.replicate n "")

theorem errors_eq {message d : String} {ds : List String} (h : message.isEmpty = false) :
    errors message (d :: ds)
      = "<div class=\x22error\x22>\n" ++ ("<span>" ++ message ++ ":</span>\n<ul>\n<li>") ++ "\n"
        ++ ("</li>\n<li>\n".intercalate (d :: ds) ++ "</li>\n</ul>") ++ "\n</div>" := by
  unfold errors
  rw [h]
  rfl

/-- The brackets of the block are those of its layout exactly when no detail has one. -/
theorem brackets_errors_iff {message : String} {details : List String}
    (hmessage : message.isEmpty = false) (hplain : isPlain message = true) (hne : details ≠ []) :
    brackets (errors message details) = brackets (errorLayout details.length)
      ↔ ∀ d ∈ details, isPlain d = true := by
  have hnone := brackets_eq_nil_iff.mpr hplain
  have hblank : brackets " " = [] := rfl
  cases details with
  | nil => exact absurd rfl hne
  | cons d ds =>
      have hlayout : errorLayout (d :: ds).length = errors " " ("" :: List.replicate ds.length "") :=
        rfl
      rw [hlayout, errors_eq hmessage, errors_eq rfl]
      simp only [brackets_append, hnone, hblank]
      constructor
      · intro heq
        have hlength := congrArg List.length heq
        have hsum := length_brackets_intercalate "</li>\n<li>\n" (d :: ds)
        rw [show List.replicate (d :: ds).length "" = "" :: List.replicate ds.length "" from rfl]
          at hsum
        simp only [List.length_append] at hlength
        have hzero : ((d :: ds).flatMap brackets).length = 0 := by omega
        intro t ht
        rw [← brackets_eq_nil_iff]
        exact List.flatMap_eq_nil_iff.mp (List.length_eq_zero_iff.mp hzero) t ht
      · intro hall
        rw [brackets_intercalate_of_plain _ hall]
        rfl

end Markup

/-! ## The keys that were sent

Which keys a report can repeat, and that every value keeps to the account in which these may
be repeated. -/

namespace Value

mutual

/-- The keys of all mappings in the value. -/
def keys : Value → List Value
  | .list items | .tuple items | .set items | .frozenset items => keysOfItems items
  | .map entries => keysOfEntries entries
  | .record _ _ fields => keysOfFields fields
  | _ => []

/-- The keys in some items. -/
def keysOfItems : List Value → List Value
  | [] => []
  | v :: vs => keys v ++ keysOfItems vs

/-- The keys of some entries, and those in their keys and values. -/
def keysOfEntries : List (Value × Value) → List Value
  | [] => []
  | (k, v) :: rest => k :: (keys k ++ keys v ++ keysOfEntries rest)

/-- The keys in the values of some fields. -/
def keysOfFields : List (String × Value) → List Value
  | [] => []
  | (_, v) :: rest => keys v ++ keysOfFields rest

end

mutual

/-- The names of the enumerations whose options the value holds are plain. -/
def hasPlainNames : Value → Bool
  | .list items | .tuple items | .set items | .frozenset items => plainNamesInItems items
  | .map entries => plainNamesInEntries entries
  | .option e _ _ _ _ => isPlain e
  | .record _ _ fields => plainNamesInFields fields
  | _ => true

/-- So are those in some items. -/
def plainNamesInItems : List Value → Bool
  | [] => true
  | v :: vs => hasPlainNames v && plainNamesInItems vs

/-- So are those in some entries. -/
def plainNamesInEntries : List (Value × Value) → Bool
  | [] => true
  | (k, v) :: rest => hasPlainNames k && hasPlainNames v && plainNamesInEntries rest

/-- So are those in the values of some fields. -/
def plainNamesInFields : List (String × Value) → Bool
  | [] => true
  | (_, v) :: rest => hasPlainNames v && plainNamesInFields rest

end

end Value

/-- Plain texts may be said, and the steps to some keys as well. -/
def Account.keyed (ks : List Value) : Account :=
  { Vocabulary.plainTexts with
    Step := fun t => isPlain t = true ∨ ∃ k ∈ ks, t = (Check.keyStep k).text
    step := Or.inl }

namespace Value

variable {ks : List Value}

mutual

theorem keepsTo_keyed : ∀ {v : Value}, (∀ k ∈ v.keys, k ∈ ks) → v.hasPlainNames = true →
    v.KeepsTo (Account.keyed ks)
  | .list items, hk, hn | .tuple items, hk, hn | .set items, hk, hn | .frozenset items, hk, hn =>
      keepItems_keyed (show ∀ k ∈ keysOfItems items, k ∈ ks from hk) hn
  | .map entries, hk, hn => keepEntries_keyed (show ∀ k ∈ keysOfEntries entries, k ∈ ks from hk) hn
  | .record _ _ fields, hk, hn => keepFields_keyed (show ∀ k ∈ keysOfFields fields, k ∈ ks from hk) hn
  | .option _ _ _ _ _, _, hn => hn
  | .null, _, _ | .bool _, _, _ | .int _, _, _ | .float _, _, _ | .str _, _, _ | .date _, _, _
  | .object _, _, _ => trivial

theorem keepItems_keyed : ∀ {vs : List Value}, (∀ k ∈ keysOfItems vs, k ∈ ks) →
    plainNamesInItems vs = true → KeepItems (Account.keyed ks) vs
  | [], _, _ => trivial
  | v :: vs, hk, hn => by
      obtain ⟨hv, hvs⟩ := List.forall_mem_append.mp hk
      obtain ⟨hnv, hnvs⟩ := Bool.and_eq_true_iff.mp hn
      exact ⟨keepsTo_keyed hv hnv, keepItems_keyed hvs hnvs⟩

theorem keepEntries_keyed : ∀ {es : List (Value × Value)}, (∀ k ∈ keysOfEntries es, k ∈ ks) →
    plainNamesInEntries es = true → KeepEntries (Account.keyed ks) es
  | [], _, _ => trivial
  | (k, v) :: es, hk, hn => by
      obtain ⟨hkey, hk⟩ := List.forall_mem_cons.mp hk
      obtain ⟨hk, hes⟩ := List.forall_mem_append.mp hk
      obtain ⟨hk, hv⟩ := List.forall_mem_append.mp hk
      obtain ⟨hn, hnes⟩ := Bool.and_eq_true_iff.mp hn
      obtain ⟨hnk, hnv⟩ := Bool.and_eq_true_iff.mp hn
      exact ⟨Or.inr ⟨k, hkey, rfl⟩, keepsTo_keyed hk hnk, keepsTo_keyed hv hnv,
        keepEntries_keyed hes hnes⟩

theorem keepFields_keyed : ∀ {fs : List (String × Value)}, (∀ k ∈ keysOfFields fs, k ∈ ks) →
    plainNamesInFields fs = true → KeepFields (Account.keyed ks) fs
  | [], _, _ => trivial
  | (_, v) :: fs, hk, hn => by
      obtain ⟨hv, hfs⟩ := List.forall_mem_append.mp hk
      obtain ⟨hnv, hnfs⟩ := Bool.and_eq_true_iff.mp hn
      exact ⟨keepsTo_keyed hv hnv, keepFields_keyed hfs hnfs⟩

end

end Value

namespace Submission

/-- The keys of a submission that a report can repeat: those of the submission itself, unless the
schema ignores what it does not know, and those of all mappings in the values. -/
def repeatedKeys (c : Config) (s : Submission) : List Value :=
  (if c.extras = .ignore then [] else s.entries.map (·.1))
    ++ s.entries.flatMap fun e => e.2.flatMap Value.keys

variable {acc : Account}

theorem keepsTo_readField? {f : Field} {raw : List Value} {v : Value}
    (h : ∀ w ∈ raw, w.KeepsTo acc) (hv : readField? f raw = some v) : (collapseValue v).KeepsTo acc := by
  have values : ∀ w ∈ raw.map (coerce f.type.kind.scalar), w.KeepsTo acc := by
    intro w hw
    obtain ⟨r, hr, rfl⟩ := List.mem_map.mp hw
    rcases coerce_cases f.type.kind.scalar r with heq | ⟨_, heq⟩ | ⟨_, heq⟩ | ⟨_, heq⟩
    · rw [heq]
      exact h r hr
    · rw [heq]
      exact trivial
    · rw [heq]
      exact trivial
    · rw [heq]
      exact trivial
  have hread : v.KeepsTo acc := by
    rcases readField?_cases hv with rfl | heq
    · exact Value.keepItems_iff.mpr values
    · exact values v (heq ▸ List.mem_cons_self)
  rcases collapseValue_cases v with heq | heq
  · rw [heq]
    exact hread
  · rw [heq]
    exact trivial

theorem keepsTo_of_mem_collapse {schema : Schema} {s : Submission}
    (h : ∀ q ∈ s.entries, ∀ v ∈ q.2, v.KeepsTo acc) {e : Value × Value}
    (he : e ∈ collapse (s.parse schema)) :
    e.2.KeepsTo acc ∧ ∃ q ∈ s.entries, Check.keyStep q.1 = Check.keyStep e.1 := by
  obtain ⟨e', he', rfl⟩ := List.mem_map.mp he
  rcases List.mem_append.mp he' with he | he
  · obtain ⟨p, _, hp⟩ := List.mem_filterMap.mp he
    obtain ⟨v, hv, rfl⟩ := Option.map_eq_some_iff.mp hp
    obtain ⟨raw, hraw, hread⟩ := Option.bind_eq_some_iff.mp hv
    obtain ⟨q, hq, htext, rfl⟩ := mem_of_values? hraw
    refine ⟨keepsTo_readField? (h q hq) hread, q, hq, ?_⟩
    unfold Check.keyStep
    rw [htext]
    rfl
  · obtain ⟨q, hq, rfl⟩ := List.mem_map.mp he
    have hq := (List.mem_filter.mp hq).1
    refine ⟨?_, q, hq, rfl⟩
    have hunwrap : (unwrap q.2).KeepsTo acc := by
      unfold unwrap
      split
      · rename_i v heq
        exact h q hq v (heq ▸ List.mem_cons_self)
      · exact Value.keepItems_iff.mpr (h q hq)
    rcases collapseValue_cases (unwrap q.2) with heq | heq
    · show (collapseValue (unwrap q.2)).KeepsTo acc
      rw [heq]
      exact hunwrap
    · show (collapseValue (unwrap q.2)).KeepsTo acc
      rw [heq]
      exact trivial

end Submission

/-! ## Reports -/

namespace Schema

variable {schema : Schema} {s : Submission} {r : Report}

theorem tells_reportForm (hown : ∀ t ∈ (Ty.record schema).texts, isPlain t = true)
    (hnames : ∀ q ∈ s.entries, ∀ v ∈ q.2, v.hasPlainNames = true) :
    Outcome.Tells (Account.keyed (s.repeatedKeys schema.config))
      (schema.check (some false) (.map (Submission.collapse (s.parse schema)))) := by
  have keeps : ∀ q ∈ s.entries, ∀ v ∈ q.2,
      v.KeepsTo (Account.keyed (s.repeatedKeys schema.config)) := by
    intro q hq v hv
    refine Value.keepsTo_keyed ?_ (hnames q hq v hv)
    intro k hk
    refine List.mem_append_right _ (List.mem_flatMap.mpr ⟨q, hq, ?_⟩)
    exact List.mem_flatMap.mpr ⟨v, hv, hk⟩
  have hfields : ∀ f ∈ schema.fields.map (Field.fieldCheck (some false) schema.config),
      f.Tells (Account.keyed (s.repeatedKeys schema.config)) schema.config := by
    intro f hf
    rw [← Ty.fieldChecks_eq] at hf
    refine Ty.tellsFields ?_ _ f hf
    intro t ht
    exact hown t (List.mem_cons_of_mem _ ht)
  rw [schema.check_map]
  refine Check.tells_runEntries hfields _ ?_ ?_
  · intro e he
    exact (Submission.keepsTo_of_mem_collapse keeps he).1
  · intro e he
    obtain ⟨_, q, hq, hstep⟩ :=
      Submission.keepsTo_of_mem_collapse keeps (Check.mem_of_mem_keptEntries he)
    refine Or.inr ⟨q.1, List.mem_append_left _ ?_, by rw [hstep]⟩
    unfold Check.keptEntries at he
    split at he
    · exact absurd he List.not_mem_nil
    · rename_i hextras
      rw [if_neg hextras]
      exact List.mem_map.mpr ⟨q, hq, rfl⟩

/-- The messages of a report are plain, and its steps are plain or keys that were sent. -/
theorem plain_of_reportForm (hown : ∀ t ∈ (Ty.record schema).texts, isPlain t = true)
    (hnames : ∀ q ∈ s.entries, ∀ v ∈ q.2, v.hasPlainNames = true)
    (hr : schema.reportForm s = .ok r) {d : Detail} (hd : d ∈ r.details) :
    isPlain d.message = true ∧ ∀ step ∈ d.path,
      isPlain step.text = true ∨ ∃ k ∈ s.repeatedKeys schema.config,
        step.text = (Check.keyStep k).text := by
  have told := tells_reportForm hown hnames
  rcases Report.ofOutcome_eq_ok_iff.mp hr with ⟨_, _, rfl⟩ | ⟨fs, hfs, rfl⟩
  · exact absurd hd List.not_mem_nil
  · obtain ⟨_, hkeeps⟩ := told fs hfs
    obtain ⟨fault, hfault, rfl⟩ := List.mem_map.mp hd
    obtain ⟨htexts, hsteps⟩ := hkeeps fault hfault
    exact ⟨Vocabulary.plainTexts.message htexts, hsteps⟩

theorem valid_iff_of_reportForm (hr : schema.reportForm s = .ok r) :
    r.valid = true ↔ r.details = [] :=
  Report.valid_iff hr fun _ => schema.faults_ne_nil

end Schema

/-! ## Forms -/

namespace Form

/-- The block of errors that the form shows. -/
def errorBlock (f : Form) : String := Markup.errors f.message f.details

theorem errorBlock_mem_pieces {f : Form} {values : Value} {lang : Option String} {ps : List Piece}
    (h : f.pieces values lang = .ok ps) : .fixed f.errorBlock ∈ ps := by
  unfold pieces at h
  split at h
  · cases h
  · split at h
    · cases h
    · cases h
      unfold Markup.form
      simp [errorBlock]

theorem report_of_submit {f f' : Form} {data : Posted} {s : Submission} {heading : Option String}
    {r : Report} (hdata : Submission.ofPosted data = .ok s)
    (h : f.act (.submit data heading) = (f', .ok (.report r))) :
    f.schema.reportForm s = .ok r ∧ f' = f.showReport r heading := by
  have hposted : f.schema.reportPosted data = f.schema.reportForm s := by
    unfold Schema.reportPosted
    rw [hdata]
  have h : f.showOutcome (f.schema.reportPosted data) heading = (f', .ok (.report r)) := h
  rw [hposted] at h
  cases hr : f.schema.reportForm s with
  | error e =>
      rw [hr] at h
      cases h
  | ok r' =>
      rw [hr] at h
      cases h
      exact ⟨rfl, rfl⟩

theorem plain_heading {heading : Option String} (h : ∀ t, heading = some t → isPlain t = true) :
    ((nonEmpty heading).getD defaultHeading).isEmpty = false ∧
      isPlain ((nonEmpty heading).getD defaultHeading) = true := by
  have hdefault : defaultHeading.isEmpty = false ∧ isPlain defaultHeading = true :=
    ⟨rfl, isPlain_of_all rfl⟩
  cases heading with
  | none => exact hdefault
  | some t =>
      unfold nonEmpty
      cases hempty : t.isEmpty with
      | true =>
          rw [Option.filter_some, hempty]
          exact hdefault
      | false =>
          rw [Option.filter_some, hempty]
          exact ⟨hempty, h t rfl⟩

/-- After a submission the tags in the block of errors are those of its layout, and so depend on
the number of errors alone, exactly when no reported path holds a bracket.  A step of a path
that holds one is a key that was sent.  The block is what every page of the form shows. -/
theorem errorBlock_plain_iff {f f' : Form} {data : Posted} {s : Submission}
    {heading : Option String} {r : Report}
    (hown : ∀ t ∈ (Ty.record f.schema).texts, isPlain t = true)
    (hheading : ∀ t, heading = some t → isPlain t = true) (hmessage : f.message = "")
    (hdata : Submission.ofPosted data = .ok s)
    (hnames : ∀ q ∈ s.entries, ∀ v ∈ q.2, v.hasPlainNames = true)
    (h : f.act (.submit data heading) = (f', .ok (.report r))) :
    (brackets f'.errorBlock = brackets (Markup.errorLayout r.details.length)
      ↔ ∀ d ∈ r.details, ∀ step ∈ d.path, isPlain step.text = true) ∧
    (∀ d ∈ r.details, ∀ step ∈ d.path, isPlain step.text = true ∨
      ∃ k ∈ s.repeatedKeys f.schema.config, step.text = (Check.keyStep k).text) ∧
    ∀ values lang ps, f'.pieces values lang = .ok ps → .fixed f'.errorBlock ∈ ps := by
  obtain ⟨hr, rfl⟩ := report_of_submit hdata h
  refine ⟨?_, fun d hd => (Schema.plain_of_reportForm hown hnames hr hd).2,
    fun _ _ _ => errorBlock_mem_pieces⟩
  have hvalid := Schema.valid_iff_of_reportForm hr
  unfold showReport errorBlock
  by_cases hv : r.valid = true
  · rw [if_pos hv, hvalid.mp hv, hmessage]
    exact ⟨fun _ d hd => absurd hd List.not_mem_nil, fun _ => rfl⟩
  · obtain ⟨hempty, hplain⟩ := plain_heading hheading
    have hlines : r.errors = r.details.map Detail.line := Report.errors_ofOutcome hr
    have hlength : r.details.length = r.errors.length := by rw [hlines, List.length_map]
    have hne : r.errors ≠ [] := by
      rw [hlines]
      exact fun hnil => hv (hvalid.mpr (List.map_eq_nil_iff.mp hnil))
    rw [if_neg hv]
    show brackets (Markup.errors ((nonEmpty heading).getD defaultHeading) r.errors) = _ ↔ _
    rw [hlength, Markup.brackets_errors_iff hempty hplain hne, hlines, List.forall_mem_map]
    constructor
    · intro hall d hd
      exact (isPlain_line_iff (Schema.plain_of_reportForm hown hnames hr hd).1).mp (hall d hd)
    · intro hall d hd
      exact (isPlain_line_iff (Schema.plain_of_reportForm hown hnames hr hd).1).mpr (hall d hd)

/-- A form of a schema that forbids names which it does not know. -/
def closedForm : Form where
  schema := {
    name := "Person"
    fields := [{ name := "name", type := .str }]
    config := { extras := .forbid } }
  options := { passwordHideSvg := "", passwordShowSvg := "" }
  buttonLabel := "Submit"
  componentElement := Form.defaultComponentElement

/-- A name that is missing is reported within the layout of one error. -/
theorem missing_name_plain :
    brackets (closedForm.act (.submit (.value (.map [])) none)).1.errorBlock
      = brackets (Markup.errorLayout 1) := by
  have paths : (closedForm.schema.reportForm (.single [])).toOption.map
      (fun r => r.details.map fun d => d.path) = some [[.key "name"]] := by decide +kernel
  cases hr : closedForm.schema.reportForm (.single []) with
  | error e =>
      rw [hr] at paths
      cases paths
  | ok r =>
      rw [hr] at paths
      have hpaths : r.details.map (fun d => d.path) = [[.key "name"]] := Option.some.inj paths
      have h : closedForm.act (.submit (.value (.map [])) none)
          = (closedForm.showReport r none, .ok (.report r)) := by
        show closedForm.showOutcome (closedForm.schema.reportForm (.single [])) none = _
        rw [hr]
        rfl
      obtain ⟨hblock, _⟩ := errorBlock_plain_iff (s := .single []) (by decide)
        (by intro _ hnone; cases hnone) rfl rfl (fun _ hq => absurd hq List.not_mem_nil) h
      have hlength : r.details.length = 1 := by
        rw [← List.length_map (f := fun d => d.path), hpaths]
        rfl
      rw [h, ← hlength]
      refine hblock.mpr ?_
      intro d hd step hstep
      have hmem : d.path ∈ [[Step.key "name"]] := hpaths ▸ List.mem_map.mpr ⟨d, hd, rfl⟩
      rw [List.mem_singleton.mp hmem, List.mem_singleton] at hstep
      rw [hstep]
      exact isPlain_of_all rfl

/-- A forbidden name that is a tag becomes a tag of the block. -/
theorem forbidden_name_writes_tag :
    (∀ t ∈ (Ty.record closedForm.schema).texts, isPlain t = true) ∧ closedForm.message = "" ∧
      (closedForm.act (.submit (.value (.ofPairs [("name", .str "Ada"), ("<b>", .str "")]))
          none)).1.details = ["<b>: Extra inputs are not permitted"] ∧
      brackets (closedForm.act (.submit
          (.value (.ofPairs [("name", .str "Ada"), ("<b>", .str "")])) none)).1.errorBlock
        ≠ brackets (Markup.errorLayout 1) := by
  decide +kernel

end Form

end WebForm
