/-
What the check of a schema's languages decides, and what it reports.

The values that can be given by language are the labels, hints and texts of that kind, over
all definitions and in the order in which they are declared.  They are mixed if some are given
by language and some are not.  The main result is `checkConsistency_exact`, which says
everything that the check does, of every list of definitions:

    (∃ fault, checkConsistency ds = .error fault) ↔ Mixed (localizable ds)

and if nothing is mixed, the check answers whether any value is given by language.  Its fault
names the first value of another kind than the first, the kind that it should have been, and
the fields with values before it, sorted and each once (`Reports`).  Whether it fails, and
what it answers, does not depend on the order of the fields or of the attributes; which value
it names does, and so permutation is stated of the answer alone, `toOption`.

Behind it stands one induction.  The values are taken in order, and a `Survey` is what is
known after some of them: the kind of the first, and the fields that they came from.  A value
of that kind is taken in, and the first of the other kind is the fault.  `Survey.Of.run` says
that a run ends with a survey of all values, or at the first one that does not agree with
those before it.  Both what the check decides and what it reports are read off that, and that
the check says of the values what such a run says is the last part of the main result: the
check as it is defined looks at all values at once, and the run has a state.
-/
import Mathlib.Data.List.Forall2
import Mathlib.Data.List.Perm.Basic
import Mathlib.Data.String.Basic
import WebForm.Proofs.Consistency

namespace WebForm.Definition

/-! ## Names in order

The fault lists names sorted and each once.  Of that only this is used: the list ascends
strictly and has the given members, and there is just one such list. -/

theorem exists_eraseReps_loop_eq (a : String) (as seen : List String) :
    ∃ rest, List.eraseRepsBy.loop (· == ·) a as seen = seen.reverse ++ a :: rest ∧
      (∀ b, b ∈ a :: rest ↔ b ∈ a :: as) ∧
      ((a :: as).Pairwise (· ≤ ·) → (a :: rest).Pairwise (· < ·)) := by
  induction as generalizing a seen with
  | nil =>
      refine ⟨[], ?_, fun b => Iff.rfl, fun _ => List.pairwise_singleton _ _⟩
      rw [List.eraseRepsBy.loop, List.reverse_cons]
  | cons a' as ih =>
      rw [List.eraseRepsBy.loop]
      by_cases heq : a = a'
      · subst heq
        obtain ⟨rest, hloop, hmem, hsorted⟩ := ih a seen
        rw [beq_self_eq_true]
        refine ⟨rest, hloop, fun b => ?_, fun h => hsorted h.tail⟩
        rw [hmem]
        simp only [List.mem_cons, or_self_left]
      · obtain ⟨rest, hloop, hmem, hsorted⟩ := ih a' (a :: seen)
        rw [beq_eq_false_iff_ne.mpr heq]
        refine ⟨a' :: rest, ?_, fun b => ?_, fun h => ?_⟩
        · dsimp only
          rw [hloop, List.reverse_cons, List.append_assoc, List.singleton_append]
        · rw [List.mem_cons, hmem, ← List.mem_cons]
        · obtain ⟨hfirst, htail⟩ := List.pairwise_cons.mp h
          refine List.pairwise_cons.mpr ⟨fun b hb => ?_, hsorted htail⟩
          have hlt : a < a' := lt_of_le_of_ne (hfirst a' List.mem_cons_self) heq
          rcases List.mem_cons.mp ((hmem b).mp hb) with rfl | hb
          · exact hlt
          · exact lt_of_lt_of_le hlt ((List.pairwise_cons.mp htail).1 b hb)

theorem sortedNames_spec (names : List String) :
    (sortedNames names).Pairwise (· < ·) ∧ ∀ name, name ∈ sortedNames names ↔ name ∈ names := by
  have hsorted : (names.mergeSort fun a b => decide (a ≤ b)).Pairwise (· ≤ ·) := by
    refine (List.pairwise_mergeSort ?_ ?_ names).imp fun h => of_decide_eq_true h
    · intro a b c hab hbc
      exact decide_eq_true (le_trans (of_decide_eq_true hab) (of_decide_eq_true hbc))
    · intro a b
      simpa using le_total a b
  have hmem : ∀ name, name ∈ (names.mergeSort fun a b => decide (a ≤ b)) ↔ name ∈ names :=
    fun name => List.mem_mergeSort
  unfold sortedNames
  generalize (names.mergeSort fun a b => decide (a ≤ b)) = sorted at hsorted hmem
  cases sorted with
  | nil => exact ⟨List.Pairwise.nil, hmem⟩
  | cons a as =>
      obtain ⟨rest, hloop, hrest, hlt⟩ := exists_eraseReps_loop_eq a as []
      have heq : (a :: as).eraseReps = a :: rest := hloop
      rw [heq]
      exact ⟨hlt hsorted, fun name => (hrest name).trans (hmem name)⟩

theorem sortedNames_eq {names sorted : List String} (h : sorted.Pairwise (· < ·))
    (hmem : ∀ name, name ∈ sorted ↔ name ∈ names) : sortedNames names = sorted := by
  obtain ⟨hlt, hnames⟩ := sortedNames_spec names
  refine List.Perm.eq_of_pairwise (fun a b _ _ hab hba => absurd hba hab.asymm) hlt h ?_
  refine (List.perm_ext_iff_of_nodup (hlt.imp ne_of_lt) (h.imp ne_of_lt)).mpr fun name => ?_
  rw [hnames, hmem]

/-! ## Values one by one

A survey of values that agree takes one more of their kind, and stops at one of the other kind
with a fault that says what was known until then.  The run adds nothing but the induction. -/

/-- What is known after some values: their kind, if there was one, and the fields that they came
from. -/
structure Survey where
  kind : Option Bool := none
  fields : List String := []

/-- Takes one value: the first decides the kind, and every later one has to be of it. -/
def Survey.take (s : Survey) (v : LocalizableValue) : Except ConfigurationFault Survey :=
  let fields := if s.fields.contains v.field then s.fields else s.fields ++ [v.field]
  match s.kind with
  | none => .ok { kind := some v.localized, fields }
  | some kind =>
    if v.localized = kind then .ok { s with fields }
    else .error (.mixedLocalization (v.field ++ "." ++ v.key) kind (sortedNames s.fields))

/-- The survey is one of values that agree. -/
structure Survey.Of (s : Survey) (values : List LocalizableValue) : Prop where
  start : s.kind = none ↔ values = []
  agree : ∀ v ∈ values, s.kind = some v.localized
  fields : ∀ name, name ∈ s.fields ↔ ∃ v ∈ values, v.field = name

theorem Survey.of_nil : Survey.Of {} [] where
  start := Iff.intro (fun _ => rfl) fun _ => rfl
  agree := fun _ h => absurd h List.not_mem_nil
  fields := fun name => by simp

theorem Survey.Of.take {s : Survey} {values : List LocalizableValue} (h : s.Of values)
    (v : LocalizableValue) :
    (∃ s', s.take v = .ok s' ∧ s'.Of (values ++ [v])) ∨
      ∃ kind, s.kind = some kind ∧ v.localized ≠ kind ∧
        s.take v = .error (.mixedLocalization (v.field ++ "." ++ v.key) kind
          (sortedNames s.fields)) := by
  have hfields : ∀ name,
      name ∈ (if s.fields.contains v.field then s.fields else s.fields ++ [v.field])
        ↔ ∃ w ∈ values ++ [v], w.field = name := by
    intro name
    have hlast : (∃ w ∈ values ++ [v], w.field = name) ↔ name ∈ s.fields ∨ v.field = name := by
      rw [h.fields]
      simp [or_and_right, exists_or]
    rw [hlast]
    split
    · rename_i hseen
      refine ⟨Or.inl, fun hor => hor.elim id fun heq => ?_⟩
      exact heq ▸ List.contains_iff_mem.mp hseen
    · rw [List.mem_append, List.mem_singleton, eq_comm (a := name)]
  have joined : ∀ fields : List String,
      (∀ name, name ∈ fields ↔ ∃ w ∈ values ++ [v], w.field = name) →
      (∀ w ∈ values, w.localized = v.localized) →
      Survey.Of { kind := some v.localized, fields } (values ++ [v]) := by
    intro fields hfields hsame
    refine ⟨⟨nofun, fun hnil => absurd hnil (List.append_ne_nil_of_right_ne_nil _ nofun)⟩, ?_, hfields⟩
    intro w hw
    rcases List.mem_append.mp hw with hw | hw
    · exact congrArg some (hsame w hw).symm
    · rw [List.mem_singleton.mp hw]
  unfold Survey.take
  cases hkind : s.kind with
  | none =>
      refine Or.inl ⟨_, rfl, joined _ hfields fun w hw => ?_⟩
      rw [h.start.mp hkind] at hw
      exact absurd hw List.not_mem_nil
  | some kind =>
      by_cases heq : v.localized = kind
      · subst heq
        refine Or.inl ⟨_, if_pos rfl, joined _ hfields fun w hw => ?_⟩
        exact Option.some.inj ((h.agree w hw).symm.trans hkind)
      · exact Or.inr ⟨kind, rfl, heq, if_neg heq⟩

/-- A run over values ends with a survey of them all, or at the first that does not agree with those
before it. -/
theorem Survey.Of.run {s : Survey} {before : List LocalizableValue} (h : s.Of before)
    (values : List LocalizableValue) :
    (∃ s', values.foldlM Survey.take s = .ok s' ∧ s'.Of (before ++ values)) ∨
      ∃ (seen rest : List LocalizableValue) (odd : LocalizableValue) (s' : Survey) (kind : Bool),
        values = seen ++ odd :: rest ∧ s'.Of (before ++ seen) ∧ s'.kind = some kind ∧
        odd.localized ≠ kind ∧
        values.foldlM Survey.take s = .error (.mixedLocalization (odd.field ++ "." ++ odd.key) kind
          (sortedNames s'.fields)) := by
  induction values generalizing s before with
  | nil => exact Or.inl ⟨s, rfl, (List.append_nil before).symm ▸ h⟩
  | cons v values ih =>
      rw [List.foldlM_cons]
      rcases h.take v with ⟨s', htake, hs'⟩ | ⟨kind, hkind, hodd, hfault⟩
      · rw [htake]
        rcases ih hs' with ⟨s'', hrun, hs''⟩ | ⟨seen, rest, odd, s'', kind, rfl, hs'', hrest⟩
        · rw [List.append_assoc] at hs''
          exact Or.inl ⟨s'', hrun, hs''⟩
        · rw [List.append_assoc] at hs''
          exact Or.inr ⟨v :: seen, rest, odd, s'', kind, rfl, hs'', hrest⟩
      · rw [hfault]
        refine Or.inr ⟨[], values, v, s, kind, rfl, ?_, hkind, hodd, rfl⟩
        rwa [List.append_nil]

theorem agreement_of_odd {before after : List LocalizableValue} {odd : LocalizableValue} {kind : Bool}
    (hne : before ≠ []) (hsame : ∀ v ∈ before, v.localized = kind) (hodd : odd.localized ≠ kind) :
    agreement (before ++ odd :: after) = .error (.mixedLocalization (odd.field ++ "." ++ odd.key) kind
      (sortedNames (before.map (·.field)))) := by
  cases before with
  | nil => exact absurd rfl hne
  | cons first rest =>
      obtain ⟨rfl, hrest⟩ := List.forall_mem_cons.mp hsame
      have hagreeing : (first :: rest ++ odd :: after).takeWhile
          (fun v => v.localized == first.localized) = first :: rest := by
        rw [List.takeWhile_append_of_pos fun v hv => beq_iff_eq.mpr (hsame v hv),
          List.takeWhile_cons_of_neg (by simpa using hodd), List.append_nil]
      have hfirst : (rest ++ odd :: after).find? (fun v => v.localized != first.localized)
          = some odd := by
        refine List.find?_eq_some_iff_append.mpr ⟨bne_iff_ne.mpr hodd, rest, after, rfl, ?_⟩
        intro v hv
        simpa using hrest v hv
      rw [List.cons_append] at hagreeing ⊢
      simp only [agreement, hagreeing, hfirst]

theorem agreement_eq_run (values : List LocalizableValue) :
    agreement values = (values.foldlM Survey.take {}).map fun s => s.kind.getD false := by
  rcases Survey.of_nil.run values with
    ⟨s, hrun, hs⟩ | ⟨seen, rest, odd, s, kind, rfl, hs, hkind, hodd, hrun⟩
  · rw [List.nil_append] at hs
    have hagree : ¬Mixed values := by
      rintro ⟨v, hv, w, hw, hne⟩
      exact hne (Option.some.inj ((hs.agree v hv).symm.trans (hs.agree w hw)))
    have hany : values.any (·.localized) = s.kind.getD false := by
      cases values with
      | nil => rw [hs.start.mpr rfl, List.any_nil, Option.getD_none]
      | cons first rest =>
          rw [hs.agree first List.mem_cons_self, Option.getD_some, Bool.eq_iff_iff,
            List.any_eq_true]
          refine ⟨fun ⟨v, hv, htrue⟩ => ?_, fun htrue => ⟨first, List.mem_cons_self, htrue⟩⟩
          have hsame := (hs.agree first List.mem_cons_self).symm.trans (hs.agree v hv)
          rw [Option.some.inj hsame, htrue]
    rw [hrun, agreement_of_not_mixed hagree, hany]
    rfl
  · rw [List.nil_append] at hs
    have hne : seen ≠ [] := fun hnil => absurd (hkind.symm.trans (hs.start.mpr hnil)) nofun
    have hsame : ∀ v ∈ seen, v.localized = kind := fun v hv =>
      Option.some.inj ((hs.agree v hv).symm.trans hkind)
    have hnames : sortedNames (seen.map (·.field)) = sortedNames s.fields := by
      obtain ⟨hsorted, hmem⟩ := sortedNames_spec s.fields
      refine sortedNames_eq hsorted fun name => ?_
      rw [hmem, hs.fields, List.mem_map]
    rw [hrun, agreement_of_odd hne hsame hodd, hnames]
    rfl

/-! ## Where the first value of another kind stands

A value is one attribute of one definition.  Before it in the list come the values of the
definitions before its own, and those of the attributes before it in its own: that is where
the fields come from that a fault names. -/

theorem localizable_append (ds es : List Definition) :
    localizable (ds ++ es) = localizable ds ++ localizable es := by
  unfold localizable
  rw [List.flatMap_append]

theorem localizable_singleton (d : Definition) :
    localizable [d] = (d.attributes.filter fun a => localizableNames.contains a.1 && !a.2.isEmpty).map
      fun a => ⟨d.name, a.1, a.2.isLocalized⟩ := by
  unfold localizable
  rw [List.flatMap_singleton]

theorem exists_place {ds : List Definition} {before after : List LocalizableValue}
    {v : LocalizableValue} (h : localizable ds = before ++ v :: after) :
    ∃ (earlier later : List Definition) (d : Definition) (first last : List (String × Value))
      (a : String × Value), ds = earlier ++ d :: later ∧ d.attributes = first ++ a :: last ∧
        a.1 ∈ localizableNames ∧ a.2.isEmpty = false ∧ v = ⟨d.name, a.1, a.2.isLocalized⟩ ∧
        before = localizable (earlier ++ [{ d with attributes := first }]) := by
  induction ds generalizing before with
  | nil => cases before <;> cases h
  | cons d ds ih =>
      have hcons : localizable (d :: ds) = localizable [d] ++ localizable ds :=
        localizable_append [d] ds
      rw [hcons] at h
      -- the value is one of the definitions behind the first, or one of the first
      rcases List.append_eq_append_iff.mp h with ⟨others, hbefore, hds⟩ | ⟨others, hd, hrest⟩
      · obtain ⟨earlier, later, e, first, last, a, rfl, he, hkey, hempty, hv, rfl⟩ := ih hds
        refine ⟨d :: earlier, later, e, first, last, a, rfl, he, hkey, hempty, hv, ?_⟩
        rw [hbefore]
        exact (localizable_append [d] _).symm
      · cases others with
        | nil =>
            obtain ⟨earlier, later, e, first, last, a, rfl, he, hkey, hempty, hv, hnil⟩ :=
              ih (hrest.symm.trans (List.nil_append _).symm)
            refine ⟨d :: earlier, later, e, first, last, a, rfl, he, hkey, hempty, hv, ?_⟩
            rw [List.append_nil] at hd
            rw [← hd, ← List.append_nil (localizable [d]), hnil]
            exact (localizable_append [d] _).symm
        | cons w others =>
            cases hrest
            rw [localizable_singleton] at hd
            obtain ⟨kept, others', hfilter, hkept, hothers⟩ := List.map_eq_append_iff.mp hd
            obtain ⟨a, _, rfl, rfl, _⟩ := List.map_eq_cons_iff.mp hothers
            obtain ⟨first, rest, hattributes, rfl, hrest⟩ := List.filter_eq_append_iff.mp hfilter
            obtain ⟨skipped, last, rfl, hskipped, ha, _⟩ := List.filter_eq_cons_iff.mp hrest
            rw [Bool.and_eq_true, List.contains_iff_mem, Bool.not_eq_true'] at ha
            refine ⟨[], ds, d, first ++ skipped, last, a, rfl, ?_, ha.1, ha.2, rfl, ?_⟩
            · rw [hattributes, List.append_assoc]
            · rw [List.nil_append, localizable_singleton, ← hkept, List.filter_append,
                List.filter_eq_nil_iff.mpr hskipped, List.append_nil]

/-- What a fault says of definitions whose values are mixed: it names the first attribute of another
kind than the first, and the fields with values before it. -/
inductive Reports (ds : List Definition) : ConfigurationFault → Prop where
  | mk {earlier later : List Definition} {d : Definition} {first last : List (String × Value)}
      {a : String × Value} {kind : Bool} {confirmed : List String}
      (hds : ds = earlier ++ d :: later) (hd : d.attributes = first ++ a :: last)
      (hkey : a.1 ∈ localizableNames) (hempty : a.2.isEmpty = false)
      (hodd : a.2.isLocalized ≠ kind)
      (hfirst : (localizable ds).head?.map (·.localized) = some kind)
      (hbefore : ∀ v ∈ localizable (earlier ++ [{ d with attributes := first }]), v.localized = kind)
      (hsorted : confirmed.Pairwise (· < ·))
      (hconfirmed : ∀ name, name ∈ confirmed
        ↔ ∃ v ∈ localizable (earlier ++ [{ d with attributes := first }]), v.field = name) :
      Reports ds (.mixedLocalization (d.name ++ "." ++ a.1) kind confirmed)

theorem reports_of_error {ds : List Definition} {fault : ConfigurationFault}
    (h : checkConsistency ds = .error fault) : Reports ds fault := by
  unfold checkConsistency at h
  rw [agreement_eq_run] at h
  rcases Survey.of_nil.run (localizable ds) with
    ⟨s, hrun, _⟩ | ⟨seen, rest, odd, s, kind, hvalues, hs, hkind, hodd, hrun⟩
  · rw [hrun] at h
    cases h
  · rw [hrun] at h
    cases h
    rw [List.nil_append] at hs
    obtain ⟨earlier, later, d, first, last, a, hds, hd, hkey, hempty, rfl, rfl⟩ := exists_place hvalues
    obtain ⟨hsorted, hconfirmed⟩ := sortedNames_spec s.fields
    refine .mk hds hd hkey hempty hodd ?_ ?_ hsorted ?_
    · rw [hvalues]
      cases hseen : localizable (earlier ++ [{ d with attributes := first }]) with
      | nil => exact absurd (hkind.symm.trans (hs.start.mpr hseen)) nofun
      | cons v seen =>
          rw [hseen] at hs
          rw [List.cons_append, List.head?_cons, Option.map_some, ← hkind]
          exact (hs.agree v List.mem_cons_self).symm
    · intro v hv
      exact Option.some.inj ((hs.agree v hv).symm.trans hkind)
    · intro name
      rw [hconfirmed, hs.fields]

/-! ## Orders of fields and attributes

Another order of fields and attributes is another order of the values, and what is decided of
the values is a question about all of them. -/

/-- The definitions are the same up to the order of the fields, and of the attributes in each. -/
def Rearranged (ds es : List Definition) : Prop :=
  ∃ mid, List.Forall₂ (fun d e => e.name = d.name ∧ e.attributes.Perm d.attributes) ds mid ∧
    mid.Perm es

theorem Rearranged.localizable_perm {ds es : List Definition} (h : Rearranged ds es) :
    (localizable ds).Perm (localizable es) := by
  obtain ⟨mid, hmid, hperm⟩ := h
  have hfields : (localizable mid).Perm (localizable es) :=
    List.Perm.flatMap hperm fun _ _ => List.Perm.refl _
  refine List.Perm.trans ?_ hfields
  clear hperm hfields
  induction hmid with
  | nil => exact List.Perm.refl _
  | @cons d e ds mid hde _ ih =>
      obtain ⟨hname, hattributes⟩ := hde
      have hfirst : (localizable [d]).Perm (localizable [e]) := by
        rw [localizable_singleton, localizable_singleton, hname]
        exact (hattributes.symm.filter _).map _
      show (localizable ([d] ++ ds)).Perm (localizable ([e] ++ mid))
      rw [localizable_append, localizable_append]
      exact hfirst.append ih

theorem toOption_agreement_perm {values others : List LocalizableValue} (h : values.Perm others) :
    (agreement others).toOption = (agreement values).toOption := by
  have hmixed : Mixed others ↔ Mixed values := by
    unfold Mixed
    simp only [h.mem_iff]
  by_cases hvalues : Mixed values
  · obtain ⟨_, _, _, heq⟩ := agreement_of_mixed hvalues
    obtain ⟨_, _, _, heq'⟩ := agreement_of_mixed (hmixed.mpr hvalues)
    rw [heq, heq']
    rfl
  · have hany : others.any (·.localized) = values.any (·.localized) := by
      rw [Bool.eq_iff_iff, List.any_eq_true, List.any_eq_true]
      simp only [h.mem_iff]
    rw [agreement_of_not_mixed hvalues, agreement_of_not_mixed (mt hmixed.mp hvalues), hany]

/-! ## The check -/

/-- The check of a schema's languages fails exactly for mixed values, and otherwise says whether one of
them is given by language, in whatever order the fields and their attributes come.  Its fault names the
first attribute of another kind than the first, that kind, and the fields with values before, sorted
and each once.  It is what comes of taking the values one by one. -/
theorem checkConsistency_exact (ds : List Definition) :
    ((∃ fault, checkConsistency ds = .error fault) ↔ Mixed (localizable ds)) ∧
    (¬Mixed (localizable ds) → checkConsistency ds = .ok ((localizable ds).any (·.localized))) ∧
    (∀ fault, checkConsistency ds = .error fault → Reports ds fault) ∧
    (∀ es, Rearranged ds es → (checkConsistency es).toOption = (checkConsistency ds).toOption) ∧
    checkConsistency ds
      = ((localizable ds).foldlM Survey.take {}).map fun s => s.kind.getD false := by
  refine ⟨⟨?_, ?_⟩, agreement_of_not_mixed, fun _ => reports_of_error, ?_, agreement_eq_run _⟩
  · rintro ⟨fault, hfault⟩
    refine Classical.byContradiction fun hmixed => ?_
    exact absurd (hfault.symm.trans (agreement_of_not_mixed hmixed)) nofun
  · intro hmixed
    obtain ⟨_, _, _, hfault⟩ := agreement_of_mixed hmixed
    exact ⟨_, hfault⟩
  · intro es hes
    exact toOption_agreement_perm hes.localizable_perm

/-- A text that is labelled in one language, next to a text that is labelled in English and has a hint
for all. -/
def badge : List Definition := [
  { name := "title", required := true,
    attributes := [("label", .str "Title"), ("hint", .ofPairs [])] },
  { name := "name", required := true,
    attributes := [("hint", .str "In full"), ("label", .ofPairs [("en", .str "Name")])] }]

/-- Its label by language is the fault, and both fields have values before it; with the fields and the
attributes in another order, the check fails as well. -/
theorem badge_reported :
    checkConsistency badge = .error (.mixedLocalization "name.label" false ["name", "title"]) ∧
      Reports badge (.mixedLocalization "name.label" false ["name", "title"]) ∧
      ∀ es, Rearranged badge es → (checkConsistency es).toOption = none := by
  have fault : checkConsistency badge
      = .error (.mixedLocalization "name.label" false ["name", "title"]) := by
    have values : localizable badge
        = [⟨"title", "label", false⟩, ⟨"name", "hint", false⟩] ++ [⟨"name", "label", true⟩] := by
      decide +kernel
    have names : sortedNames ["title", "name"] = ["name", "title"] :=
      sortedNames_eq (by decide) fun name => by simp [or_comm]
    unfold checkConsistency
    have same : ∀ v ∈ [⟨"title", "label", false⟩, ⟨"name", "hint", false⟩],
        LocalizableValue.localized v = false := by
      decide
    rw [values, agreement_of_odd (List.cons_ne_nil _ _) same (by decide)]
    exact congrArg (fun names => Except.error (ConfigurationFault.mixedLocalization _ _ names)) names
  obtain ⟨_, _, reports, rearranged, _⟩ := checkConsistency_exact badge
  refine ⟨fault, reports _ fault, fun es hes => ?_⟩
  rw [rearranged es hes, fault]
  rfl

end WebForm.Definition
