/-
Lists without repetitions.

Two parts of a schema drop alternatives that are the same as an earlier one: the check of a
choice, and the survey of its kinds.  They compare by relations of their own, which need be
neither symmetric nor reflexive.  A type with limits is not even the same as itself.  So
nothing is asked of sameness here, and the usual facts about lists without duplicates, which
are about equality, do not apply.

The members of a list are taken in turn, and one is left out when it is the same as one that
was taken before it.  What is left is a part of the list (`distinctBy_sublist`), each of its
members differs from all before it (`distinctBy_pairwise`), and such a list is left as it is
(`distinctBy_eq_self`).  These three determine how it is used: dropping again drops nothing,
and of a list that is not empty something is left.

The last two laws compare two runs.  Lists that are related member by member stay so if
sameness goes with the relation, which serves where one schema is checked in two settings; and
what is mapped is the same where its images are.
-/
import Mathlib.Data.List.Forall2

namespace WebForm

variable {α : Type} {same : α → α → Bool}

/-- A member joins those that were seen, unless it is the same as one of them. -/
def joinNew (same : α → α → Bool) (seen : List α) (a : α) : List α :=
  if seen.any (same a) then seen else a :: seen

/-- The members of a list without those that are the same as an earlier one. -/
def distinctBy (same : α → α → Bool) (as : List α) : List α := (as.foldl (joinNew same) []).reverse

theorem distinctBy_sublist (as : List α) : (distinctBy same as).Sublist as := by
  have hjoin : ∀ seen a, (joinNew same seen a).Sublist (a :: seen) := by
    intro seen a
    unfold joinNew
    split
    · exact List.sublist_cons_self a seen
    · exact List.Sublist.refl _
  have hfold : ∀ seen, (as.foldl (joinNew same) seen).Sublist (as.reverse ++ seen) := by
    induction as with
    | nil => exact fun seen => List.Sublist.refl seen
    | cons a as ih =>
        intro seen
        rw [List.foldl_cons, List.reverse_cons, List.append_assoc]
        exact (ih _).trans (List.Sublist.append_left (hjoin seen a) _)
  have hreverse := (hfold []).reverse
  rwa [List.append_nil, List.reverse_reverse] at hreverse

/-- No member that is left is the same as an earlier one. -/
theorem distinctBy_pairwise (as : List α) :
    (distinctBy same as).Pairwise fun a b => same b a = false := by
  have hfold : ∀ seen : List α, seen.Pairwise (fun b a => same b a = false) →
      (as.foldl (joinNew same) seen).Pairwise fun b a => same b a = false := by
    induction as with
    | nil => exact fun _ hseen => hseen
    | cons a as ih =>
        intro seen hseen
        refine ih _ ?_
        unfold joinNew
        split
        · exact hseen
        · rename_i hnew
          rw [Bool.not_eq_true, List.any_eq_false] at hnew
          exact List.pairwise_cons.mpr ⟨fun b hb => Bool.eq_false_iff.mpr (hnew b hb), hseen⟩
  rw [distinctBy, List.pairwise_reverse]
  exact hfold [] List.Pairwise.nil

theorem eq_nil_of_distinctBy_eq_nil {as : List α} (h : distinctBy same as = []) : as = [] := by
  have hgrow : ∀ (as seen : List α), seen.length ≤ (as.foldl (joinNew same) seen).length := by
    intro as
    induction as with
    | nil => exact fun seen => Nat.le_refl _
    | cons a as ih =>
        intro seen
        refine Nat.le_trans ?_ (ih _)
        unfold joinNew
        split
        · exact Nat.le_refl _
        · exact Nat.le_succ _
  cases as with
  | nil => rfl
  | cons a as =>
      have hfirst : 1 ≤ ((a :: as).foldl (joinNew same) []).length := hgrow as [a]
      rw [List.reverse_eq_nil_iff.mp h, List.length_nil] at hfirst
      exact absurd hfirst (Nat.not_succ_le_zero 0)

/-- Where no member is the same as an earlier one, none is left out. -/
theorem distinctBy_eq_self {as : List α} (h : as.Pairwise fun a b => same b a = false) :
    distinctBy same as = as := by
  have hfold : ∀ seen : List α, (∀ a ∈ as, ∀ b ∈ seen, same a b = false) →
      as.foldl (joinNew same) seen = as.reverse ++ seen := by
    induction h with
    | nil => exact fun _ _ => rfl
    | @cons a as hfirst _ ih =>
        intro seen hseen
        obtain ⟨ha, hrest⟩ := List.forall_mem_cons.mp hseen
        have hnew : joinNew same seen a = a :: seen := by
          unfold joinNew
          rw [if_neg]
          rw [Bool.not_eq_true, List.any_eq_false]
          exact fun b hb => by simp [ha b hb]
        rw [List.foldl_cons, hnew, ih, List.reverse_cons, List.append_assoc, List.singleton_append]
        intro b hb
        exact List.forall_mem_cons.mpr ⟨hfirst b hb, hrest b hb⟩
  rw [distinctBy, hfold [] fun _ _ _ hb => absurd hb List.not_mem_nil, List.append_nil,
    List.reverse_reverse]

/-- Two lists that are related member by member stay so, if sameness goes with the relation. -/
theorem distinctBy_forall₂ {β : Type} {same' : β → β → Bool} {R : α → β → Prop}
    (hsame : ∀ {a b a' b'}, R a b → R a' b' → same a a' = same' b b') {as : List α} {bs : List β}
    (h : List.Forall₂ R as bs) : List.Forall₂ R (distinctBy same as) (distinctBy same' bs) := by
  have hany : ∀ {a b}, R a b → ∀ {seen seen'}, List.Forall₂ R seen seen' →
      seen.any (same a) = seen'.any (same' b) := by
    intro a b hab seen seen' hseen
    induction hseen with
    | nil => rfl
    | cons hc _ ih => rw [List.any_cons, List.any_cons, hsame hab hc, ih]
  have hfold : ∀ {seen seen'}, List.Forall₂ R seen seen' →
      List.Forall₂ R (as.foldl (joinNew same) seen) (bs.foldl (joinNew same') seen') := by
    induction h with
    | nil => exact id
    | cons hab _ ih =>
        intro seen seen' hseen
        refine ih ?_
        unfold joinNew
        rw [hany hab hseen]
        split
        · exact hseen
        · exact List.Forall₂.cons hab hseen
  exact List.forall₂_reverse_iff.mpr (hfold List.Forall₂.nil)

theorem distinctBy_map {β : Type} (same : β → β → Bool) (f : α → β) (as : List α) :
    distinctBy same (as.map f) = (distinctBy (fun a b => same (f a) (f b)) as).map f := by
  have hjoin : ∀ (seen : List α) (a : α), joinNew same (seen.map f) (f a)
      = (joinNew (fun a b => same (f a) (f b)) seen a).map f := by
    intro seen a
    unfold joinNew
    rw [List.any_map]
    show (if seen.any (fun b => same (f a) (f b)) = true then _ else _) = _
    split <;> rfl
  have hfold : ∀ seen : List α, (as.map f).foldl (joinNew same) (seen.map f)
      = (as.foldl (joinNew fun a b => same (f a) (f b)) seen).map f := by
    induction as with
    | nil => exact fun _ => rfl
    | cons a as ih =>
        intro seen
        rw [List.map_cons, List.foldl_cons, List.foldl_cons, hjoin, ih]
  rw [distinctBy, distinctBy, List.map_reverse]
  exact congrArg List.reverse (hfold [])

theorem distinctBy_distinctBy (as : List α) :
    distinctBy same (distinctBy same as) = distinctBy same as :=
  distinctBy_eq_self (distinctBy_pairwise as)

end WebForm
