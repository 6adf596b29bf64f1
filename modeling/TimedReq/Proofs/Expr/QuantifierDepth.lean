import Mathlib.Data.Finset.Card
import Mathlib.Data.List.Chain
import Mathlib.Data.List.MinMax
import Mathlib.Order.Bounds.Basic
import Mathlib.Order.Nat
import TimedReq.Proofs.Expr.Height
import TimedReq.Proofs.Expr.Subexpressions

/-!
# Quantified paths on the way down

The depth of quantifiers is the greatest number of quantified paths that are met on a way from an
expression down to a predicate. Every step down is to a tree of less height, so no tree is met twice
on one way, and the depth is at most the number of different quantified paths in the expression.
-/

namespace TimedReq

variable {α : Type}

namespace Expr

/-- A way from an expression down to one that has no parts; each is directly above the next. -/
structure Descent (e : Expr α) (xs : List (Expr α)) : Prop where
  chain : List.IsChain IsAbove (e :: xs)
  ends : ((e :: xs).getLast (List.cons_ne_nil e xs)).children = []

lemma descent_nil {e : Expr α} : Descent e [] ↔ e.children = [] :=
  ⟨fun h => h.ends, fun h => ⟨List.isChain_singleton e, h⟩⟩

lemma descent_cons {e x : Expr α} {xs : List (Expr α)} :
    Descent e (x :: xs) ↔ IsAbove e x ∧ Descent x xs := by
  constructor
  · rintro ⟨hchain, hends⟩
    obtain ⟨hstep, hchain⟩ := List.isChain_cons_cons.mp hchain
    exact ⟨hstep, hchain, hends⟩
  · rintro ⟨hstep, hchain, hends⟩
    exact ⟨List.isChain_cons_cons.mpr ⟨hstep, hchain⟩, hends⟩

/-! ## The greatest number of quantified paths -/

lemma quantifierDepth_of_no_parts {e : Expr α} (h : e.children = []) :
    e.quantifierDepth = if e.isQuantified then 1 else 0 := by
  rw [quantifierDepth_eq_quantifierDepthOver, h, quantifierDepthOver]
  exact Nat.zero_add _

lemma quantifierDepth_le_of_isAbove {e x : Expr α} (h : IsAbove e x) :
    (x.quantifierDepth + if e.isQuantified then 1 else 0) ≤ e.quantifierDepth := by
  rw [quantifierDepth_eq_quantifierDepthOver e, quantifierDepthOver]
  apply Nat.add_le_add_right
  exact List.le_max_of_le (List.mem_map_of_mem h) (Nat.le_refl _)

/-- Some part is as deep as all of them together. -/
lemma exists_quantifierDepth_eq {e : Expr α} (h : e.children ≠ []) :
    ∃ x, IsAbove e x ∧ e.quantifierDepth = x.quantifierDepth + if e.isQuantified then 1 else 0 := by
  have hne : e.children.map quantifierDepth ≠ [] := by simpa using h
  have hmax := List.maximum_mem (List.foldr_max_of_ne_nil hne).symm
  obtain ⟨x, hx, hdepth⟩ := List.mem_map.mp hmax
  refine ⟨x, hx, ?_⟩
  rw [quantifierDepth_eq_quantifierDepthOver, quantifierDepthOver, hdepth]
  rfl

lemma Descent.countP_le {e : Expr α} {xs : List (Expr α)} (h : Descent e xs) :
    (e :: xs).countP isQuantified ≤ e.quantifierDepth := by
  induction xs generalizing e with
  | nil =>
    rw [quantifierDepth_of_no_parts (descent_nil.mp h), List.countP_cons, List.countP_nil,
      Nat.zero_add]
  | cons x xs ih =>
    obtain ⟨hstep, hrest⟩ := descent_cons.mp h
    rw [List.countP_cons]
    have hle := ih hrest
    have hbelow := quantifierDepth_le_of_isAbove hstep
    omega

lemma exists_descent (e : Expr α) :
    ∃ xs, Descent e xs ∧ (e :: xs).countP isQuantified = e.quantifierDepth := by
  induction e using parts_induction with
  | step e ih =>
    by_cases hparts : e.children = []
    · refine ⟨[], descent_nil.mpr hparts, ?_⟩
      rw [quantifierDepth_of_no_parts hparts, List.countP_cons, List.countP_nil, Nat.zero_add]
    · obtain ⟨x, hx, hdepth⟩ := exists_quantifierDepth_eq hparts
      obtain ⟨xs, hxs, hcount⟩ := ih x hx
      refine ⟨x :: xs, descent_cons.mpr ⟨hx, hxs⟩, ?_⟩
      rw [List.countP_cons, hcount, hdepth]

/-- The ways down to an expression without parts meet as many quantified paths as the depth says, and
never more. -/
lemma isGreatest_quantifierDepth (e : Expr α) :
    IsGreatest {n | ∃ xs, Descent e xs ∧ (e :: xs).countP isQuantified = n} e.quantifierDepth := by
  refine ⟨exists_descent e, ?_⟩
  rintro n ⟨xs, hxs, rfl⟩
  exact hxs.countP_le

/-! ## Different trees -/

/-- The heights along a way become less, so its trees are different. -/
lemma nodup_of_isChain {xs : List (Expr α)} (h : List.IsChain IsAbove xs) : xs.Nodup := by
  have hless : (xs.map height).IsChain (· > ·) :=
    (List.isChain_map height).mpr (h.imp fun _ _ => height_lt_of_mem_children)
  have hpairs : (xs.map height).Pairwise (· > ·) := List.isChain_iff_pairwise.mp hless
  exact List.Nodup.of_map height (hpairs.imp Nat.ne_of_gt)

lemma subset_subexpressions_of_isChain {e : Expr α} {xs : List (Expr α)}
    (h : List.IsChain IsAbove (e :: xs)) : e :: xs ⊆ e.subexpressions := by
  induction xs generalizing e with
  | nil =>
    intro x hx
    obtain rfl := List.mem_singleton.mp hx
    exact self_mem_subexpressions x
  | cons x xs ih =>
    obtain ⟨hstep, hrest⟩ := List.isChain_cons_cons.mp h
    refine List.cons_subset.mpr ⟨self_mem_subexpressions e, ?_⟩
    exact List.Subset.trans (ih hrest) (subexpressions_subset hstep)

variable [DecidableEq α]

/-- The different quantified paths in an expression. -/
def quantifiedPaths (e : Expr α) : Finset (Expr α) := {x ∈ e.subexpressions.toFinset | x.isQuantified}

lemma mem_quantifiedPaths {e x : Expr α} :
    x ∈ e.quantifiedPaths ↔ x ∈ e.subexpressions ∧ x.isQuantified := by
  rw [quantifiedPaths, Finset.mem_filter, List.mem_toFinset]

/-- A deepest way meets as many different quantified paths as the depth says. -/
lemma quantifierDepth_le_card (e : Expr α) : e.quantifierDepth ≤ e.quantifiedPaths.card := by
  obtain ⟨xs, hxs, hcount⟩ := exists_descent e
  have hnodup : ((e :: xs).filter isQuantified).Nodup := (nodup_of_isChain hxs.chain).filter _
  have hsubset : ((e :: xs).filter isQuantified).toFinset ⊆ e.quantifiedPaths := by
    intro x hx
    obtain ⟨hmem, hquantified⟩ := List.mem_filter.mp (List.mem_toFinset.mp hx)
    exact mem_quantifiedPaths.mpr ⟨subset_subexpressions_of_isChain hxs.chain hmem, hquantified⟩
  calc e.quantifierDepth
    _ = ((e :: xs).filter isQuantified).length := by rw [← hcount, List.countP_eq_length_filter]
    _ = ((e :: xs).filter isQuantified).toFinset.card :=
      (List.toFinset_card_of_nodup hnodup).symm
    _ ≤ e.quantifiedPaths.card := Finset.card_le_card hsubset

end Expr

end TimedReq
