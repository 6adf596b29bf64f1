import Mathlib.Data.Set.Basic
import Mathlib.Logic.Relation
import TimedReq.Proofs.Expr.Height
import TimedReq.Proofs.Expr.Subexpressions

/-!
# What is reached from an expression

The subexpressions are collected form by form, for expressions as for paths, quantified paths and
bounded expressions on their own. They are what is reached by going down from an expression to the
parts of it any number of times, and the predicates are the leaves that are reached.
-/

namespace TimedReq

open Relation

variable {α : Type}

namespace Expr

/-- A step down leads to a subexpression, and so does each further step. -/
lemma mem_subexpressions_of_reached {e x : Expr α} (h : ReflTransGen IsAbove e x) :
    x ∈ e.subexpressions := by
  induction h using ReflTransGen.head_induction_on with
  | refl => exact self_mem_subexpressions x
  | head hstep _ ih => exact subexpressions_subset hstep ih

lemma mem_subexpressions_iff_reached {e x : Expr α} :
    x ∈ e.subexpressions ↔ ReflTransGen IsAbove e x := by
  refine ⟨fun hx => ?_, mem_subexpressions_of_reached⟩
  induction e using parts_induction with
  | step e ih =>
    rcases mem_subexpressions.mp hx with rfl | ⟨y, hy, hx⟩
    · exact .refl
    · exact .head hy (ih y hy hx)

/-- What is within the parts of an expression is what is reached with at least one step. -/
lemma mem_flatMap_children_iff_reached {e x : Expr α} :
    x ∈ e.children.flatMap subexpressions ↔ TransGen IsAbove e x := by
  rw [TransGen.head'_iff, List.mem_flatMap]
  constructor
  · rintro ⟨y, hy, hx⟩
    exact ⟨y, hy, mem_subexpressions_iff_reached.mp hx⟩
  · rintro ⟨y, hy, hx⟩
    exact ⟨y, hy, mem_subexpressions_iff_reached.mpr hx⟩

lemma mem_branch_iff_reached {q : BranchExpr α} {x : Expr α} :
    x ∈ q.subexpressions ↔ TransGen IsAbove (ofBranch q) x := by
  rw [q.subexpressions_eq]
  exact mem_flatMap_children_iff_reached

lemma mem_bounded_iff_reached {b : BoundedExpr α} {x : Expr α} :
    x ∈ b.subexpressions ↔ TransGen IsAbove (ofBounded b) x := by
  rw [b.subexpressions_eq]
  exact mem_flatMap_children_iff_reached

/-- The subexpressions of a subexpression are among those of the whole, and of nothing else. -/
lemma mem_subexpressions_iff_subset {e x : Expr α} :
    x ∈ e.subexpressions ↔ x.subexpressions ⊆ e.subexpressions := by
  constructor
  · intro hx y hy
    have hfirst := mem_subexpressions_iff_reached.mp hx
    have hthen := mem_subexpressions_iff_reached.mp hy
    exact mem_subexpressions_iff_reached.mpr (hfirst.trans hthen)
  · intro h
    exact h (self_mem_subexpressions x)

/-- The subexpressions of an expression are the expressions that are reached from it, so that they
contain the subexpressions of each of them. Its predicates are the leaves that are reached. Within a
quantified path or a bounded expression on its own are the expressions that are reached from it with
at least one step. -/
theorem subexpressions_eq_reached (e : Expr α) (q : BranchExpr α) (b : BoundedExpr α) :
    {x | x ∈ e.subexpressions} = {x | ReflTransGen IsAbove e x} ∧
      (∀ x, x ∈ e.subexpressions ↔ x.subexpressions ⊆ e.subexpressions) ∧
      {p | p ∈ e.predicates} = {p | ReflTransGen IsAbove e (predicate p)} ∧
      {x | x ∈ q.subexpressions} = {x | TransGen IsAbove (ofBranch q) x} ∧
      {x | x ∈ q.path.subexpressions} = {x | TransGen IsAbove (ofBranch q) x} ∧
      {x | x ∈ b.subexpressions} = {x | TransGen IsAbove (ofBounded b) x} := by
  have hbranch : {x | x ∈ q.subexpressions} = {x | TransGen IsAbove (ofBranch q) x} := by
    ext x
    exact mem_branch_iff_reached
  refine ⟨?_, fun x => mem_subexpressions_iff_subset, ?_, hbranch, hbranch, ?_⟩
  · ext x
    exact mem_subexpressions_iff_reached
  · ext p
    exact mem_predicates.trans mem_subexpressions_iff_reached
  · ext x
    exact mem_bounded_iff_reached

end Expr

end TimedReq
