import Mathlib.Tactic.Common
import TimedReq.Expr.Walk

/-!
# Subexpressions by parts

Whatever an expression is, its subexpressions are itself and those of the expressions directly below
it. What is shown of an expression from its parts is shown of all expressions.
-/

namespace TimedReq

variable {α : Type}

namespace Expr

/-- Induction from the expressions directly below an expression. -/
@[elab_as_elim]
lemma parts_induction {motive : Expr α → Prop}
    (step : ∀ e, (∀ x ∈ e.children, motive x) → motive e) (e : Expr α) : motive e := by
  induction e with
  | predicate p => exact step _ (by simp [children])
  | negation body ih | group body ih | along b m body ih | bounded body first more ih =>
    exact step _ (by simpa [children] using ih)
  | binary c lhs rhs ihl ihr | «until» b u lhs rhs ihl ihr =>
    exact step _ (by simpa [children] using ⟨ihl, ihr⟩)

lemma subexpressions_eq_cons (e : Expr α) :
    e.subexpressions = e :: e.children.flatMap subexpressions := by
  cases e <;> simp [subexpressions, children]

lemma mem_subexpressions {e y : Expr α} :
    y ∈ e.subexpressions ↔ y = e ∨ ∃ x ∈ e.children, y ∈ x.subexpressions := by
  rw [subexpressions_eq_cons, List.mem_cons, List.mem_flatMap]

lemma self_mem_subexpressions (e : Expr α) : e ∈ e.subexpressions :=
  mem_subexpressions.mpr (.inl rfl)

/-- What is in a part is in the whole. -/
lemma subexpressions_subset {e x : Expr α} (hx : x ∈ e.children) :
    x.subexpressions ⊆ e.subexpressions := by
  intro y hy
  exact mem_subexpressions.mpr (.inr ⟨x, hx, hy⟩)

lemma mem_predicates {e : Expr α} {p : α} : p ∈ e.predicates ↔ predicate p ∈ e.subexpressions := by
  rw [predicates, List.mem_filterMap]
  constructor
  · rintro ⟨x, hx, hp⟩
    cases x with
    | predicate q =>
      obtain rfl := Option.some.inj hp
      exact hx
    | _ => simp [predicate?] at hp
  · intro hp
    exact ⟨predicate p, hp, rfl⟩

lemma predicates_subset {e x : Expr α} (hx : x ∈ e.children) : x.predicates ⊆ e.predicates := by
  intro p hp
  exact mem_predicates.mpr (subexpressions_subset hx (mem_predicates.mp hp))

end Expr

/-- Within a quantified path are the subexpressions of its operands. -/
lemma BranchExpr.subexpressions_eq (q : BranchExpr α) :
    q.subexpressions = (Expr.ofBranch q).children.flatMap Expr.subexpressions := by
  obtain ⟨b, _ | _⟩ := q <;>
    simp [subexpressions, PathExpr.subexpressions, Expr.ofBranch, Expr.children]

lemma BoundedExpr.subexpressions_eq (x : BoundedExpr α) :
    x.subexpressions = (Expr.ofBounded x).children.flatMap Expr.subexpressions := by
  simp [subexpressions, Expr.ofBounded, Expr.children]

end TimedReq
