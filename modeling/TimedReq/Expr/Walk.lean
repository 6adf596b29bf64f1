import TimedReq.Expr.Basic

/-!
# Walks over expressions

The subexpressions, predicates and statements of an expression, and how deep its quantifiers are
nested.
-/

namespace TimedReq

variable {α : Type}

namespace Expr

/-- An expression and all below it, each before its parts. -/
def subexpressions : Expr α → List (Expr α)
  | predicate p => [predicate p]
  | negation body => negation body :: body.subexpressions
  | group body => group body :: body.subexpressions
  | binary c lhs rhs => binary c lhs rhs :: (lhs.subexpressions ++ rhs.subexpressions)
  | along b m body => along b m body :: body.subexpressions
  | .until b u lhs rhs => .until b u lhs rhs :: (lhs.subexpressions ++ rhs.subexpressions)
  | bounded body first more => bounded body first more :: body.subexpressions

/-- The predicate that an expression is. -/
def predicate? : Expr α → Option α
  | predicate p => some p
  | _ => none

/-- Whether an expression is a quantified path. -/
def isQuantified : Expr α → Bool
  | along _ _ _ | .until _ _ _ _ => true
  | _ => false

/-- The predicates in an expression, with repetitions. -/
def predicates (e : Expr α) : List α := e.subexpressions.filterMap predicate?

/-- The statements that bound an expression itself. -/
def ownStatements : Expr α → List Statement
  | bounded _ first more => first :: more
  | _ => []

/-- The number of expressions in a tree. -/
def size : Expr α → Nat
  | predicate _ => 1
  | negation body | group body | along _ _ body | bounded body _ _ => body.size + 1
  | binary _ lhs rhs | .until _ _ lhs rhs => lhs.size + rhs.size + 1

/-- The number of expressions in a stack of trees. -/
def stackSize : List (Expr α) → Nat
  | [] => 0
  | e :: pending => e.size + stackSize pending

theorem stackSize_append (es pending : List (Expr α)) :
    stackSize (es ++ pending) = stackSize es + stackSize pending := by
  induction es with
  | nil => simp [stackSize]
  | cons e es ih => simp only [List.cons_append, stackSize, ih, Nat.add_assoc]

theorem stackSize_children (e : Expr α) : stackSize e.children + 1 = e.size := by
  cases e <;> simp [children, stackSize, size]

/-- Collects the statements of a stack of pending expressions: the first of them gives its own and
is replaced by the expressions directly below it. -/
def collectStatements : List (Expr α) → List Statement
  | [] => []
  | e :: pending => e.ownStatements ++ collectStatements (e.children ++ pending)
termination_by pending => stackSize pending
decreasing_by
  have h := stackSize_children e
  simp only [stackSize_append, stackSize]
  omega

/-- The statements in an expression, from the left to the right of its text but each expression's
own before those below it. -/
def statements (e : Expr α) : List Statement := collectStatements [e]

/-- The greatest number of quantified paths one below the other. -/
def quantifierDepth : Expr α → Nat
  | predicate _ => 0
  | negation body | group body | bounded body _ _ => body.quantifierDepth
  | binary _ lhs rhs => max lhs.quantifierDepth rhs.quantifierDepth
  | along _ _ body => body.quantifierDepth + 1
  | .until _ _ lhs rhs => max lhs.quantifierDepth rhs.quantifierDepth + 1

end Expr

/-- The expressions within a path. -/
def PathExpr.subexpressions : PathExpr α → List (Expr α)
  | along _ body => body.subexpressions
  | .until _ lhs rhs => lhs.subexpressions ++ rhs.subexpressions

/-- The expressions within a quantified path. -/
def BranchExpr.subexpressions (x : BranchExpr α) : List (Expr α) := x.path.subexpressions

/-- The expressions within a bounded expression. -/
def BoundedExpr.subexpressions (x : BoundedExpr α) : List (Expr α) := x.body.subexpressions

end TimedReq
