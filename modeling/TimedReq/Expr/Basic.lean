import TimedReq.Bound.Statement

/-!
# Requirements as trees

An expression combines predicates of an embedded language by connectives, path quantifiers and
bounds. Every path quantifier stands under a branch quantifier, so an expression holds the two
together; a path alone, a branch alone and a bounded expression alone are types of their own.
-/

namespace TimedReq

/-- The connectives `->`, `^` and `V`. -/
inductive Connective where
  | implies | and | or
deriving DecidableEq

/-- Over which branches a path is required: `A` all of them, `E` any. -/
inductive Branch where
  | all | any
deriving DecidableEq

/-- What is required along a path: `G` in every state, `X` in the next, `F` in some. -/
inductive Modality where
  | globally | next | future
deriving DecidableEq

/-- The two forms of "until": with `U` the second operand has to hold at last, with `W` it need
not. -/
inductive Until where
  | strong | weak
deriving DecidableEq

namespace Connective

def symbol : Connective → Text
  | implies => ['-', '>']
  | and => ['^']
  | or => ['V']

/-- The connective of a symbol. -/
def ofSymbol? (s : Text) : Option Connective := [implies, and, or].find? (·.symbol == s)

/-- The connective of a one-character symbol. -/
def ofChar? : Char → Option Connective
  | '^' => some and
  | 'V' => some or
  | _ => none

end Connective

namespace Branch

def symbol : Branch → Char
  | all => 'A'
  | any => 'E'

/-- The branch quantifier of a symbol. -/
def ofChar? : Char → Option Branch
  | 'A' => some all
  | 'E' => some any
  | _ => none

end Branch

namespace Modality

def symbol : Modality → Char
  | globally => 'G'
  | next => 'X'
  | future => 'F'

/-- The modality of a symbol. -/
def ofChar? : Char → Option Modality
  | 'G' => some globally
  | 'X' => some next
  | 'F' => some future
  | _ => none

end Modality

namespace Until

def symbol : Until → Char
  | strong => 'U'
  | weak => 'W'

/-- The form of "until" of a symbol. -/
def ofChar? : Char → Option Until
  | 'U' => some strong
  | 'W' => some weak
  | _ => none

end Until

/-- An expression over predicates of type `α`. -/
inductive Expr (α : Type) where
  | predicate (p : α)
  | negation (body : Expr α)
  | group (body : Expr α)
  | binary (c : Connective) (lhs rhs : Expr α)
  | along (b : Branch) (m : Modality) (body : Expr α)
  | until (b : Branch) (u : Until) (lhs rhs : Expr α)
  | bounded (body : Expr α) (first : Statement) (more : List Statement)
deriving DecidableEq

/-- A path quantifier with its operands. -/
inductive PathExpr (α : Type) where
  | along (m : Modality) (body : Expr α)
  | until (u : Until) (lhs rhs : Expr α)
deriving DecidableEq

/-- A branch quantifier with its path. -/
structure BranchExpr (α : Type) where
  branch : Branch
  path : PathExpr α
deriving DecidableEq

/-- An expression with the statements that bound it, of which there is at least one. -/
structure BoundedExpr (α : Type) where
  body : Expr α
  first : Statement
  more : List Statement
deriving DecidableEq

/-- All statements of a bounded expression. -/
def BoundedExpr.statements {α : Type} (x : BoundedExpr α) : List Statement := x.first :: x.more

/-- A bounded expression has statements. -/
def BoundedExpr.ofList? {α : Type} (body : Expr α) : List Statement → Option (BoundedExpr α)
  | [] => none
  | first :: more => some ⟨body, first, more⟩

namespace Expr

variable {α : Type}

/-- A quantified path as an expression. -/
def ofBranch : BranchExpr α → Expr α
  | ⟨b, .along m body⟩ => along b m body
  | ⟨b, .until u lhs rhs⟩ => .until b u lhs rhs

/-- A bounded expression as an expression. -/
def ofBounded (x : BoundedExpr α) : Expr α := bounded x.body x.first x.more

/-- The expressions directly below an expression, in the order of their text. -/
def children : Expr α → List (Expr α)
  | predicate _ => []
  | negation body | group body | along _ _ body | bounded body _ _ => [body]
  | binary _ lhs rhs | .until _ _ lhs rhs => [lhs, rhs]

/-- Whether an expression is a predicate. -/
def isPredicate : Expr α → Bool
  | predicate _ => true
  | _ => false

end Expr

end TimedReq
