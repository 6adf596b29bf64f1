import TimedReq.Expr.Printer

/-!
# Trees made by hand

Trees may be put together from operators that are given by their symbols. A tree is shared by all
that hold it, so its fields keep the values that it was made with.
-/

namespace TimedReq

variable {α : Type}

/-- Two expressions under the connective of a symbol, around which blanks do not count. -/
def Expr.ofOperator? (operator : Text) (lhs rhs : Expr α) : Option (Expr α) :=
  (Connective.ofSymbol? (Text.trim operator)).map (Expr.binary · lhs rhs)

/-- A path under the modality of a symbol. -/
def PathExpr.ofModality? (symbol : Text) (body : Expr α) : Option (PathExpr α) :=
  match symbol with
  | [c] => (Modality.ofChar? c).map (PathExpr.along · body)
  | _ => none

/-- A path under the "until" of a symbol. -/
def PathExpr.ofUntil? (symbol : Text) (lhs rhs : Expr α) : Option (PathExpr α) :=
  match symbol with
  | [c] => (Until.ofChar? c).map (PathExpr.until · lhs rhs)
  | _ => none

/-- A path under the branch quantifier of a symbol. -/
def BranchExpr.ofSymbol? (symbol : Text) (path : PathExpr α) : Option (BranchExpr α) :=
  match symbol with
  | [c] => (Branch.ofChar? c).map fun b => ⟨b, path⟩
  | _ => none

/-- Why a tree is not made or not changed. A field is told of with the form of its tree. -/
inductive TreeError where
  | noStatements
  | assignment (field form : String)
  | deletion (field form : String)
deriving DecidableEq

/-- The report of an error. -/
def TreeError.message : TreeError → String
  | noStatements => "Constraints cannot be empty"
  | assignment field form => "cannot reassign '" ++ field ++ "' of immutable " ++ form
  | deletion field form => "cannot delete '" ++ field ++ "' of immutable " ++ form

/-- An expression under the statements of a list. -/
def BoundedExpr.ofList (body : Expr α) (statements : List Statement) :
    Except TreeError (BoundedExpr α) :=
  match BoundedExpr.ofList? body statements with
  | some x => .ok x
  | none => .error .noStatements

end TimedReq
