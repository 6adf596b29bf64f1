import TimedReq.Expr.Basic
import TimedReq.Embedding
import TimedReq.Language
import TimedReq.Text.Quoted

/-!
# Canonical text of expressions

One space stands around every binary operator and after every quantifier; a negation, a group and
the braces of a bounded expression are set tight. A report shows an expression as the name of its
form with the quoted text.
-/

namespace TimedReq

variable {α : Type}

/-- A text between brackets after the name of a form. -/
def showAs (form : String) (s : Text) : Text := form.toList ++ '(' :: Text.quoted s ++ [')']

/-- The statements of a bounded expression. -/
def printStatements (sts : List Statement) : Text :=
  Text.join [',', ' '] (sts.map Statement.print)

namespace Expr

/-- The canonical text. -/
def print (L : Embedding α) : Expr α → Text
  | predicate p => L.print p
  | negation body => '!' :: body.print L
  | group body => '(' :: body.print L ++ [')']
  | binary c lhs rhs => lhs.print L ++ ' ' :: c.symbol ++ ' ' :: rhs.print L
  | along b m body => b.symbol :: ' ' :: m.symbol :: ' ' :: body.print L
  | .until b u lhs rhs => b.symbol :: ' ' :: lhs.print L ++ ' ' :: u.symbol :: ' ' :: rhs.print L
  | bounded body first more =>
    '{' :: body.print L ++ '}' :: '_' :: '{' :: printStatements (first :: more) ++ ['}']

/-- The name of an expression's form. -/
def form : Expr α → String
  | predicate _ => "LanguagePredicate"
  | negation _ => "Negation"
  | group _ => "Precedence"
  | binary .implies _ _ => "Implication"
  | binary .and _ _ => "Conjunction"
  | binary .or _ _ => "Disjunction"
  | along _ _ _ | .until _ _ _ _ => "Quantified"
  | bounded _ _ _ => "Constrained"

/-- An expression as reports show it. -/
def display (L : Embedding α) (e : Expr α) : Text := showAs e.form (e.print L)

end Expr

namespace PathExpr

/-- The canonical text. -/
def print (L : Embedding α) : PathExpr α → Text
  | along m body => m.symbol :: ' ' :: body.print L
  | .until u lhs rhs => lhs.print L ++ ' ' :: u.symbol :: ' ' :: rhs.print L

/-- The name of a path's form. -/
def form : PathExpr α → String
  | along .globally _ => "Globally"
  | along .next _ => "Next"
  | along .future _ => "Finally"
  | .until .strong _ _ => "Until"
  | .until .weak _ _ => "Weak"

end PathExpr

namespace BranchExpr

/-- The canonical text. -/
def print (L : Embedding α) (x : BranchExpr α) : Text := x.branch.symbol :: ' ' :: x.path.print L

/-- The name of the form of a quantified path. -/
def form (x : BranchExpr α) : String :=
  match x.branch with
  | .all => "Always"
  | .any => "Eventually"

end BranchExpr

namespace BoundedExpr

/-- The canonical text. -/
def print (L : Embedding α) (x : BoundedExpr α) : Text :=
  '{' :: x.body.print L ++ '}' :: '_' :: '{' :: printStatements x.statements ++ ['}']

/-- The name of the form of a bounded expression that stands alone. -/
def form : String := "ConstrainedExpression"

end BoundedExpr

/-- The name of the form of a predicate that stands alone. -/
def predicateForm : String := "LanguageExpression"

/-- A predicate of a language as reports show it. -/
def displayPredicate (L : Embedding α) (language : Language) (p : α) : Text :=
  predicateForm.toList ++ '(' :: language.name ++ ',' :: ' ' :: Text.quoted (L.print p) ++ [')']

/-- A quantified path has the text of the expression that it is. -/
theorem Expr.print_ofBranch (L : Embedding α) (x : BranchExpr α) :
    (Expr.ofBranch x).print L = x.print L := by
  obtain ⟨b, m | u⟩ := x <;> rfl

/-- A bounded expression has the text of the expression that it is. -/
theorem Expr.print_ofBounded (L : Embedding α) (x : BoundedExpr α) :
    (Expr.ofBounded x).print L = x.print L := rfl

end TimedReq
