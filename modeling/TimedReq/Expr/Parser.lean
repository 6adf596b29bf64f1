import TimedReq.Embedding
import TimedReq.Expr.Basic
import TimedReq.Text.Nesting

/-!
# From text to expressions

Expressions have no table of precedences. The first characters of a text choose a rule, and a
binary operator splits the text at its first occurrence outside brackets, so `a ^ b V c` is
`a ^ (b V c)`. A rule reads the parts some levels further down; how many differs from rule to rule,
and a text below the last level is malformed.

Each rule takes the readers of its parts as arguments. `one`, `two` and `three` read one, two and
three levels below the rule's own.
-/

namespace TimedReq

variable {α : Type}

/-- The connective in front of a text, with what follows it. No blank is needed around it. -/
def Connective.leading? : Text → Option (Connective × Text)
  | '-' :: '>' :: s => some (implies, s)
  | '^' :: s => some (and, s)
  | 'V' :: s => some (or, s)
  | _ => none

/-- Reads a quantified path: a modality before its operand, or the first "until" between two
operands. -/
def PathExpr.rule (operand : Text → Reading (Expr α)) (s : Text) : Reading (PathExpr α) :=
  let t := Text.trim s
  match Text.leadingSymbol? Modality.ofChar? t with
  | some (m, rest) => do return .along m (← operand rest)
  | none =>
    match Text.splitToken? Until.ofChar? t with
    | some (left, u, right) => do
      let lhs ← operand left
      let rhs ← operand right
      return .until u lhs rhs
    | none => .malformed

/-- Reads a branch quantifier and its path. -/
def BranchExpr.rule (operand : Text → Reading (Expr α)) (s : Text) : Reading (BranchExpr α) :=
  match Text.leadingSymbol? Branch.ofChar? (Text.trim s) with
  | some (b, rest) => do return ⟨b, ← PathExpr.rule operand rest⟩
  | none => .malformed

/-- The statements of a bounded expression: an underscore and statements in braces, which make up
the text to its last character. -/
def Statement.listRule (s : Text) : Reading (List Statement) :=
  match Text.trim s with
  | '_' :: rest =>
    if rest.getLast? = some '}' then
      match Text.trim rest.dropLast with
      | '{' :: inner => Statement.parseAll (Text.pieces (· == ',') inner)
      | _ => .malformed
    else .malformed
  | _ => .malformed

/-- Reads a bounded expression that makes up the whole text. -/
def BoundedExpr.rule (body : Text → Reading (Expr α)) (s : Text) : Reading (BoundedExpr α) :=
  let t := Text.trim s
  if t.head? = some '{' then
    match Text.splitGroup? t with
    | some (inner, after) => do
      let e ← body inner
      let sts ← Statement.listRule after
      .ofOption (BoundedExpr.ofList? e sts)
    | none => .malformed
  else .malformed

/-- Separates a bounded expression in front of a text from what follows it. Its statements end at
the first closing brace. -/
def BoundedExpr.split? (s : Text) : Option (Text × Text) :=
  if s.head? = some '{' then
    match Text.splitGroup? s with
    | some (inner, after) =>
      match Text.trimStart after with
      | '_' :: rest =>
        match Text.trimStart rest with
        | '{' :: rest =>
          match rest.dropWhile (· ≠ '}') with
          | _ :: remaining =>
            let statements := rest.takeWhile (· ≠ '}')
            some ('{' :: inner ++ '}' :: '_' :: '{' :: statements ++ ['}'], Text.trim remaining)
          | [] => none
        | _ => none
      | _ => none
    | none => none
  else none

namespace Expr

/-- Reads a predicate of the embedded language. -/
def predicateRule (L : Embedding α) (s : Text) : Reading (Expr α) :=
  .ofOption ((L.read s).map predicate)

/-- Reads what follows an exclamation mark. A predicate that is not a single word has to stand in
brackets. -/
def negationRule (two : Text → Reading (Expr α)) (s : Text) : Reading (Expr α) := do
  let t := Text.trim s
  let e ← two t
  if e.isPredicate && t.any Text.isBlank then .malformed else return .negation e

/-- Reads a bounded expression, alone or as the left operand of a connective. -/
def boundedRule (three : Text → Reading (Expr α)) (s : Text) : Reading (Expr α) :=
  match BoundedExpr.split? s with
  | some (whole, remaining) => do
    let lhs := ofBounded (← BoundedExpr.rule three whole)
    if remaining = [] then return lhs
    match Connective.leading? remaining with
    | some (c, right) => return .binary c lhs (← three right)
    | none => .malformed
  | none => .malformed

/-- Reads a group, alone or as the left operand of a connective. Any other continuation makes the
text a predicate that begins with a bracket, such as `(count + 1) = 3`. -/
def groupRule (L : Embedding α) (two three : Text → Reading (Expr α)) (s : Text) :
    Reading (Expr α) :=
  match Text.splitGroup? s with
  | some (inner, []) => do return .group (← two inner)
  | some (inner, after) =>
    match Connective.leading? (Text.trim after) with
    | some (c, right) => do
      let lhs ← two inner
      return .binary c (.group lhs) (← three right)
    | none => predicateRule L s
  | none => .malformed

/-- Splits at the first `^` or `V` that stands between blanks. -/
def logicalRule (two : Text → Reading (Expr α)) (s : Text) : Reading (Expr α) :=
  match Text.splitToken? Connective.ofChar? s with
  | some (left, c, right) => do
    let lhs ← two left
    let rhs ← two right
    return .binary c lhs rhs
  | none => .malformed

/-- Splits at the first `->`; a text without one is a predicate. -/
def implicationRule (L : Embedding α) (one : Text → Reading (Expr α)) (s : Text) :
    Reading (Expr α) :=
  match Text.splitArrow? s with
  | some (left, right) =>
    if Text.trim left = [] ∨ Text.trim right = [] then .malformed
    else do
      let lhs ← one left
      let rhs ← one right
      return .binary .implies lhs rhs
  | none => predicateRule L s

/-- Reads a text by the rule that its first characters choose. Where a split at `^` or `V` turns out
malformed, the text is split at `->` instead. -/
def rule (L : Embedding α) (one two three : Text → Reading (Expr α)) (s : Text) :
    Reading (Expr α) :=
  match Text.trim s with
  | [] => .malformed
  | '!' :: t => negationRule two t
  | '{' :: t => boundedRule three ('{' :: t)
  | '(' :: t => groupRule L two three ('(' :: t)
  | t =>
    if (Text.leadingSymbol? Branch.ofChar? t).isSome then ofBranch <$> BranchExpr.rule three t
    else (logicalRule two t).orElse fun _ => implicationRule L one t

/-- Reads a text with so many levels left, its own included. -/
def readLevels (L : Embedding α) : Nat → Text → Reading (Expr α)
  | 0, _ => .malformed
  | n + 1, s => rule L (readLevels L n) (readLevels L (n - 1)) (readLevels L (n - 2)) s
termination_by n => n

/-- The number of levels for a greatest depth: level 0 is there unless the depth is negative. -/
def levels (maxDepth : Int) : Nat := (maxDepth + 1).toNat

/-- The greatest depth where none is asked for. -/
def defaultDepth : Int := 256

/-- Reads an expression. -/
def read (L : Embedding α) (maxDepth : Int) (s : Text) : Reading (Expr α) :=
  readLevels L (levels maxDepth) s

end Expr

/-- Reads a path; its operands are one level down. -/
def PathExpr.read (L : Embedding α) (maxDepth : Int) (s : Text) : Reading (PathExpr α) :=
  PathExpr.rule (Expr.readLevels L (Expr.levels maxDepth - 1)) s

/-- Reads a quantified path; the operands of the path are two levels down. -/
def BranchExpr.read (L : Embedding α) (maxDepth : Int) (s : Text) : Reading (BranchExpr α) :=
  BranchExpr.rule (Expr.readLevels L (Expr.levels maxDepth - 2)) s

/-- Reads a bounded expression; its body is one level down. -/
def BoundedExpr.read (L : Embedding α) (maxDepth : Int) (s : Text) : Reading (BoundedExpr α) :=
  BoundedExpr.rule (Expr.readLevels L (Expr.levels maxDepth - 1)) s

/-- Why a text is no expression. -/
inductive ExprError where
  | empty
  | invalid (text : Text)
  | tooLong (digits : Nat)
deriving DecidableEq

/-- The report of an error. -/
def ExprError.message : ExprError → String
  | empty => "Syntax error: empty expression"
  | invalid text => "Syntax error: could not parse expression '" ++ String.ofList text ++ "'"
  | tooLong digits => Number.tooLongMessage digits

/-- Reads an expression and tells why if it cannot be read. -/
def Expr.parse (L : Embedding α) (maxDepth : Int) (s : Text) : Except ExprError (Expr α) :=
  if Text.trim s = [] then .error .empty
  else match Expr.read L maxDepth s with
    | .ok e => .ok e
    | .error .malformed => .error (.invalid (Text.trim s))
    | .error (.tooLong digits) => .error (.tooLong digits)

end TimedReq
