import TimedReq.Number.Decimal
import TimedReq.Text.Letter
import TimedReq.Text.LetterCase
import TimedReq.Vhdl.Token

/-!
# VHDL expressions

Trees of names, literals, operations and brackets. Brackets are nodes of their own, so printing
puts none in and leaves none out. The operator of an operation is kept as it is written.
-/

namespace TimedReq.Vhdl

/-- An expression. -/
inductive Node where
  | name (identifier : Text)
  | literal (kind : LiteralKind) (text : Text)
  | paren (inner : Node)
  | unary (operator : Text) (operand : Node)
  | binary (sort : BinarySort) (operator : Text) (lhs rhs : Node)
deriving DecidableEq

namespace Node

/-- A literal; a boolean word is kept in lower case. -/
def ofLiteral (kind : LiteralKind) (text : Text) : Node :=
  literal kind (if kind = .boolean then Text.lower text else text)

/-- An operation with one operand; the operator is kept in lower case. -/
def ofUnary (operator : Text) (operand : Node) : Node := unary (Text.lower operator) operand

/-- An operation with two operands; the operator is kept in lower case. -/
def ofBinary (sort : BinarySort) (operator : Text) (lhs rhs : Node) : Node :=
  binary sort (Text.lower operator) lhs rhs

/-- The literal of a truth value. -/
def ofBool (value : Bool) : Node :=
  literal .boolean (if value then "true".toList else "false".toList)

/-- The literal of an integer. -/
def ofInt (value : Int) : Node := literal .integer (Number.signedNumeral value)

/-- The character literal of a text, in single quotes. -/
def ofBit (value : Text) : Node := literal .character ('\'' :: value ++ ['\''])

/-- Whether an operator is a word, so that a blank has to follow it. -/
def isWord (operator : Text) : Bool := !operator.isEmpty && operator.all Text.isLetter

/-- Whether an operator in front of `operand` is set apart from it by a space: words are, and so is
everything before a sign, since two minus signs would begin a comment. -/
def isSpaced (operator operand : Text) : Bool :=
  isWord operator || operand.head? == some '-' || operand.head? == some '+'

/-- The canonical text. -/
def print : Node → Text
  | name identifier => identifier
  | literal _ text => text
  | paren inner => '(' :: inner.print ++ [')']
  | unary operator operand =>
    if isSpaced operator operand.print then operator ++ ' ' :: operand.print
    else operator ++ operand.print
  | binary _ operator lhs rhs => lhs.print ++ ' ' :: operator ++ ' ' :: rhs.print

/-- The name of an expression's form. -/
def form : Node → String
  | name _ => "Name"
  | literal _ _ => "Literal"
  | paren _ => "Parenthesized"
  | unary _ _ => "UnaryOperation"
  | binary .arithmetic _ _ _ => "Arithmetic"
  | binary .comparison _ _ _ => "Comparison"
  | binary .logical _ _ _ => "Logical"

/-- Whether the expression is a condition: a boolean literal, a negation, a comparison, a logical
operation, or one of these in brackets. -/
def isCondition : Node → Bool
  | name _ => false
  | literal kind _ => kind == .boolean
  | paren inner => inner.isCondition
  | unary operator _ => operator == UnaryOperator.not.word
  | binary sort _ _ _ => sort != .arithmetic

/-- The identifiers in an expression, in their order and with repetitions. -/
def names : Node → List Text
  | name identifier => [identifier]
  | literal _ _ => []
  | paren inner => inner.names
  | unary _ operand => operand.names
  | binary _ _ lhs rhs => lhs.names ++ rhs.names

end Node

end TimedReq.Vhdl
