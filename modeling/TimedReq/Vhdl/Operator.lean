import TimedReq.Text.Blank

/-!
# Operators of VHDL conditions

The operators with their written form and their binding. Binary operators lie on four levels and
`**` above them; the signs bind stronger than all binary operators but `**`, which stands on one
level with `abs` and `not`.
-/

namespace TimedReq.Vhdl

/-- The operators between two operands. -/
inductive BinaryOperator where
  | and | or | xor | nand | nor | xnor
  | eq | ne | lt | le | gt | ge
  | plus | minus | concat
  | times | divide | mod | rem
  | pow
deriving DecidableEq

/-- The operators in front of an operand. -/
inductive UnaryOperator where
  | plus | minus | abs | not
deriving DecidableEq

/-- The three sorts of binary operation. -/
inductive BinarySort where
  | logical | comparison | arithmetic
deriving DecidableEq

/-- How operators of one level associate. -/
inductive Associativity where
  | left | right | none
deriving DecidableEq

/-- How the operators of a level associate: comparisons do not, and from the signs on they
associate to the right. -/
def Associativity.ofLevel (level : Nat) : Associativity :=
  if level = 2 then .none else if level ≤ 4 then .left else .right

namespace BinaryOperator

/-- The written form, in lower case. -/
def word : BinaryOperator → Text
  | and => ['a', 'n', 'd']
  | or => ['o', 'r']
  | xor => ['x', 'o', 'r']
  | nand => ['n', 'a', 'n', 'd']
  | nor => ['n', 'o', 'r']
  | xnor => ['x', 'n', 'o', 'r']
  | eq => ['=']
  | ne => ['/', '=']
  | lt => ['<']
  | le => ['<', '=']
  | gt => ['>']
  | ge => ['>', '=']
  | plus => ['+']
  | minus => ['-']
  | concat => ['&']
  | times => ['*']
  | divide => ['/']
  | mod => ['m', 'o', 'd']
  | rem => ['r', 'e', 'm']
  | pow => ['*', '*']

/-- The sort of operation that the operator makes. -/
def sort : BinaryOperator → BinarySort
  | and | or | xor | nand | nor | xnor => .logical
  | eq | ne | lt | le | gt | ge => .comparison
  | plus | minus | concat | times | divide | mod | rem | pow => .arithmetic

/-- The level: an operator of a higher level binds stronger. -/
def level : BinaryOperator → Nat
  | and | or | xor | nand | nor | xnor => 1
  | eq | ne | lt | le | gt | ge => 2
  | plus | minus | concat => 3
  | times | divide | mod | rem => 4
  | pow => 6

end BinaryOperator

namespace UnaryOperator

/-- The written form, in lower case. -/
def word : UnaryOperator → Text
  | plus => ['+']
  | minus => ['-']
  | abs => ['a', 'b', 's']
  | not => ['n', 'o', 't']

/-- The level, on one scale with the binary operators. -/
def level : UnaryOperator → Nat
  | plus | minus => 5
  | abs | not => 6

end UnaryOperator

end TimedReq.Vhdl
