import TimedReq.Vhdl.Operator

/-!
# Tokens of VHDL conditions

A token is a piece of text with its kind and its place: the index of its first character and the
number of its line.
-/

namespace TimedReq.Vhdl

/-- The kinds of literal. A boolean literal is a word, a character literal includes its quotes. -/
inductive LiteralKind where
  | boolean | integer | real | character | string | bitString
deriving DecidableEq

/-- The kinds of token. The two boolean words are kinds of their own. -/
inductive TokenKind where
  | name
  | integer | real | character | string | bitString
  | boolean (value : Bool)
  | binary (o : BinaryOperator)
  | abs | not
  | leftParen | rightParen
deriving DecidableEq

/-- The operator that a token is in front of an operand. Both signs are binary operators too. -/
def TokenKind.unary? : TokenKind → Option UnaryOperator
  | binary .plus => some .plus
  | binary .minus => some .minus
  | abs => some .abs
  | not => some .not
  | _ => none

/-- The name of a token kind in reports. -/
def TokenKind.label : TokenKind → String
  | name => "NAME"
  | integer => "INTEGER"
  | real => "REAL"
  | character => "CHAR"
  | string => "STRING"
  | bitString => "BIT_STRING"
  | boolean true => "TRUE"
  | boolean false => "FALSE"
  | leftParen => "LPAREN"
  | rightParen => "RPAREN"
  | abs => "ABS"
  | not => "NOT"
  | binary o => match o with
    | .and => "AND"
    | .or => "OR"
    | .xor => "XOR"
    | .nand => "NAND"
    | .nor => "NOR"
    | .xnor => "XNOR"
    | .eq => "EQ"
    | .ne => "NE"
    | .lt => "LT"
    | .le => "LE"
    | .gt => "GT"
    | .ge => "GE"
    | .plus => "PLUS"
    | .minus => "MINUS"
    | .concat => "CONCAT"
    | .times => "TIMES"
    | .divide => "DIVIDE"
    | .mod => "MOD"
    | .rem => "REM"
    | .pow => "POW"

/-- A token: its kind, its characters, the index of the first of them, and its line from 1 on. -/
structure Token where
  kind : TokenKind
  text : Text
  start : Nat
  line : Nat
deriving DecidableEq

/-- The index after the last character of a token. -/
def Token.stop (t : Token) : Nat := t.start + t.text.length

end TimedReq.Vhdl
