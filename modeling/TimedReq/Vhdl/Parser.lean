import TimedReq.Text.Basic
import TimedReq.Vhdl.Lexer
import TimedReq.Vhdl.Node

/-!
# From tokens to expressions

The parser reads tokens from left to right. What is begun and not yet finished lies in a list of
frames, the innermost first. An operator that comes after an operand first closes the pending
operators that bind stronger, so the frames always hold a path down the tree to be.
-/

namespace TimedReq.Vhdl

/-- Something begun: an opened bracket, an operator in front of its operand, or a left operand
with the operator after it. -/
inductive Frame where
  | paren
  | unary (o : UnaryOperator)
  | binary (lhs : Node) (o : BinaryOperator)
deriving DecidableEq

/-- Where the parser stands: before an operand, or behind one. -/
inductive State where
  | before (frames : List Frame)
  | behind (frames : List Frame) (operand : Node)
deriving DecidableEq

/-- Which of two operators takes the operand between them. -/
inductive Contest where
  | left | right | clash
deriving DecidableEq

/-- The operator of the higher level takes the operand; on one level the associativity decides, and
operators that do not associate clash. -/
def Contest.ofLevels (l r : Nat) : Contest :=
  if r < l then .left
  else if l < r then .right
  else match Associativity.ofLevel l with
    | .left => .left
    | .right => .right
    | .none => .clash

/-- Closes the pending operators that win the operand against an operator of level `next`, down to
the first that loses it or to an opened bracket. Level 0 lets all of them win. -/
def close (next : Nat) : List Frame → Node → Option (List Frame × Node)
  | [], x => some ([], x)
  | .paren :: frames, x => some (.paren :: frames, x)
  | .unary o :: frames, x =>
    match Contest.ofLevels o.level next with
    | .left => close next frames (.unary o.word x)
    | .right => some (.unary o :: frames, x)
    | .clash => none
  | .binary lhs o :: frames, x =>
    match Contest.ofLevels o.level next with
    | .left => close next frames (.binary o.sort o.word lhs x)
    | .right => some (.binary lhs o :: frames, x)
    | .clash => none

/-- The expression that a token is by itself. Boolean literals are kept in lower case. -/
def Token.leaf? (t : Token) : Option Node :=
  match t.kind with
  | .name => some (.name t.text)
  | .integer => some (.literal .integer t.text)
  | .real => some (.literal .real t.text)
  | .character => some (.literal .character t.text)
  | .string => some (.literal .string t.text)
  | .bitString => some (.literal .bitString t.text)
  | .boolean true => some (.literal .boolean ['t', 'r', 'u', 'e'])
  | .boolean false => some (.literal .boolean ['f', 'a', 'l', 's', 'e'])
  | _ => none

/-- The state after one more token, if the token may stand here. -/
def State.step : State → Token → Option State
  | .before frames, t =>
    match t.leaf? with
    | some x => some (.behind frames x)
    | none =>
      if t.kind = .leftParen then some (.before (.paren :: frames))
      else t.kind.unary?.map fun o => .before (.unary o :: frames)
  | .behind frames x, t =>
    match t.kind with
    | .binary o => (close o.level frames x).map fun (rest, y) => .before (.binary y o :: rest)
    | .rightParen =>
      match close 0 frames x with
      | some (.paren :: rest, y) => some (.behind rest (.paren y))
      | _ => none
    | _ => none

/-- The expression that is complete in a state, if there is one. -/
def State.finish? : State → Option Node
  | .before _ => none
  | .behind frames x =>
    match close 0 frames x with
    | some ([], y) => some y
    | _ => none

/-- Reads tokens one after the other: the state after them, or the first that may not stand where
it stands. -/
def State.run (q : State) : List Token → Except Token State
  | [] => .ok q
  | t :: ts =>
    match q.step t with
    | some q' => q'.run ts
    | none => .error t

/-- Why a text is no expression, or no condition. -/
inductive ParseError where
  | empty
  | unexpected (t : Token)
  | unexpectedEnd
  | invalid (error : LexError)
  | notCondition (expression : Node)
deriving DecidableEq

/-- The report of an error. -/
def ParseError.message : ParseError → String
  | empty => "Syntax error: empty expression"
  | unexpected t =>
    "Syntax error at '" ++ String.ofList t.text ++ "' (type: " ++ t.kind.label ++ ", index: " ++
      toString t.start ++ ")"
  | unexpectedEnd => "Syntax error: unexpected end of expression"
  | invalid error =>
    "Invalid character '" ++ String.singleton error.char ++ "' at index " ++ toString error.index
  | notCondition expression => "Not a condition: '" ++ String.ofList expression.print ++ "'"

/-- Reads an expression. Of an unexpected token and an invalid character the one further in front
is reported; both are reported rather than an unexpected end. -/
def parse (s : Text) : Except ParseError Node :=
  match Text.trim s with
  | [] => .error .empty
  | c :: r =>
    let (tokens, error) := scan (c :: r)
    match (State.before []).run tokens, error with
    | .error t, _ => .error (.unexpected t)
    | .ok _, some e => .error (.invalid e)
    | .ok q, none =>
      match q.finish? with
      | some x => .ok x
      | none => .error .unexpectedEnd

/-- Reads an expression that has to be a condition. -/
def parseCondition (s : Text) : Except ParseError Node := do
  let x ← parse s
  if x.isCondition then return x else throw (.notCondition x)

end TimedReq.Vhdl
