import TimedReq.Bound.Units
import TimedReq.Number.Decimal

/-!
# Statements about bounds

A bound is an amount in a unit. A statement compares a quantity with a bound, as in `t <= 2 us`;
its symbol is that of the unit's quantity.
-/

namespace TimedReq

/-- An amount of time or energy. -/
structure Bound where
  amount : Nat
  unit : PhysicalUnit
deriving DecidableEq

namespace Bound

/-- The canonical text. -/
def print (b : Bound) : Text := Number.numeral b.amount ++ ' ' :: b.unit.token

/-- Reads two words, a numeral of ASCII digits and a unit. The length of the numeral is checked
last. -/
def parse (s : Text) : Reading Bound :=
  match Text.words s with
  | [amount, unit] =>
    if amount.all Text.isAsciiDigit then
      match PhysicalUnit.ofToken? unit with
      | some u => do
        let n ← Number.ofDigitsWithin (amount.filterMap Text.digitValue?)
        return ⟨n, u⟩
      | none => .malformed
    else .malformed
  | _ => .malformed

end Bound

/-- The ways to compare a quantity with a bound. -/
inductive Comparison where
  | lt | le | gt | ge | eq | ne
deriving DecidableEq

namespace Comparison

/-- The symbol of a comparison. -/
def symbol : Comparison → Text
  | lt => ['<']
  | le => ['<', '=']
  | gt => ['>']
  | ge => ['>', '=']
  | eq => ['=', '=']
  | ne => ['!', '=']

/-- The comparisons in the order in which a statement is searched for them. -/
def all : List Comparison := [lt, le, gt, ge, eq, ne]

/-- The comparison of a symbol. -/
def ofSymbol? (s : Text) : Option Comparison := all.find? (·.symbol == s)

end Comparison

/-- A comparison of a quantity with a bound. -/
structure Statement where
  comparison : Comparison
  bound : Bound
deriving DecidableEq

namespace Statement

/-- The canonical text. -/
def print (st : Statement) : Text :=
  st.bound.unit.quantity.symbol :: ' ' :: st.comparison.symbol ++ ' ' :: st.bound.print

/-- The statement with the given symbol of a quantity, if that is the bound's. -/
def ofParts? (symbol comparison : Text) (b : Bound) : Option Statement :=
  if Text.trim symbol = [b.unit.quantity.symbol] then
    (Comparison.ofSymbol? (Text.trim comparison)).map (⟨·, b⟩)
  else none

/-- Reads a statement whose comparison is `c`: the symbol occurs once, between the symbol of the
quantity and the bound. -/
def parseAt (c : Comparison) (s : Text) : Reading Statement :=
  match Text.splitOn c.symbol s with
  | [left, right] => do
    let b ← Bound.parse right
    .ofOption (ofParts? left c.symbol b)
  | _ => .malformed

/-- Reads a statement with the first of the given comparisons with which it can be read. -/
def parseWith (s : Text) : List Comparison → Reading Statement
  | [] => .malformed
  | c :: cs => (parseAt c s).orElse fun _ => parseWith s cs

/-- Reads a statement. -/
def parse (s : Text) : Reading Statement := parseWith (Text.trim s) Comparison.all

/-- Reads the statements of a list, in their order. All are looked at before the first malformed
one is reported, so that a numeral too long is reported first. -/
def parseAll : List Text → Reading (List Statement)
  | [] => .ok []
  | s :: rest =>
    match parse s, parseAll rest with
    | .ok st, .ok sts => .ok (st :: sts)
    | .error (.tooLong n), _ => .error (.tooLong n)
    | _, .error (.tooLong n) => .error (.tooLong n)
    | _, _ => .malformed

end Statement

end TimedReq
