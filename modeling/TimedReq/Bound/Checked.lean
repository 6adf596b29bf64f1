import TimedReq.Bound.Statement
import TimedReq.Number.Shortest

/-!
# Bounds from unchecked values

A bound is made of an amount and a unit that come from outside and may be of any kind. The checks
are made in a fixed order: the token of a unit, the kind and the sign of the amount, and at last
that the unit is one.
-/

namespace TimedReq

/-- A value from outside. -/
inductive Scalar where
  | null
  | boolean (value : Bool)
  | integer (value : Int)
  | real (value : Number.Binary64)
  | text (value : Text)
deriving DecidableEq

/-- How a value is shown in a report. -/
def Scalar.display : Scalar → Text
  | null => ['N', 'o', 'n', 'e']
  | boolean true => ['T', 'r', 'u', 'e']
  | boolean false => ['F', 'a', 'l', 's', 'e']
  | integer n => Number.signedNumeral n
  | real x => x.print
  | text s => Text.quoted s

/-- A unit from outside: a token for a unit of a quantity, or another value in its place. -/
inductive UnitSource where
  | token (quantity : Quantity) (token : Text)
  | other (value : Scalar)
deriving DecidableEq

/-- Why values make no bound. -/
inductive BoundError where
  | unknownUnit (quantity : Quantity) (token : Text)
  | notInteger (amount : Scalar)
  | negative (amount : Int)
  | notUnit (value : Scalar)
deriving DecidableEq

/-- The report of an error. -/
def BoundError.message : BoundError → String
  | unknownUnit .time token => String.ofList (Text.quoted token) ++ " is not a valid TimeUnit"
  | unknownUnit .energy token => String.ofList (Text.quoted token) ++ " is not a valid EnergyUnit"
  | notInteger amount => "amount must be an integer, got " ++ String.ofList amount.display
  | negative amount =>
    "amount must be non-negative, got " ++ String.ofList (Number.signedNumeral amount)
  | notUnit value => "unit must be a TimeUnit or EnergyUnit, got " ++ String.ofList value.display

namespace Bound

/-- The amount, if it is a natural number. -/
def checkAmount : Scalar → Except BoundError Nat
  | .integer (.ofNat n) => .ok n
  | .integer n => .error (.negative n)
  | amount => .error (.notInteger amount)

/-- The bound that an amount and a unit from outside make. -/
def ofScalar (amount : Scalar) : UnitSource → Except BoundError Bound
  | .token q token =>
    match (PhysicalUnit.ofQuantity q).find? (·.token == token) with
    | none => .error (.unknownUnit q token)
    | some u => do return ⟨← checkAmount amount, u⟩
  | .other value => do
    let _ ← checkAmount amount
    throw (.notUnit value)

end Bound

end TimedReq
