import TimedReq.Text.Blank

/-!
# Units of time and energy

A unit is a quantity on a scale: seconds or joules, whole or in thousandths down to the
billionth of a thousandth.
-/

namespace TimedReq

/-- What is bounded. -/
inductive Quantity where
  | time | energy
deriving DecidableEq

/-- The symbol that stands for the quantity in a statement. -/
def Quantity.symbol : Quantity → Char
  | time => 't'
  | energy => 'E'

/-- The part of a base unit that a unit stands for. -/
inductive Scale where
  | one | milli | micro | nano | pico
deriving DecidableEq

/-- A unit of time or energy. -/
structure PhysicalUnit where
  quantity : Quantity
  scale : Scale
deriving DecidableEq

namespace PhysicalUnit

/-- The token of a unit: the letter of its scale and that of its base unit. -/
def token (u : PhysicalUnit) : Text :=
  let letters : Text := match u.scale with
    | .one => []
    | .milli => ['m']
    | .micro => ['u']
    | .nano => ['n']
    | .pico => ['p']
  letters ++ match u.quantity with
    | .time => ['s']
    | .energy => ['J']

/-- The units of a quantity, from the largest to the smallest. -/
def ofQuantity (q : Quantity) : List PhysicalUnit :=
  [⟨q, .one⟩, ⟨q, .milli⟩, ⟨q, .micro⟩, ⟨q, .nano⟩, ⟨q, .pico⟩]

/-- All units. -/
def all : List PhysicalUnit := ofQuantity .time ++ ofQuantity .energy

/-- The unit of a token. -/
def ofToken? (s : Text) : Option PhysicalUnit := all.find? (·.token == s)

theorem mem_all (u : PhysicalUnit) : u ∈ all := by
  obtain ⟨q, s⟩ := u
  cases q <;> cases s <;> decide

theorem ofToken?_token (u : PhysicalUnit) : ofToken? u.token = some u := by
  obtain ⟨q, s⟩ := u
  cases q <;> cases s <;> decide

end PhysicalUnit

end TimedReq
