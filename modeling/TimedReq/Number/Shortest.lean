import TimedReq.Number.Binary64

/-!
# Shortest decimals

The text of a binary64 value: the fewest digits that read back as the value and, of the decimals
with so many digits, the nearest to it. A search over ever finer decimal grids finds them: if a point
of a grid reads back, so does one of the two points of the grid that enclose the value.
-/

namespace TimedReq.Number

namespace Binary64

/-- A finite magnitude as a quotient of natural numbers. -/
def quotient (magnitude : Nat) : Nat × Nat :=
  let exponent := magnitude / Nat.pow 2 52
  let fraction := magnitude % Nat.pow 2 52
  if exponent = 0 then (fraction, Nat.pow 2 1074)
  else if exponent < 1075 then (Nat.pow 2 52 + fraction, Nat.pow 2 (1075 - exponent))
  else ((Nat.pow 2 52 + fraction) * Nat.pow 2 (exponent - 1075), 1)

/-- The exponent of the greatest power of ten that a positive quotient reaches. -/
def decimalExponent (num den : Nat) : Int :=
  if den ≤ num then (numeral (num / den)).length - 1
  else -((numeral ((den - 1) / num)).length : Int)

/-- The decimal with some digits after its first one that reads back as a positive finite magnitude:
a significand and the exponent of its power of ten. Of two such decimals the nearer is taken, and of
two equally near ones that with the even significand. -/
def onGrid? (magnitude places : Nat) : Option (Nat × Int) :=
  let (num, den) := quotient magnitude
  let step := decimalExponent num den - places
  let (num, den) :=
    if 0 ≤ step then (num, den * Nat.pow 10 step.toNat) else (num * Nat.pow 10 (-step).toNat, den)
  let below := num / den
  let nearest := roundDiv num den
  let farther := if nearest = below then below + 1 else below
  ([nearest, farther].find? fun n => ofScaled n step == magnitude).map fun n => (n, step)

/-- A decimal on a grid reads back as the magnitude it was found for. -/
theorem ofScaled_of_onGrid? {magnitude places n : Nat} {step : Int}
    (h : onGrid? magnitude places = some (n, step)) : ofScaled n step = magnitude := by
  obtain ⟨m, hm, he⟩ := Option.map_eq_some_iff.1 h
  have hr := List.find?_some hm
  simp only [Prod.mk.injEq] at he
  rw [← he.1, ← he.2]
  exact eq_of_beq hr

/-- A finite magnitude as a natural number times a power of ten. -/
def exactDecimal (magnitude : Nat) : Nat × Int :=
  let (num, den) := quotient magnitude
  (num * Nat.pow 5 den.log2, -(den.log2 : Int))

/-- The digits of a positive finite magnitude, without zeros at their end, and the exponent of the
first of them. Seventeen digits are enough to read any magnitude back. -/
def shortest (magnitude : Nat) : Text × Int :=
  let (n, step) := ((List.range 17).findSome? (onGrid? magnitude)).getD (exactDecimal magnitude)
  let digits := numeral n
  ((digits.reverse.dropWhile (· == '0')).reverse, digits.length - 1 + step)

/-- A numeral of two digits at least, with its sign. -/
def exponentNumeral (e : Int) : Text :=
  let digits := numeral e.natAbs
  (if e < 0 then '-' else '+') :: (List.replicate (2 - digits.length) '0' ++ digits)

/-- Digits with the point behind the first of them and a power of ten. -/
def scientific (digits : Text) (e : Int) : Text :=
  let fraction := digits.drop 1
  digits.take 1 ++ (if fraction.isEmpty then [] else '.' :: fraction) ++ 'e' :: exponentNumeral e

/-- Digits with the point at its place and a digit on both sides of it. -/
def positional (digits : Text) (e : Int) : Text :=
  if e < 0 then '0' :: '.' :: (List.replicate ((-e).toNat - 1) '0' ++ digits)
  else
    let size := e.toNat + 1
    let fraction := digits.drop size
    digits.take size ++ List.replicate (size - digits.length) '0' ++
      '.' :: (if fraction.isEmpty then ['0'] else fraction)

/-- The text of a value. A finite one from a ten-thousandth up to ten to the sixteenth has no
power of ten, nor has zero, which keeps its sign. -/
def print (x : Binary64) : Text :=
  let sign : Text := if x.negative then ['-'] else []
  if infinity < x.magnitude then "nan".toList
  else if x.magnitude = infinity then sign ++ "inf".toList
  else
    let (digits, e) := if x.magnitude = 0 then (['0'], 0) else shortest x.magnitude
    sign ++ if -4 ≤ e ∧ e < 16 then positional digits e else scientific digits e

end Binary64

end TimedReq.Number
