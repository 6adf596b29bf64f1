import TimedReq.Number.Decimal
import TimedReq.Text.Quoted

/-!
# Binary64

The nearest binary64 value of a decimal number in scientific form, by exact arithmetic on natural
numbers. A number half-way between two values goes to the one with the even significand.
-/

namespace TimedReq.Number

/-- A decimal number: the digits of its significand, read as an integer, times a power of ten. -/
structure Scientific where
  digits : List Nat
  exponent : Int
deriving DecidableEq

namespace Scientific

/-- The leading digits of any script, as values, and what follows them. -/
def spanDigits (s : Text) : List Nat × Text :=
  ((s.takeWhile Text.isDigit).filterMap Text.digitValue?, s.dropWhile Text.isDigit)

/-- Reads an exponent part that makes up the whole text; the empty text means zero. -/
def exponentPart? : Text → Option Int
  | [] => some 0
  | c :: s =>
    if c = 'e' ∨ c = 'E' then
      let (negative, body) := splitSign s
      match spanDigits body with
      | (d :: ds, []) => some (if negative then -(ofDigits (d :: ds) : Int) else ofDigits (d :: ds))
      | _ => none
    else none

/-- Reads a decimal number: digits with at most one point among them and an optional exponent. -/
def read? (s : Text) : Option Scientific :=
  let (whole, rest) := spanDigits s
  let (fraction, rest) := match rest with
    | '.' :: rest => spanDigits rest
    | rest => ([], rest)
  if whole ++ fraction = [] then none
  else (exponentPart? rest).map fun e => ⟨whole ++ fraction, e - fraction.length⟩

end Scientific

/-- A binary64 value: a sign and the bits of its magnitude. -/
structure Binary64 where
  negative : Bool
  magnitude : Nat
deriving DecidableEq

namespace Binary64

/-- The quotient rounded to the nearest integer, to the even one if two are equally near. -/
def roundDiv (num den : Nat) : Nat :=
  let q := num / den
  let twice := 2 * (num % den)
  if den < twice ∨ (twice = den ∧ q % 2 = 1) then q + 1 else q

/-- The bits of infinity. -/
def infinity : Nat := 0x7FF0000000000000

/-- The bits of the value that is no number. -/
def notANumber : Nat := 0x7FF8000000000000

/-- The bits of the value nearest to a positive quotient. The significand has 53 bits unless the
exponent is the least, and its leading bit carries over into the exponent field. -/
def ofQuotient (num den : Nat) : Nat :=
  let guess : Int := (Nat.log2 num : Int) - Nat.log2 den
  let reached : Bool :=
    if 0 ≤ guess then den * Nat.pow 2 guess.toNat ≤ num else den ≤ num * Nat.pow 2 (-guess).toNat
  let top := if reached then guess else guess - 1
  let scale := max (top - 52) (-1074)
  let significand :=
    if 0 ≤ scale then roundDiv num (den * Nat.pow 2 scale.toNat)
    else roundDiv (num * Nat.pow 2 (-scale).toNat) den
  min ((scale + 1074).toNat * Nat.pow 2 52 + significand) infinity

/-- The bits of the value nearest to a natural number times a power of ten. A product with 400 and
more digits before the point is beyond all finite values, and one with 400 zeros after it is below
half the least of them. -/
def ofScaled (significand : Nat) (exponent : Int) : Nat :=
  let size : Int := (numeral significand).length + exponent
  if significand = 0 ∨ size < -400 then 0
  else if 400 < size then infinity
  else if 0 ≤ exponent then ofQuotient (significand * Nat.pow 10 exponent.toNat) 1
  else ofQuotient significand (Nat.pow 10 (-exponent).toNat)

/-- The bits of the value nearest to a decimal number. -/
def ofScientific (x : Scientific) : Nat := ofScaled (ofDigits x.digits) x.exponent

/-- The values that have names. -/
def named : List (Text × Nat) :=
  [("inf".toList, infinity), ("infinity".toList, infinity), ("nan".toList, notANumber)]

/-- Reads a value: blanks around it, an optional sign, and a decimal number or a name in letters of
any case. -/
def read? (s : Text) : Option Binary64 :=
  let (negative, body) := splitSign (trimMargins s)
  match named.lookup (body.map Char.toLower) with
  | some m => some ⟨negative, m⟩
  | none => (Scientific.read? body).map fun x => ⟨negative, ofScientific x⟩

/-- The bits of a value, the sign in front. -/
def bits (x : Binary64) : Nat := if x.negative then Nat.pow 2 63 + x.magnitude else x.magnitude

/-- The sixteen hexadecimal digits of a value's bits. -/
def bitText (x : Binary64) : Text := Text.hex 16 x.bits

end Binary64

end TimedReq.Number
