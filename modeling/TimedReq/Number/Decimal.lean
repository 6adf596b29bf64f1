import TimedReq.Reading
import TimedReq.Text.Basic
import TimedReq.Text.Digit

/-!
# Decimal numerals

Natural numbers and integers as runs of decimal digits. Numerals of more than `digitLimit` digits
are not read: the time for it grows with the square of their length.
-/

namespace TimedReq.Number

/-- The number that digit values denote, the most significant first. -/
def ofDigits (ds : List Nat) : Nat := ds.foldl (fun n d => 10 * n + d) 0

/-- The shortest numeral of a natural number. -/
def numeral (n : Nat) : Text := Nat.toDigits 10 n

/-- The numeral of an integer, with a minus sign if it is negative. -/
def signedNumeral : Int → Text
  | .ofNat n => numeral n
  | .negSucc n => '-' :: numeral (n + 1)

/-- The greatest number of digits of a numeral that is read. -/
def digitLimit : Nat := 4300

/-- How a numeral that is too long is reported. -/
def tooLongMessage (digits : Nat) : String :=
  "Exceeds the limit (" ++ String.ofList (numeral digitLimit) ++
    " digits) for integer string conversion: value has " ++ String.ofList (numeral digits) ++
    " digits; use sys.set_int_max_str_digits() to increase the limit"

/-- Reads a number off its digit values, unless there are too many. -/
def ofDigitsWithin (ds : List Nat) : Reading Nat :=
  if ds.length ≤ digitLimit then .ok (ofDigits ds) else .error (.tooLong ds.length)

/-- The values of digits between any two of which a single underscore may stand. -/
def groupedDigits? : Text → Option (List Nat)
  | [] => none
  | [c] => (Text.digitValue? c).map ([·])
  | c :: '_' :: s => do return (← Text.digitValue? c) :: (← groupedDigits? s)
  | c :: s => do return (← Text.digitValue? c) :: (← groupedDigits? s)

/-- Splits a sign off a text; without one the sign is plus. -/
def splitSign : Text → Bool × Text
  | '-' :: s => (true, s)
  | '+' :: s => (false, s)
  | s => (false, s)

/-- The blanks that may stand around a number: all but the four separators among the control
characters. -/
def isMargin (c : Char) : Bool := Text.isBlank c && !(0x1C ≤ c.toNat && c.toNat ≤ 0x1F)

/-- The text without such blanks at both ends. -/
def trimMargins (s : Text) : Text :=
  ((s.dropWhile isMargin).reverse.dropWhile isMargin).reverse

/-- Reads an integer: blanks around it, an optional sign, and grouped digits of any script. -/
def readInteger (s : Text) : Reading Int :=
  let (negative, body) := splitSign (trimMargins s)
  match groupedDigits? body with
  | none => .malformed
  | some ds => do
    let n ← ofDigitsWithin ds
    return if negative then -(n : Int) else n

end TimedReq.Number
