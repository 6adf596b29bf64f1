import TimedReq.Text.Digit
import TimedReq.Vhdl.Token

/-!
# From text to tokens

A token is the longest piece of text in front that belongs to a token class. Between tokens
stand spaces, tabs, returns and newlines only; any other character that starts no token ends the
scan with an error.
-/

namespace TimedReq.Vhdl

namespace Lexeme

/-- How far a numeral goes on after a digit: digits, and single underscores before digits. -/
def digitTail : Text → Nat
  | '_' :: d :: s => if Text.isDigit d then digitTail s + 2 else 0
  | c :: s => if Text.isDigit c then digitTail s + 1 else 0
  | [] => 0

/-- The length of the numeral in front, 0 if there is none. -/
def numeral : Text → Nat
  | c :: s => if Text.isDigit c then digitTail s + 1 else 0
  | [] => 0

/-- The length of an exponent part in front, 0 if there is none. -/
def exponent : Text → Nat
  | e :: s =>
    if e = 'e' ∨ e = 'E' then
      match s with
      | sign :: s' =>
        let signed := sign = '+' ∨ sign = '-'
        let digits := ((if signed then s' else s).takeWhile Text.isDigit).length
        if digits = 0 then 0 else digits + (if signed then 2 else 1)
      | [] => 0
    else 0
  | [] => 0

/-- The kind and the length of the number in front: a numeral is real if a point and digits
follow it. -/
def number (s : Text) : TokenKind × Nat :=
  let whole := numeral s
  match s.drop whole with
  | '.' :: rest =>
    let fraction := numeral rest
    if fraction = 0 then (.integer, whole)
    else (.real, whole + 1 + fraction + exponent (rest.drop fraction))
  | _ => (.integer, whole)

/-- The characters of a word after its first letter. -/
def isWordChar (c : Char) : Bool := Text.isAsciiLetter c || Text.isAsciiDigit c || c == '_'

/-- How far a name goes on after a letter: word characters, and points before letters. -/
def nameTail : Text → Nat
  | '.' :: c :: s => if Text.isAsciiLetter c then nameTail s + 2 else 0
  | c :: s => if isWordChar c then nameTail s + 1 else 0
  | [] => 0

/-- The characters between the quotes of a bit string. -/
def isBitDigit (c : Char) : Bool :=
  Text.isAsciiDigit c || c == '_' || ('a' ≤ c && c ≤ 'f') || ('A' ≤ c && c ≤ 'F')

/-- The length of the bit string in front: a base letter and digits between double quotes. -/
def bitString? : Text → Option Nat
  | base :: '"' :: s =>
    let digits := (s.takeWhile isBitDigit).length
    if base ∈ ['b', 'B', 'o', 'O', 'x', 'X'] ∧ 0 < digits ∧ (s.drop digits).head? = some '"' then
      some (digits + 3)
    else none
  | _ => none

/-- The length of the string literal whose opening quote stands before `s`. It ends on its line. -/
def stringTail? (s : Text) : Option Nat :=
  let inside := (s.takeWhile fun c => c != '"' && c != '\n').length
  if (s.drop inside).head? = some '"' then some (inside + 2) else none

/-- The kind of a whole word. Keywords are recognised in any case. -/
def wordKind (word : Text) : TokenKind :=
  let lower := word.map Char.toLower
  if lower = ['t', 'r', 'u', 'e'] then .boolean true
  else if lower = ['f', 'a', 'l', 's', 'e'] then .boolean false
  else if lower = UnaryOperator.abs.word then .abs
  else if lower = UnaryOperator.not.word then .not
  else match [.and, .or, .xor, .nand, .nor, .xnor, .mod, .rem].find?
      (fun (o : BinaryOperator) => o.word == lower) with
    | some o => .binary o
    | none => .name

/-- The kind and the length of the token in front of a text, if there is one. -/
def next? (s : Text) : Option (TokenKind × Nat) :=
  match s with
  | [] => none
  | '/' :: '=' :: _ => some (.binary .ne, 2)
  | '<' :: '=' :: _ => some (.binary .le, 2)
  | '>' :: '=' :: _ => some (.binary .ge, 2)
  | '*' :: '*' :: _ => some (.binary .pow, 2)
  | '=' :: _ => some (.binary .eq, 1)
  | '<' :: _ => some (.binary .lt, 1)
  | '>' :: _ => some (.binary .gt, 1)
  | '*' :: _ => some (.binary .times, 1)
  | '/' :: _ => some (.binary .divide, 1)
  | '+' :: _ => some (.binary .plus, 1)
  | '-' :: _ => some (.binary .minus, 1)
  | '&' :: _ => some (.binary .concat, 1)
  | '(' :: _ => some (.leftParen, 1)
  | ')' :: _ => some (.rightParen, 1)
  | '"' :: r => (stringTail? r).map fun n => (.string, n)
  | '\'' :: c :: '\'' :: _ => if c = '\'' ∨ c = '\n' then none else some (.character, 3)
  | c :: r =>
    if Text.isDigit c then some (number s)
    else if Text.isAsciiLetter c then
      match bitString? s with
      | some n => some (.bitString, n)
      | none => let n := nameTail r + 1; some (wordKind (s.take n), n)
    else none

end Lexeme

/-- A character that starts no token, with its index. -/
structure LexError where
  char : Char
  index : Nat
deriving DecidableEq

/-- The tokens of a text whose first character has the given index and line, up to the first
character that starts none. -/
def scanFrom (index line : Nat) : Text → List Token × Option LexError
  | [] => ([], none)
  | c :: s =>
    if c = ' ' ∨ c = '\t' ∨ c = '\r' then scanFrom (index + 1) line s
    else if c = '\n' then scanFrom (index + 1) (line + 1) s
    else match Lexeme.next? (c :: s) with
      | none => ([], some ⟨c, index⟩)
      | some (kind, n) =>
        let (tokens, error) := scanFrom (index + n) line (s.drop (n - 1))
        (⟨kind, (c :: s).take n, index, line⟩ :: tokens, error)
termination_by s => s.length
decreasing_by all_goals simp only [List.length_drop, List.length_cons]; omega

/-- The tokens of a text and, if the scan stops before its end, what stops it. -/
def scan (s : Text) : List Token × Option LexError := scanFrom 0 1 s

end TimedReq.Vhdl
