import TimedReq.Number.Binary64
import TimedReq.Vhdl.Node

/-!
# The values of literals

What a literal denotes. Underscores in numbers only group digits. A literal that was not read from
a text may hold any characters, so a number's value may fail to exist.
-/

namespace TimedReq.Vhdl

/-- The value of a literal. -/
inductive LiteralValue where
  | boolean (value : Bool)
  | integer (value : Int)
  | real (value : Number.Binary64)
  | text (value : Text)
deriving DecidableEq

/-- Why a literal has no value, or no kind. -/
inductive LiteralError where
  | unknownKind (label : String)
  | notInteger (text : Text)
  | notReal (text : Text)
  | tooLong (digits : Nat)
deriving DecidableEq

/-- How much of a quoted text a report on an integer shows. -/
def LiteralError.shownLength : Nat := 200

/-- The report of an error. -/
def LiteralError.message : LiteralError → String
  | unknownKind label => String.ofList (Text.quoted label.toList) ++ " is not a valid LiteralKind"
  | notInteger text =>
    "invalid literal for int() with base 10: " ++
      String.ofList ((Text.quoted text).take shownLength)
  | notReal text => "could not convert string to float: " ++ String.ofList (Text.quoted text)
  | tooLong digits => Number.tooLongMessage digits

/-- The value of a literal of the given kind: a boolean is true if it is the word for it, and the
quotes of a character or string, with the base letter of a bit string, are no part of the value. -/
def literalValue (kind : LiteralKind) (text : Text) : Except LiteralError LiteralValue :=
  let digits := text.filter (· ≠ '_')
  match kind with
  | .boolean => .ok (.boolean (text == ['t', 'r', 'u', 'e']))
  | .integer =>
    match Number.readInteger digits with
    | .ok n => .ok (.integer n)
    | .error (.tooLong n) => .error (.tooLong n)
    | .error .malformed => .error (.notInteger digits)
  | .real =>
    match Number.Binary64.read? digits with
    | some x => .ok (.real x)
    | none => .error (.notReal digits)
  | .bitString => .ok (.text (text.drop 2).dropLast)
  | .character | .string => .ok (.text (text.drop 1).dropLast)

/-- The name of a literal kind. -/
def LiteralKind.label : LiteralKind → String
  | boolean => "boolean"
  | integer => "integer"
  | real => "real"
  | character => "character"
  | string => "string"
  | bitString => "bit_string"

/-- The literal kind of a name. -/
def LiteralKind.ofLabel (s : String) : Except LiteralError LiteralKind :=
  match [boolean, integer, real, character, string, bitString].find? (·.label == s) with
  | some kind => .ok kind
  | none => .error (.unknownKind s)

end TimedReq.Vhdl
