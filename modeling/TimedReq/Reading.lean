/-!
# Outcomes of reading

Reading a text yields a value or a refusal. A refusal says that the text is malformed, or that a
numeral in it is too long to be read; only the former lets another reading be tried.
-/

namespace TimedReq

/-- Why a text is not read. -/
inductive Refusal where
  | malformed
  | tooLong (digits : Nat)
deriving DecidableEq

/-- The outcome of reading a text. -/
abbrev Reading (α : Type) := Except Refusal α

namespace Reading

/-- The outcome for a text that is malformed. -/
def malformed {α : Type} : Reading α := .error .malformed

/-- Reads otherwise what is malformed. A numeral that is too long stays an error. -/
def orElse {α : Type} (r : Reading α) (other : Unit → Reading α) : Reading α :=
  match r with
  | .error .malformed => other ()
  | r => r

/-- Turns the absence of a value into a malformed text. -/
def ofOption {α : Type} : Option α → Reading α
  | some x => .ok x
  | none => malformed

end Reading

end TimedReq
