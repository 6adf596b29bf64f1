import TimedReq.CommandLine.Switch
import TimedReq.Text.Digit
import TimedReq.Text.Quoted

/-!
# Arguments of the command line

Before any argument is acted upon, each is told to be a switch or a value by its own text, but for
those after a double hyphen, which are values.
-/

namespace TimedReq.CommandLine

/-- What is wrong with a command line. -/
inductive UsageError where
  | ambiguous (argument : Text) (candidates : List Switch)
  | missingValue (o : Switch)
  | unwantedValue (o : Switch) (value : Text)
  | notInteger (o : Switch) (value : Text)
  | badChoice (o : Switch) (value : Text) (choices : List Text)
  | conflict (o other : Switch)
  | missingSource (choices : List Switch)
  | leftOver (arguments : List Text)
deriving DecidableEq

namespace UsageError

/-- A report about a switch. -/
def about (o : Switch) (s : Text) : Text := "argument ".toList ++ o.label ++ ':' :: ' ' :: s

/-- The report of an error. A bad choice has its value and the choices as they are shown. -/
def message : UsageError → Text
  | ambiguous argument candidates =>
    "ambiguous option: ".toList ++ argument ++ " could match ".toList ++
      Text.join [',', ' '] (candidates.map Switch.long)
  | missingValue o => about o "expected one argument".toList
  | unwantedValue o value => about o ("ignored explicit argument ".toList ++ Text.quoted value)
  | notInteger o value => about o ("invalid int value: ".toList ++ Text.quoted value)
  | badChoice o value choices =>
    about o ("invalid choice: ".toList ++ value ++ " (choose from ".toList ++
      Text.join [',', ' '] choices ++ [')'])
  | conflict o other => about o ("not allowed with argument ".toList ++ other.label)
  | missingSource choices =>
    "one of the arguments ".toList ++ Text.join [' '] (choices.map Switch.label) ++
      " is required".toList
  | leftOver arguments => "unrecognized arguments: ".toList ++ Text.join [' '] arguments

end UsageError

/-- What an argument is by its own text: a switch in its short spelling with the text behind its
letter, a switch in its long spelling with the text after an equality sign, or no switch. -/
inductive Argument where
  | value
  | separator
  | letter (o : Switch) (behind : Text)
  | word (o : Switch) (attached : Option Text)
  | unknown
deriving DecidableEq

namespace Argument

/-- Whether a text after a hyphen is a natural number or a decimal fraction. A newline may follow
it. -/
def isNumber (s : Text) : Bool :=
  let t := if s.getLast? = some '\n' then s.dropLast else s
  match Text.pieces (· == '.') t with
  | [whole] => !whole.isEmpty && whole.all Text.isDigit
  | [whole, fraction] => whole.all Text.isDigit && !fraction.isEmpty && fraction.all Text.isDigit
  | _ => false

/-- An argument that begins with a hyphen and spells no switch: a value, if it looks like a negative
number or holds a space. -/
def ofOther (s : Text) : Argument :=
  if isNumber (s.drop 1) || s.contains ' ' then value else unknown

/-- An argument that begins with two hyphens. It spells a switch in full, or begins the spelling of
just one. -/
def ofWord (s : Text) : Except UsageError Argument :=
  let name := s.takeWhile (· != '=')
  let attached := match s.dropWhile (· != '=') with
    | [] => none
    | _ :: v => some v
  match Switch.ofLong? name, Switch.ofLongPrefix name with
  | some o, _ => .ok (word o attached)
  | none, [] => .ok (ofOther s)
  | none, [o] => .ok (word o attached)
  | none, candidates => .error (.ambiguous s candidates)

/-- What an argument is. -/
def ofText (s : Text) : Except UsageError Argument :=
  match s with
  | '-' :: '-' :: _ => ofWord s
  | '-' :: c :: behind =>
    match Switch.ofLetter? c with
    | some o => .ok (letter o behind)
    | none => .ok (ofOther s)
  | _ => .ok value

/-- The arguments of a command line with what they are. -/
def classify : List Text → Except UsageError (List (Text × Argument))
  | [] => .ok []
  | s :: rest =>
    if s = ['-', '-'] then .ok ((s, separator) :: rest.map (·, value))
    else do
      let a ← ofText s
      return (s, a) :: (← classify rest)

end Argument

/-- Switches with the values that are given to them, and texts that belong to no switch. -/
structure Effects where
  switches : List (Switch × Option Text) := []
  left : List Text := []
deriving DecidableEq

namespace Effects

/-- The switches that a letter and the text right behind it spell. The text is the value of the
switch if it takes one; otherwise its characters are the letters of further switches. -/
def ofLetters (o : Switch) : Text → Except UsageError (List (Switch × Option Text))
  | [] => .ok [(o, none)]
  | c :: s =>
    if o.takesValue then .ok [(o, some (c :: s))]
    else match Switch.ofLetter? c with
      | some next => ((o, none) :: ·) <$> ofLetters next s
      | none => .error (.unwantedValue o (c :: s))

/-- The switch with a value after an equality sign. Behind the letter of a switch that takes none,
the value is read as if the sign were not there. -/
def ofValue (o : Switch) (short : Bool) (v : Text) :
    Except UsageError (List (Switch × Option Text)) :=
  if o.takesValue then .ok [(o, some v)]
  else if short ∧ v ≠ [] then ofLetters o v
  else .error (.unwantedValue o v)

/-- The effects of one argument. -/
def ofArgument (s : Text) : Argument → Except UsageError Effects
  | .value | .separator | .unknown => .ok ⟨[], [s]⟩
  | .letter o ('=' :: v) => (⟨·, []⟩) <$> ofValue o true v
  | .letter o behind => (⟨·, []⟩) <$> ofLetters o behind
  | .word o none => .ok ⟨[(o, none)], []⟩
  | .word o (some v) => (⟨·, []⟩) <$> ofValue o false v

/-- Whether a switch is still without the value that it takes. -/
def isWanting : Switch × Option Text → Bool
  | (o, v) => o.takesValue && v.isNone

/-- The switch that is still without the value that it takes. -/
def wanting? (e : Effects) : Option Switch := (e.switches.find? isWanting).map (·.1)

/-- The effects with a value for the switch that is without one. -/
def supply (e : Effects) (v : Text) : Effects :=
  { e with switches := e.switches.map fun x => if isWanting x then (x.1, some v) else x }

end Effects

end TimedReq.CommandLine
