import TimedReq.CommandLine.Argument
import TimedReq.Files.Path
import TimedReq.Language
import TimedReq.Number.Decimal
import TimedReq.Report

/-!
# Requests of the command line

What a command line asks for. Switches take effect from left to right; a later value replaces an
earlier one, and a request for help or for the version is answered at once.

Two hyphens attached to a switch in place of its value leave the switch there with no value at all.
That is no mistake of the command line, but what needs the value fails when it comes to use it.
-/

namespace TimedReq.CommandLine

/-- What is to be checked. It has no value if its switch has none. -/
inductive Source where
  | file (p : Option Path)
  | expression (s : Option Text)
deriving DecidableEq

/-- How a check is to be done. A setting has no value if its switch has none; nothing is written
unless that is asked for. -/
structure Settings where
  language : Option Language := some .vhdl
  format : Bool := false
  write : Option (Option Path) := none
  output : Option Level := some .normal
  debug : Option Nat := some 0
  stats : Bool := false
deriving DecidableEq

/-- How much is reported: the debug level, which has to be there, may raise the output level. -/
def Settings.level? (s : Settings) : Option Level :=
  s.debug.map fun debug =>
    if 3 ≤ debug then .debug
    else if s.output = some .verbose ∨ 1 ≤ debug then .verbose
    else s.output.getD .normal

/-- What a command line asks for. -/
inductive Request where
  | help
  | version
  | check (source : Source) (settings : Settings)
deriving DecidableEq

/-- What is known of a request when some of its switches have taken effect. -/
structure Draft where
  source : Option Source := none
  settings : Settings := {}
deriving DecidableEq

namespace Draft

/-- The output levels by name. -/
def outputs : List (Text × Level) :=
  [("silent".toList, .silent), ("normal".toList, .normal), ("verbose".toList, .verbose)]

/-- The output level of a name. -/
def outputOf (s : Text) : Except UsageError Level :=
  match outputs.lookup s with
  | some l => .ok l
  | none => .error (.badChoice .output (Text.quoted s) (outputs.map (Text.quoted ·.1)))

/-- The language of a name. -/
def languageOf (s : Text) : Except UsageError Language :=
  match Language.ofName? s with
  | some l => .ok l
  | none => .error (.badChoice .language (Text.quoted s) (Language.all.map (Text.quoted ·.name)))

/-- The greatest debug level. -/
def debugLimit : Nat := 3

/-- The debug level of a text. -/
def debugOf (s : Text) : Except UsageError Nat :=
  match Number.readInteger s with
  | .error _ => .error (.notInteger .debug s)
  | .ok n =>
    if 0 ≤ n ∧ n ≤ debugLimit then .ok n.toNat
    else .error (.badChoice .debug (Number.signedNumeral n)
      ((List.range (debugLimit + 1)).map Number.numeral))

/-- The draft after a switch with its value, if there is one. -/
def apply (d : Draft) (o : Switch) (value : Option Text) : Except UsageError (Request ⊕ Draft) :=
  let set (s : Settings) : Except UsageError (Request ⊕ Draft) :=
    .ok (.inr { d with settings := s })
  match o with
  | .help => .ok (.inl .help)
  | .version => .ok (.inl .version)
  | .spec =>
    match d.source with
    | some (.expression _) => .error (.conflict .spec .expression)
    | _ => .ok (.inr { d with source := some (.file (value.map Path.parse)) })
  | .expression =>
    match d.source with
    | some (.file _) => .error (.conflict .expression .spec)
    | _ => .ok (.inr { d with source := some (.expression value) })
  | .language => do set { d.settings with language := ← value.mapM languageOf }
  | .format => set { d.settings with format := true }
  | .write => set { d.settings with write := some (value.map Path.parse) }
  | .output => do set { d.settings with output := ← value.mapM outputOf }
  | .debug => do set { d.settings with debug := ← value.mapM debugOf }
  | .stats => set { d.settings with stats := true }

/-- The draft after switches, unless one of them is answered at once. -/
def applyAll (d : Draft) : List (Switch × Option Text) → Except UsageError (Request ⊕ Draft)
  | [] => .ok (.inr d)
  | (o, value) :: rest => do
    match ← d.apply o (value.filter (· ≠ ['-', '-'])) with
    | .inl r => return .inl r
    | .inr d => d.applyAll rest

/-- The request when all switches have taken effect and the given arguments are left over. -/
def finish (d : Draft) (left : List Text) : Except UsageError Request :=
  match d.source with
  | none => .error (.missingSource [.spec, .expression])
  | some source => if left = [] then .ok (.check source d.settings) else .error (.leftOver left)

end Draft

namespace Request

/-- Goes through the arguments. Those that belong to no switch are gathered in `left`. -/
def ofArguments (d : Draft) (left : List Text) :
    List (Text × Argument) → Except UsageError Request
  | [] => d.finish left
  | (s, a) :: rest => do
    let e ← Effects.ofArgument s a
    match e.wanting?, rest with
    | none, rest =>
      match ← d.applyAll e.switches with
      | .inl r => return r
      | .inr d => ofArguments d (left ++ e.left) rest
    | some _, (v, .value) :: rest =>
      match ← d.applyAll (e.supply v).switches with
      | .inl r => return r
      | .inr d => ofArguments d (left ++ e.left) rest
    | some o, _ => throw (.missingValue o)

/-- The request of a command line. -/
def parse (arguments : List Text) : Except UsageError Request := do
  ofArguments {} [] (← Argument.classify arguments)

end Request

end TimedReq.CommandLine
