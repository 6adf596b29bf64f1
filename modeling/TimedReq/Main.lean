import TimedReq.CommandLine.Check

/-!
# The program

Runs the program of a command line on real files.
-/

namespace TimedReq.CommandLine

/-- The number and the description of an error; the number may come as its negative in 32 bits. -/
def errorOf (e : IO.Error) : FileError :=
  let ofCode (code : UInt32) (description : String) : FileError :=
    FileError.ofCode (if code < 0x80000000 then code.toNat else (0 - code).toNat) description
  match e with
  | .noFileOrDirectory _ code description => ofCode code description
  | .inappropriateType _ code description => ofCode code description
  | .permissionDenied _ code description => ofCode code description
  | .invalidArgument _ code description => ofCode code description
  | .resourceExhausted _ code description => ofCode code description
  | e => .other 5 e.toString

/-- Does on real files what a program does; yields its exit code. -/
def Program.perform : Program → IO UInt32
  | done exitCode => return exitCode.toUInt32
  | print s next => do
    (← IO.getStdout).putStr (String.ofList s)
    next.perform
  | printError s next => do
    (← IO.getStderr).putStr (String.ofList s)
    next.perform
  | read p next => do
    let r ← (IO.FS.readFile (String.ofList p.print)).toBaseIO
    (next ((r.map fun s => Text.unifyNewlines s.toList).mapError errorOf)).perform
  | write p content next => do
    let r ← (IO.FS.writeFile (String.ofList p.print) (String.ofList content)).toBaseIO
    (next (r.mapError errorOf)).perform

end TimedReq.CommandLine

/-- Checks requirements as the command line asks for. -/
def main (arguments : List String) : IO UInt32 :=
  (TimedReq.CommandLine.program (arguments.map String.toList)).perform
