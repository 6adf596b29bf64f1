import TimedReq.Files.Tree

/-!
# Programs that read and write

What a program does, step by step: it prints, reads and writes files, and ends with an exit code.
What it does after reading or writing depends on how that went. A program can be run on a tree of
files, or on real ones.
-/

namespace TimedReq.CommandLine

/-- A program. -/
inductive Program where
  | done (exitCode : Nat)
  | print (s : Text) (next : Program)
  | printError (s : Text) (next : Program)
  | read (p : Path) (next : Except FileError Text → Program)
  | write (p : Path) (content : Text) (next : Except FileError Unit → Program)

/-- What a program leaves behind. -/
structure Outcome where
  exitCode : Nat
  output : Text
  errors : Text
  tree : Tree

namespace Program

/-- Runs a program on a tree of files. -/
def runOn (t : Tree) : Program → Outcome
  | done exitCode => ⟨exitCode, [], [], t⟩
  | print s next =>
    let r := runOn t next
    { r with output := s ++ r.output }
  | printError s next =>
    let r := runOn t next
    { r with errors := s ++ r.errors }
  | read p next => runOn t (next (t.read p))
  | write p content next =>
    match t.write p content with
    | .ok t => runOn t (next (.ok ()))
    | .error e => runOn t (next (.error e))

end Program

end TimedReq.CommandLine
