import TimedReq.Text.Basic

/-!
# Paths

A path is a sequence of names between slashes. Empty names and single dots say nothing and are left
out; double dots stay, since what they mean depends on the files.
-/

namespace TimedReq

/-- A path. An absolute one has its slashes in front as `root`. -/
structure Path where
  root : Text
  names : List Text
deriving DecidableEq

namespace Path

/-- The root that a number of slashes in front stands for. Two slashes are a root of their own. -/
def rootOf : Nat → Text
  | 0 => []
  | 2 => ['/', '/']
  | _ => ['/']

/-- Reads a path. Every text is one. -/
def parse (s : Text) : Path where
  root := rootOf (s.takeWhile (· == '/')).length
  names := (Text.pieces (· == '/') s).filter fun name => name ≠ [] ∧ name ≠ ['.']

/-- The text of a path; that of an empty one is a dot. -/
def print (p : Path) : Text :=
  match p.root ++ Text.join ['/'] p.names with
  | [] => ['.']
  | s => s

end Path

end TimedReq
