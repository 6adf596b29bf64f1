import TimedReq.Document.Statistics
import TimedReq.Number.Decimal
import TimedReq.Text.LetterCase

/-!
# Reports

What a check has to tell is a sequence of notices. Each has a level, and a report of a level shows
the notices up to that level, a line or more for each.
-/

namespace TimedReq

/-- How much a report shows: nothing, the verdict, what was read as well, or all details. -/
inductive Level where
  | silent | normal | verbose | debug
deriving DecidableEq

/-- The place of a level in their order. -/
def Level.rank : Level → Nat
  | silent => 0
  | normal => 1
  | verbose => 2
  | debug => 3

/-- What there is to tell. -/
inductive Notice where
  | debug (message : Text) (details : List (Text × Text))
  | info (message : Text) (details : List (Text × Text))
  | valid (requirements : Int)
  | invalid (reason : Text)
  | statistics (figures : List (Text × Text))
  | configuration (c : Configuration)
  | requirement (index : Int) (text : Text)
deriving DecidableEq

namespace Notice

/-- The level from which a notice is shown. -/
def level : Notice → Level
  | debug _ _ => .debug
  | valid _ | invalid _ => .normal
  | info _ _ | statistics _ | configuration _ | requirement _ _ => .verbose

/-- A name with a value, indented. -/
def detail (d : Text × Text) : Text := ' ' :: ' ' :: d.1 ++ ':' :: ' ' :: d.2

/-- The label of a figure: its name as words that begin with capital letters. -/
def label (name : Text) : Text := Text.title (name.map fun c => if c = '_' then ' ' else c)

/-- Figures under their heading. -/
def figureLines (figures : List (Text × Text)) : List Text :=
  "=== Statistics ===".toList :: figures.map fun (name, value) => detail (label name, value)

/-- The lines of a notice. -/
def lines : Notice → List Text
  | debug message details => ("[DEBUG] ".toList ++ message) :: details.map detail
  | info message details => ("[INFO] ".toList ++ message) :: details.map detail
  | valid n =>
    ["VALID: ".toList ++ Number.signedNumeral n ++
      (if n = 1 then " requirement parsed" else " requirements parsed").toList]
  | invalid reason => ["INVALID: ".toList ++ reason]
  | statistics figures => figureLines figures
  | configuration c => ["[CONFIG] ".toList ++ c.print]
  | requirement index text =>
    ["[REQ ".toList ++ Number.signedNumeral index ++ ']' :: ' ' :: text]

end Notice

/-- The text of lines, each of which is ended by a newline. -/
def unlines (ls : List Text) : Text := ls.flatMap (· ++ ['\n'])

/-- The part of a report that a notice makes up. -/
def Level.report (l : Level) (n : Notice) : Text :=
  if n.level.rank ≤ l.rank then unlines n.lines else []

/-- The figures of statistics as a report shows them. -/
def Statistics.figures (s : Statistics) : List (Text × Text) :=
  s.entries.map fun (name, n) => (name, Number.numeral n)

/-- Enters a value under a name. A name that is there already keeps its place. -/
def putDetail (name value : Text) : List (Text × Text) → List (Text × Text)
  | [] => [(name, value)]
  | (n, v) :: rest => if n = name then (n, value) :: rest else (n, v) :: putDetail name value rest

/-- Named values of which the last one under each name counts. -/
def detailsOf (ds : List (Text × Text)) : List (Text × Text) :=
  ds.foldl (fun acc (name, value) => putDetail name value acc) []

end TimedReq
