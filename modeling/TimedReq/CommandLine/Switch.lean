import TimedReq.Text.Basic

/-!
# Switches of the command line

A switch has a long spelling and may have a short one; it stands alone or takes a value.
-/

namespace TimedReq.CommandLine

/-- The switches. -/
inductive Switch where
  | help | spec | expression | language | format | write | output | debug | stats | version
deriving DecidableEq

namespace Switch

/-- The letter of the short spelling. -/
def letter? : Switch → Option Char
  | help => some 'h'
  | spec => some 's'
  | expression => some 'x'
  | language => some 'l'
  | write => some 'w'
  | output => some 'o'
  | debug => some 'd'
  | format | stats | version => none

/-- The word of the long spelling. -/
def word : Switch → String
  | help => "help"
  | spec => "spec"
  | expression => "expression"
  | language => "language"
  | format => "format"
  | write => "write"
  | output => "output"
  | debug => "debug"
  | stats => "stats"
  | version => "version"

/-- The long spelling. -/
def long (o : Switch) : Text := '-' :: '-' :: o.word.toList

/-- Both spellings, as messages show them. -/
def label (o : Switch) : Text :=
  match o.letter? with
  | some c => '-' :: c :: '/' :: o.long
  | none => o.long

/-- Whether a value belongs to the switch. -/
def takesValue : Switch → Bool
  | help | format | stats | version => false
  | spec | expression | language | write | output | debug => true

/-- The switches in the order of the help text. -/
def all : List Switch :=
  [help, spec, expression, language, format, write, output, debug, stats, version]

/-- The switch of a letter. -/
def ofLetter? (c : Char) : Option Switch := all.find? (·.letter? == some c)

/-- The switches whose long spelling begins with a text. -/
def ofLongPrefix (s : Text) : List Switch := all.filter fun o => s.isPrefixOf o.long

/-- The switch of a long spelling. -/
def ofLong? (s : Text) : Option Switch := all.find? (·.long == s)

theorem mem_all (o : Switch) : o ∈ all := by
  cases o <;> decide

end Switch

end TimedReq.CommandLine
