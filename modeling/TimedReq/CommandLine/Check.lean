import TimedReq.CommandLine.Program
import TimedReq.CommandLine.Request
import TimedReq.CommandLine.Usage
import TimedReq.Document.File

/-!
# Checks from the command line

The program that a command line starts. The exit code is 0 if all requirements can be read, 1 if
one cannot, and 2 if the check itself fails.
-/

namespace TimedReq.CommandLine

namespace Program

/-- Reports a notice at a level. -/
def report (l : Level) (n : Notice) (next : Program) : Program :=
  match l.report n with
  | [] => next
  | s => print s next

/-- Reports notices one after the other. -/
def reportAll (l : Level) (ns : List Notice) (next : Program) : Program :=
  ns.foldr (report l) next

/-- Ends with the report of what made the check fail. -/
def fail (message : String) : Program :=
  printError ("Error: ".toList ++ message.toList ++ ['\n']) (done 2)

end Program

/-- What is reported where the value of a switch is used that is not there. The output level is not
among them, since it is normal then. -/
def Switch.missingReport : Switch → String
  | spec => "'list' object has no attribute 'exists'"
  | expression => "'list' object has no attribute 'strip'"
  | language => "[] is not a valid Language"
  | write => "'list' object has no attribute 'write_text'"
  | debug => "'>=' not supported between instances of 'list' and 'int'"
  | help | format | output | stats | version => ""

open Program

variable {α : Type} [DecidableEq α] (L : Embedding α) (s : Settings) (level : Level)

/-- The notices about the requirements of a specification, counted from 1. -/
def requirementNotices (requirements : List (Expr α)) : List Notice :=
  (requirements.zipIdx 1).flatMap fun (e, i) =>
    [.requirement i (e.print L),
      .debug ("Requirement ".toList ++ Number.numeral i ++ " tree".toList)
        [("node".toList, e.display L)]]

/-- Reports the verdict and the statistics. A report of a lower level shows statistics if they are
asked for, below an empty line. -/
def conclude (spec : Specification α) : Program :=
  let figures := (Statistics.ofSpecification spec).figures
  let asked := s.stats && level.rank < Level.verbose.rank
  reportAll level [.valid spec.requirements.length, .statistics figures]
    (if asked then print (unlines ([] :: Notice.figureLines figures)) (done 0) else done 0)

/-- What is done with a specification that was read: its requirements are reported, and its
canonical text is printed and written if that is asked for. -/
def present (spec : Specification α) (canonical : Text) : Program :=
  let written := match s.write with
    | none => conclude s level spec
    | some none => fail Switch.write.missingReport
    | some (some p) => .write p canonical fun
      | .error e => fail (e.message p)
      | .ok _ =>
        report level (.info ("Wrote canonical text to ".toList ++ p.print) [])
          (conclude s level spec)
  reportAll level (requirementNotices L spec.requirements)
    (if s.format then print canonical written else written)

/-- Checks the document of a file. All faults but the first are for the higher levels. -/
def checkDocument (document : Text) : Program :=
  match Specification.parse L Expr.defaultDepth document with
  | .ok spec =>
    report level (.configuration spec.configuration) (present L s level spec (spec.print L))
  | .error (.tooLong digits) => fail (Number.tooLongMessage digits)
  | .error (.fault f) =>
    report level (.invalid f.message.toList)
      (match Document.faults L document with
        | .ok faults =>
          reportAll level (faults.tail.map fun f => .info f.message.toList []) (done 1)
        | .error e => fail e.message)

/-- Checks a file. Nothing is reported of one that cannot be found. -/
def checkFile (p : Path) : Program :=
  let start := report level (.info ("Reading specification ".toList ++ p.print) [])
  .read p fun
    | .ok document => start (checkDocument L s level document)
    | .error e =>
      let failed := fail (ReadError.file e p).message
      if e.isAbsence || e == .nameTooLong then failed else start failed

/-- Checks a single expression with predicates of a language. -/
def checkExpression (language : Language) (text : Text) : Program :=
  match Expr.parse L Expr.defaultDepth text with
  | .ok e => present L s level ⟨⟨language⟩, [e]⟩ (e.print L ++ ['\n'])
  | .error (.tooLong digits) => fail (Number.tooLongMessage digits)
  | .error e => report level (.invalid e.message.toList) (done 1)

/-- Checks a source. A language is needed for a single expression only. -/
def checkSource (source : Source) : Program :=
  match source, s.language with
  | .file (some p), _ => checkFile L s level p
  | .file none, _ => fail Switch.spec.missingReport
  | .expression _, none => fail Switch.language.missingReport
  | .expression none, some _ => fail Switch.expression.missingReport
  | .expression (some text), some language => checkExpression L s level language text

/-- The program of a request. -/
def Request.program : Request → Program
  | .help => print CommandLine.help (done 0)
  | .version => print versionLine (done 0)
  | .check source s =>
    match s.level? with
    | none => fail Switch.debug.missingReport
    | some level => checkSource Embedding.vhdl s level source

/-- The program of a command line. -/
def program (arguments : List Text) : Program :=
  match Request.parse arguments with
  | .ok r => r.program
  | .error e =>
    printError (usage ++ "tctl: error: ".toList ++ e.message ++ ['\n']) (done 2)

end TimedReq.CommandLine
