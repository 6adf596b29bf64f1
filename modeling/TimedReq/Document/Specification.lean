import TimedReq.Document.Blocks
import TimedReq.Document.Header
import TimedReq.Expr.Parser
import TimedReq.Expr.Printer

/-!
# Specifications

A specification is a list of requirements under a configuration. A document is read up to its first
fault, or searched for the faults of all its requirements.
-/

namespace TimedReq

variable {α : Type}

/-- Requirements that have to hold together. -/
structure Specification (α : Type) where
  configuration : Configuration
  requirements : List (Expr α)
deriving DecidableEq

/-- What is wrong with a document. Requirements are counted from 1. -/
inductive DocumentFault where
  | noHeader (document : Text)
  | badConfiguration (header : Text)
  | badRequirement (index : Nat) (block : Text)
deriving DecidableEq

namespace DocumentFault

/-- The report of a fault. -/
def message : DocumentFault → String
  | noHeader _ => "Specification must start with a '//' configuration header"
  | badConfiguration _ =>
    "Configuration must contain exactly one '// spec:language <name>' directive"
  | badRequirement index block =>
    "Requirement " ++ String.ofList (Number.numeral index) ++
      " is not a valid TCTL expression: '" ++ String.ofList block ++ "'"

/-- The part of the document in which the fault is. -/
def text : DocumentFault → Text
  | noHeader document => document
  | badConfiguration header => header
  | badRequirement _ block => block

/-- The requirement in which the fault is. -/
def requirement? : DocumentFault → Option Nat
  | badRequirement index _ => some index
  | _ => none

end DocumentFault

/-- Why a document is not read. -/
inductive DocumentError where
  | fault (f : DocumentFault)
  | tooLong (digits : Nat)
deriving DecidableEq

/-- The report of an error. -/
def DocumentError.message : DocumentError → String
  | fault f => f.message
  | tooLong digits => Number.tooLongMessage digits

namespace Document

/-- The configuration of a document and the lines below its header. -/
def split (document : Text) : Except DocumentFault (Configuration × List Text) :=
  match Header.split? document with
  | none => .error (.noHeader document)
  | some (header, body) =>
    match Configuration.parse header with
    | none => .error (.badConfiguration header)
    | some c => .ok (c, body)

/-- The configuration of a document. -/
def configuration (document : Text) : Except DocumentFault Configuration :=
  (·.1) <$> split document

/-- The blocks of a document as they are written; without a header there are none. -/
def blocks (document : Text) : List Text :=
  match Header.split? document with
  | none => []
  | some (_, body) => Blocks.ofBody body

/-- Reads blocks as requirements; the first of them has the given index. -/
def readBlocks (L : Embedding α) (maxDepth : Int) : Nat → List Text →
    Except DocumentError (List (Expr α))
  | _, [] => .ok []
  | i, block :: rest =>
    match Expr.read L maxDepth block with
    | .ok e => (e :: ·) <$> readBlocks L maxDepth (i + 1) rest
    | .error .malformed => .error (.fault (.badRequirement i block))
    | .error (.tooLong digits) => .error (.tooLong digits)

/-- The blocks that are no requirements; the first block has the given index. A numeral that is too
long ends the search. -/
def badBlocks (L : Embedding α) : Nat → List Text → Except DocumentError (List DocumentFault)
  | _, [] => .ok []
  | i, block :: rest =>
    match Expr.read L Expr.defaultDepth block with
    | .ok _ => badBlocks L (i + 1) rest
    | .error .malformed => (.badRequirement i block :: ·) <$> badBlocks L (i + 1) rest
    | .error (.tooLong digits) => .error (.tooLong digits)

/-- All faults of a document. One in the header is the only one that is found. -/
def faults (L : Embedding α) (document : Text) : Except DocumentError (List DocumentFault) :=
  match split document with
  | .error f => .ok [f]
  | .ok (_, body) => badBlocks L 1 (Blocks.ofBody body)

end Document

namespace Specification

/-- The canonical text: the header and the requirements, with a blank line between neighbours. The
one below the header stands there even if no requirement follows. -/
def print (L : Embedding α) (s : Specification α) : Text :=
  s.configuration.print ++ '\n' :: '\n' ::
    Text.join ['\n', '\n'] (s.requirements.map (·.print L)) ++ ['\n']

/-- Reads a document. -/
def parse (L : Embedding α) (maxDepth : Int) (document : Text) :
    Except DocumentError (Specification α) :=
  match Document.split document with
  | .error f => .error (.fault f)
  | .ok (c, body) => (⟨c, ·⟩) <$> Document.readBlocks L maxDepth 1 (Blocks.ofBody body)

end Specification

end TimedReq
