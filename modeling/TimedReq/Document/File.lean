import TimedReq.Document.Specification
import TimedReq.Files.Tree

/-!
# Specification files

A file that holds the document of a specification. It is read anew by every operation, so each of
them sees the file as it is at that time.
-/

namespace TimedReq

/-- Why a specification file is not read. -/
inductive ReadError where
  | file (e : FileError) (p : Path)
  | document (e : DocumentError)
deriving DecidableEq

/-- The report of an error. -/
def ReadError.message : ReadError → String
  | file e p =>
    if e.isAbsence then "Specification file not found: " ++ String.ofList p.print else e.message p
  | document e => e.message

namespace SpecificationFile

variable {α : Type}

/-- The document in a file. -/
def document (t : Tree) (p : Path) : Except ReadError Text := (t.read p).mapError (.file · p)

/-- The specification in a file. -/
def read (L : Embedding α) (maxDepth : Int) (t : Tree) (p : Path) :
    Except ReadError (Specification α) := do
  (Specification.parse L maxDepth (← document t p)).mapError .document

/-- The configuration of the document in a file. -/
def configuration (t : Tree) (p : Path) : Except ReadError Configuration := do
  (Document.configuration (← document t p)).mapError (.document ∘ .fault)

/-- The blocks of the document in a file. -/
def blocks (t : Tree) (p : Path) : Except ReadError (List Text) :=
  Document.blocks <$> document t p

/-- The reports of all that is wrong with a file. -/
def validate (L : Embedding α) (t : Tree) (p : Path) : Except ReadError (List String) :=
  match document t p with
  | .error (.file e q) =>
    if e.isAbsence then .ok ["File not found: " ++ String.ofList p.print] else .error (.file e q)
  | .error e => .error e
  | .ok d => ((Document.faults L d).map (·.map DocumentFault.message)).mapError .document

end SpecificationFile

end TimedReq
