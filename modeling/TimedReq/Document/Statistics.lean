import TimedReq.Document.Specification
import TimedReq.Expr.Walk

/-!
# Statistics of specifications

How many requirements, predicates, quantified paths and statements a specification holds, and how
deep its quantifiers are nested. Within a requirement, equal predicates count once and so do equal
quantified paths; statements count as often as they stand there.
-/

namespace TimedReq

/-- Figures of a specification. -/
structure Statistics where
  requirements : Nat
  predicates : Nat
  quantifiers : Nat
  statements : Nat
  maxQuantifierDepth : Nat
deriving DecidableEq

namespace Statistics

variable {α : Type} [DecidableEq α]

/-- The number of different predicates in a requirement. -/
def predicateCount (e : Expr α) : Nat := e.predicates.eraseDups.length

/-- The number of different quantified paths in a requirement. -/
def quantifierCount (e : Expr α) : Nat :=
  (e.subexpressions.filter (·.isQuantified)).eraseDups.length

/-- The sum of a figure over the requirements of a specification. -/
def total (count : Expr α → Nat) (s : Specification α) : Nat :=
  s.requirements.foldr (fun e n => count e + n) 0

/-- The figures of a specification. -/
def ofSpecification (s : Specification α) : Statistics where
  requirements := s.requirements.length
  predicates := total predicateCount s
  quantifiers := total quantifierCount s
  statements := total (·.statements.length) s
  maxQuantifierDepth := (s.requirements.map (·.quantifierDepth)).foldl max 0

/-- The figures with their names, in the order of a report. -/
def entries (s : Statistics) : List (Text × Nat) :=
  [("requirements".toList, s.requirements), ("predicates".toList, s.predicates),
    ("quantifiers".toList, s.quantifiers), ("constraints".toList, s.statements),
    ("max_quantifier_depth".toList, s.maxQuantifierDepth)]

end Statistics

end TimedReq
