import TimedReq.Vhdl.Parser

/-!
# Embedded languages

The predicates of an expression are written in a language of their own, of which the expression
knows only how a predicate is read and printed.
-/

namespace TimedReq

/-- A language of predicates: reading, which is given text without blanks at the ends, and
printing. -/
structure Embedding (α : Type) where
  parse : Text → Option α
  print : α → Text

namespace Embedding

/-- Reads a predicate. A blank text is none in any language. -/
def read {α : Type} (L : Embedding α) (s : Text) : Option α :=
  match Text.trim s with
  | [] => none
  | c :: t => L.parse (c :: t)

/-- VHDL conditions. -/
def vhdl : Embedding Vhdl.Node where
  parse s := (Vhdl.parseCondition s).toOption
  print := Vhdl.Node.print

/-- Texts of any kind, standing for themselves. -/
def anyText : Embedding Text where
  parse := some
  print := id

/-- Single words of ASCII letters, digits and underscores. -/
def word : Embedding Text where
  parse s :=
    if s.all fun c => Text.isAsciiLetter c || Text.isAsciiDigit c || c == '_' then some s else none
  print := id

end Embedding

end TimedReq
