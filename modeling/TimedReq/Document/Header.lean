import TimedReq.Language

/-!
# Headers of documents

A document opens with a header, a run of lines that begin with two slashes. The header configures
the document by directives such as `// spec:language VHDL`.
-/

namespace TimedReq

/-- The settings of a document. -/
structure Configuration where
  language : Language
deriving DecidableEq

namespace Header

/-- What the lines of a header begin with. -/
def mark : Text := ['/', '/']

/-- What a directive begins with. -/
def directiveMark : Text := "// spec:".toList

/-- The directive that names the language of the predicates. -/
def languageKey : Text := "language".toList

/-- The lines of a text without the blanks around them; blanks at the ends of the text make no
lines. -/
def trimmedLines (s : Text) : List Text := (Text.lines (Text.trim s)).map Text.trim

/-- The header of a document, and the lines that follow it. A document that does not open with a
header has none. -/
def split? (document : Text) : Option (Text × List Text) :=
  let ls := trimmedLines document
  match ls.takeWhile mark.isPrefixOf with
  | [] => none
  | header => some (Text.join ['\n'] header, ls.dropWhile mark.isPrefixOf)

/-- The language that a directive names. -/
def languageOf? (directive : Text) : Option Language :=
  (Text.dropPrefix? languageKey (Text.trim directive)).bind fun name =>
    Language.ofName? (Text.trim name)

end Header

namespace Configuration

/-- The canonical text. -/
def print (c : Configuration) : Text :=
  Header.directiveMark ++ Header.languageKey ++ ' ' :: c.language.name

/-- Reads a header: all of its lines are directives and one of them names a language. Directives of
other kinds and names that are not known do not count. -/
def parse (header : Text) : Option Configuration :=
  match (Header.trimmedLines header).mapM (Text.dropPrefix? Header.directiveMark) with
  | none => none
  | some directives =>
    match directives.filterMap Header.languageOf? with
    | [language] => some ⟨language⟩
    | _ => none

theorem parse_print (c : Configuration) : parse c.print = some c := by
  obtain ⟨l⟩ := c
  cases l
  decide +kernel

end Configuration

end TimedReq
