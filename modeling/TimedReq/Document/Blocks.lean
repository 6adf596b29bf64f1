import TimedReq.Text.Basic

/-!
# Blocks of requirements

Below its header a document is a sequence of blocks, which blank lines separate. Two hyphens begin
a comment that ends with its line.
-/

namespace TimedReq.Blocks

/-- What a comment begins with. -/
def commentMark : Text := ['-', '-']

/-- The lines without their comments. A line that holds nothing but a comment is left out, so that
it separates no blocks. -/
def stripComments (ls : List Text) : List Text :=
  (ls.filter fun l => !commentMark.isPrefixOf (Text.trim l)).map (Text.before commentMark)

/-- The blocks that lines make up, without blanks at their ends. -/
def ofLines (ls : List Text) : List Text :=
  let text := Text.trim (Text.join ['\n'] (ls.map Text.trim))
  ((Text.splitOn ['\n', '\n'] text).map Text.trim).filter (!·.isEmpty)

/-- The blocks of the lines below a header. -/
def ofBody (ls : List Text) : List Text := ofLines (stripComments ls)

end TimedReq.Blocks
