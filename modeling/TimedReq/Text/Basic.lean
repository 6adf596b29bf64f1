import TimedReq.Text.Blank

/-!
# Cutting texts

Trimming, splitting into words, pieces and lines, and joining again. All functions work on the
list of characters, so a position is a number of characters.
-/

namespace TimedReq.Text

/-- The text without the blanks in front. -/
def trimStart (s : Text) : Text := s.dropWhile isBlank

/-- The text without the blanks at its end. -/
def trimEnd (s : Text) : Text := (trimStart s.reverse).reverse

/-- The text without the blanks at both ends. -/
def trim (s : Text) : Text := trimEnd (trimStart s)

/-- The pieces between the characters that satisfy `p`. There is always at least one. -/
def pieces (p : Char → Bool) : Text → List Text
  | [] => [[]]
  | c :: s =>
    if p c then [] :: pieces p s
    else match pieces p s with
      | [] => [[c]]
      | w :: ws => (c :: w) :: ws

/-- The maximal runs of characters that are not blank. -/
def words (s : Text) : List Text := (pieces isBlank s).filter (!·.isEmpty)

/-- The pieces between the occurrences of `sep`, found from left to right without overlap. -/
def splitOn (sep : Text) : Text → List Text
  | [] => [[]]
  | c :: s =>
    if sep.isPrefixOf (c :: s) then [] :: splitOn sep (s.drop (sep.length - 1))
    else match splitOn sep s with
      | [] => [[c]]
      | w :: ws => (c :: w) :: ws
termination_by s => s.length
decreasing_by all_goals simp only [List.length_drop, List.length_cons]; omega

/-- What stands before the first occurrence of `sep`, or the whole text if there is none. -/
def before (sep : Text) : Text → Text
  | [] => []
  | c :: s => if sep.isPrefixOf (c :: s) then [] else c :: before sep s

/-- What follows the prefix `p`, if the text starts with it. -/
def dropPrefix? (p s : Text) : Option Text :=
  if p.isPrefixOf s then some (s.drop p.length) else none

/-- The lines of a text without their breaks. A return followed by a newline is one break, and a
break at the very end opens no further line. -/
def lines : Text → List Text
  | [] => []
  | '\r' :: '\n' :: s => [] :: lines s
  | c :: s =>
    if isLineBreak c then [] :: lines s
    else match lines s with
      | [] => [[c]]
      | l :: ls => (c :: l) :: ls

/-- The texts one after the other, with `sep` between neighbours. -/
def join (sep : Text) : List Text → Text
  | [] => []
  | [s] => s
  | s :: t :: ts => s ++ sep ++ join sep (t :: ts)

/-- Returns, alone or before a newline, become newlines. -/
def unifyNewlines : Text → Text
  | [] => []
  | '\r' :: '\n' :: s => '\n' :: unifyNewlines s
  | c :: s => (if c = '\r' then '\n' else c) :: unifyNewlines s

end TimedReq.Text
