import TimedReq.Text.Basic

/-!
# Nesting of brackets

Operators are looked for outside brackets and quoted literals only. The nesting of a text gives
each character its depth in round and curly brackets, or marks it as quoted. A double quote opens a
literal up to the next one or the end of the text; a single quote opens one if the character after
the next is a single quote as well.
-/

namespace TimedReq.Text

/-- The nesting of a text that begins at depth `d`, in a string literal if `inString`. An opening
bracket has the depth before it and a closing one the depth after it, so that partners have one
depth. -/
def nestingFrom (inString : Bool) (d : Int) : Text → List (Option Int)
  | [] => []
  | c :: s =>
    if inString then none :: nestingFrom (c != '"') d s
    else if c = '"' then none :: nestingFrom true d s
    else match c, s with
      | '\'', _ :: '\'' :: rest => none :: none :: none :: nestingFrom false d rest
      | '(', s | '{', s => some d :: nestingFrom false (d + 1) s
      | ')', s | '}', s => some (d - 1) :: nestingFrom false (d - 1) s
      | _, s => some d :: nestingFrom false d s

/-- The depth of every character of a text; quoted characters have none. -/
def nesting (s : Text) : List (Option Int) := nestingFrom false 0 s

/-- The bracket that closes an opening bracket. -/
def closer? : Char → Option Char
  | '(' => some ')'
  | '{' => some '}'
  | _ => none

/-- Cuts at the first closing bracket of depth 0, if it is `close`. -/
def cutAtCloser (close : Char) : Text → List (Option Int) → Option (Text × Text)
  | c :: s, d :: ds =>
    if (c = ')' ∨ c = '}') ∧ d = some 0 then
      if c = close then some ([], s) else none
    else (cutAtCloser close s ds).map fun (inner, after) => (c :: inner, after)
  | _, _ => none

/-- For a text that begins with a bracket which is closed by its own kind: what stands between the
two, and what follows. -/
def splitGroup? (s : Text) : Option (Text × Text) :=
  match s with
  | [] => none
  | c :: rest => (closer? c).bind fun close => cutAtCloser close rest (nesting s).tail

/-- Cuts at the first character that `symbol?` knows, of depth 0 and between blanks, where
`afterBlank` tells of the character before the text. -/
def cutAtToken {β : Type} (symbol? : Char → Option β) (afterBlank : Bool) :
    Text → List (Option Int) → Option (Text × β × Text)
  | c :: b :: s, d :: ds =>
    match symbol? c with
    | some x =>
      if afterBlank ∧ d = some 0 ∧ isBlank b then some ([], x, b :: s)
      else (cutAtToken symbol? (isBlank c) (b :: s) ds).map fun (l, y, r) => (c :: l, y, r)
    | none => (cutAtToken symbol? (isBlank c) (b :: s) ds).map fun (l, y, r) => (c :: l, y, r)
  | _, _ => none

/-- The first symbol outside brackets that stands between blanks, with the texts around it. -/
def splitToken? {β : Type} (symbol? : Char → Option β) (s : Text) : Option (Text × β × Text) :=
  cutAtToken symbol? false s (nesting s)

/-- Cuts at the first arrow of depth 0. -/
def cutAtArrow : Text → List (Option Int) → Option (Text × Text)
  | c :: s, d :: ds =>
    match c, s, d with
    | '-', '>' :: after, some 0 => some ([], after)
    | c, s, _ => (cutAtArrow s ds).map fun (l, r) => (c :: l, r)
  | _, _ => none

/-- The texts before and after the first `->` outside brackets. -/
def splitArrow? (s : Text) : Option (Text × Text) := cutAtArrow s (nesting s)

/-- A symbol in front that a blank follows, with the text after the symbol. -/
def leadingSymbol? {β : Type} (symbol? : Char → Option β) : Text → Option (β × Text)
  | c :: b :: s => if isBlank b then (symbol? c).map (·, b :: s) else none
  | _ => none

end TimedReq.Text
