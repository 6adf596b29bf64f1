import TimedReq.Text.Printable

/-!
# Quoted texts

The form in which messages show a text: between quotes, with escapes for the enclosing quote, the
backslash and everything that is not printable.
-/

namespace TimedReq.Text

/-- The last `width` hexadecimal digits of a number, in lower case. -/
def hex : Nat → Nat → Text
  | 0, _ => []
  | width + 1, n => hex width (n / 16) ++ [Nat.digitChar (n % 16)]

theorem length_hex (width n : Nat) : (hex width n).length = width := by
  induction width generalizing n with
  | zero => rfl
  | succ width ih => simp [hex, ih]

namespace Quoted

/-- Single quotes enclose a text, unless it holds some of them and no double quote. -/
def enclosing (s : Text) : Char := if s.contains '\'' && !s.contains '"' then '"' else '\''

/-- A character as it stands between quotes. -/
def escape (quote c : Char) : Text :=
  if c = quote ∨ c = '\\' then ['\\', c]
  else if c = '\t' then ['\\', 't']
  else if c = '\n' then ['\\', 'n']
  else if c = '\r' then ['\\', 'r']
  else if isPrintable c then [c]
  else if c.toNat < 0x100 then '\\' :: 'x' :: hex 2 c.toNat
  else if c.toNat < 0x10000 then '\\' :: 'u' :: hex 4 c.toNat
  else '\\' :: 'U' :: hex 8 c.toNat

end Quoted

/-- The text between quotes. -/
def quoted (s : Text) : Text :=
  let quote := Quoted.enclosing s
  quote :: s.flatMap (Quoted.escape quote) ++ [quote]

end TimedReq.Text
