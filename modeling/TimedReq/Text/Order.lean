import TimedReq.Text.Blank

/-!
# The order of texts

Texts are compared character by character by code point; a text comes before its continuations.
-/

namespace TimedReq.Text

/-- Whether the first text comes before the second or is equal to it. -/
def le : Text → Text → Bool
  | [], _ => true
  | _ :: _, [] => false
  | c :: s, d :: t => c.toNat < d.toNat || (c == d && le s t)

/-- The texts in order, each once. -/
def sortedDistinct (ts : List Text) : List Text := ts.eraseDups.mergeSort le

end TimedReq.Text
