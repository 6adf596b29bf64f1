import TimedReq.Text.Blank

/-!
# Classes of characters as ranges

A class of characters is given by its edges, the code points at which its ranges begin and end in
turn, in increasing order.
-/

namespace TimedReq.Text

/-- How many of the edges `lo, …, hi - 1` lie at or below `n`, for an increasing table. -/
def edgesUpTo (edges : Array Nat) (n : Nat) (lo hi : Nat) : Nat :=
  if h : lo < hi then
    let mid := (lo + hi) / 2
    if edges.getD mid 0 ≤ n then edgesUpTo edges n (mid + 1) hi else edgesUpTo edges n lo mid
  else lo
termination_by hi - lo
decreasing_by all_goals omega

/-- Whether a character belongs to a class: the number of edges up to it is odd. -/
def inRanges (edges : Array Nat) (c : Char) : Bool :=
  edgesUpTo edges c.toNat 0 edges.size % 2 == 1

end TimedReq.Text
