import TimedReq.Expr.Printer
import TimedReq.Proofs.Expr.Cases
import TimedReq.Proofs.Expr.Subexpressions

/-!
# The depth of reading limits trees

A rule may put a group or a bounded expression and a connective above the tree of a part in one go,
so that the tree grows by two levels at once; but it reads such a part at least two levels down. The
height of a tree is therefore less than the number of levels with which it was read, and what is
computed along the tree calls itself no deeper.
-/

namespace TimedReq

open Text

variable {α : Type} {L : Embedding α}

namespace Expr

/-- The greatest number of steps from an expression down to its parts. -/
def height : Expr α → Nat
  | predicate _ => 0
  | negation body | group body | along _ _ body | bounded body _ _ => body.height + 1
  | binary _ lhs rhs | .until _ _ lhs rhs => max lhs.height rhs.height + 1

/-- Each step down the tree takes from the height. -/
lemma height_lt_of_mem_children {e x : Expr α} (hx : x ∈ e.children) : x.height < e.height := by
  cases e with
  | predicate p => simp [children] at hx
  | negation body | group body | along b m body | bounded body first more =>
    obtain rfl := List.mem_singleton.mp hx
    exact Nat.lt_succ_self _
  | binary c lhs rhs | «until» b u lhs rhs =>
    simp only [children, List.mem_cons, List.not_mem_nil, or_false] at hx
    simp only [height]
    rcases hx with rfl | rfl <;> omega

/-- One expression is directly below the other. -/
def IsAbove (e x : Expr α) : Prop := x ∈ e.children

/-- A way down the tree is no longer than the tree is high. -/
lemma length_le_height {e : Expr α} {xs : List (Expr α)} (h : List.IsChain IsAbove (e :: xs)) :
    xs.length ≤ e.height := by
  induction xs generalizing e with
  | nil => exact Nat.zero_le _
  | cons x xs ih =>
    obtain ⟨hx, hxs⟩ := List.isChain_cons_cons.mp h
    have hstep := height_lt_of_mem_children hx
    have hrest := ih hxs
    rw [List.length_cons]
    omega

/-- Computes from an expression and what was computed for the expressions below it, with so many
calls in progress at once. -/
def recurse {β : Type} (step : Expr α → List β → β) : Nat → Expr α → Option β
  | 0, _ => none
  | n + 1, e => (e.children.mapM (recurse step n)).map (step e)

lemma mapM_eq_some {β γ : Type} {g : β → Option γ} {f : β → γ} {xs : List β}
    (h : ∀ x ∈ xs, g x = some (f x)) : xs.mapM g = some (xs.map f) := by
  induction xs with
  | nil => rfl
  | cons x xs ih =>
    rw [List.mapM_cons, h x List.mem_cons_self, ih fun y hy => h y (List.mem_cons_of_mem x hy)]
    rfl

/-- What is computed along the tree needs one call more than the tree is high. -/
lemma recurse_eq_some {β : Type} {step : Expr α → List β → β} {f : Expr α → β}
    (hf : ∀ e, f e = step e (e.children.map f)) {n : Nat} {e : Expr α} (hn : e.height < n) :
    recurse step n e = some (f e) := by
  induction n generalizing e with
  | zero => exact absurd hn (Nat.not_lt_zero _)
  | succ n ih =>
    have hparts : e.children.mapM (recurse step n) = some (e.children.map f) := by
      refine mapM_eq_some fun x hx => ih ?_
      have hlt := height_lt_of_mem_children hx
      omega
    rw [recurse, hparts, hf e]
    rfl

/-- The canonical text of an expression from the texts of the expressions below it. -/
def printOver (L : Embedding α) : Expr α → List Text → Text
  | predicate p, _ => L.print p
  | negation _, [s] => '!' :: s
  | group _, [s] => '(' :: s ++ [')']
  | binary c _ _, [l, r] => l ++ ' ' :: c.symbol ++ ' ' :: r
  | along b m _, [s] => b.symbol :: ' ' :: m.symbol :: ' ' :: s
  | .until b u _ _, [l, r] => b.symbol :: ' ' :: l ++ ' ' :: u.symbol :: ' ' :: r
  | bounded _ first more, [s] =>
    '{' :: s ++ '}' :: '_' :: '{' :: printStatements (first :: more) ++ ['}']
  | _, _ => []

lemma print_eq_printOver (e : Expr α) :
    e.print L = printOver L e (e.children.map (Expr.print L)) := by
  cases e <;> rfl

/-- The subexpressions of an expression from those of the expressions below it. -/
def subexpressionsOver (e : Expr α) (parts : List (List (Expr α))) : List (Expr α) :=
  e :: parts.flatten

lemma subexpressions_eq_subexpressionsOver (e : Expr α) :
    e.subexpressions = subexpressionsOver e (e.children.map subexpressions) := by
  rw [subexpressions_eq_cons, subexpressionsOver, List.flatMap_def]

/-- The depth of quantifiers in an expression from the depths in the expressions below it. -/
def quantifierDepthOver (e : Expr α) (depths : List Nat) : Nat :=
  depths.foldr max 0 + if e.isQuantified then 1 else 0

lemma quantifierDepth_eq_quantifierDepthOver (e : Expr α) :
    e.quantifierDepth = quantifierDepthOver e (e.children.map quantifierDepth) := by
  cases e <;> simp [quantifierDepth, quantifierDepthOver, children, isQuantified]

/-- A tree has fewer levels than the reader had. -/
theorem height_lt_of_readLevels {n : Nat} {s : Text} {e : Expr α}
    (h : readLevels L n s = .ok e) : e.height < n := by
  induction n using Nat.strongRecOn generalizing s e with
  | ind n ih =>
    cases n with
    | zero =>
      rw [readLevels] at h
      exact absurd h (Reading.malformed_ne_ok e)
    | succ n =>
      rw [readLevels, rule_eq_ok] at h
      have hone : ∀ {s : Text} {x : Expr α}, readLevels L n s = .ok x → x.height < n := ih n (by omega)
      have htwo : ∀ {s : Text} {x : Expr α}, readLevels L (n - 1) s = .ok x → x.height < n - 1 :=
        ih (n - 1) (by omega)
      have hthree : ∀ {s : Text} {x : Expr α}, readLevels L (n - 2) s = .ok x → x.height < n - 2 :=
        ih (n - 2) (by omega)
      generalize trim s = t at h
      cases h with
      | predicate | bracketed =>
        simp only [height]
        omega
      | negation hbody | group _ hbody =>
        have hlt := htwo hbody
        simp only [height]
        omega
      | along _ _ hbody | bounded _ _ _ _ hbody =>
        have hlt := hthree hbody
        simp only [height]
        omega
      | arrow _ _ _ _ _ hlhs hrhs =>
        have hl := hone hlhs
        have hr := hone hrhs
        simp only [height]
        omega
      | logical _ _ hlhs hrhs =>
        have hl := htwo hlhs
        have hr := htwo hrhs
        simp only [height]
        omega
      | «until» _ _ _ hlhs hrhs =>
        have hl := hthree hlhs
        have hr := hthree hrhs
        simp only [height]
        omega
      | groupTail _ hbody _ hrhs =>
        have hl := htwo hbody
        have hr := hthree hrhs
        simp only [height]
        omega
      | boundedTail _ _ _ _ hbody _ _ hrhs =>
        have hl := hthree hbody
        have hr := hthree hrhs
        simp only [height]
        omega

variable {m : Int} {s : Text} {e : Expr α}

/-- The greatest depth limits the ways down a tree that is read, and with them the calls that are
in progress at once where the text, the subexpressions or the depth of quantifiers are computed. -/
theorem length_le_of_read (h : read L m s = .ok e) :
    (∀ xs, List.IsChain IsAbove (e :: xs) → (xs.length : Int) ≤ m) ∧
      recurse (printOver L) (levels m) e = some (e.print L) ∧
      recurse subexpressionsOver (levels m) e = some e.subexpressions ∧
      recurse quantifierDepthOver (levels m) e = some e.quantifierDepth := by
  have hheight : e.height < levels m := height_lt_of_readLevels h
  refine ⟨?_, recurse_eq_some print_eq_printOver hheight,
    recurse_eq_some subexpressions_eq_subexpressionsOver hheight,
    recurse_eq_some quantifierDepth_eq_quantifierDepthOver hheight⟩
  intro xs hxs
  have hlength := length_le_height hxs
  unfold levels at hheight
  omega

/-- A group in front of a connective is a level that the operands of the connective have for
themselves. -/
theorem length_le_of_read_group :
    read .word 3 "(a)^b".toList = .ok (binary .and (group (predicate ['a'])) (predicate ['b'])) ∧
      List.IsChain IsAbove [binary .and (group (predicate ['a'])) (predicate ['b']),
        group (predicate ['a']), predicate ['a']] ∧
      ((2 : Nat) : Int) ≤ 3 ∧
      recurse (printOver .word) (levels 3) (binary .and (group (predicate ['a']))
        (predicate ['b'])) = some "(a) ^ b".toList := by
  have h : read .word 3 "(a)^b".toList =
      .ok (binary .and (group (predicate ['a'])) (predicate ['b'])) := by decide +kernel
  have hchain : List.IsChain IsAbove [binary .and (group (predicate ['a'])) (predicate ['b']),
      group (predicate ['a']), predicate ['a']] := by
    simp [IsAbove, children]
  obtain ⟨hlength, hprint, -, -⟩ := length_le_of_read h
  exact ⟨h, hchain, hlength _ hchain, hprint⟩

end Expr

end TimedReq
