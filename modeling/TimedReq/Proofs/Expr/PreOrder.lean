import Mathlib.Data.List.Flatten
import Mathlib.Data.List.Lex
import TimedReq.Expr.Walk

/-!
# Statements in preorder

The statements of an expression are collected by a walk with a stack of pending expressions. The
walk ends after as many visits as the tree has nodes, and gives the statements of the nodes in the
order of a recursive descent, each node's own before those of its parts from left to right.
-/

namespace TimedReq

variable {α : Type}

namespace Expr

/-- The statements at a node of a tree: a bounded expression has those that bound it, and no other
form has any. -/
def bounds : Expr α → List Statement
  | predicate _ | negation _ | group _ | binary _ _ _ | along _ _ _ | .until _ _ _ _ => []
  | bounded _ first more => first :: more

/-- The walk takes from each node the statements that stand there. -/
lemma ownStatements_eq_bounds (e : Expr α) : e.ownStatements = e.bounds := by
  cases e <;> rfl

lemma collectStatements_cons (e : Expr α) (pending : List (Expr α)) :
    collectStatements (e :: pending) = e.bounds ++ collectStatements (e.children ++ pending) := by
  rw [collectStatements, ownStatements_eq_bounds]

/-- The first expressions of a stack are done with before the others come up. -/
lemma collectStatements_append (es pending : List (Expr α)) :
    collectStatements (es ++ pending) = collectStatements es ++ collectStatements pending := by
  fun_induction collectStatements es with
  | case1 => rfl
  | case2 e es ih =>
    rw [List.cons_append, collectStatements_cons, ownStatements_eq_bounds,
      ← List.append_assoc e.children, ih, List.append_assoc]

lemma collectStatements_eq_flatMap (es : List (Expr α)) :
    collectStatements es = es.flatMap statements := by
  induction es with
  | nil => rw [collectStatements, List.flatMap_nil]
  | cons e es ih =>
    have hcut := collectStatements_append [e] es
    rw [List.singleton_append] at hcut
    rw [hcut, ih, List.flatMap_cons, statements]

/-- The statements at an expression itself come before those of its parts. -/
lemma statements_eq_bounds_append (e : Expr α) :
    e.statements = e.bounds ++ e.children.flatMap statements := by
  rw [statements, collectStatements_cons, List.append_nil, collectStatements_eq_flatMap]

end Expr

/-! ## The walk -/

/-- A walk that is under way: the expressions still to be visited, of which the last is the next,
and the statements found so far. -/
structure Walk (α : Type) where
  pending : List (Expr α)
  found : List Statement

namespace Walk

/-- One visit: the next expression gives the statements at it, and its parts are pushed from right to
left so that the leftmost comes up first. Without a pending expression the walk is over. -/
def step? (w : Walk α) : Option (Walk α) :=
  w.pending.getLast?.map fun e =>
    ⟨w.pending.dropLast ++ e.children.reverse, w.found ++ e.bounds⟩

/-- A walk is over after so many visits and has found these statements. -/
inductive EndsAfter : Nat → Walk α → List Statement → Prop
  | over {w : Walk α} (h : w.step? = none) : EndsAfter 0 w w.found
  | visit {n : Nat} {w w' : Walk α} {sts : List Statement} (h : w.step? = some w')
    (hrest : EndsAfter n w' sts) : EndsAfter (n + 1) w sts

/-- What a walk has found and will find. -/
def outcome (w : Walk α) : List Statement :=
  w.found ++ Expr.collectStatements w.pending.reverse

/-- The number of nodes that a walk still has to visit. -/
def remaining (w : Walk α) : Nat := Expr.stackSize w.pending.reverse

lemma step?_eq_some {w w' : Walk α} (h : w.step? = some w') :
    ∃ pending e, w.pending = pending ++ [e] ∧
      w' = ⟨pending ++ e.children.reverse, w.found ++ e.bounds⟩ := by
  obtain ⟨e, he, rfl⟩ := Option.map_eq_some_iff.mp h
  obtain ⟨pending, hpending⟩ := List.getLast?_eq_some_iff.mp he
  refine ⟨pending, e, hpending, ?_⟩
  rw [hpending, List.dropLast_concat]

/-- A visit keeps what the walk gives in the end, and one node less is left. -/
lemma outcome_step {w w' : Walk α} (h : w.step? = some w') :
    w'.outcome = w.outcome ∧ w'.remaining + 1 = w.remaining := by
  obtain ⟨pending, e, hpending, rfl⟩ := step?_eq_some h
  have hold : w.pending.reverse = e :: pending.reverse := by
    rw [hpending, List.reverse_concat]
  have hnew : (pending ++ e.children.reverse).reverse = e.children ++ pending.reverse := by
    rw [List.reverse_append, List.reverse_reverse]
  unfold outcome remaining
  rw [hold, hnew, Expr.collectStatements_cons, List.append_assoc]
  refine ⟨rfl, ?_⟩
  have hsize := Expr.stackSize_children e
  rw [Expr.stackSize_append, Expr.stackSize]
  omega

lemma pending_eq_nil_of_step? {w : Walk α} (h : w.step? = none) : w.pending = [] :=
  List.getLast?_eq_none_iff.mp (Option.map_eq_none_iff.mp h)

/-- Every walk comes to its end, after as many visits as there are nodes left. -/
lemma endsAfter (w : Walk α) : EndsAfter w.remaining w w.outcome := by
  induction hn : w.remaining generalizing w with
  | zero =>
    cases h : w.step? with
    | none =>
      have hover := EndsAfter.over h
      rw [outcome, pending_eq_nil_of_step? h, List.reverse_nil, Expr.collectStatements,
        List.append_nil]
      exact hover
    | some w' =>
      have hless := (outcome_step h).2
      omega
  | succ n ih =>
    cases h : w.step? with
    | none =>
      rw [remaining, pending_eq_nil_of_step? h, List.reverse_nil, Expr.stackSize] at hn
      exact absurd hn (by simp)
    | some w' =>
      obtain ⟨hkeep, hless⟩ := outcome_step h
      rw [← hkeep]
      exact .visit h (ih w' (by omega))

end Walk

namespace Expr

/-! ## Places in a tree -/

/-- The expression that is reached by going down from part to part; parts are numbered from 0. -/
def at? (e : Expr α) : List Nat → Option (Expr α)
  | [] => some e
  | i :: path => e.children[i]?.bind (·.at? path)

/-- The ways to the nodes of a tree, in preorder. -/
def paths : Expr α → List (List Nat)
  | predicate _ => [[]]
  | negation body | group body | along _ _ body | bounded body _ _ =>
    [] :: body.paths.map (0 :: ·)
  | binary _ lhs rhs | .until _ _ lhs rhs =>
    [] :: (lhs.paths.map (0 :: ·) ++ rhs.paths.map (1 :: ·))

/-- The statements at the end of a way. -/
def statementsAt (e : Expr α) (path : List Nat) : List Statement := (e.at? path).elim [] bounds

lemma at?_cons (e : Expr α) (i : Nat) (path : List Nat) :
    e.at? (i :: path) = e.children[i]?.bind (·.at? path) := rfl

/-- The ways are those that lead to a node. -/
lemma mem_paths {e : Expr α} {path : List Nat} : path ∈ e.paths ↔ (e.at? path).isSome := by
  induction e generalizing path with
  | predicate p =>
    cases path with
    | nil => simp [paths, at?]
    | cons i path => simp [paths, at?, children]
  | negation body ih | group body ih | along b m body ih | bounded body first more ih =>
    rcases path with _ | ⟨_ | i, path⟩
    · simp [paths, at?]
    · simp [paths, at?, children, ih]
    · simp [paths, at?, children]
  | binary c lhs rhs ihl ihr | «until» b u lhs rhs ihl ihr =>
    rcases path with _ | ⟨_ | _ | i, path⟩
    · simp [paths, at?]
    · simp [paths, at?, children, ihl]
    · simp [paths, at?, children, ihr]
    · simp [paths, at?, children]

/-- Ways that go on from one step are in the order of what follows it. -/
lemma pairwise_map_cons (i : Nat) {ps : List (List Nat)} (h : ps.Pairwise (· < ·)) :
    (ps.map (i :: ·)).Pairwise (· < ·) :=
  h.map (i :: ·) fun _ _ hlt => List.cons_lt_cons_iff.mpr (.inr ⟨rfl, hlt⟩)

/-- Preorder is the lexicographic order of the ways, so no node comes twice. -/
lemma pairwise_paths (e : Expr α) : e.paths.Pairwise (· < ·) := by
  have hroot : ∀ {i : Nat} {ps : List (List Nat)}, ∀ path ∈ ps.map (i :: ·), [] < path := by
    intro i ps path hpath
    obtain ⟨rest, -, rfl⟩ := List.mem_map.mp hpath
    exact List.nil_lt_cons i rest
  induction e with
  | predicate p => exact List.pairwise_singleton _ _
  | negation body ih | group body ih | along b m body ih | bounded body first more ih =>
    exact List.pairwise_cons.mpr ⟨hroot, pairwise_map_cons 0 ih⟩
  | binary c lhs rhs ihl ihr | «until» b u lhs rhs ihl ihr =>
    refine List.pairwise_cons.mpr ⟨?_, ?_⟩
    · intro path hpath
      exact (List.mem_append.mp hpath).elim (hroot path) (hroot path)
    · refine List.pairwise_append.mpr ⟨pairwise_map_cons 0 ihl, pairwise_map_cons 1 ihr, ?_⟩
      intro path hpath path' hpath'
      obtain ⟨rest, -, rfl⟩ := List.mem_map.mp hpath
      obtain ⟨rest', -, rfl⟩ := List.mem_map.mp hpath'
      exact List.cons_lt_cons_iff.mpr (.inl Nat.zero_lt_one)

/-- The statements are those at the ends of all ways, in their order. -/
lemma statements_eq_flatMap_paths (e : Expr α) : e.statements = e.paths.flatMap e.statementsAt := by
  have hpart : ∀ {e x : Expr α} {i : Nat}, e.children[i]? = some x →
      (x.paths.map (i :: ·)).flatMap e.statementsAt = x.paths.flatMap x.statementsAt := by
    intro e x i hx
    rw [List.flatMap_map]
    congr 1
    funext path
    rw [statementsAt, at?_cons, hx, Option.bind_some, statementsAt]
  induction e with
  | predicate p => rw [statements_eq_bounds_append]; rfl
  | negation body ih | group body ih | along b m body ih | bounded body first more ih =>
    rw [statements_eq_bounds_append, paths, List.flatMap_cons, hpart (x := body) rfl, ← ih]
    simp only [children, List.flatMap_cons, List.flatMap_nil, List.append_nil]
    rfl
  | binary c lhs rhs ihl ihr | «until» b u lhs rhs ihl ihr =>
    rw [statements_eq_bounds_append, paths, List.flatMap_cons, List.flatMap_append,
      hpart (x := lhs) rfl, hpart (x := rhs) rfl, ← ihl, ← ihr]
    simp only [children, List.flatMap_cons, List.flatMap_nil, List.append_nil]
    rfl

/-- The walk from an expression ends with its statements after as many visits as the tree has nodes.
They are those that bound the expression itself, if any do, and those of its parts from left to
right. So each bounded expression in the tree gives its statements exactly once and nothing else
gives any, and the nodes come in preorder. -/
theorem statements_preorder (e : Expr α) :
    Walk.EndsAfter e.size ⟨[e], []⟩ e.statements ∧
      e.statements = e.bounds ++ e.children.flatMap statements ∧
      e.statements = e.paths.flatMap e.statementsAt ∧
      e.paths.Pairwise (· < ·) ∧ ∀ path, path ∈ e.paths ↔ (e.at? path).isSome := by
  refine ⟨?_, statements_eq_bounds_append e, statements_eq_flatMap_paths e, pairwise_paths e,
    fun _ => mem_paths⟩
  exact Walk.endsAfter ⟨[e], []⟩

/-- The outer statement comes first, though last in the text, and a statement in two places comes
twice. -/
theorem statements_preorder_nested :
    let five : Statement := ⟨.lt, ⟨5, ⟨.time, .nano⟩⟩⟩
    let ten : Statement := ⟨.lt, ⟨10, ⟨.time, .nano⟩⟩⟩
    let e := binary .implies
      (bounded (along .all .future (bounded (predicate 'a') five [])) ten [])
      (bounded (predicate 'b') five [])
    e.statements = [ten, five, five] ∧ Walk.EndsAfter 7 ⟨[e], []⟩ [ten, five, five] := by
  intro five ten e
  obtain ⟨hwalk, -, hpaths, -⟩ := statements_preorder e
  have hs : e.statements = [ten, five, five] := hpaths
  rw [hs] at hwalk
  exact ⟨hs, hwalk⟩

end Expr

end TimedReq
