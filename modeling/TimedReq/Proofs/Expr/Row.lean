import Mathlib.Tactic.Common
import TimedReq.Expr.Basic

/-!
# Expressions as rows of pieces

A row is an expression without its structure: predicates, operators, and the rows in brackets. The
rules by which a text is read depend on its row only, so they are repeated here for rows.
-/

namespace TimedReq

variable {α : Type}

/-- What the text of an expression is made of. Of a predicate it matters whether a blank is in its
text and whether a bracket is in front, of a connective whether blanks are on both sides. -/
inductive Piece (α : Type) where
  | predicate (p : α) (tight bracketed : Bool)
  | negation
  | branch (b : Branch)
  | modality (m : Modality)
  | until (u : Until)
  | connective (c : Connective) (apart : Bool)
  | group (body : List (Piece α))
  | bounded (body : List (Piece α)) (first : Statement) (more : List Statement)

/-- The pieces of an expression, in the order of its text. -/
abbrev Row (α : Type) := List (Piece α)

namespace Piece

/-- Whether a piece stands between two operands. -/
def isInfix : Piece α → Bool
  | .until _ | connective _ _ => true
  | _ => false

/-- The connectives at which a row is split first. -/
def logical? : Piece α → Option Connective
  | connective .and true => some .and
  | connective .or true => some .or
  | _ => none

/-- The connective at which a row is split otherwise. -/
def arrow? : Piece α → Option Connective
  | connective .implies _ => some .implies
  | _ => none

/-- The operator at which a path is split. -/
def until? : Piece α → Option Until
  | .until u => some u
  | _ => none

lemma eq_of_until? {x : Piece α} {u : Until} (h : x.until? = some u) : x = .until u := by
  unfold until? at h
  split at h
  · rw [Option.some.inj h]
  · simp at h

end Piece

namespace Row

/-- Whether a row is a predicate alone. -/
def isPredicate : Row α → Bool
  | [.predicate _ _ _] => true
  | _ => false

/-- Cuts a row at its first piece that `f` knows. -/
def cut? {β : Type} (f : Piece α → Option β) : Row α → Option (Row α × β × Row α)
  | [] => none
  | x :: row =>
    match f x with
    | some y => some ([], y, row)
    | none => (cut? f row).map fun (l, y, r) => (x :: l, y, r)

/-- Reads what follows an exclamation mark. -/
def negationRule (two : Row α → Option (Expr α)) : Row α → Option (Expr α)
  | [.predicate _ false _] => none
  | row => (two row).map .negation

/-- Reads a path after its branch quantifier. -/
def pathRule (three : Row α → Option (Expr α)) (b : Branch) : Row α → Option (Expr α)
  | .modality m :: row => (three row).map (.along b m)
  | row =>
    match cut? Piece.until? row with
    | some (l, u, r) => (three l).bind fun lhs => (three r).map fun rhs => .until b u lhs rhs
    | none => none

/-- Reads what follows a group or a bounded expression `lhs`. -/
def tailRule (three : Row α → Option (Expr α)) (lhs : Expr α) : Row α → Option (Expr α)
  | [] => some lhs
  | .connective c _ :: row => (three row).map (.binary c lhs)
  | _ => none

/-- Splits at the first connective that `f` knows. -/
def splitRule (f : Piece α → Option Connective) (operand : Row α → Option (Expr α)) (row : Row α) :
    Option (Expr α) :=
  match cut? f row with
  | some (l, c, r) => (operand l).bind fun lhs => (operand r).map fun rhs => .binary c lhs rhs
  | none => none

/-- Reads a row by the rule that its first piece chooses. -/
def rule (one two three : Row α → Option (Expr α)) : Row α → Option (Expr α)
  | .negation :: row => negationRule two row
  | .bounded body first more :: row =>
    (three body).bind fun e => tailRule three (.bounded e first more) row
  | .group body :: row => (two body).bind fun e => tailRule three (.group e) row
  | .branch b :: row => pathRule three b row
  | .predicate p tight bracketed :: row =>
    if row.isEmpty then some (.predicate p)
    else if bracketed then none
    else (splitRule Piece.logical? two (.predicate p tight bracketed :: row)).or
      (splitRule Piece.arrow? one (.predicate p tight bracketed :: row))
  | _ => none

/-- Reads a row with so many levels left. -/
def read : Nat → Row α → Option (Expr α)
  | 0, _ => none
  | n + 1, row => rule (read n) (read (n - 1)) (read (n - 2)) row
termination_by n => n

variable {one two three : Row α → Option (Expr α)} {row : Row α} {e lhs : Expr α}

@[simp] lemma tailRule_nil : tailRule three lhs [] = some lhs := rfl

@[simp] lemma tailRule_connective (c : Connective) (apart : Bool) :
    tailRule three lhs (.connective c apart :: row) = (three row).map (.binary c lhs) := rfl

@[simp] lemma pathRule_modality (b : Branch) (m : Modality) :
    pathRule three b (.modality m :: row) = (three row).map (.along b m) := rfl

lemma rule_negation : rule one two three (.negation :: row) = negationRule two row := rfl

lemma rule_bounded (body : Row α) (first : Statement) (more : List Statement) :
    rule one two three (.bounded body first more :: row) =
      (three body).bind fun e => tailRule three (.bounded e first more) row := rfl

lemma rule_group (body : Row α) : rule one two three (.group body :: row) =
    (two body).bind fun e => tailRule three (.group e) row := rfl

lemma rule_branch (b : Branch) : rule one two three (.branch b :: row) = pathRule three b row := rfl

lemma rule_singleton (p : α) (tight bracketed : Bool) :
    rule one two three [.predicate p tight bracketed] = some (.predicate p) := rfl

lemma cut?_eq_some {β : Type} {f : Piece α → Option β} {row l r : Row α} {y : β} :
    cut? f row = some (l, y, r) ↔
      ∃ x, row = l ++ x :: r ∧ f x = some y ∧ ∀ z ∈ l, f z = none := by
  induction row generalizing l with
  | nil => simp [cut?]
  | cons x row ih =>
    rw [cut?]
    split
    · rename_i y' hy
      constructor
      · intro h
        obtain ⟨rfl, hpair⟩ := Prod.mk.inj (Option.some.inj h)
        obtain ⟨rfl, rfl⟩ := Prod.mk.inj hpair
        exact ⟨x, rfl, hy, by simp⟩
      · rintro ⟨z, hrow, hz, hl⟩
        cases l with
        | nil =>
          obtain ⟨rfl, rfl⟩ := List.cons.inj hrow
          rw [hy] at hz
          rw [Option.some.inj hz]
        | cons w l =>
          obtain ⟨rfl, -⟩ := List.cons.inj hrow
          rw [hl x List.mem_cons_self] at hy
          exact absurd hy (by simp)
    · rename_i hx
      constructor
      · intro h
        obtain ⟨⟨l', y', r'⟩, hcut, heq⟩ := Option.map_eq_some_iff.mp h
        obtain ⟨rfl, hpair⟩ := Prod.mk.inj heq
        obtain ⟨rfl, rfl⟩ := Prod.mk.inj hpair
        obtain ⟨z, rfl, hz, hl⟩ := ih.mp hcut
        refine ⟨z, rfl, hz, ?_⟩
        intro w hw
        rcases List.mem_cons.mp hw with rfl | hw
        · exact hx
        · exact hl w hw
      · rintro ⟨z, hrow, hz, hl⟩
        cases l with
        | nil =>
          obtain ⟨rfl, rfl⟩ := List.cons.inj hrow
          rw [hx] at hz
          exact absurd hz (by simp)
        | cons w l =>
          obtain ⟨rfl, rfl⟩ := List.cons.inj hrow
          rw [ih.mpr ⟨z, rfl, hz, fun v hv => hl v (List.mem_cons_of_mem _ hv)⟩]
          rfl

lemma read_succ (n : Nat) (row : Row α) :
    read (n + 1) row = rule (read n) (read (n - 1)) (read (n - 2)) row := by
  rw [read]

lemma cut?_eq_none {β : Type} {f : Piece α → Option β} {row : Row α} :
    cut? f row = none ↔ ∀ x ∈ row, f x = none := by
  induction row with
  | nil => simp [cut?]
  | cons x row ih =>
    rw [cut?]
    cases hx : f x with
    | some y => simp [hx]
    | none => simp [hx, ih]

lemma eq_singleton {row : Row α} (h : row.isPredicate = true) :
    ∃ p tight bracketed, row = [.predicate p tight bracketed] := by
  unfold isPredicate at h
  split at h
  · exact ⟨_, _, _, rfl⟩
  · simp at h

lemma negationRule_eq_some : negationRule two row = some e ↔
    (∀ p b, row ≠ [.predicate p false b]) ∧ ∃ body, two row = some body ∧ e = .negation body := by
  unfold negationRule
  split
  · rename_i p b
    constructor
    · intro h
      simp at h
    · rintro ⟨hne, -⟩
      exact absurd rfl (hne p b)
  · rename_i hne
    constructor
    · intro h
      obtain ⟨body, hbody, rfl⟩ := Option.map_eq_some_iff.mp h
      exact ⟨hne, body, hbody, rfl⟩
    · rintro ⟨-, body, hbody, rfl⟩
      exact Option.map_eq_some_iff.mpr ⟨body, hbody, rfl⟩

lemma tailRule_eq_some : tailRule three lhs row = some e ↔
    row = [] ∧ e = lhs ∨
    ∃ c apart row' rhs, row = .connective c apart :: row' ∧ three row' = some rhs ∧
      e = .binary c lhs rhs := by
  unfold tailRule
  split
  · constructor
    · intro h
      exact .inl ⟨rfl, (Option.some.inj h).symm⟩
    · rintro (⟨-, rfl⟩ | ⟨_, _, _, _, hrow, -⟩)
      · rfl
      · simp at hrow
  · rename_i c apart row
    constructor
    · intro h
      obtain ⟨rhs, hrhs, rfl⟩ := Option.map_eq_some_iff.mp h
      exact .inr ⟨c, apart, row, rhs, rfl, hrhs, rfl⟩
    · rintro (⟨hrow, -⟩ | ⟨c', apart', row', rhs, hrow, hrhs, rfl⟩)
      · simp at hrow
      · obtain ⟨hpiece, rfl⟩ := List.cons.inj hrow
        obtain ⟨rfl, -⟩ := Piece.connective.inj hpiece
        exact Option.map_eq_some_iff.mpr ⟨rhs, hrhs, rfl⟩
  · rename_i hnil hconnective
    constructor
    · intro h
      simp at h
    · rintro (⟨hrow, -⟩ | ⟨c, apart, row', rhs, hrow, -⟩)
      · exact absurd hrow hnil
      · exact absurd hrow (hconnective c apart row')

lemma splitRule_eq_some {f : Piece α → Option Connective} {operand : Row α → Option (Expr α)} :
    splitRule f operand row = some e ↔
      ∃ l c r lhs rhs, cut? f row = some (l, c, r) ∧ operand l = some lhs ∧
        operand r = some rhs ∧ e = .binary c lhs rhs := by
  unfold splitRule
  constructor
  · intro h
    split at h
    · rename_i l c r hcut
      obtain ⟨lhs, hlhs, h⟩ := Option.bind_eq_some_iff.mp h
      obtain ⟨rhs, hrhs, rfl⟩ := Option.map_eq_some_iff.mp h
      exact ⟨l, c, r, lhs, rhs, hcut, hlhs, hrhs, rfl⟩
    · simp at h
  · rintro ⟨l, c, r, lhs, rhs, hcut, hlhs, hrhs, rfl⟩
    rw [hcut]
    simp only
    rw [hlhs, hrhs]
    rfl

lemma pathRule_eq_some {b : Branch} : pathRule three b row = some e ↔
    (∃ m row' body, row = .modality m :: row' ∧ three row' = some body ∧ e = .along b m body) ∨
    (∀ m row', row ≠ .modality m :: row') ∧ ∃ l u r lhs rhs,
      cut? Piece.until? row = some (l, u, r) ∧ three l = some lhs ∧ three r = some rhs ∧
        e = .until b u lhs rhs := by
  unfold pathRule
  split
  · rename_i m row
    constructor
    · intro h
      obtain ⟨body, hbody, rfl⟩ := Option.map_eq_some_iff.mp h
      exact .inl ⟨m, row, body, rfl, hbody, rfl⟩
    · rintro (⟨m', row', body, hrow, hbody, rfl⟩ | ⟨hne, -⟩)
      · obtain ⟨hpiece, rfl⟩ := List.cons.inj hrow
        obtain rfl := Piece.modality.inj hpiece
        exact Option.map_eq_some_iff.mpr ⟨body, hbody, rfl⟩
      · exact absurd rfl (hne m row)
  · rename_i hne
    constructor
    · intro h
      refine .inr ⟨hne, ?_⟩
      split at h
      · rename_i l u r hcut
        obtain ⟨lhs, hlhs, h⟩ := Option.bind_eq_some_iff.mp h
        obtain ⟨rhs, hrhs, rfl⟩ := Option.map_eq_some_iff.mp h
        exact ⟨l, u, r, lhs, rhs, hcut, hlhs, hrhs, rfl⟩
      · simp at h
    · rintro (⟨m, row', body, hrow, -⟩ | ⟨-, l, u, r, lhs, rhs, hcut, hlhs, hrhs, rfl⟩)
      · exact absurd hrow (hne m row')
      · rw [hcut]
        simp only
        rw [hlhs, hrhs]
        rfl

lemma pathRule_of_ne {b : Branch} (hne : ∀ m row', row ≠ .modality m :: row') :
    pathRule three b row =
      match cut? Piece.until? row with
      | some (l, u, r) => (three l).bind fun lhs => (three r).map fun rhs => .until b u lhs rhs
      | none => none := by
  rcases row with _ | ⟨x, row⟩
  · rfl
  · cases x with
    | modality m => exact absurd rfl (hne m row)
    | _ => rfl

lemma rule_predicate {p : α} {tight : Bool} (hne : row ≠ []) :
    rule one two three (.predicate p tight false :: row) =
      (splitRule Piece.logical? two (.predicate p tight false :: row)).or
        (splitRule Piece.arrow? one (.predicate p tight false :: row)) := by
  obtain ⟨x, row, rfl⟩ := List.exists_cons_of_ne_nil hne
  rfl

/-- What the rule of a row can do. -/
theorem rule_cases (h : rule one two three row = some e) :
    (∃ row', row = .negation :: row' ∧ negationRule two row' = some e) ∨
    (∃ body first more row' x, row = .bounded body first more :: row' ∧ three body = some x ∧
      tailRule three (.bounded x first more) row' = some e) ∨
    (∃ body row' x, row = .group body :: row' ∧ two body = some x ∧
      tailRule three (.group x) row' = some e) ∨
    (∃ b row', row = .branch b :: row' ∧ pathRule three b row' = some e) ∨
    (∃ p tight bracketed, row = [.predicate p tight bracketed] ∧ e = .predicate p) ∨
    (∃ p tight row', row = .predicate p tight false :: row' ∧ row' ≠ [] ∧
      (splitRule Piece.logical? two row = some e ∨
        splitRule Piece.logical? two row = none ∧ splitRule Piece.arrow? one row = some e)) := by
  rcases row with _ | ⟨x, row⟩
  · simp [rule] at h
  · cases x with
    | negation => exact .inl ⟨row, rfl, h⟩
    | bounded body first more =>
      obtain ⟨x, hx, h⟩ := Option.bind_eq_some_iff.mp h
      exact .inr (.inl ⟨body, first, more, row, x, rfl, hx, h⟩)
    | group body =>
      obtain ⟨x, hx, h⟩ := Option.bind_eq_some_iff.mp h
      exact .inr (.inr (.inl ⟨body, row, x, rfl, hx, h⟩))
    | branch b => exact .inr (.inr (.inr (.inl ⟨b, row, rfl, h⟩)))
    | predicate p tight bracketed =>
      rw [rule] at h
      refine .inr (.inr (.inr (.inr ?_)))
      cases row with
      | nil =>
        obtain rfl := Option.some.inj h
        exact .inl ⟨p, tight, bracketed, rfl, rfl⟩
      | cons y row =>
        rw [List.isEmpty_cons, if_neg (by simp)] at h
        cases bracketed with
        | true => simp at h
        | false =>
          rw [if_neg (by simp), Option.or_eq_some_iff] at h
          exact .inr ⟨p, tight, y :: row, rfl, by simp, h⟩
    | modality | «until» | connective => simp [rule] at h

lemma read_predicate (n : Nat) (p : α) (tight bracketed : Bool) :
    read (n + 1) [.predicate p tight bracketed] = some (.predicate p) := by
  rw [read_succ]
  rfl

/-- Only a row that is a predicate alone is read as a predicate. -/
theorem isPredicate_of_read {n : Nat} (h : read n row = some e) :
    e.isPredicate = row.isPredicate := by
  cases n with
  | zero => simp [read] at h
  | succ n =>
    rw [read_succ] at h
    obtain ⟨row', rfl, h⟩ | ⟨body, first, more, row', x, rfl, -, h⟩ | ⟨body, row', x, rfl, -, h⟩ |
      ⟨b, row', rfl, h⟩ | ⟨p, tight, bracketed, rfl, rfl⟩ | ⟨p, tight, row', rfl, hne, h⟩ :=
      rule_cases h
    · obtain ⟨-, _, -, rfl⟩ := negationRule_eq_some.mp h
      rfl
    · obtain ⟨rfl, rfl⟩ | ⟨_, _, _, _, rfl, -, rfl⟩ := tailRule_eq_some.mp h <;> rfl
    · obtain ⟨rfl, rfl⟩ | ⟨_, _, _, _, rfl, -, rfl⟩ := tailRule_eq_some.mp h <;> rfl
    · obtain ⟨_, _, _, rfl, -, rfl⟩ | ⟨-, _, _, _, _, _, -, -, -, rfl⟩ := pathRule_eq_some.mp h
      · rfl
      · cases row' <;> rfl
    · rfl
    · obtain ⟨y, row', rfl⟩ := List.exists_cons_of_ne_nil hne
      obtain h | ⟨-, h⟩ := h <;> obtain ⟨_, _, _, _, _, -, -, -, rfl⟩ := splitRule_eq_some.mp h <;>
        rfl

end Row

end TimedReq
