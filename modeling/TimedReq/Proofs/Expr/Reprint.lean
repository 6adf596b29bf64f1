import TimedReq.Proofs.Expr.RoundTrip

/-!
# Canonical text stays canonical

A row has a canonical text of its own, and every tree that is read from the row prints it, whatever
the splits. Canonical text spells the row of its tree, so a tree that is read from canonical text
prints the same text again, also where it is another tree.
-/

namespace TimedReq

open Text

variable {α : Type} {L : Embedding α}

mutual

/-- The canonical text of a piece, with the spaces around it. -/
def Piece.print (L : Embedding α) : Piece α → Text
  | .predicate p _ _ => L.print p
  | .negation => ['!']
  | .branch b => [b.symbol, ' ']
  | .modality m => [m.symbol, ' ']
  | .until u => [' ', u.symbol, ' ']
  | .connective c _ => ' ' :: c.symbol ++ [' ']
  | .group body => '(' :: Row.print L body ++ [')']
  | .bounded body first more =>
    '{' :: Row.print L body ++ '}' :: '_' :: '{' :: printStatements (first :: more) ++ ['}']

/-- The canonical text of a row. -/
def Row.print (L : Embedding α) : List (Piece α) → Text
  | [] => []
  | x :: row => Piece.print L x ++ Row.print L row

end

namespace Row

@[simp] lemma print_nil : print L ([] : Row α) = [] := by
  rw [print]

@[simp] lemma print_cons (x : Piece α) (row : Row α) :
    print L (x :: row) = x.print L ++ print L row := by
  rw [print]

@[simp] lemma print_append (row row' : Row α) :
    print L (row ++ row') = print L row ++ print L row' := by
  induction row with
  | nil => rfl
  | cons x row ih => rw [List.cons_append, print_cons, ih, print_cons, List.append_assoc]

/-- The row of a tree has the text of the tree. -/
theorem print_row (e : Expr α) : print L (e.row L) = e.print L := by
  induction e with
  | predicate p => simp [Expr.print, Piece.print]
  | negation body ih => simp [Expr.print, Piece.print, ih]
  | group body ih => simp [Expr.print, Piece.print, ih]
  | binary c lhs rhs ihl ihr => simp [Expr.print, Piece.print, ihl, ihr]
  | along b m body ih => simp [Expr.print, Piece.print, ih]
  | «until» b u lhs rhs ihl ihr => simp [Expr.print, Piece.print, ihl, ihr]
  | bounded body first more ih => simp [Expr.print, Piece.print, ih]

/-- The reader gives trees that print as their rows. -/
def Reprints (L : Embedding α) (f : Row α → Option (Expr α)) : Prop :=
  ∀ {row : Row α} {e : Expr α}, f row = some e → e.print L = print L row

namespace Reprints

variable {one two three : Row α → Option (Expr α)} {row : Row α} {e lhs : Expr α}

lemma negationRule (htwo : Reprints L two) (h : Row.negationRule two row = some e) :
    e.print L = print L (.negation :: row) := by
  obtain ⟨-, body, hbody, rfl⟩ := negationRule_eq_some.mp h
  simp [Expr.print, Piece.print, htwo hbody]

/-- What goes on behind a group or a bounded expression is printed behind it. -/
lemma tailRule (hthree : Reprints L three) (h : Row.tailRule three lhs row = some e) :
    e.print L = lhs.print L ++ print L row := by
  obtain ⟨rfl, rfl⟩ | ⟨c, apart, row', rhs, rfl, hrhs, rfl⟩ := tailRule_eq_some.mp h
  · simp
  · simp [Expr.print, Piece.print, hthree hrhs]

lemma pathRule (hthree : Reprints L three) {b : Branch} (h : Row.pathRule three b row = some e) :
    e.print L = print L (.branch b :: row) := by
  obtain ⟨m, row', body, rfl, hbody, rfl⟩ | ⟨-, l, u, r, lhs, rhs, hcut, hlhs, hrhs, rfl⟩ :=
    pathRule_eq_some.mp h
  · simp [Expr.print, Piece.print, hthree hbody]
  · obtain ⟨x, rfl, hx, -⟩ := cut?_eq_some.mp hcut
    obtain rfl := Piece.eq_of_until? hx
    simp [Expr.print, Piece.print, hthree hlhs, hthree hrhs]

lemma splitRule {f : Piece α → Option Connective} {operand : Row α → Option (Expr α)}
    (hf : ∀ {x c}, f x = some c → x.print L = ' ' :: c.symbol ++ [' '])
    (hoperand : Reprints L operand) (h : Row.splitRule f operand row = some e) :
    e.print L = print L row := by
  obtain ⟨l, c, r, lhs, rhs, hcut, hlhs, hrhs, rfl⟩ := splitRule_eq_some.mp h
  obtain ⟨x, rfl, hx, -⟩ := cut?_eq_some.mp hcut
  simp [Expr.print, hf hx, hoperand hlhs, hoperand hrhs]

lemma rule (hone : Reprints L one) (htwo : Reprints L two) (hthree : Reprints L three) :
    Reprints L (Row.rule one two three) := by
  intro row e h
  have hlogical : ∀ {x : Piece α} {c}, x.logical? = some c → x.print L = ' ' :: c.symbol ++ [' '] := by
    intro x c hx
    unfold Piece.logical? at hx
    split at hx <;> cases hx <;> simp [Piece.print]
  have harrow : ∀ {x : Piece α} {c}, x.arrow? = some c → x.print L = ' ' :: c.symbol ++ [' '] := by
    intro x c hx
    unfold Piece.arrow? at hx
    split at hx <;> cases hx
    simp [Piece.print]
  obtain ⟨row', rfl, h⟩ | ⟨body, first, more, row', x, rfl, hx, h⟩ | ⟨body, row', x, rfl, hx, h⟩ |
    ⟨b, row', rfl, h⟩ | ⟨p, tight, bracketed, rfl, rfl⟩ | ⟨-, -, -, -, -, h | ⟨-, h⟩⟩ := rule_cases h
  · exact htwo.negationRule h
  · simp [hthree.tailRule h, Expr.print, Piece.print, hthree hx]
  · simp [hthree.tailRule h, Expr.print, Piece.print, htwo hx]
  · exact hthree.pathRule h
  · simp [Expr.print, Piece.print]
  · exact htwo.splitRule hlogical h
  · exact hone.splitRule harrow h

end Reprints

/-- A tree that is read from a row prints as the row, at every level. -/
theorem reprints_read (n : Nat) : Reprints L (read (α := α) n) := by
  induction n using Nat.strongRecOn with
  | ind n ih =>
    cases n with
    | zero =>
      intro row e h
      rw [read] at h
      exact absurd h (by simp)
    | succ n =>
      intro row e h
      rw [read_succ] at h
      exact Reprints.rule (ih n (by omega)) (ih (n - 1) (by omega)) (ih (n - 2) (by omega)) h

end Row

namespace Expr

variable {m m' : Int} {s : Text} {e e' : Expr Vhdl.Node}

/-- Canonical text is stable: a tree that is read from the canonical text of a tree that was read
has the same canonical text, also if it is another tree. -/
theorem print_eq_of_read_print (h : read .vhdl m s = .ok e) (hnames : e.NamesApart)
    (h' : read .vhdl m' (e.print .vhdl) = .ok e') : e'.print .vhdl = e.print .vhdl := by
  obtain ⟨hlegible, -⟩ := (takes_readLevels (levels m) h).spelledBy Vhdl.restores hnames
  have hread : read .vhdl m' (e.print .vhdl) = .ofOption (Row.read (levels m') (e.row .vhdl)) :=
    readsAs_readLevels Vhdl.keepsGroups _ hlegible.spells
  rw [hread, Reading.ofOption_eq_ok] at h'
  calc e'.print .vhdl = Row.print .vhdl (e.row .vhdl) := Row.reprints_read _ h'
    _ = e.print .vhdl := Row.print_row e

/-- A deeper reader splits the canonical text elsewhere and prints it again as it was. -/
theorem print_eq_of_read_print_deeper :
    ∃ e e', read .vhdl 4 "p='1' -> (q = '1')^r = '1'".toList = .ok e ∧
      read .vhdl 5 (e.print .vhdl) = .ok e' ∧ e' ≠ e ∧
      e'.print .vhdl = e.print .vhdl := by
  have h : read .vhdl 4 "p='1' -> (q = '1')^r = '1'".toList = .ok (binary .implies
      (predicate (.isSet ['p'])) (binary .and (group (predicate (.isSet ['q'])))
      (predicate (.isSet ['r'])))) := by decide +kernel
  have h' : read .vhdl 5 (print .vhdl (binary .implies (predicate (.isSet ['p'])) (binary .and
      (group (predicate (.isSet ['q']))) (predicate (.isSet ['r']))))) = .ok (binary .and
      (binary .implies (predicate (.isSet ['p'])) (group (predicate (.isSet ['q']))))
      (predicate (.isSet ['r']))) := by decide +kernel
  exact ⟨_, _, h, h', by decide, print_eq_of_read_print h (by decide) h'⟩

end Expr

end TimedReq
