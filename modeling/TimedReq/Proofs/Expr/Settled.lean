import TimedReq.Proofs.Expr.RoundTrip

/-!
# Trees read alike at all depths

With more levels a split at `^` or `V` that failed may succeed, and the text is read as another
tree. A tree without an implication that such a split might have left over is read at all greater
depths alike.
-/

namespace TimedReq

variable {α : Type}

/-- An implication that does not begin with a bracket shows no `^` and no `V` outside brackets, so
that no split at one of these came before the split at its arrow. -/
def Expr.Settled (e : Expr α) : Prop :=
  ∀ lhs rhs, .binary .implies lhs rhs ∈ e.subexpressions → lhs.isBracket = false →
    (binary .implies lhs rhs).exposesLogical = false

lemma Expr.Settled.of_mem_children {e x : Expr α} (h : e.Settled) (hx : x ∈ e.children) :
    x.Settled :=
  fun lhs rhs hmem => h lhs rhs (subexpressions_subset hx hmem)

/-- What the first reader reads as a settled tree the second reads as the same tree. -/
def Keeps (f g : Row α → Option (Expr α)) : Prop :=
  ∀ {row : Row α} {e : Expr α}, f row = some e → e.Settled → g row = some e

/-- A connective of the row outside brackets is outside brackets in what is read. -/
def Exposes (f : Row α → Option (Expr α)) : Prop :=
  ∀ {row : Row α} {e : Expr α} {x : Piece α}, f row = some e → x ∈ row → x.logical?.isSome →
    e.exposesLogical = true

section

variable {one two three one' two' three' : Row α → Option (Expr α)} {row : Row α} {e lhs : Expr α}
  {x : Piece α}

lemma Exposes.tailRule (hthree : Exposes three) (h : Row.tailRule three lhs row = some e)
    (hx : x ∈ row) (hlogical : x.logical?.isSome) : e.exposesLogical = true := by
  obtain ⟨rfl, -⟩ | ⟨c, apart, row, rhs, rfl, hrhs, rfl⟩ := Row.tailRule_eq_some.mp h
  · simp at hx
  · rcases List.mem_cons.mp hx with rfl | hx
    · cases c with
      | implies => simp [Piece.logical?] at hlogical
      | and | or => simp [Expr.exposesLogical]
    · simp [Expr.exposesLogical, hthree hrhs hx hlogical]

lemma Exposes.pathRule {b : Branch} (hthree : Exposes three)
    (h : Row.pathRule three b row = some e) (hx : x ∈ row) (hlogical : x.logical?.isSome) :
    e.exposesLogical = true := by
  obtain ⟨m, row, body, rfl, hbody, rfl⟩ | ⟨-, l, u, r, lhs, rhs, hcut, hlhs, hrhs, rfl⟩ :=
    Row.pathRule_eq_some.mp h
  · rcases List.mem_cons.mp hx with rfl | hx
    · simp [Piece.logical?] at hlogical
    · rw [Expr.exposesLogical]
      exact hthree hbody hx hlogical
  · obtain ⟨y, rfl, hy, -⟩ := Row.cut?_eq_some.mp hcut
    obtain rfl := Piece.eq_of_until? hy
    rcases List.mem_append.mp hx with hx | hx
    · simp [Expr.exposesLogical, hthree hlhs hx hlogical]
    · rcases List.mem_cons.mp hx with rfl | hx
      · simp [Piece.logical?] at hlogical
      · simp [Expr.exposesLogical, hthree hrhs hx hlogical]

lemma Exposes.arrowRule (hone : Exposes one) (h : Row.splitRule Piece.arrow? one row = some e)
    (hx : x ∈ row) (hlogical : x.logical?.isSome) : e.exposesLogical = true := by
  obtain ⟨l, c, r, lhs, rhs, hcut, hlhs, hrhs, rfl⟩ := Row.splitRule_eq_some.mp h
  obtain ⟨y, rfl, hy, -⟩ := Row.cut?_eq_some.mp hcut
  rcases List.mem_append.mp hx with hx | hx
  · simp [Expr.exposesLogical, hone hlhs hx hlogical]
  · rcases List.mem_cons.mp hx with rfl | hx
    · unfold Piece.arrow? at hy
      split at hy
      · simp [Piece.logical?] at hlogical
      · simp at hy
    · simp [Expr.exposesLogical, hone hrhs hx hlogical]

lemma Exposes.rule (hone : Exposes one) (htwo : Exposes two) (hthree : Exposes three) :
    Exposes (Row.rule one two three) := by
  intro row e x h hx hlogical
  obtain ⟨row', rfl, h⟩ | ⟨body, first, more, row', y, rfl, -, h⟩ | ⟨body, row', y, rfl, -, h⟩ |
    ⟨b, row', rfl, h⟩ | ⟨p, tight, bracketed, rfl, rfl⟩ | ⟨p, tight, row', rfl, -, h⟩ :=
    Row.rule_cases h
  · obtain ⟨-, body, hbody, rfl⟩ := Row.negationRule_eq_some.mp h
    rcases List.mem_cons.mp hx with rfl | hx
    · simp [Piece.logical?] at hlogical
    · rw [Expr.exposesLogical]
      exact htwo hbody hx hlogical
  · rcases List.mem_cons.mp hx with rfl | hx
    · simp [Piece.logical?] at hlogical
    · exact hthree.tailRule h hx hlogical
  · rcases List.mem_cons.mp hx with rfl | hx
    · simp [Piece.logical?] at hlogical
    · exact hthree.tailRule h hx hlogical
  · rcases List.mem_cons.mp hx with rfl | hx
    · simp [Piece.logical?] at hlogical
    · exact hthree.pathRule h hx hlogical
  · obtain rfl := List.mem_singleton.mp hx
    simp [Piece.logical?] at hlogical
  · obtain h | ⟨-, h⟩ := h
    · obtain ⟨l, c, r, lhs, rhs, hcut, -, -, rfl⟩ := Row.splitRule_eq_some.mp h
      obtain ⟨y, -, hy, -⟩ := Row.cut?_eq_some.mp hcut
      unfold Piece.logical? at hy
      split at hy
      · obtain rfl := Option.some.inj hy
        simp [Expr.exposesLogical]
      · obtain rfl := Option.some.inj hy
        simp [Expr.exposesLogical]
      · simp at hy
    · exact hone.arrowRule h hx hlogical

lemma Keeps.tailRule (hthree : Keeps three three') (he : e.Settled)
    (h : Row.tailRule three lhs row = some e) : Row.tailRule three' lhs row = some e := by
  rw [Row.tailRule_eq_some] at h ⊢
  obtain ⟨hrow, heq⟩ | ⟨c, apart, row, rhs, rfl, hrhs, rfl⟩ := h
  · exact .inl ⟨hrow, heq⟩
  · have hr : rhs.Settled := he.of_mem_children (by simp [Expr.children])
    exact .inr ⟨c, apart, row, rhs, rfl, hthree hrhs hr, rfl⟩

lemma Keeps.pathRule {b : Branch} (hthree : Keeps three three') (he : e.Settled)
    (h : Row.pathRule three b row = some e) : Row.pathRule three' b row = some e := by
  rw [Row.pathRule_eq_some] at h ⊢
  obtain ⟨m, row, body, rfl, hbody, rfl⟩ | ⟨hne, l, u, r, lhs, rhs, hcut, hlhs, hrhs, rfl⟩ := h
  · have hb : body.Settled := he.of_mem_children (by simp [Expr.children])
    exact .inl ⟨m, row, body, rfl, hthree hbody hb, rfl⟩
  · have hl : lhs.Settled := he.of_mem_children (by simp [Expr.children])
    have hr : rhs.Settled := he.of_mem_children (by simp [Expr.children])
    exact .inr ⟨hne, l, u, r, lhs, rhs, hcut, hthree hlhs hl, hthree hrhs hr, rfl⟩

lemma Keeps.splitRule {f : Piece α → Option Connective} {operand operand' : Row α → Option (Expr α)}
    (hoperand : Keeps operand operand') (he : e.Settled)
    (h : Row.splitRule f operand row = some e) : Row.splitRule f operand' row = some e := by
  rw [Row.splitRule_eq_some] at h ⊢
  obtain ⟨l, c, r, lhs, rhs, hcut, hlhs, hrhs, rfl⟩ := h
  have hl : lhs.Settled := he.of_mem_children (by simp [Expr.children])
  have hr : rhs.Settled := he.of_mem_children (by simp [Expr.children])
  exact ⟨l, c, r, lhs, rhs, hcut, hoperand hlhs hl, hoperand hrhs hr, rfl⟩

lemma Row.settled_of_tailRule (h : Row.tailRule three lhs row = some e) (he : e.Settled) :
    lhs.Settled := by
  obtain ⟨-, rfl⟩ | ⟨_, _, _, _, -, -, rfl⟩ := tailRule_eq_some.mp h
  · exact he
  · exact he.of_mem_children List.mem_cons_self

lemma Keeps.rule (hone : Keeps one one') (htwo : Keeps two two') (hthree : Keeps three three')
    (hexposes : Exposes one) (hsame : ∀ {p t b row e}, one (.predicate p t b :: row) = some e →
      e.isBracket = false) :
    Keeps (Row.rule one two three) (Row.rule one' two' three') := by
  intro row e h he
  obtain ⟨row', rfl, h⟩ | ⟨body, first, more, row', x, rfl, hx, h⟩ | ⟨body, row', x, rfl, hx, h⟩ |
    ⟨b, row', rfl, h⟩ | ⟨p, tight, bracketed, rfl, rfl⟩ | ⟨p, tight, row', rfl, hne, h⟩ :=
    Row.rule_cases h
  · rw [Row.rule_negation, Row.negationRule_eq_some]
    obtain ⟨hne, body, hbody, rfl⟩ := Row.negationRule_eq_some.mp h
    have hb : body.Settled := he.of_mem_children (by simp [Expr.children])
    exact ⟨hne, body, htwo hbody hb, rfl⟩
  · have hb : x.Settled :=
      (Row.settled_of_tailRule h he).of_mem_children (by simp [Expr.children])
    rw [Row.rule_bounded, hthree hx hb]
    exact hthree.tailRule he h
  · have hb : x.Settled :=
      (Row.settled_of_tailRule h he).of_mem_children (by simp [Expr.children])
    rw [Row.rule_group, htwo hx hb]
    exact hthree.tailRule he h
  · exact hthree.pathRule he h
  · rfl
  · rw [Row.rule_predicate hne, Option.or_eq_some_iff]
    obtain h | ⟨-, h⟩ := h
    · exact .inl (htwo.splitRule he h)
    · refine .inr ⟨?_, hone.splitRule he h⟩
      -- the row has no connective at which it is split first
      obtain ⟨l, c, r, lhs, rhs, hcut, hlhs, -, rfl⟩ := Row.splitRule_eq_some.mp h
      obtain ⟨y, hrow, hy, hl⟩ := Row.cut?_eq_some.mp hcut
      obtain rfl : c = .implies := by
        unfold Piece.arrow? at hy
        split at hy
        · exact (Option.some.inj hy).symm
        · simp at hy
      have hbracket : lhs.isBracket = false := by
        cases l with
        | nil =>
          obtain ⟨rfl, -⟩ := List.cons.inj hrow
          simp [Piece.arrow?] at hy
        | cons z l =>
          obtain ⟨rfl, -⟩ := List.cons.inj hrow
          exact hsame hlhs
      have hexposed := he lhs rhs (by simp [Expr.subexpressions]) hbracket
      have hnone : Row.cut? Piece.logical? (.predicate p tight false :: row') = none := by
        refine Row.cut?_eq_none.mpr fun x hx => ?_
        cases hlogical : x.logical? with
        | none => rfl
        | some c =>
          have hshows := hexposes.arrowRule h hx (by simp [hlogical])
          rw [hexposed] at hshows
          exact absurd hshows (by simp)
      rw [Row.splitRule, hnone]

end

namespace Row

/-- Connectives outside brackets stay outside brackets. -/
theorem exposes_read (n : Nat) : Exposes (read n : Row α → Option (Expr α)) := by
  induction n using Nat.strongRecOn with
  | ind n ih =>
    cases n with
    | zero =>
      intro row e x h
      simp [read] at h
    | succ n =>
      intro row e x h
      rw [read_succ] at h
      exact Exposes.rule (ih n (by omega)) (ih (n - 1) (by omega)) (ih (n - 2) (by omega)) h

/-- What begins with a predicate is no bracket. -/
lemma isBracket_of_read_predicate {n : Nat} {p : α} {tight bracketed : Bool} {row : Row α}
    {e : Expr α} (h : read n (.predicate p tight bracketed :: row) = some e) :
    e.isBracket = false := by
  cases n with
  | zero => simp [read] at h
  | succ n =>
    rw [read_succ] at h
    obtain ⟨_, hrow, -⟩ | ⟨_, _, _, _, _, hrow, -⟩ | ⟨_, _, _, hrow, -⟩ | ⟨_, _, hrow, -⟩ |
      ⟨_, _, _, -, rfl⟩ | ⟨_, _, _, -, -, h⟩ := rule_cases h
    · simp at hrow
    · simp at hrow
    · simp at hrow
    · simp at hrow
    · rfl
    · obtain h | ⟨-, h⟩ := h <;> obtain ⟨_, _, _, _, _, -, -, -, rfl⟩ := splitRule_eq_some.mp h <;>
        rfl

/-- A row that is read as a settled tree is read as the same tree with more levels. -/
theorem keeps_read {n n' : Nat} (h : n ≤ n') :
    Keeps (read n : Row α → Option (Expr α)) (read n') := by
  induction n using Nat.strongRecOn generalizing n' with
  | ind n ih =>
    cases n with
    | zero =>
      intro row e h
      simp [read] at h
    | succ n =>
      obtain ⟨k, rfl⟩ : ∃ k, n' = k + 1 := ⟨n' - 1, by omega⟩
      intro row e h he
      rw [read_succ] at h ⊢
      exact Keeps.rule (ih n (by omega) (by omega)) (ih (n - 1) (by omega) (by omega))
        (ih (n - 2) (by omega) (by omega)) (exposes_read n) isBracket_of_read_predicate h he

end Row

namespace Expr

variable {m m' : Int} {s : Text} {e : Expr Vhdl.Node}

/-- A settled tree does not depend on the depth with which it is read. -/
theorem read_eq_of_settled (h : read .vhdl m s = .ok e) (hnames : e.NamesApart)
    (hsettled : e.Settled) (hm : m ≤ m') : read .vhdl m' s = .ok e := by
  obtain ⟨-, row, hspells, -⟩ := (takes_readLevels (levels m) h).spelledBy Vhdl.restores hnames
  have hread : ∀ m, read .vhdl m s = .ofOption (Row.read (levels m) row) :=
    fun m => readsAs_readLevels Vhdl.keepsGroups (levels m) hspells
  rw [hread, Reading.ofOption_eq_ok] at h ⊢
  have hlevels : levels m ≤ levels m' := by
    unfold levels
    omega
  exact Row.keeps_read hlevels h hsettled

theorem read_eq_of_settled_group :
    read .vhdl 256 "(p = '1') -> q = '1' ^ r = '1'".toList =
      .ok (binary .implies (group (predicate (.isSet ['p'])))
        (binary .and (predicate (.isSet ['q'])) (predicate (.isSet ['r'])))) := by
  have h : read .vhdl 5 "(p = '1') -> q = '1' ^ r = '1'".toList =
      .ok (binary .implies (group (predicate (.isSet ['p'])))
        (binary .and (predicate (.isSet ['q'])) (predicate (.isSet ['r'])))) := by decide +kernel
  refine read_eq_of_settled h (by decide) ?_ (by decide)
  intro lhs rhs hmem hbracket
  simp only [subexpressions, List.cons_append, List.nil_append, List.mem_cons, binary.injEq,
    reduceCtorEq, List.not_mem_nil, false_and, or_false] at hmem
  obtain ⟨-, rfl, -⟩ := hmem
  exact absurd hbracket (by decide)

/-- With one level more the split at `^` succeeds, and the tree changes. -/
theorem read_ne_of_deeper :
    ∃ e e', read .vhdl 4 "p = '1' -> (q = '1') ^ r = '1'".toList = .ok e ∧
      read .vhdl 5 "p = '1' -> (q = '1') ^ r = '1'".toList = .ok e' ∧ e' ≠ e :=
  ⟨binary .implies (predicate (.isSet ['p']))
      (binary .and (group (predicate (.isSet ['q']))) (predicate (.isSet ['r']))),
    binary .and (binary .implies (predicate (.isSet ['p'])) (group (predicate (.isSet ['q']))))
      (predicate (.isSet ['r'])),
    by decide +kernel, by decide +kernel, by decide⟩

end Expr

end TimedReq
