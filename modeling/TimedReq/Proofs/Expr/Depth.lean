import TimedReq.Proofs.Expr.RowReading
import TimedReq.Proofs.Expr.Similar

/-!
# Trees that respect precedence

Conditions under which the canonical text of a tree is split where the tree is, and the number of
levels that this takes. With fewer levels the text is refused, or it is read as another tree.
-/

namespace TimedReq

open Text

variable {α : Type} {L : Embedding α}

namespace Expr

/-- Whether `^` or `V` stands in the text of the tree outside brackets. -/
def exposesLogical : Expr α → Bool
  | predicate _ | group _ | bounded _ _ _ => false
  | negation body | along _ _ body => body.exposesLogical
  | binary c lhs rhs => c != .implies || lhs.exposesLogical || rhs.exposesLogical
  | .until _ _ lhs rhs => lhs.exposesLogical || rhs.exposesLogical

/-- Whether an "until" stands in the text of the tree outside brackets. -/
def exposesUntil : Expr α → Bool
  | predicate _ | group _ | bounded _ _ _ => false
  | negation body | along _ _ body => body.exposesUntil
  | binary _ lhs rhs => lhs.exposesUntil || rhs.exposesUntil
  | .until _ _ _ _ => true

/-- No bracket is in front of the predicate. -/
def Unbracketed (L : Embedding α) (p : α) : Prop := (L.print p).head? ≠ some '('

/-- The trees that may stand on the left of a connective: those in brackets, predicates, and on the
left of `^` and `V` also implications from a predicate. -/
def MayPrecede (L : Embedding α) (c : Connective) (rhs : Expr α) : Expr α → Prop
  | group _ | bounded _ _ _ => True
  | predicate p => Unbracketed L p ∧ (c = .implies → rhs.exposesLogical = false)
  | binary .implies (predicate p) _ => Unbracketed L p ∧ c ≠ .implies
  | _ => False

/-- The tree respects precedence, and its predicates are `clean`. -/
def WellFormed (L : Embedding α) (clean : α → Prop) : Expr α → Prop
  | predicate p => clean p
  | negation body => body.WellFormed L clean ∧
    ∀ p, body = predicate p → (L.print p).any isBlank = false
  | group body | along _ _ body => body.WellFormed L clean
  | bounded body first more => body.WellFormed L clean ∧ ∀ st ∈ first :: more, st.Readable
  | .until _ _ lhs rhs =>
    lhs.WellFormed L clean ∧ rhs.WellFormed L clean ∧ lhs.exposesUntil = false
  | binary c lhs rhs =>
    lhs.WellFormed L clean ∧ rhs.WellFormed L clean ∧ MayPrecede L c rhs lhs

/-- Whether the tree is a group or bounded. -/
def isBracket : Expr α → Bool
  | group _ | bounded _ _ _ => true
  | _ => false

/-- The least depth with which the canonical text of the tree is read as the tree. -/
def need : Expr α → Nat
  | predicate _ => 0
  | negation body | group body => body.need + 2
  | along _ _ body | bounded body _ _ => body.need + 3
  | .until _ _ lhs rhs => max lhs.need rhs.need + 3
  | binary c lhs rhs =>
    if lhs.isBracket then max lhs.need (rhs.need + 3)
    else max lhs.need rhs.need + if c = .implies then 1 else 2

lemma WellFormed.legible {clean : α → Prop} (hclean : ∀ p, clean p → PredicateText L p (L.print p))
    {e : Expr α} (h : e.WellFormed L clean) : e.Legible L := by
  induction e with
  | predicate p => exact hclean p h
  | negation body ih => exact ih h.1
  | group body ih | along b m body ih => exact ih h
  | binary c lhs rhs ihl ihr | «until» b u lhs rhs ihl ihr => exact ⟨ihl h.1, ihr h.2.1⟩
  | bounded body first more ih => exact ⟨ih h.1, h.2⟩

lemma logical?_row {e : Expr α} (h : e.exposesLogical = false) :
    ∀ x ∈ e.row L, x.logical? = none := by
  induction e with
  | predicate p => simp [Piece.logical?]
  | negation body ih =>
    simpa [Piece.logical?] using ih h
  | group body ih => simp [Piece.logical?]
  | binary c lhs rhs ihl ihr =>
    simp only [exposesLogical, Bool.or_eq_false_iff] at h
    obtain ⟨⟨hc, hl⟩, hr⟩ := h
    obtain rfl : c = .implies := by simpa using hc
    simp only [row, List.mem_append, List.mem_cons]
    rintro x (hx | rfl | hx)
    · exact ihl hl x hx
    · rfl
    · exact ihr hr x hx
  | along b m body ih =>
    simpa [Piece.logical?] using ih h
  | «until» b u lhs rhs ihl ihr =>
    simp only [exposesLogical, Bool.or_eq_false_iff] at h
    simp only [row, List.mem_append, List.mem_cons]
    rintro x (rfl | hx | rfl | hx)
    · rfl
    · exact ihl h.1 x hx
    · rfl
    · exact ihr h.2 x hx
  | bounded body first more ih => simp [Piece.logical?]

lemma until?_row {e : Expr α} (h : e.exposesUntil = false) : ∀ x ∈ e.row L, x.until? = none := by
  induction e with
  | predicate p => simp [Piece.until?]
  | negation body ih =>
    simpa [Piece.until?] using ih h
  | group body ih => simp [Piece.until?]
  | binary c lhs rhs ihl ihr =>
    simp only [exposesUntil, Bool.or_eq_false_iff] at h
    simp only [row, List.mem_append, List.mem_cons]
    rintro x (hx | rfl | hx)
    · exact ihl h.1 x hx
    · rfl
    · exact ihr h.2 x hx
  | along b m body ih =>
    simpa [Piece.until?] using ih h
  | «until» b u lhs rhs ihl ihr => simp [exposesUntil] at h
  | bounded body first more ih => simp [Piece.until?]

lemma row_ne_nil (e : Expr α) : e.row L ≠ [] := by
  induction e <;> simp

lemma row_ne_modality (e : Expr α) (m : Modality) (row' : Row α) :
    e.row L ≠ .modality m :: row' := by
  induction e generalizing row' with
  | binary c lhs rhs ihl _ =>
    intro heq
    obtain ⟨x, l, hl⟩ := List.exists_cons_of_ne_nil (lhs.row_ne_nil (L := L))
    rw [row, hl, List.cons_append] at heq
    obtain ⟨rfl, -⟩ := List.cons.inj heq
    exact ihl l hl
  | _ => simp

lemma eq_of_row_singleton {e : Expr α} {p : α} {tight bracketed : Bool}
    (h : e.row L = [.predicate p tight bracketed]) :
    e = predicate p ∧ tight = (!(L.print p).any isBlank) := by
  cases e with
  | predicate q =>
    obtain ⟨rfl, rfl, -⟩ := Piece.predicate.inj (List.cons.inj h).1
    exact ⟨rfl, rfl⟩
  | binary c lhs rhs =>
    have hlen := congrArg List.length h
    have hpos := List.length_pos_iff.mpr (lhs.row_ne_nil (L := L))
    simp only [row, List.length_append, List.length_cons, List.length_nil] at hlen
    omega
  | _ => simp at h

section

variable {one two three : Row α → Option (Expr α)} {lhs rhs body : Expr α}

lemma rule_negation (hbody : ∀ p, body = predicate p → (L.print p).any isBlank = false) :
    Row.rule one two three ((negation body).row L) = some (negation body) ↔
      two (body.row L) = some body := by
  have hne : ∀ p b, body.row L ≠ [.predicate p false b] := by
    intro p b heq
    obtain ⟨rfl, hblank⟩ := eq_of_row_singleton heq
    rw [hbody p rfl] at hblank
    exact absurd hblank (by simp)
  refine Row.negationRule_eq_some.trans ⟨?_, fun h => ⟨hne, body, h, rfl⟩⟩
  rintro ⟨-, x, hx, heq⟩
  rwa [← negation.inj heq] at hx

lemma rule_group : Row.rule one two three ((group body).row L) = some (group body) ↔
    two (body.row L) = some body := by
  simp only [row, Row.rule_group, Row.tailRule_nil, Option.bind_eq_some_iff, Option.some.injEq,
    group.injEq, exists_eq_right]

lemma rule_bounded {first : Statement} {more : List Statement} :
    Row.rule one two three ((bounded body first more).row L) = some (bounded body first more) ↔
      three (body.row L) = some body := by
  simp only [row, Row.rule_bounded, Row.tailRule_nil, Option.bind_eq_some_iff, Option.some.injEq,
    bounded.injEq, and_true, exists_eq_right]

lemma rule_groupTail {c : Connective} :
    Row.rule one two three ((binary c (group body) rhs).row L) = some (binary c (group body) rhs) ↔
      two (body.row L) = some body ∧ three (rhs.row L) = some rhs := by
  simp only [row, List.singleton_append, Row.rule_group, Row.tailRule_connective,
    Option.bind_eq_some_iff, Option.map_eq_some_iff, binary.injEq, group.injEq, true_and,
    exists_eq_right_right]

lemma rule_boundedTail {c : Connective} {first : Statement} {more : List Statement} :
    Row.rule one two three ((binary c (bounded body first more) rhs).row L) =
        some (binary c (bounded body first more) rhs) ↔
      three (body.row L) = some body ∧ three (rhs.row L) = some rhs := by
  simp only [row, List.singleton_append, Row.rule_bounded, Row.tailRule_connective,
    Option.bind_eq_some_iff, Option.map_eq_some_iff, binary.injEq, bounded.injEq, true_and, and_true,
    exists_eq_right_right]

lemma rule_along {b : Branch} {m : Modality} :
    Row.rule one two three ((along b m body).row L) = some (along b m body) ↔
      three (body.row L) = some body := by
  simp only [row, Row.rule_branch, Row.pathRule_modality, Option.map_eq_some_iff, along.injEq,
    true_and, exists_eq_right]

lemma rule_until {b : Branch} {u : Until} (hl : lhs.exposesUntil = false) :
    Row.rule one two three ((Expr.until b u lhs rhs).row L) = some (Expr.until b u lhs rhs) ↔
      three (lhs.row L) = some lhs ∧ three (rhs.row L) = some rhs := by
  have hcut : Row.cut? Piece.until? (lhs.row L ++ .until u :: rhs.row L) =
      some (lhs.row L, u, rhs.row L) :=
    Row.cut?_eq_some.mpr ⟨_, rfl, rfl, until?_row hl⟩
  have hne : ∀ m row', lhs.row L ++ .until u :: rhs.row L ≠ .modality m :: row' := by
    intro m row' heq
    obtain ⟨x, l, hx⟩ := List.exists_cons_of_ne_nil (lhs.row_ne_nil (L := L))
    rw [hx, List.cons_append] at heq
    obtain ⟨rfl, -⟩ := List.cons.inj heq
    exact lhs.row_ne_modality m l hx
  rw [row, Row.rule_branch, Row.pathRule_of_ne hne, hcut]
  simp only [Option.bind_eq_some_iff, Option.map_eq_some_iff, Expr.until.injEq, true_and,
    exists_eq_right_right]

lemma splitRule_row {f : Piece α → Option Connective} {c : Connective} {row : Row α}
    (hcut : Row.cut? f row = some (lhs.row L, c, rhs.row L)) :
    Row.splitRule f two row = some (binary c lhs rhs) ↔
      two (lhs.row L) = some lhs ∧ two (rhs.row L) = some rhs := by
  rw [Row.splitRule, hcut]
  simp only [Option.bind_eq_some_iff, Option.map_eq_some_iff, binary.injEq, true_and,
    exists_eq_right_right]

lemma rule_logical {p : α} {tight : Bool} {c : Connective} {rest : Row α} (hc : c ≠ .implies)
    (hrow : lhs.row L = .predicate p tight false :: rest) (hl : lhs.exposesLogical = false) :
    Row.rule one two three ((binary c lhs rhs).row L) = some (binary c lhs rhs) ↔
      two (lhs.row L) = some lhs ∧ two (rhs.row L) = some rhs := by
  have hpiece : (.connective c true : Piece α).logical? = some c := by
    cases c with
    | implies => exact absurd rfl hc
    | and | or => rfl
  have hcut : Row.cut? Piece.logical? ((binary c lhs rhs).row L) =
      some (lhs.row L, c, rhs.row L) :=
    Row.cut?_eq_some.mpr ⟨_, rfl, hpiece, logical?_row hl⟩
  have hcons : (binary c lhs rhs).row L =
      .predicate p tight false :: (rest ++ .connective c true :: rhs.row L) := by
    rw [row, hrow, List.cons_append]
  rw [hcons] at hcut ⊢
  rw [Row.rule_predicate (by simp), Option.or_eq_some_iff, splitRule_row hcut, or_iff_left]
  -- the other split is at an arrow
  rintro ⟨-, harrow⟩
  obtain ⟨l, c', r, x, y, hfound, -, -, heq⟩ := Row.splitRule_eq_some.mp harrow
  obtain ⟨rfl, -, -⟩ := binary.inj heq
  obtain ⟨z, -, hz, -⟩ := Row.cut?_eq_some.mp hfound
  unfold Piece.arrow? at hz
  split at hz
  · exact hc (Option.some.inj hz).symm
  · simp at hz

lemma rule_arrow {p : α} (hp : Unbracketed L p) (hr : rhs.exposesLogical = false) :
    Row.rule one two three ((binary .implies (predicate p) rhs).row L) =
        some (binary .implies (predicate p) rhs) ↔
      one ((predicate p).row L) = some (predicate p) ∧ one (rhs.row L) = some rhs := by
  have hcut : Row.cut? Piece.arrow? ((binary .implies (predicate p) rhs).row L) =
      some ((predicate p).row L, .implies, rhs.row L) := rfl
  have hlogical : Row.cut? Piece.logical? ((binary .implies (predicate p) rhs).row L) = none :=
    Row.cut?_eq_none.mpr (logical?_row hr)
  have hcons : (binary .implies (predicate p) rhs).row L =
      .predicate p (!(L.print p).any isBlank) false :: .connective .implies true :: rhs.row L := by
    have hhead : ((L.print p).head? == some '(') = false := beq_eq_false_iff_ne.mpr hp
    rw [row, row, hhead]
    rfl
  rw [hcons] at hcut hlogical ⊢
  rw [Row.rule_predicate (by simp), Row.splitRule, hlogical]
  simp only [Option.none_or]
  exact splitRule_row hcut

lemma need_of_isBracket {c : Connective} (h : lhs.isBracket = true) :
    (binary c lhs rhs).need = max lhs.need (rhs.need + 3) := by
  rw [need, if_pos h]

lemma need_of_not_isBracket {c : Connective} (h : lhs.isBracket = false) :
    (binary c lhs rhs).need = max lhs.need rhs.need + if c = .implies then 1 else 2 := by
  rw [need, if_neg (by simp [h])]

end

/-- The row of the tree is read as the tree just at the depths from its need on. -/
def ReadFromNeed (L : Embedding α) (e : Expr α) : Prop :=
  ∀ n, Row.read n (e.row L) = some e ↔ e.need + 1 ≤ n

/-- At depth 0 nothing is read, so it is enough to look at the greater depths. -/
lemma ReadFromNeed.of_succ {e : Expr α}
    (h : ∀ k, Row.rule (Row.read k) (Row.read (k - 1)) (Row.read (k - 2)) (e.row L) = some e ↔
      e.need ≤ k) : ReadFromNeed L e := by
  intro n
  cases n with
  | zero => simp [Row.read]
  | succ k => rw [Row.read_succ, h, Nat.add_le_add_iff_right]

/-- A connective behind a group or a bounded expression: the left operand is read as it is when it
stands alone. -/
lemma ReadFromNeed.behindBracket {c : Connective} {lhs rhs : Expr α} (hl : ReadFromNeed L lhs)
    (hr : ReadFromNeed L rhs) (hbracket : lhs.isBracket = true) :
    ReadFromNeed L (binary c lhs rhs) := by
  refine .of_succ fun k => ?_
  have hlhs := hl (k + 1)
  rw [Row.read_succ] at hlhs
  rw [need_of_isBracket hbracket]
  cases lhs with
  | group body =>
    refine (rule_groupTail.trans (and_congr (rule_group.symm.trans hlhs) (hr (k - 2)))).trans ?_
    omega
  | bounded body first more =>
    refine (rule_boundedTail.trans (and_congr (rule_bounded.symm.trans hlhs) (hr (k - 2)))).trans ?_
    omega
  | _ => simp [isBracket] at hbracket

/-- A split at `^` or `V`. -/
lemma ReadFromNeed.logical {p : α} {tight : Bool} {c : Connective} {lhs rhs : Expr α}
    {rest : Row α} (hl : ReadFromNeed L lhs) (hr : ReadFromNeed L rhs) (hc : c ≠ .implies)
    (hrow : lhs.row L = .predicate p tight false :: rest) (hexposed : lhs.exposesLogical = false)
    (hbracket : lhs.isBracket = false) : ReadFromNeed L (binary c lhs rhs) := by
  refine .of_succ fun k => ?_
  refine (rule_logical hc hrow hexposed).trans ((and_congr (hl (k - 1)) (hr (k - 1))).trans ?_)
  rw [need_of_not_isBracket hbracket, if_neg hc]
  omega

/-- A split at an arrow. -/
lemma ReadFromNeed.arrow {p : α} {rhs : Expr α} (hp : Unbracketed L p)
    (hl : ReadFromNeed L (predicate p)) (hr : ReadFromNeed L rhs)
    (hexposed : rhs.exposesLogical = false) :
    ReadFromNeed L (binary .implies (predicate p) rhs) := by
  refine .of_succ fun k => ?_
  refine (rule_arrow hp hexposed).trans ((and_congr (hl k) (hr k)).trans ?_)
  rw [need_of_not_isBracket rfl, if_pos rfl]
  omega

lemma row_predicate {p : α} (hp : Unbracketed L p) :
    (predicate p).row L = [.predicate p (!(L.print p).any isBlank) false] := by
  have hhead : ((L.print p).head? == some '(') = false := beq_eq_false_iff_ne.mpr hp
  rw [row, hhead]

/-- A connective behind a tree that may stand there. -/
lemma ReadFromNeed.binary {c : Connective} {lhs rhs : Expr α} (hl : ReadFromNeed L lhs)
    (hr : ReadFromNeed L rhs) {clean : α → Prop} (hwell : lhs.WellFormed L clean)
    (hprecede : MayPrecede L c rhs lhs) : ReadFromNeed L (binary c lhs rhs) := by
  cases lhs with
  | group | bounded => exact hl.behindBracket hr rfl
  | predicate p =>
    obtain ⟨hp, hexposed⟩ := hprecede
    by_cases hc : c = .implies
    · subst hc
      exact .arrow hp hl hr (hexposed rfl)
    · exact hl.logical hr hc (row_predicate hp) rfl rfl
  | binary c' l r =>
    obtain ⟨p, rfl, rfl, hp, hc⟩ : ∃ p, c' = .implies ∧ l = predicate p ∧ Unbracketed L p ∧
        c ≠ .implies := by
      cases c' with
      | implies =>
        cases l with
        | predicate p => exact ⟨p, rfl, rfl, hprecede⟩
        | _ => exact hprecede.elim
      | and | or => exact hprecede.elim
    exact hl.logical hr hc (by rw [row, row_predicate hp, List.singleton_append])
      (hwell.2.2.2 rfl) rfl
  | _ => exact hprecede.elim

/-- The row of a tree that respects precedence is read as the tree just at the depths from its need
on. -/
theorem WellFormed.read_row {clean : α → Prop} {e : Expr α} (h : e.WellFormed L clean) :
    ReadFromNeed L e := by
  induction e with
  | predicate p => exact .of_succ fun k => by simp [Row.rule_singleton, need]
  | negation body ih =>
    refine .of_succ fun k => (rule_negation h.2).trans ((ih h.1 (k - 1)).trans ?_)
    rw [need]
    omega
  | group body ih =>
    refine .of_succ fun k => rule_group.trans ((ih h (k - 1)).trans ?_)
    rw [need]
    omega
  | along b m body ih =>
    refine .of_succ fun k => rule_along.trans ((ih h (k - 2)).trans ?_)
    rw [need]
    omega
  | «until» b u lhs rhs ihl ihr =>
    refine .of_succ fun k => (rule_until h.2.2).trans
      ((and_congr (ihl h.1 (k - 2)) (ihr h.2.1 (k - 2))).trans ?_)
    rw [need]
    omega
  | bounded body first more ih =>
    refine .of_succ fun k => rule_bounded.trans ((ih h.1 (k - 2)).trans ?_)
    rw [need]
    omega
  | binary c lhs rhs ihl ihr => exact (ihl h.1).binary (ihr h.2.1) h.1 h.2.2

/-- The canonical text of a tree that respects precedence is read as the tree just at the depths
from its need on. -/
theorem WellFormed.readLevels_print (hL : L.KeepsGroups) {clean : α → Prop}
    (hclean : ∀ p, clean p → PredicateText L p (L.print p)) {e : Expr α}
    (h : e.WellFormed L clean) (n : Nat) :
    readLevels L n (e.print L) = .ok e ↔ e.need + 1 ≤ n := by
  rw [readsAs_readLevels hL n (h.legible hclean).spells, Reading.ofOption_eq_ok]
  exact h.read_row n

end Expr

end TimedReq
