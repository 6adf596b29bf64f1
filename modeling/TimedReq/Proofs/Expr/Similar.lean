import Mathlib.Data.List.Forall2
import TimedReq.Proofs.Expr.Canonical
import TimedReq.Proofs.Expr.Subexpressions

/-!
# Similar rows

The row of a text and the row of the canonical text of its tree have the same pieces. They may
differ in the blanks of predicates, of which the canonical text has more, and in the blanks around
connectives. Without the latter difference both are read alike, unless a negation gets a predicate
with blanks.
-/

namespace TimedReq

open Text

variable {α : Type} {L : Embedding α}

/-- The pieces of two rows at one place. With `strict` both have blanks around connectives. -/
inductive Piece.Similar (L : Embedding α) (strict : Bool) : Piece α → Piece α → Prop
  | predicate {p : α} {tight bracketed : Bool}
    (htight : (L.print p).any isBlank = false → tight = true) :
    Similar L strict (.predicate p tight bracketed)
      (.predicate p (!(L.print p).any isBlank) bracketed)
  | negation : Similar L strict .negation .negation
  | branch (b : Branch) : Similar L strict (.branch b) (.branch b)
  | modality (m : Modality) : Similar L strict (.modality m) (.modality m)
  | until (u : Until) : Similar L strict (.until u) (.until u)
  | connective (c : Connective) {apart : Bool} (hapart : strict = true → apart = true) :
    Similar L strict (.connective c apart) (.connective c true)
  | group {body body' : Row α} (h : List.Forall₂ (Similar L strict) body body') :
    Similar L strict (.group body) (.group body')
  | bounded {body body' : Row α} (first : Statement) (more : List Statement)
    (h : List.Forall₂ (Similar L strict) body body') :
    Similar L strict (.bounded body first more) (.bounded body' first more)

/-- The rows have similar pieces. -/
abbrev Row.Similar (L : Embedding α) (strict : Bool) : Row α → Row α → Prop :=
  List.Forall₂ (Piece.Similar L strict)

/-- All pieces that are no brackets satisfy the condition, within brackets as well. -/
inductive Piece.Everywhere (f : Piece α → Bool) : Piece α → Prop
  | single {x : Piece α} (hx : f x = true) : Everywhere f x
  | group {body : Row α} (h : ∀ x ∈ body, Everywhere f x) : Everywhere f (.group body)
  | bounded {body : Row α} (first : Statement) (more : List Statement)
    (h : ∀ x ∈ body, Everywhere f x) : Everywhere f (.bounded body first more)

/-- If the piece is a connective, blanks are around it. -/
def Piece.isSpaced : Piece α → Bool
  | connective _ apart => apart
  | group _ | bounded _ _ _ => false
  | _ => true

/-- All connectives of the row have blanks around them. -/
def Row.Spaced (row : Row α) : Prop := ∀ x ∈ row, x.Everywhere Piece.isSpaced

/-- Negations are of predicates whose canonical texts are without blanks, and of all else. -/
def Expr.Tight (L : Embedding α) (e : Expr α) : Prop :=
  ∀ p, .negation (.predicate p) ∈ e.subexpressions → (L.print p).any isBlank = false

lemma forall₂_of_forall_mem {β γ : Type} {R R' : β → γ → Prop} {l : List β} {l' : List γ}
    (h : ∀ x ∈ l, ∀ {y}, R x y → R' x y) (hl : List.Forall₂ R l l') : List.Forall₂ R' l l' := by
  induction hl with
  | nil => exact .nil
  | cons hx _ ih =>
    refine .cons (h _ List.mem_cons_self hx) (ih ?_)
    intro x hmem
    exact h x (List.mem_cons_of_mem _ hmem)

lemma Piece.Everywhere.similar {x y : Piece α} (hx : x.Everywhere Piece.isSpaced)
    (h : Piece.Similar L false x y) : Piece.Similar L true x y := by
  induction hx generalizing y with
  | single hx =>
    cases h with
    | predicate htight => exact .predicate htight
    | negation => exact .negation
    | branch b => exact .branch b
    | modality m => exact .modality m
    | «until» u => exact .until u
    | connective c => exact .connective c fun _ => hx
    | group | bounded => exact absurd hx (by simp [Piece.isSpaced])
  | group _ ih =>
    cases h with
    | group h => exact .group (forall₂_of_forall_mem ih h)
  | bounded first more _ ih =>
    cases h with
    | bounded _ _ h => exact .bounded first more (forall₂_of_forall_mem ih h)

/-- If the connectives of the first row have blanks around them, the rows are similar in the strict
sense. -/
lemma Row.Spaced.similar {T S : Row α} (hT : T.Spaced) (h : Row.Similar L false T S) :
    Row.Similar L true T S :=
  forall₂_of_forall_mem (fun x hx => (hT x hx).similar) h

/-- Rows with the same operators are cut at the same place. -/
lemma forall₂_cut? {β : Type} {f : Piece α → Option β} {R : Piece α → Piece α → Prop}
    (hf : ∀ x y, R x y → f x = f y) {T S : Row α} (h : List.Forall₂ R T S) :
    (Row.cut? f T = none ∧ Row.cut? f S = none) ∨
    ∃ l y r l' r', Row.cut? f T = some (l, y, r) ∧ Row.cut? f S = some (l', y, r') ∧
      List.Forall₂ R l l' ∧ List.Forall₂ R r r' := by
  induction h with
  | nil => exact .inl ⟨rfl, rfl⟩
  | @cons x x' T S hx h ih =>
    simp only [Row.cut?, ← hf x x' hx]
    cases hy : f x with
    | some y => exact .inr ⟨[], y, T, [], S, rfl, rfl, .nil, h⟩
    | none =>
      obtain ⟨hT, hS⟩ | ⟨l, y, r, l', r', hT, hS, hl, hr⟩ := ih
      · exact .inl ⟨by rw [hT]; rfl, by rw [hS]; rfl⟩
      · exact .inr ⟨x :: l, y, r, x' :: l', r', by rw [hT]; rfl, by rw [hS]; rfl, .cons hx hl, hr⟩

lemma exists_cut?_right {β : Type} {f : Piece α → Option β} {R : Piece α → Piece α → Prop}
    (hf : ∀ x y, R x y → f x = f y) {T S l r : Row α} {y : β} (h : List.Forall₂ R T S)
    (hT : Row.cut? f T = some (l, y, r)) :
    ∃ l' r', Row.cut? f S = some (l', y, r') ∧ List.Forall₂ R l l' ∧ List.Forall₂ R r r' := by
  obtain ⟨hnone, -⟩ | ⟨l₁, z, r₁, l', r', hcut, hS, hl, hr⟩ := forall₂_cut? hf h
  · rw [hT] at hnone
    exact absurd hnone (by simp)
  · rw [hT] at hcut
    obtain ⟨rfl, hpair⟩ := Prod.mk.inj (Option.some.inj hcut)
    obtain ⟨rfl, rfl⟩ := Prod.mk.inj hpair
    exact ⟨l', r', hS, hl, hr⟩

lemma exists_cut?_left {β : Type} {f : Piece α → Option β} {R : Piece α → Piece α → Prop}
    (hf : ∀ x y, R x y → f x = f y) {T S l r : Row α} {y : β} (h : List.Forall₂ R T S)
    (hS : Row.cut? f S = some (l, y, r)) :
    ∃ l' r', Row.cut? f T = some (l', y, r') ∧ List.Forall₂ R l' l ∧ List.Forall₂ R r' r := by
  obtain ⟨-, hnone⟩ | ⟨l', z, r', l₁, r₁, hT, hcut, hl, hr⟩ := forall₂_cut? hf h
  · rw [hS] at hnone
    exact absurd hnone (by simp)
  · rw [hS] at hcut
    obtain ⟨rfl, hpair⟩ := Prod.mk.inj (Option.some.inj hcut)
    obtain ⟨rfl, rfl⟩ := Prod.mk.inj hpair
    exact ⟨l', r', hT, hl, hr⟩

/-- A predicate is similar to itself only. -/
lemma Piece.Similar.predicate_right {strict : Bool} {x : Piece α} {p : α} {tight bracketed : Bool}
    (h : Piece.Similar L strict x (.predicate p tight bracketed)) :
    ∃ t, x = .predicate p t bracketed ∧ tight = (!(L.print p).any isBlank) ∧
      (tight = true → t = true) := by
  generalize hy : Piece.predicate p tight bracketed = y at h
  cases h with
  | @predicate q t b htight =>
    obtain ⟨rfl, rfl, rfl⟩ := Piece.predicate.inj hy
    refine ⟨t, rfl, rfl, ?_⟩
    intro hblank
    exact htight (by simpa using hblank)
  | _ => simp at hy

lemma Row.Similar.singleton_right {strict : Bool} {T : Row α} {p : α} {tight bracketed : Bool}
    (h : Row.Similar L strict T [.predicate p tight bracketed]) :
    ∃ t, T = [.predicate p t bracketed] ∧ tight = (!(L.print p).any isBlank) ∧
      (tight = true → t = true) := by
  obtain ⟨x, rest, hx, hrest, rfl⟩ := List.forall₂_cons_right_iff.mp h
  obtain rfl := List.forall₂_nil_right_iff.mp hrest
  obtain ⟨t, rfl, hblank, ht⟩ := hx.predicate_right
  exact ⟨t, rfl, hblank, ht⟩

namespace Piece.Similar

variable {strict : Bool}

lemma until?_eq (x y : Piece α) (h : Piece.Similar L strict x y) : x.until? = y.until? := by
  cases h <;> rfl

lemma arrow?_eq (x y : Piece α) (h : Piece.Similar L strict x y) : x.arrow? = y.arrow? := by
  cases h with
  | connective c => cases c <;> rfl
  | _ => rfl

lemma logical?_eq (x y : Piece α) (h : Piece.Similar L true x y) : x.logical? = y.logical? := by
  cases h with
  | connective c hapart => rw [hapart rfl]
  | _ => rfl

end Piece.Similar

namespace Expr.Tight

variable {e x : Expr α}

lemma of_mem_children (h : e.Tight L) (hx : x ∈ e.children) : x.Tight L :=
  fun p hp => h p (subexpressions_subset hx hp)

lemma of_group (h : (Expr.group e).Tight L) : e.Tight L := h.of_mem_children List.mem_cons_self

lemma of_bounded {first : Statement} {more : List Statement}
    (h : (Expr.bounded e first more).Tight L) : e.Tight L := h.of_mem_children List.mem_cons_self

/-- A tree is tight if its parts are and it is no negation itself. -/
lemma of_children (he : ∀ p, e ≠ .negation (.predicate p)) (h : ∀ x ∈ e.children, x.Tight L) :
    e.Tight L := by
  intro p hp
  rcases mem_subexpressions.mp hp with hself | ⟨x, hx, hp⟩
  · exact absurd hself.symm (he p)
  · exact h x hx p hp

end Expr.Tight

lemma Row.tight_of_tailRule {three : Row α → Option (Expr α)} {lhs e : Expr α} {row : Row α}
    (h : tailRule three lhs row = some e) (he : e.Tight L) : lhs.Tight L := by
  obtain ⟨-, rfl⟩ | ⟨_, _, _, _, -, -, rfl⟩ := tailRule_eq_some.mp h
  · exact he
  · exact he.of_mem_children List.mem_cons_self

/-- A reader of rows reads similar rows as the same tree if negations allow it. -/
def Carries (L : Embedding α) (f : Row α → Option (Expr α)) : Prop :=
  ∀ {T S : Row α} {e : Expr α}, Row.Similar L true T S → e.Tight L → f T = some e → f S = some e

/-- What a reader reads from a canonical row is tight, and it reads the similar rows as well. -/
def Returns (L : Embedding α) (f : Row α → Option (Expr α)) : Prop :=
  ∀ {T S : Row α} {e : Expr α}, Row.Similar L true T S → f S = some e →
    e.Tight L ∧ ∃ e', f T = some e'

section

variable {one two three : Row α → Option (Expr α)} {T S : Row α} {e lhs : Expr α}

lemma Carries.tailRule (hthree : Carries L three) (h : Row.Similar L true T S) (he : e.Tight L)
    (hT : Row.tailRule three lhs T = some e) : Row.tailRule three lhs S = some e := by
  rw [Row.tailRule_eq_some] at hT ⊢
  obtain ⟨rfl, rfl⟩ | ⟨c, apart, row, rhs, rfl, hrhs, rfl⟩ := hT
  · cases h
    exact .inl ⟨rfl, rfl⟩
  · cases h with
    | cons hc h =>
      cases hc
      have htight : rhs.Tight L := he.of_mem_children (by simp [Expr.children])
      exact .inr ⟨c, true, _, rhs, rfl, hthree h htight hrhs, rfl⟩

lemma Carries.splitRule {f : Piece α → Option Connective} {operand : Row α → Option (Expr α)}
    (hf : ∀ x y, Piece.Similar L true x y → f x = f y) (hoperand : Carries L operand)
    (h : Row.Similar L true T S) (he : e.Tight L) (hT : Row.splitRule f operand T = some e) :
    Row.splitRule f operand S = some e := by
  rw [Row.splitRule_eq_some] at hT ⊢
  obtain ⟨l, c, r, x, y, hcut, hx, hy, rfl⟩ := hT
  obtain ⟨l', r', hcutS, hl, hr⟩ := exists_cut?_right hf h hcut
  have hxt : x.Tight L := he.of_mem_children (by simp [Expr.children])
  have hyt : y.Tight L := he.of_mem_children (by simp [Expr.children])
  exact ⟨l', c, r', x, y, hcutS, hoperand hl hxt hx, hoperand hr hyt hy, rfl⟩

lemma Carries.pathRule {b : Branch} (hthree : Carries L three) (h : Row.Similar L true T S)
    (he : e.Tight L) (hT : Row.pathRule three b T = some e) : Row.pathRule three b S = some e := by
  rw [Row.pathRule_eq_some] at hT ⊢
  obtain ⟨m, row, body, rfl, hbody, rfl⟩ | ⟨hne, l, u, r, x, y, hcut, hx, hy, rfl⟩ := hT
  · cases h with
    | cons hm h =>
      cases hm
      have htight : body.Tight L := he.of_mem_children (by simp [Expr.children])
      exact .inl ⟨m, _, body, rfl, hthree h htight hbody, rfl⟩
  · have hneS : ∀ m row', S ≠ .modality m :: row' := by
      rintro m row rfl
      cases h with
      | cons hm h =>
        cases hm
        exact hne m _ rfl
    obtain ⟨l', r', hcutS, hl, hr⟩ := exists_cut?_right Piece.Similar.until?_eq h hcut
    have hxt : x.Tight L := he.of_mem_children (by simp [Expr.children])
    have hyt : y.Tight L := he.of_mem_children (by simp [Expr.children])
    exact .inr ⟨hneS, l', u, r', x, y, hcutS, hthree hl hxt hx, hthree hr hyt hy, rfl⟩

lemma Carries.negationRule (htwo : Carries L two) (h : Row.Similar L true T S) (he : e.Tight L)
    (hpredicate : ∀ {p t b e}, two [.predicate p t b] = some e → e = .predicate p)
    (hT : Row.negationRule two T = some e) : Row.negationRule two S = some e := by
  rw [Row.negationRule_eq_some] at hT ⊢
  obtain ⟨hne, body, hbody, rfl⟩ := hT
  have htight : body.Tight L := he.of_mem_children (by simp [Expr.children])
  refine ⟨?_, body, htwo h htight hbody, rfl⟩
  rintro p b rfl
  obtain ⟨t, rfl, hblank, -⟩ := h.singleton_right
  obtain rfl := hpredicate hbody
  rw [he p List.mem_cons_self] at hblank
  exact absurd hblank (by simp)

lemma Returns.tailRule (hthree : Returns L three) (h : Row.Similar L true T S) (hlhs : lhs.Tight L)
    (hS : Row.tailRule three lhs S = some e) (lhs' : Expr α) :
    e.Tight L ∧ ∃ e', Row.tailRule three lhs' T = some e' := by
  simp only [Row.tailRule_eq_some] at hS ⊢
  obtain ⟨rfl, rfl⟩ | ⟨c, apart, row, rhs, rfl, hrhs, rfl⟩ := hS
  · cases h
    exact ⟨hlhs, lhs', .inl ⟨rfl, rfl⟩⟩
  · obtain ⟨x, T, hx, hrow, rfl⟩ := List.forall₂_cons_right_iff.mp h
    obtain ⟨htight, e', he'⟩ := hthree hrow hrhs
    obtain ⟨apart', rfl⟩ : ∃ a, x = .connective c a := by
      cases hx
      exact ⟨_, rfl⟩
    refine ⟨.of_children (by simp) ?_, _, .inr ⟨c, apart', T, e', rfl, he', rfl⟩⟩
    simp [Expr.children, hlhs, htight]

lemma Returns.splitRule {f : Piece α → Option Connective} {operand : Row α → Option (Expr α)}
    (hf : ∀ x y, Piece.Similar L true x y → f x = f y) (hoperand : Returns L operand)
    (h : Row.Similar L true T S) (hS : Row.splitRule f operand S = some e) :
    e.Tight L ∧ ∃ e', Row.splitRule f operand T = some e' := by
  simp only [Row.splitRule_eq_some] at hS ⊢
  obtain ⟨l, c, r, x, y, hcut, hx, hy, rfl⟩ := hS
  obtain ⟨l', r', hcutT, hl, hr⟩ := exists_cut?_left hf h hcut
  obtain ⟨hxt, x', hx'⟩ := hoperand hl hx
  obtain ⟨hyt, y', hy'⟩ := hoperand hr hy
  refine ⟨.of_children (by simp) ?_, _, l', c, r', x', y', hcutT, hx', hy', rfl⟩
  simp [Expr.children, hxt, hyt]

lemma Returns.pathRule {b : Branch} (hthree : Returns L three) (h : Row.Similar L true T S)
    (hS : Row.pathRule three b S = some e) :
    e.Tight L ∧ ∃ e', Row.pathRule three b T = some e' := by
  simp only [Row.pathRule_eq_some] at hS ⊢
  obtain ⟨m, row, body, rfl, hbody, rfl⟩ | ⟨hne, l, u, r, x, y, hcut, hx, hy, rfl⟩ := hS
  · obtain ⟨z, T, hz, hrow, rfl⟩ := List.forall₂_cons_right_iff.mp h
    obtain ⟨htight, e', he'⟩ := hthree hrow hbody
    cases hz
    refine ⟨.of_children (by simp) ?_, _, .inl ⟨m, T, e', rfl, he', rfl⟩⟩
    simp [Expr.children, htight]
  · obtain ⟨l', r', hcutT, hl, hr⟩ := exists_cut?_left Piece.Similar.until?_eq h hcut
    obtain ⟨hxt, x', hx'⟩ := hthree hl hx
    obtain ⟨hyt, y', hy'⟩ := hthree hr hy
    refine ⟨.of_children (by simp) ?_, _, .inr ⟨?_, l', u, r', x', y', hcutT, hx', hy', rfl⟩⟩
    · simp [Expr.children, hxt, hyt]
    · rintro m row rfl
      obtain ⟨z, S, hz, -, rfl⟩ := List.forall₂_cons_left_iff.mp h
      cases hz
      exact hne m S rfl

lemma Returns.negationRule (htwo : Returns L two) (h : Row.Similar L true T S)
    (hpredicate : ∀ {row e}, two row = some e → e.isPredicate = row.isPredicate)
    (hsame : ∀ {p t b e}, two [.predicate p t b] = some e → e = .predicate p)
    (hS : Row.negationRule two S = some e) :
    e.Tight L ∧ ∃ e', Row.negationRule two T = some e' := by
  simp only [Row.negationRule_eq_some] at hS ⊢
  obtain ⟨hne, body, hbody, rfl⟩ := hS
  obtain ⟨htight, e', he'⟩ := htwo h hbody
  have hblank : ∀ {p tight bracketed}, S = [.predicate p tight bracketed] → tight = true := by
    rintro p (_ | _) bracketed rfl
    · exact absurd rfl (hne p bracketed)
    · rfl
  refine ⟨?_, _, ?_, e', he', rfl⟩
  · intro p hp
    rcases List.mem_cons.mp hp with hself | hp
    · obtain rfl := Expr.negation.inj hself
      obtain ⟨q, tight, bracketed, rfl⟩ := Row.eq_singleton (hpredicate hbody).symm
      obtain rfl := Expr.predicate.inj (hsame hbody)
      obtain ⟨t, -, htext, -⟩ := h.singleton_right
      rw [hblank rfl] at htext
      simpa using htext.symm
    · exact htight p hp
  · rintro p b rfl
    obtain ⟨x, rest, hx, hrest, rfl⟩ := List.forall₂_cons_left_iff.mp h
    obtain rfl := List.forall₂_nil_left_iff.mp hrest
    cases hx with
    | predicate htext =>
      have hfalse := htext (by simpa using hblank rfl)
      exact absurd hfalse (by simp)

lemma Returns.rule (hone : Returns L one) (htwo : Returns L two) (hthree : Returns L three)
    (hpredicate : ∀ {row e}, two row = some e → e.isPredicate = row.isPredicate)
    (hsame : ∀ {p t b e}, two [.predicate p t b] = some e → e = .predicate p) :
    Returns L (Row.rule one two three) := by
  intro T S e h hS
  obtain ⟨row', rfl, hS⟩ | ⟨body, first, more, row', x, rfl, hx, hS⟩ |
    ⟨body, row', x, rfl, hx, hS⟩ | ⟨b, row', rfl, hS⟩ | ⟨p, tight, bracketed, rfl, rfl⟩ |
    ⟨p, tight, row', rfl, hne, hS⟩ := Row.rule_cases hS
  · obtain ⟨y, T, hy, hrow, rfl⟩ := List.forall₂_cons_right_iff.mp h
    cases hy
    exact htwo.negationRule hrow hpredicate hsame hS
  · obtain ⟨y, T, hy, hrow, rfl⟩ := List.forall₂_cons_right_iff.mp h
    cases hy with
    | @bounded body' _ _ _ hbody =>
      obtain ⟨htight, x', hx'⟩ := hthree hbody hx
      have hlhs : (Expr.bounded x first more).Tight L :=
        .of_children (by simp) (by simpa [Expr.children] using htight)
      obtain ⟨he, e', he'⟩ := hthree.tailRule hrow hlhs hS (.bounded x' first more)
      refine ⟨he, e', ?_⟩
      rw [Row.rule_bounded, hx']
      exact he'
  · obtain ⟨y, T, hy, hrow, rfl⟩ := List.forall₂_cons_right_iff.mp h
    cases hy with
    | group hbody =>
      obtain ⟨htight, x', hx'⟩ := htwo hbody hx
      have hlhs : (Expr.group x).Tight L :=
        .of_children (by simp) (by simpa [Expr.children] using htight)
      obtain ⟨he, e', he'⟩ := hthree.tailRule hrow hlhs hS (.group x')
      refine ⟨he, e', ?_⟩
      rw [Row.rule_group, hx']
      exact he'
  · obtain ⟨y, T, hy, hrow, rfl⟩ := List.forall₂_cons_right_iff.mp h
    cases hy
    exact hthree.pathRule hrow hS
  · obtain ⟨t, rfl, -, -⟩ := h.singleton_right
    exact ⟨.of_children (by simp) (by simp [Expr.children]), _, rfl⟩
  · obtain ⟨y, T, hy, hrow, rfl⟩ := List.forall₂_cons_right_iff.mp h
    obtain ⟨t, rfl, -⟩ := hy.predicate_right
    have hneT : T ≠ [] := by
      rintro rfl
      exact hne (List.forall₂_nil_left_iff.mp hrow)
    rw [Row.rule_predicate hneT]
    obtain hS | ⟨-, hS⟩ := hS
    · obtain ⟨htight, e', he'⟩ := htwo.splitRule Piece.Similar.logical?_eq h hS
      exact ⟨htight, e', by rw [he']; rfl⟩
    · obtain ⟨htight, e', he'⟩ := hone.splitRule Piece.Similar.arrow?_eq h hS
      refine ⟨htight, ?_⟩
      rw [he']
      cases Row.splitRule Piece.logical? two (.predicate p t false :: T) with
      | none => exact ⟨e', rfl⟩
      | some x => exact ⟨x, rfl⟩

lemma Carries.rule (hone : Carries L one) (htwo : Carries L two) (hthree : Carries L three)
    (hreturns : Returns L two)
    (hsame : ∀ {p t b e}, two [.predicate p t b] = some e → e = .predicate p) :
    Carries L (Row.rule one two three) := by
  intro T S e h he hT
  obtain ⟨row', rfl, hT⟩ | ⟨body, first, more, row', x, rfl, hx, hT⟩ |
    ⟨body, row', x, rfl, hx, hT⟩ | ⟨b, row', rfl, hT⟩ | ⟨p, tight, bracketed, rfl, rfl⟩ |
    ⟨p, tight, row', rfl, hne, hT⟩ := Row.rule_cases hT
  · obtain ⟨y, S, hy, hrow, rfl⟩ := List.forall₂_cons_left_iff.mp h
    cases hy
    exact htwo.negationRule hrow he hsame hT
  · obtain ⟨y, S, hy, hrow, rfl⟩ := List.forall₂_cons_left_iff.mp h
    cases hy with
    | bounded _ _ hbody =>
      have hS := hthree.tailRule hrow he hT
      rw [Row.rule_bounded, hthree hbody (Row.tight_of_tailRule hT he).of_bounded hx]
      exact hS
  · obtain ⟨y, S, hy, hrow, rfl⟩ := List.forall₂_cons_left_iff.mp h
    cases hy with
    | group hbody =>
      have hS := hthree.tailRule hrow he hT
      rw [Row.rule_group, htwo hbody (Row.tight_of_tailRule hT he).of_group hx]
      exact hS
  · obtain ⟨y, S, hy, hrow, rfl⟩ := List.forall₂_cons_left_iff.mp h
    cases hy
    exact hthree.pathRule hrow he hT
  · obtain ⟨y, S, hy, hrow, rfl⟩ := List.forall₂_cons_left_iff.mp h
    obtain rfl := List.forall₂_nil_left_iff.mp hrow
    cases hy
    rfl
  · obtain ⟨y, S, hy, hrow, rfl⟩ := List.forall₂_cons_left_iff.mp h
    have hneS : S ≠ [] := by
      rintro rfl
      exact hne (List.forall₂_nil_right_iff.mp hrow)
    obtain ⟨s, rfl⟩ : ∃ s, y = .predicate p s false := by
      cases hy
      exact ⟨_, rfl⟩
    rw [Row.rule_predicate hneS, Option.or_eq_some_iff]
    obtain hT | ⟨hnone, hT⟩ := hT
    · exact .inl (htwo.splitRule Piece.Similar.logical?_eq h he hT)
    · refine .inr ⟨?_, hone.splitRule Piece.Similar.arrow?_eq h he hT⟩
      -- what the canonical row allows is allowed before
      rw [Option.eq_none_iff_forall_not_mem]
      intro x hx
      obtain ⟨-, e', he'⟩ := hreturns.splitRule Piece.Similar.logical?_eq h hx
      rw [hnone] at he'
      exact absurd he' (by simp)

end

lemma Row.eq_of_read_predicate {n : Nat} {p : α} {tight bracketed : Bool} {e : Expr α}
    (h : Row.read n [.predicate p tight bracketed] = some e) : e = .predicate p := by
  cases n with
  | zero => simp [Row.read] at h
  | succ n =>
    rw [Row.read_predicate] at h
    exact (Option.some.inj h).symm

/-- What is read from a canonical row is tight, and similar rows are read as well. -/
theorem returns_read (n : Nat) : Returns L (Row.read n) := by
  induction n using Nat.strongRecOn with
  | ind n ih =>
    cases n with
    | zero =>
      intro T S e _ hS
      simp [Row.read] at hS
    | succ n =>
      intro T S e h hS
      rw [Row.read_succ] at hS ⊢
      exact Returns.rule (ih n (by omega)) (ih (n - 1) (by omega)) (ih (n - 2) (by omega))
        Row.isPredicate_of_read Row.eq_of_read_predicate h hS

/-- Similar rows are read as the same tree if it is tight. -/
theorem carries_read (n : Nat) : Carries L (Row.read n) := by
  induction n using Nat.strongRecOn with
  | ind n ih =>
    cases n with
    | zero =>
      intro T S e _ _ hT
      simp [Row.read] at hT
    | succ n =>
      intro T S e h he hT
      rw [Row.read_succ] at hT ⊢
      exact Carries.rule (ih n (by omega)) (ih (n - 1) (by omega)) (ih (n - 2) (by omega))
        (returns_read _) Row.eq_of_read_predicate h he hT

end TimedReq
