import TimedReq.Proofs.Expr.Composition
import TimedReq.Proofs.Expr.Similar

/-!
# Rows of accepted texts

A text that is read spells a row, and the row is similar to the row of the tree that is read.
-/

namespace TimedReq

open Text

variable {α : Type} {L : Embedding α}

/-- The text spells a row like that of the tree, and the tree is legible. -/
structure Expr.SpelledBy (L : Embedding α) (e : Expr α) (s : Text) : Prop where
  legible : e.Legible L
  exists_row : ∃ row, Spells L .start false row s ∧ Row.Similar L false row (e.row L)

namespace Spells

variable {a : Bool} {row : Row α} {s : Text}

lemma nil_of_allBlank {slot : Slot} (hslot : slot.isOpen = false) (hs : AllBlank s) :
    Spells L slot a [] s := by
  induction s generalizing a with
  | nil => exact .nil hslot
  | cons c s ih => exact .blank hs.of_cons.1 (ih hs.of_cons.2)

/-- Blanks around a text are no part of it. -/
lemma padded (h : Spells L .start false row s) {u v : Text} (hu : AllBlank u) (hv : AllBlank v) :
    Spells L .start false row (u ++ s ++ v) := by
  have hright := h.append (nil_of_allBlank (L := L) rfl hv)
  rw [List.append_nil] at hright
  rw [List.append_assoc]
  cases u with
  | nil => exact hright
  | cons c u => exact .of_blanks hu (hright.of_open rfl true) (by simp)

/-- A connective behind a closing bracket. -/
lemma exists_closed {u : Text} (hu : AllBlank u) (c : Connective)
    (h : Spells L .start false row s) :
    ∃ apart, Spells L .closed false (.connective c apart :: row) (u ++ (c.symbol ++ s)) := by
  have hblanks : ∀ {x : Bool → Piece α} {t : Text},
      (∀ a, ∃ apart, Spells L .closed a (x apart :: row) t) →
      ∃ apart, Spells L .closed false (x apart :: row) (u ++ t) := by
    intro x t ht
    cases u with
    | nil => exact ht false
    | cons b u =>
      obtain ⟨apart, h⟩ := ht true
      exact ⟨apart, .of_blanks hu h (by simp)⟩
  refine hblanks ?_
  intro a
  cases c with
  | implies => exact ⟨true, .arrow rfl h⟩
  | and => exact ⟨_, .connective (c := .and) (x := '^') rfl rfl (by simp) h⟩
  | or => exact ⟨_, .connective (c := .or) (x := 'V') rfl rfl (by simp) h⟩

end Spells

namespace Expr.SpelledBy

variable {e lhs rhs : Expr α} {s l r : Text}

lemma padded (h : e.SpelledBy L s) {u v : Text} (hu : AllBlank u) (hv : AllBlank v) :
    e.SpelledBy L (u ++ s ++ v) := by
  obtain ⟨hlegible, row, hrow, hsimilar⟩ := h
  exact ⟨hlegible, row, hrow.padded hu hv, hsimilar⟩

lemma predicate {p : α} {w : Text} (h : Restored L p w) : (Expr.predicate p).SpelledBy L w := by
  have hspells : Spells L .start false _ _ := Spells.predicate rfl h.text (.nil rfl)
  rw [List.append_nil] at hspells
  refine ⟨h.print, _, hspells, .cons ?_ .nil⟩
  rw [h.head]
  refine .predicate ?_
  intro hblank
  rw [h.tight hblank]
  rfl

lemma negation (h : e.SpelledBy L s) : (Expr.negation e).SpelledBy L ('!' :: s) := by
  obtain ⟨hlegible, row, hrow, hsimilar⟩ := h
  exact ⟨hlegible, _, .negation rfl hrow, .cons .negation hsimilar⟩

lemma group (h : e.SpelledBy L s) : (Expr.group e).SpelledBy L ('(' :: (s ++ [')'])) := by
  obtain ⟨hlegible, row, hrow, hsimilar⟩ := h
  exact ⟨hlegible, _, .group rfl hrow (.nil rfl), .cons (.group hsimilar) .nil⟩

lemma group_connective (hl : lhs.SpelledBy L l) (hr : rhs.SpelledBy L r) (c : Connective)
    {u : Text} (hu : AllBlank u) :
    (Expr.binary c (.group lhs) rhs).SpelledBy L ('(' :: (l ++ ')' :: (u ++ (c.symbol ++ r)))) := by
  obtain ⟨hlegible, row, hrow, hsimilar⟩ := hl
  obtain ⟨hlegible', row', hrow', hsimilar'⟩ := hr
  obtain ⟨apart, htail⟩ := hrow'.exists_closed hu c
  refine ⟨⟨hlegible, hlegible'⟩, _, .group rfl hrow htail, .cons (.group hsimilar) ?_⟩
  exact .cons (.connective c (by simp)) hsimilar'

/-- The statements of a bounded expression are read back, and so is the text in its braces. -/
lemma bounded {x y t : Text} {first : Statement} {more : List Statement}
    (h : e.SpelledBy L s) (hx : AllBlank x) (hy : AllBlank y) (ht : '}' ∉ t)
    (hsts : Statement.parseAll (pieces (· == ',') (trimEnd t)) = .ok (first :: more)) :
    (Expr.bounded e first more).SpelledBy L
      ('{' :: (s ++ '}' :: (x ++ '_' :: (y ++ '{' :: (t ++ ['}']))))) := by
  obtain ⟨hlegible, row, hrow, hsimilar⟩ := h
  exact ⟨⟨hlegible, Statement.readable_of_parseAll hsts⟩, _,
    .bounded rfl hrow hx hy ht hsts (.nil rfl), .cons (.bounded first more hsimilar) .nil⟩

lemma bounded_connective {x y t : Text} {first : Statement} {more : List Statement}
    (hl : lhs.SpelledBy L l) (hr : rhs.SpelledBy L r) (hx : AllBlank x) (hy : AllBlank y)
    (ht : '}' ∉ t)
    (hsts : Statement.parseAll (pieces (· == ',') (trimEnd t)) = .ok (first :: more))
    (c : Connective) {u : Text} (hu : AllBlank u) :
    (Expr.binary c (.bounded lhs first more) rhs).SpelledBy L
      ('{' :: (l ++ '}' :: (x ++ '_' :: (y ++ '{' :: (t ++ '}' :: (u ++ (c.symbol ++ r))))))) := by
  obtain ⟨hlegible, row, hrow, hsimilar⟩ := hl
  obtain ⟨hlegible', row', hrow', hsimilar'⟩ := hr
  obtain ⟨apart, htail⟩ := hrow'.exists_closed hu c
  refine ⟨⟨⟨hlegible, Statement.readable_of_parseAll hsts⟩, hlegible'⟩, _,
    .bounded rfl hrow hx hy ht hsts htail, .cons (.bounded first more hsimilar) ?_⟩
  exact .cons (.connective c (by simp)) hsimilar'

lemma arrow (hl : lhs.SpelledBy L l) (hr : rhs.SpelledBy L r) :
    (Expr.binary .implies lhs rhs).SpelledBy L (l ++ '-' :: '>' :: r) := by
  obtain ⟨hlegible, row, hrow, hsimilar⟩ := hl
  obtain ⟨hlegible', row', hrow', hsimilar'⟩ := hr
  refine ⟨⟨hlegible, hlegible'⟩, _, hrow.append (.arrow rfl hrow'), ?_⟩
  exact List.rel_append hsimilar (.cons (.connective .implies (by simp)) hsimilar')

lemma logical (hl : lhs.SpelledBy L l) (hr : rhs.SpelledBy L r) (c : Connective)
    (hblank : endsBlank false l = true) (hs : startsBlank r = true) :
    (Expr.binary c lhs rhs).SpelledBy L (l ++ (c.symbol ++ r)) := by
  obtain ⟨hlegible, row, hrow, hsimilar⟩ := hl
  obtain ⟨hlegible', row', hrow', hsimilar'⟩ := hr
  have htail : Spells L .behind (endsBlank false l) (.connective c true :: row') (c.symbol ++ r) := by
    rw [hblank]
    exact .apart rfl c hs hrow'
  refine ⟨⟨hlegible, hlegible'⟩, _, hrow.append htail, ?_⟩
  exact List.rel_append hsimilar (.cons (.connective c (by simp)) hsimilar')

lemma along (h : e.SpelledBy L s) (b : Branch) (m : Modality) {u : Text} (hu : AllBlank u)
    (hne : u ≠ []) (hs : startsBlank s = true) :
    (Expr.along b m e).SpelledBy L (b.symbol :: (u ++ m.symbol :: s)) := by
  obtain ⟨hlegible, row, hrow, hsimilar⟩ := h
  have hpath : Spells L .path true (.modality m :: row) (m.symbol :: s) := .modality m hs hrow
  have hblank : startsBlank (u ++ m.symbol :: s) = true := by
    obtain ⟨c, u, rfl⟩ := List.exists_cons_of_ne_nil hne
    exact hu.of_cons.1
  exact ⟨hlegible, _, .branch b rfl hblank (.of_blanks hu hpath hne),
    .cons (.branch b) (.cons (.modality m) hsimilar)⟩

lemma «until» (hl : lhs.SpelledBy L l) (hr : rhs.SpelledBy L r) (b : Branch) (u : Until)
    (hblank : endsBlank false l = true) (hs : startsBlank r = true)
    (hstart : startsBlank l = true) :
    (Expr.until b u lhs rhs).SpelledBy L (b.symbol :: (l ++ u.symbol :: r)) := by
  obtain ⟨hlegible, row, hrow, hsimilar⟩ := hl
  obtain ⟨hlegible', row', hrow', hsimilar'⟩ := hr
  have htail : Spells L .behind (endsBlank false l) (.until u :: row') (u.symbol :: r) := by
    rw [hblank]
    exact .until u rfl hs hrow'
  have hstart' : startsBlank (l ++ u.symbol :: r) = true := by
    rw [startsBlank_append (hrow.ne_nil rfl), hstart]
  refine ⟨⟨hlegible, hlegible'⟩, _, .branch b rfl hstart' (hrow.append htail).path, ?_⟩
  exact .cons (.branch b) (List.rel_append hsimilar (.cons (.until u) hsimilar'))

end Expr.SpelledBy

/-- A text that is put together from the texts of parts spells a row like that of the tree if its
predicates are restored. -/
theorem Composes.spelledBy {good : α → Prop} (hL : L.Restores good) {e : Expr α} {s : Text}
    (h : Composes L e s) (he : ∀ p ∈ e.predicates, good p) : e.SpelledBy L s := by
  have hpart : ∀ {e x : Expr α}, (∀ p ∈ e.predicates, good p) → x ∈ e.children →
      ∀ p ∈ x.predicates, good p :=
    fun he hx p hp => he p (Expr.predicates_subset hx hp)
  have hleft : ∀ {c : Connective} {x lhs rhs : Expr α}, x.children = [lhs] →
      (∀ p ∈ (Expr.binary c x rhs).predicates, good p) → ∀ p ∈ lhs.predicates, good p :=
    fun hx he => hpart (hpart he List.mem_cons_self) (by simp [hx])
  induction h with
  | padded hu hv _ ih => exact (ih he).padded hu hv
  | @predicate p w hread htrim hgroup =>
    have hgood : good p := he p (by simp [Expr.predicates, Expr.subexpressions, Expr.predicate?])
    exact .predicate (hL hread htrim hgood hgroup)
  | negation _ ih => exact (ih (hpart he List.mem_cons_self)).negation
  | group _ ih => exact (ih (hpart he List.mem_cons_self)).group
  | groupTail c _ hu _ ihl ihr =>
    exact (ihl (hleft rfl he)).group_connective
      (ihr (hpart he (by simp [Expr.children]))) c hu
  | bounded _ hx hy ht hsts ih =>
    exact (ih (hpart he List.mem_cons_self)).bounded hx hy ht hsts
  | boundedTail c _ hx hy ht hsts hu _ ihl ihr =>
    exact (ihl (hleft rfl he)).bounded_connective
      (ihr (hpart he (by simp [Expr.children]))) hx hy ht hsts c hu
  | arrow _ _ ihl ihr =>
    exact (ihl (hpart he List.mem_cons_self)).arrow (ihr (hpart he (by simp [Expr.children])))
  | logical c _ _ hends hstarts ihl ihr =>
    exact (ihl (hpart he List.mem_cons_self)).logical (ihr (hpart he (by simp [Expr.children])))
      c hends hstarts
  | along b m hu hne _ hs ih => exact (ih (hpart he List.mem_cons_self)).along b m hu hne hs
  | «until» b u _ _ hstart hends hstarts ihl ihr =>
    exact (ihl (hpart he List.mem_cons_self)).until (ihr (hpart he (by simp [Expr.children])))
      b u hends hstarts hstart

end TimedReq
