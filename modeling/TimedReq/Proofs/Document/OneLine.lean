import TimedReq.Expr.Printer
import TimedReq.Proofs.Bound.Statement
import TimedReq.Proofs.Document.Comment
import TimedReq.Proofs.Expr.Composition

/-!
# Expressions on one line

What was read in text without comments is printed on one line, and no comment begins in it: the
printer puts a space wherever two hyphens could come together. That the predicates have this
property is a matter of their language.
-/

namespace TimedReq

open Text

namespace Blocks

/-- The text stands on one line, and no comment begins in it. -/
structure OneLine (s : Text) : Prop where
  unbroken : Unbroken s
  uncommented : Uncommented s

/-- No comment begins in the text, and its lines are ended by newlines. -/
structure Tidy (s : Text) : Prop where
  newline : ∀ c ∈ s, isLineBreak c = true → c = '\n'
  uncommented : Uncommented s

variable {s t : Text}

lemma Tidy.of_isInfix (h : Tidy s) (ht : t <:+: s) : Tidy t :=
  ⟨fun c hc => h.newline c (ht.subset hc), h.uncommented.of_isInfix ht⟩

lemma Tidy.oneLine (h : Tidy s) (hs : '\n' ∉ s) : OneLine s := by
  refine ⟨fun c hc => Bool.eq_false_iff.mpr fun hbreak => hs ?_, h.uncommented⟩
  rwa [← h.newline c hc hbreak]

/-- Lines without comments make up text without comments. -/
lemma Tidy.join {ws : List Text} (hws : ∀ w ∈ ws, Unbroken w ∧ Uncommented w) :
    Tidy (join ['\n'] ws) := by
  constructor
  · intro c hc hbreak
    rcases mem_join hc with hc | ⟨w, hw, hc⟩
    · exact List.mem_singleton.mp hc
    · exact absurd hbreak (by simp [(hws w hw).1 c hc])
  · induction ws with
    | nil => exact List.isChain_nil
    | cons w ws ih =>
      have hw := (hws w List.mem_cons_self).2
      cases ws with
      | nil => exact hw
      | cons v ws =>
        have hrest := ih fun x hx => hws x (List.mem_cons_of_mem w hx)
        rw [join_cons_cons]
        exact hw.append (hrest.cons (by decide)) (.inr (by simp))

namespace OneLine

lemma of_forall (h : ∀ c ∈ s, isLineBreak c = false ∧ c ≠ '-') : OneLine s :=
  ⟨fun c hc => (h c hc).1, .of_forall_ne fun c hc => (h c hc).2⟩

/-- Texts without hyphens where they meet. -/
lemma append (hs : OneLine s) (ht : OneLine t)
    (hmeet : s.getLast? ≠ some '-' ∨ t.head? ≠ some '-') : OneLine (s ++ t) :=
  ⟨hs.unbroken.append ht.unbroken, hs.uncommented.append ht.uncommented hmeet⟩

lemma cons {c : Char} (hc : isLineBreak c = false ∧ c ≠ '-') (hs : OneLine s) : OneLine (c :: s) :=
  append (s := [c]) (of_forall (by simpa using hc)) hs (.inl (by simpa using hc.2))

lemma concat {c : Char} (hs : OneLine s) (hc : isLineBreak c = false ∧ c ≠ '-') :
    OneLine (s ++ [c]) :=
  hs.append (of_forall (by simpa using hc)) (.inr (by simpa using hc.2))

/-- Texts with a space between them. -/
lemma spaced (hs : OneLine s) (ht : OneLine t) : OneLine (s ++ ' ' :: t) :=
  hs.append (ht.cons (by decide)) (.inr (by simp))

/-- An operation in between, with a space on both of its sides. -/
lemma binary {w : Text} (hs : OneLine s) (hw : OneLine w) (ht : OneLine t) :
    OneLine (s ++ ' ' :: w ++ ' ' :: t) :=
  (hs.spaced hw).spaced ht

end OneLine

end Blocks

open Blocks

lemma Statement.not_lineBreak_of_isBoundChar {c : Char} (hc : isBoundChar c = true) :
    isLineBreak c = false ∧ c ≠ '-' := by
  constructor
  · refine Bool.eq_false_iff.mpr fun hbreak => ?_
    simp only [isBoundChar, isAsciiDigit, isAsciiLetter, Bool.or_eq_true, Bool.and_eq_true,
      decide_eq_true_eq, beq_iff_eq] at hc
    rcases hc with hc | rfl
    · simp only [isLineBreak, Bool.or_eq_true, Bool.and_eq_true, decide_eq_true_eq,
        beq_iff_eq] at hbreak
      omega
    · exact absurd hbreak (by decide)
  · rintro rfl
    exact absurd hc (by decide)

lemma oneLine_printStatements (sts : List Statement) : OneLine (printStatements sts) := by
  have hsymbol : ∀ c ∈ ['<', '>', '=', '!'], isLineBreak c = false ∧ c ≠ '-' := by decide
  refine OneLine.of_forall fun c hc => ?_
  rcases mem_join hc with hc | ⟨s, hs, hc⟩
  · have hsep : ∀ c ∈ [',', ' '], isLineBreak c = false ∧ c ≠ '-' := by decide
    exact hsep c hc
  · obtain ⟨st, -, rfl⟩ := List.mem_map.mp hs
    exact (Statement.mem_print hc).elim Statement.not_lineBreak_of_isBoundChar (hsymbol c)

lemma Blocks.OneLine.braced {s t : Text} (hs : OneLine s) (ht : OneLine t) :
    OneLine ('{' :: s ++ '}' :: '_' :: '{' :: t ++ ['}']) := by
  have htail := ((ht.cons (c := '{') (by decide)).cons (c := '_') (by decide)).cons (c := '}')
    (by decide)
  exact ((hs.cons (by decide)).append htail (.inr (by simp))).concat (by decide)

variable {α : Type} {L : Embedding α}

/-- The predicates that are read in text without comments are printed on one line. -/
def Embedding.OneLine (L : Embedding α) : Prop :=
  ∀ {w : Text} {p : α}, L.read w = some p → trim w = w → Tidy w → Blocks.OneLine (L.print p)

lemma Connective.oneLine_symbol (c : Connective) : OneLine c.symbol := by
  cases c
  all_goals exact ⟨by decide, by decide⟩

/-- An expression that was read in text without comments is printed on one line. -/
theorem Composes.oneLine_print (hL : L.OneLine) {e : Expr α} {s : Text} (h : Composes L e s)
    (hs : Tidy s) : OneLine (e.print L) := by
  induction h with
  | padded hu hv h ih => exact ih (hs.of_isInfix ⟨_, _, rfl⟩)
  | predicate hread htrim => exact hL hread htrim hs
  | negation h ih => exact (ih (hs.of_isInfix ⟨['!'], [], by simp⟩)).cons (by decide)
  | group h ih =>
    have hbody := ih (hs.of_isInfix ⟨['('], [')'], rfl⟩)
    exact (hbody.cons (by decide)).concat (by decide)
  | @groupTail c lhs rhs s u r hl hu hr ihl ihr =>
    have hleft := ihl (hs.of_isInfix ⟨['('], ')' :: (u ++ (c.symbol ++ r)), by simp⟩)
    have hright := ihr (hs.of_isInfix ⟨'(' :: (s ++ ')' :: (u ++ c.symbol)), [], by simp⟩)
    exact .binary ((hleft.cons (by decide)).concat (by decide)) c.oneLine_symbol hright
  | @bounded e s x y t first more h hx hy ht hsts ih =>
    have hbody := ih
      (hs.of_isInfix ⟨['{'], '}' :: (x ++ '_' :: (y ++ '{' :: (t ++ ['}']))), by simp⟩)
    exact hbody.braced (oneLine_printStatements (first :: more))
  | @boundedTail c lhs rhs s x y t u r first more hl hx hy ht hsts hu hr ihl ihr =>
    have hleft := ihl (hs.of_isInfix
      ⟨['{'], '}' :: (x ++ '_' :: (y ++ '{' :: (t ++ '}' :: (u ++ (c.symbol ++ r))))), by simp⟩)
    have hright := ihr (hs.of_isInfix
      ⟨'{' :: (s ++ '}' :: (x ++ '_' :: (y ++ '{' :: (t ++ '}' :: (u ++ c.symbol))))), [], by simp⟩)
    exact .binary (hleft.braced (oneLine_printStatements (first :: more))) c.oneLine_symbol hright
  | @arrow lhs rhs l r hl hr ihl ihr =>
    have hleft := ihl (hs.of_isInfix ⟨[], '-' :: '>' :: r, by simp⟩)
    have hright := ihr (hs.of_isInfix ⟨l ++ ['-', '>'], [], by simp⟩)
    exact .binary hleft Connective.implies.oneLine_symbol hright
  | @logical c lhs rhs l r hl hr _ _ ihl ihr =>
    have hleft := ihl (hs.of_isInfix ⟨[], c.symbol ++ r, by simp⟩)
    have hright := ihr (hs.of_isInfix ⟨l ++ c.symbol, [], by simp⟩)
    exact .binary hleft c.oneLine_symbol hright
  | @along b m e u s hu hne h _ ih =>
    have hbody := ih (hs.of_isInfix ⟨b.symbol :: (u ++ [m.symbol]), [], by simp⟩)
    have hb : isLineBreak b.symbol = false ∧ b.symbol ≠ '-' := by cases b <;> decide
    have hm : isLineBreak m.symbol = false ∧ m.symbol ≠ '-' := by cases m <;> decide
    exact .spaced (s := [b.symbol]) (.of_forall (by simpa using hb))
      (.spaced (s := [m.symbol]) (.of_forall (by simpa using hm)) hbody)
  | @«until» b u lhs rhs l r hl hr _ _ _ ihl ihr =>
    have hleft := ihl (hs.of_isInfix ⟨[b.symbol], u.symbol :: r, by simp⟩)
    have hright := ihr (hs.of_isInfix ⟨b.symbol :: (l ++ [u.symbol]), [], by simp⟩)
    have hb : isLineBreak b.symbol = false ∧ b.symbol ≠ '-' := by cases b <;> decide
    have hu : isLineBreak u.symbol = false ∧ u.symbol ≠ '-' := by cases u <;> decide
    exact .spaced (s := [b.symbol]) (.of_forall (by simpa using hb))
      (hleft.spaced (.spaced (s := [u.symbol]) (.of_forall (by simpa using hu)) hright))

end TimedReq
