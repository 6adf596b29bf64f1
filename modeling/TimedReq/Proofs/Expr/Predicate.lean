import TimedReq.Expr.Parser
import TimedReq.Proofs.Expr.Operator
import TimedReq.Proofs.Text.Cut

/-!
# Predicates among other expressions

What the rules of expressions rely on where they leave the text of a predicate to its language: no
rule takes such a text apart, and the language refuses a text that goes on behind a predicate or
behind a group.
-/

namespace TimedReq

open Text

variable {α : Type} {L : Embedding α}

/-- A text of the predicate `p` that is left to the language as a whole. -/
structure PredicateText (L : Embedding α) (p : α) (w : Text) : Prop where
  trim_eq : trim w = w
  read_eq : L.read w = some p
  neutral : Neutral w
  /-- No arrow is found in the text. -/
  arrowFree : ∀ d, ArrowFree w (nestingFrom false d w)
  /-- No operator between blanks is found in the text. -/
  tokenFree : ∀ {β : Type} (symbol? : Char → Option β),
    (∀ c, (symbol? c).isSome → c ∈ operatorChars) → ∀ d, TokenFree symbol? true w (nestingFrom false d w)
  /-- The text does not begin with an exclamation mark, a brace or an operator. -/
  head : ∃ c s, w = c :: s ∧ c ≠ '!' ∧ c ≠ '{' ∧
    (c ∈ operatorChars → ∃ b t, s = b :: t ∧ isBlank b = false)
  /-- A bracket in front of the text is closed before its end, and no connective follows it. -/
  bracket : w.head? = some '(' → ∃ inner after, w = '(' :: (inner ++ ')' :: after) ∧ Neutral inner ∧
    ∀ r, trim (after ++ r) ≠ [] ∧ Connective.leading? (trim (after ++ r)) = none
  /-- No predicate goes on behind the text with an operator between blanks. -/
  read_operator : ∀ {u r : Text} {c : Char}, AllBlank u → u ≠ [] → c ∈ operatorChars →
    startsBlank r = true → L.read (w ++ (u ++ c :: r)) = none
  /-- No predicate goes on behind the text with an arrow. -/
  read_arrow : ∀ {u r : Text}, AllBlank u → L.read (w ++ (u ++ '-' :: '>' :: r)) = none

/-- No predicate of the language begins with a group that an operator between blanks follows. -/
structure Embedding.KeepsGroups (L : Embedding α) : Prop where
  read_group : ∀ {w u r : Text} {c : Char}, Neutral w → AllBlank u → c ∈ operatorChars →
    startsBlank r = true → L.read ('(' :: (w ++ ')' :: (u ++ c :: r))) = none

/-- A text of a predicate and its canonical text are left to the language alike. -/
structure Restored (L : Embedding α) (p : α) (w : Text) : Prop where
  text : PredicateText L p w
  print : PredicateText L p (L.print p)
  tight : (L.print p).any isBlank = false → w.any isBlank = false
  head : (w.head? == some '(') = ((L.print p).head? == some '(')

/-- The predicates that `good` admits are restored wherever the language reads them, but for texts
that are in brackets as a whole. -/
def Embedding.Restores (L : Embedding α) (good : α → Prop) : Prop :=
  ∀ {w : Text} {p : α}, L.read w = some p → trim w = w → good p →
    (∀ inner, splitGroup? w ≠ some (inner, [])) → Restored L p w

lemma PredicateText.ne_nil {p : α} {w : Text} (h : PredicateText L p w) : w ≠ [] := by
  obtain ⟨c, s, rfl, -⟩ := h.head
  simp

lemma PredicateText.not_blank {p : α} {w : Text} (h : PredicateText L p w) {c : Char} {s : Text}
    (hw : w = c :: s) : isBlank c = false := by
  have htrim := h.trim_eq
  rw [hw] at htrim
  exact not_blank_of_trim_eq_cons htrim

lemma PredicateText.endsBlank {p : α} {w : Text} (h : PredicateText L p w) (a : Bool) :
    endsBlank a w = false :=
  endsBlank_of_trim_eq h.trim_eq h.ne_nil a

end TimedReq
