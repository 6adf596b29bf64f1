import TimedReq.Document.Statistics
import TimedReq.Proofs.Expr.QuantifierDepth

/-!
# Depth and number of quantifiers

One figure of a specification tells how many quantified paths stand one below the other, another how
many different ones there are in the requirements. The first is never greater than the second.
-/

namespace TimedReq

variable {α : Type}

namespace Statistics

/-- What one requirement counts is part of the total. -/
lemma le_total (count : Expr α → Nat) {s : Specification α} {e : Expr α}
    (he : e ∈ s.requirements) : count e ≤ total count s := by
  unfold total
  generalize s.requirements = es at he
  induction es with
  | nil => simp at he
  | cons x xs ih =>
    rw [List.foldr_cons]
    rcases List.mem_cons.mp he with rfl | he
    · exact Nat.le_add_right _ _
    · exact Nat.le_add_left_of_le (ih he)

lemma foldl_max_le {ns : List Nat} {m b : Nat} (hm : m ≤ b) (hns : ∀ n ∈ ns, n ≤ b) :
    ns.foldl max m ≤ b := by
  induction ns generalizing m with
  | nil => exact hm
  | cons n ns ih =>
    obtain ⟨hn, hns⟩ := List.forall_mem_cons.mp hns
    exact ih (Nat.max_le.mpr ⟨hm, hn⟩) hns

/-- Without repetitions every element is left once. -/
lemma nodup_eraseDups {β : Type} [DecidableEq β] (xs : List β) : xs.eraseDups.Nodup := by
  induction hn : xs.length using Nat.strongRecOn generalizing xs with
  | ind n ih =>
    cases xs with
    | nil => exact List.nodup_nil
    | cons x xs =>
      rw [List.length_cons] at hn
      have hlength := List.length_filter_le (fun y => !y == x) xs
      rw [List.eraseDups_cons]
      apply List.nodup_cons.mpr
      constructor
      · simp [List.mem_eraseDups]
      · exact ih _ (by omega) _ rfl

lemma length_eraseDups {β : Type} [DecidableEq β] (xs : List β) :
    xs.eraseDups.length = xs.toFinset.card := by
  have hsame : xs.eraseDups.toFinset = xs.toFinset := by
    ext x
    rw [List.mem_toFinset, List.mem_toFinset, List.mem_eraseDups]
  rw [← hsame, List.toFinset_card_of_nodup (nodup_eraseDups xs)]

variable [DecidableEq α]

lemma quantifierCount_eq_card (e : Expr α) : quantifierCount e = e.quantifiedPaths.card := by
  rw [quantifierCount, length_eraseDups, Expr.quantifiedPaths, List.toFinset_filter]

lemma quantifierDepth_le_quantifierCount (e : Expr α) : e.quantifierDepth ≤ quantifierCount e := by
  rw [quantifierCount_eq_card]
  exact e.quantifierDepth_le_card

/-- The deepest requirement counts as many different quantified paths alone. -/
lemma maxQuantifierDepth_le_quantifiers (s : Specification α) :
    (ofSpecification s).maxQuantifierDepth ≤ (ofSpecification s).quantifiers := by
  refine foldl_max_le (Nat.zero_le _) fun n hn => ?_
  obtain ⟨e, he, rfl⟩ := List.mem_map.mp hn
  calc e.quantifierDepth
    _ ≤ quantifierCount e := quantifierDepth_le_quantifierCount e
    _ ≤ total quantifierCount s := le_total quantifierCount he

/-- The depth of quantifiers is the greatest number of quantified paths on a way from an expression
down to one without parts. It is at most the number of different quantified paths in the expression,
which a requirement counts in the figures of its specification; so the greatest depth is at most the
number of quantifiers there. -/
theorem isGreatest_quantifierDepth_le_quantifiers (e : Expr α) (s : Specification α) :
    IsGreatest {n | ∃ xs, e.Descent xs ∧ (e :: xs).countP (·.isQuantified) = n}
        e.quantifierDepth ∧
      e.quantifierDepth ≤ e.quantifiedPaths.card ∧
      (∀ x, x ∈ e.quantifiedPaths ↔ x ∈ e.subexpressions ∧ x.isQuantified) ∧
      (ofSpecification s).quantifiers = total (·.quantifiedPaths.card) s ∧
      (ofSpecification s).maxQuantifierDepth ≤ (ofSpecification s).quantifiers := by
  refine ⟨e.isGreatest_quantifierDepth, e.quantifierDepth_le_card, fun x => Expr.mem_quantifiedPaths,
    ?_, maxQuantifierDepth_le_quantifiers s⟩
  have hcount : quantifierCount = fun e : Expr α => e.quantifiedPaths.card :=
    funext quantifierCount_eq_card
  rw [← hcount]
  rfl

end Statistics

end TimedReq
