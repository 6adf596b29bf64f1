import TimedReq.Expr.Printer
import TimedReq.Expr.Walk
import TimedReq.Proofs.Expr.Spelling

/-!
# Rows of trees

The canonical text of a tree spells the row of the tree, provided that each predicate and each
statement in it is read back by itself.
-/

namespace TimedReq

open Text

variable {α : Type} {L : Embedding α}

lemma Statement.parse_of_blanks {u : Text} (hu : AllBlank u) (s : Text) :
    parse (u ++ s) = parse s := by
  unfold parse
  rw [trim_append_left hu]

lemma printStatements_cons (st next : Statement) (more : List Statement) :
    printStatements (st :: next :: more) =
      st.print ++ ',' :: ' ' :: printStatements (next :: more) := by
  simp [printStatements, join]

lemma pieces_printStatements {first : Statement} {more : List Statement}
    (hreadable : ∀ st ∈ first :: more, st.Readable) {u : Text} (hu : AllBlank u) :
    Statement.parseAll (pieces (· == ',') (u ++ printStatements (first :: more))) =
      .ok (first :: more) := by
  have hcomma : ∀ st : Statement, ∀ c ∈ st.print, (c == ',') = false := by
    intro st c hc
    simpa using st.print_ne (x := ',') (by simp) c hc
  have hblank : ∀ {u : Text}, AllBlank u → ∀ c ∈ u, (c == ',') = false := by
    intro u hu c hc
    have hb := hu c hc
    rw [beq_eq_false_iff_ne]
    rintro rfl
    exact absurd hb (by decide)
  have hfree : ∀ st : Statement, ∀ {u : Text}, AllBlank u → ∀ c ∈ u ++ st.print, (c == ',') = false := by
    intro st u hu c hc
    rcases List.mem_append.mp hc with hc | hc
    · exact hblank hu c hc
    · exact hcomma st c hc
  induction more generalizing first u with
  | nil =>
    have hprint : printStatements [first] = first.print := rfl
    rw [hprint, pieces_of_forall (hfree first hu)]
    refine Statement.parseAll_cons.mpr ⟨first, [], ?_, rfl, rfl⟩
    rw [Statement.parse_of_blanks hu]
    exact Statement.parse_print (hreadable first List.mem_cons_self)
  | cons next more ih =>
    rw [printStatements_cons, ← List.append_assoc, pieces_append_cons (hfree first hu) (by rfl)]
    refine Statement.parseAll_cons.mpr ⟨first, next :: more, ?_, ?_, rfl⟩
    · rw [Statement.parse_of_blanks hu]
      exact Statement.parse_print (hreadable first List.mem_cons_self)
    · have hone : AllBlank [' '] := .cons rfl .nil
      exact ih (fun st hst => hreadable st (List.mem_cons_of_mem _ hst)) hone

lemma brace_not_mem_printStatements (sts : List Statement) : '}' ∉ printStatements sts := by
  have hprint : ∀ st : Statement, '}' ∉ st.print := fun st hc =>
    st.print_ne (x := '}') (by simp) '}' hc rfl
  induction sts with
  | nil => simp [printStatements, join]
  | cons st more ih =>
    cases more with
    | nil => exact hprint st
    | cons next more =>
      rw [printStatements_cons]
      simp only [List.mem_append, List.mem_cons, not_or]
      exact ⟨hprint st, by decide, by decide, ih⟩

lemma trimEnd_printStatements (first : Statement) (more : List Statement) :
    trimEnd (printStatements (first :: more)) = printStatements (first :: more) := by
  induction more generalizing first with
  | nil => exact trimEnd_of_trim_eq first.trim_print
  | cons next more ih =>
    have htail : trimEnd (' ' :: printStatements (next :: more)) =
        ' ' :: printStatements (next :: more) := by
      have h := trimEnd_append_of_ne [' '] (t := printStatements (next :: more)) (by
        rw [ih]
        cases more <;> simp [printStatements, join, Statement.print])
      rwa [ih] at h
    rw [printStatements_cons, trimEnd_append_cons _ rfl, htail]

namespace Expr

/-- The row of the canonical text of a tree. -/
@[simp] def row (L : Embedding α) : Expr α → Row α
  | predicate p => [.predicate p (!(L.print p).any isBlank) ((L.print p).head? == some '(')]
  | negation body => .negation :: body.row L
  | group body => [.group (body.row L)]
  | binary c lhs rhs => lhs.row L ++ .connective c true :: rhs.row L
  | along b m body => .branch b :: .modality m :: body.row L
  | .until b u lhs rhs => .branch b :: (lhs.row L ++ .until u :: rhs.row L)
  | bounded body first more => [.bounded (body.row L) first more]

/-- Each predicate and each statement in the tree is read back by itself. -/
def Legible (L : Embedding α) : Expr α → Prop
  | predicate p => PredicateText L p (L.print p)
  | negation body | group body | along _ _ body => body.Legible L
  | binary _ lhs rhs | .until _ _ lhs rhs => lhs.Legible L ∧ rhs.Legible L
  | bounded body first more => body.Legible L ∧ ∀ st ∈ first :: more, st.Readable

/-- The canonical text of a tree spells the row of the tree. -/
theorem Legible.spells {e : Expr α} (h : e.Legible L) :
    Spells L .start false (e.row L) (e.print L) := by
  have hspace : ∀ {row : Row α} {s : Text}, Spells L .start false row s →
      Spells L .start false row (' ' :: s) := fun h => .blank rfl (h.of_open rfl true)
  induction e with
  | predicate p =>
    have hp : Spells L .start false _ _ := Spells.predicate rfl h (.nil rfl)
    rwa [List.append_nil] at hp
  | negation body ih => exact .negation rfl (ih h)
  | group body ih => exact .group rfl (ih h) (.nil rfl)
  | binary c lhs rhs ihl ihr =>
    have hc : Spells L .behind true (.connective c true :: rhs.row L)
        (c.symbol ++ ' ' :: rhs.print L) := .apart rfl c rfl (hspace (ihr h.2))
    have hprint : (binary c lhs rhs).print L =
        lhs.print L ++ ' ' :: (c.symbol ++ ' ' :: rhs.print L) := by
      simp [print]
    rw [hprint]
    exact (ihl h.1).append (.blank rfl hc)
  | along b m body ih => exact .branch b rfl rfl (.blank rfl (.modality m rfl (hspace (ih h))))
  | «until» b u lhs rhs ihl ihr =>
    have hu : Spells L .behind true (.until u :: rhs.row L) (u.symbol :: ' ' :: rhs.print L) :=
      .until u rfl rfl (hspace (ihr h.2))
    have hprint : (Expr.until b u lhs rhs).print L =
        b.symbol :: ' ' :: (lhs.print L ++ ' ' :: u.symbol :: ' ' :: rhs.print L) := by
      simp [print]
    rw [hprint]
    exact .branch b rfl rfl ((hspace ((ihl h.1).append (.blank rfl hu))).path)
  | bounded body first more ih =>
    have hsts := pieces_printStatements h.2 .nil
    rw [List.nil_append, ← trimEnd_printStatements] at hsts
    have hbounded : Spells L .start false _ _ := Spells.bounded rfl (ih h.1) .nil .nil
      (brace_not_mem_printStatements _) hsts (.nil rfl)
    have hprint : (bounded body first more).print L = '{' :: (body.print L ++
        '}' :: ([] ++ '_' :: ([] ++ '{' :: (printStatements (first :: more) ++ '}' :: [])))) := by
      simp [print]
    rw [hprint]
    exact hbounded

end Expr

end TimedReq
