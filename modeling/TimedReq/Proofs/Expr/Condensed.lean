import TimedReq.Proofs.Bound.Condensed
import TimedReq.Proofs.Expr.Canonical
import TimedReq.Proofs.Expr.Composition

/-!
# Expressions up to layout

Every text that is put together from the parts of a tree is, up to layout, the one text of that
tree; its canonical text is one of them.
-/

namespace TimedReq

open Text

/-- The text closes its brackets. Without layout it is `v`, whatever follows it but a brace. -/
structure CondensesTo (s v : Text) : Prop where
  neutral : Neutral s
  dropZeros_eq : ∀ r : List Mark, r.head? ≠ some ('{', false) →
    dropZeros false false (squeezed s ++ r) = v ++ dropZeros false false r

namespace CondensesTo

variable {s t v w : Text}

lemma normal_eq (h : CondensesTo s v) : normal s = v := by
  have hall := h.dropZeros_eq [] (by simp)
  rwa [List.append_nil, dropZeros, List.append_nil] at hall

lemma padded {x y : Text} (hx : AllBlank x) (h : CondensesTo s v) (hy : AllBlank y) :
    CondensesTo (x ++ s ++ y) v := by
  refine ⟨((Neutral.allBlank hx).append h.neutral).append (Neutral.allBlank hy), ?_⟩
  intro r hr
  rw [squeezed_padded hx h.neutral.closed hy]
  exact h.dropZeros_eq r hr

lemma unbraced (hs : Neutral s) (hbrace : ('{', false) ∉ marked s) :
    CondensesTo s ((squeezed s).map Prod.fst) :=
  ⟨hs, fun _ hr => dropZeros_append (fun h => hbrace (brace_mem_marked h)) hr⟩

/-- A symbol in front of a text. -/
lemma symbol {a : Text} (ha : ∀ c ∈ a, IsPlain c ∧ isBlank c = false ∧ c.toLower ≠ '_')
    (h : CondensesTo s v) : CondensesTo (a ++ s) (a.map Char.toLower ++ v) := by
  induction a with
  | nil => exact h
  | cons c a ih =>
    obtain ⟨hc, hblank, hbar⟩ := ha c List.mem_cons_self
    have hrest := ih fun x hx => ha x (List.mem_cons_of_mem c hx)
    refine ⟨(Neutral.singleton hc).append hrest.neutral, ?_⟩
    intro r hr
    rw [List.cons_append, squeezed_symbol hc hblank, List.cons_append, dropZeros_cons hbar,
      hrest.dropZeros_eq r hr]
    rfl

/-- A symbol between texts. -/
lemma between {a : Text} (ha : ∀ c ∈ a, IsPlain c ∧ isBlank c = false ∧ c.toLower ≠ '_')
    (hne : a ≠ []) (hs : CondensesTo s v) (ht : CondensesTo t w) :
    CondensesTo (s ++ (a ++ t)) (v ++ (a.map Char.toLower ++ w)) := by
  have htail := ht.symbol ha
  refine ⟨hs.neutral.append htail.neutral, ?_⟩
  intro r hr
  have hhead : (squeezed (a ++ t) ++ r).head? ≠ some ('{', false) := by
    obtain ⟨c, a, rfl⟩ := List.exists_cons_of_ne_nil hne
    obtain ⟨hc, hblank, -⟩ := ha c List.mem_cons_self
    rw [List.cons_append, squeezed_symbol hc hblank]
    intro heq
    exact hc.2.2.2.1 (eq_of_toLower_brace (congrArg Prod.fst (Option.some.inj heq)))
  rw [squeezed_append hs.neutral.closed, List.append_assoc, hs.dropZeros_eq _ hhead,
    htail.dropZeros_eq r hr, List.append_assoc, List.append_assoc, List.append_assoc]

lemma group (h : CondensesTo s v) : CondensesTo ('(' :: (s ++ [')'])) ('(' :: (v ++ [')'])) := by
  refine ⟨h.neutral.bracket (.inl rfl) (.inl rfl), ?_⟩
  intro r hr
  rw [squeezed_bracket (.inl rfl) (.inl rfl) h.neutral.closed, List.cons_append,
    dropZeros_cons (by decide), List.append_assoc, h.dropZeros_eq _ (by simp),
    List.singleton_append, dropZeros_cons (by decide)]
  simp

/-- A text in braces with its statements. -/
lemma bounded {x y b : Text} {first : Statement} {more : List Statement} (h : CondensesTo s v)
    (hx : AllBlank x) (hy : AllBlank y)
    (hsts : Statement.parseAll (pieces (· == ',') (trimEnd b)) = .ok (first :: more)) :
    CondensesTo ('{' :: (s ++ '}' :: (x ++ '_' :: (y ++ '{' :: (b ++ ['}'])))))
      ('{' :: (v ++ '}' :: '_' :: '{' :: (Statement.condensedAll (first :: more) ++ ['}']))) := by
  obtain ⟨z, hz, hb⟩ := exists_trimEnd b
  have hinner : Neutral (trimEnd b) := Neutral.plain (Statement.isPlain_of_parseAll hsts)
  have hstatements : Neutral b ∧ squeezed b = squeezed (trimEnd b) := by
    generalize trimEnd b = t at hb hinner
    rw [hb, squeezed_append hinner.closed, squeezed_allBlank hz, List.append_nil]
    exact ⟨hinner.append (Neutral.allBlank hz), rfl⟩
  have hbody := h.neutral.bracket (o := '{') (c := '}') (.inr rfl) (.inr rfl)
  have hsection := hstatements.1.bracket (o := '{') (c := '}') (.inr rfl) (.inr rfl)
  have hbar : IsPlain '_' := by decide
  have hcut : '{' :: (s ++ '}' :: (x ++ '_' :: (y ++ '{' :: (b ++ ['}'])))) =
      '{' :: (s ++ ['}']) ++ (x ++ ('_' :: (y ++ '{' :: (b ++ ['}'])))) := by simp
  rw [hcut]
  refine ⟨hbody.append ((Neutral.allBlank hx).append ((Neutral.singleton hbar).append
    ((Neutral.allBlank hy).append hsection))), ?_⟩
  intro r hr
  have hkept : squeezed ('{' :: (s ++ ['}']) ++ (x ++ ('_' :: (y ++ '{' :: (b ++ ['}']))))) =
      ('{', false) :: (squeezed s ++ ('}', false) :: ('_', false) :: ('{', false) ::
        (squeezed (trimEnd b) ++ [('}', false)])) := by
    rw [squeezed_append hbody.closed, squeezed_append (Neutral.allBlank hx).closed,
      squeezed_symbol hbar rfl, squeezed_append (Neutral.allBlank hy).closed,
      squeezed_bracket (.inr rfl) (.inr rfl) h.neutral.closed,
      squeezed_bracket (.inr rfl) (.inr rfl) hstatements.1.closed, squeezed_allBlank hx,
      squeezed_allBlank hy, hstatements.2]
    simp [show ('_' : Char).toLower = '_' from rfl]
  rw [hkept, List.cons_append, dropZeros_cons (by decide), List.append_assoc,
    h.dropZeros_eq _ (by simp), List.cons_append, dropZeros_cons (by decide), List.cons_append,
    List.cons_append, dropZeros_section, List.append_assoc, Statement.dropZeros_parseAll hsts,
    List.singleton_append, dropZeros_close]
  simp

end CondensesTo

lemma Connective.keeps_symbol (c : Connective) :
    (∀ x ∈ c.symbol, IsPlain x ∧ isBlank x = false ∧ x.toLower ≠ '_') ∧ c.symbol ≠ [] := by
  cases c <;> decide

lemma Branch.keeps_symbol (b : Branch) :
    ∀ x ∈ [b.symbol], IsPlain x ∧ isBlank x = false ∧ x.toLower ≠ '_' := by
  cases b <;> decide

lemma Modality.keeps_symbol (m : Modality) :
    ∀ x ∈ [m.symbol], IsPlain x ∧ isBlank x = false ∧ x.toLower ≠ '_' := by
  cases m <;> decide

lemma Until.keeps_symbol (u : Until) :
    ∀ x ∈ [u.symbol], IsPlain x ∧ isBlank x = false ∧ x.toLower ≠ '_' := by
  cases u <;> decide

variable {α : Type} {L : Embedding α} {e : Expr α} {s : Text}

/-- The text of a predicate and its canonical text, which is read as well, have the same characters
but for blanks and the case of letters. -/
structure Embedding.Condenses (L : Embedding α) : Prop extends L.Unbraced where
  read_print : ∀ {w : Text} {p : α}, L.read w = some p →
    L.read (L.print p) = some p ∧ trim (L.print p) = L.print p
  squeezed_print : ∀ {w : Text} {p : α}, L.read w = some p → trim w = w →
    squeezed (L.print p) = squeezed w

/-- The text of a tree without layout. -/
def Expr.condensed (L : Embedding α) : Expr α → Text
  | predicate p => (squeezed (L.print p)).map Prod.fst
  | negation body => '!' :: body.condensed L
  | group body => '(' :: (body.condensed L ++ [')'])
  | binary c lhs rhs => lhs.condensed L ++ (c.symbol.map Char.toLower ++ rhs.condensed L)
  | along b m body => b.symbol.toLower :: m.symbol.toLower :: body.condensed L
  | .until b u lhs rhs =>
    b.symbol.toLower :: (lhs.condensed L ++ u.symbol.toLower :: rhs.condensed L)
  | bounded body first more =>
    '{' :: (body.condensed L ++ '}' :: '_' :: '{' :: (Statement.condensedAll (first :: more) ++ ['}']))

namespace CondensesTo

variable {t v w : Text}

lemma negation (h : CondensesTo s v) : CondensesTo ('!' :: s) ('!' :: v) :=
  h.symbol (a := ['!']) (by decide)

lemma connective (c : Connective) (hs : CondensesTo s v) (ht : CondensesTo t w) :
    CondensesTo (s ++ (c.symbol ++ t)) (v ++ (c.symbol.map Char.toLower ++ w)) :=
  hs.between c.keeps_symbol.1 c.keeps_symbol.2 ht

lemma along (b : Branch) (m : Modality) {x : Text} (hx : AllBlank x) (h : CondensesTo s v) :
    CondensesTo (b.symbol :: (x ++ m.symbol :: s)) (b.symbol.toLower :: m.symbol.toLower :: v) := by
  have hpath := (h.symbol m.keeps_symbol).padded hx .nil
  rw [List.append_nil] at hpath
  exact hpath.symbol b.keeps_symbol

lemma «until» (b : Branch) (u : Until) (hs : CondensesTo s v) (ht : CondensesTo t w) :
    CondensesTo (b.symbol :: (s ++ u.symbol :: t))
      (b.symbol.toLower :: (v ++ u.symbol.toLower :: w)) :=
  (hs.between u.keeps_symbol (by simp) ht).symbol b.keeps_symbol

end CondensesTo

/-- Whatever layout a text has that is put together from the parts of a tree, without it the text
is that of the tree. -/
theorem Composes.condensesTo (hL : L.Condenses) (h : Composes L e s) :
    CondensesTo s (e.condensed L) := by
  have htail : ∀ (c : Connective) {l u r v w : Text}, AllBlank u → CondensesTo l v →
      CondensesTo r w →
      CondensesTo (l ++ (u ++ (c.symbol ++ r))) (v ++ (c.symbol.map Char.toLower ++ w)) := by
    intro c l u r v w hu hl hr
    have hall := (hl.padded .nil hu).connective c hr
    rwa [List.nil_append, List.append_assoc] at hall
  induction h with
  | padded hu hv _ ih => exact ih.padded hu hv
  | predicate hread htrim =>
    rw [Expr.condensed, hL.squeezed_print hread htrim]
    exact .unbraced (hL.neutral hread htrim) (hL.unbraced hread htrim (.inl rfl))
  | negation _ ih => exact ih.negation
  | group _ ih => exact ih.group
  | groupTail c _ hu _ ihl ihr =>
    have hall := htail c hu ihl.group ihr
    simpa [Expr.condensed] using hall
  | bounded _ hx hy _ hsts ih => exact ih.bounded hx hy hsts
  | boundedTail c _ hx hy _ hsts hu _ ihl ihr =>
    have hall := htail c hu (ihl.bounded hx hy hsts) ihr
    simpa [Expr.condensed] using hall
  | arrow _ _ ihl ihr => exact ihl.connective .implies ihr
  | logical c _ _ _ _ ihl ihr => exact ihl.connective c ihr
  | along b m hu _ _ _ ih => exact ih.along b m hu
  | «until» b u _ _ _ _ _ ihl ihr => exact ihl.until b u ihr

/-- The canonical text of a tree that a text is put together from is, without layout, the text of
the tree. -/
theorem Composes.condensesTo_print (hL : L.Condenses) (h : Composes L e s) :
    CondensesTo (e.print L) (e.condensed L) := by
  have hspace : AllBlank [' '] := .cons rfl .nil
  have hbinary : ∀ (c : Connective) {lhs rhs : Expr α},
      CondensesTo (lhs.print L) (lhs.condensed L) → CondensesTo (rhs.print L) (rhs.condensed L) →
      CondensesTo ((Expr.binary c lhs rhs).print L) ((Expr.binary c lhs rhs).condensed L) := by
    intro c lhs rhs hl hr
    have hall := (hl.padded .nil hspace).connective c (hr.padded hspace .nil)
    simpa [Expr.print, Expr.condensed] using hall
  have hbounded : ∀ {body : Expr α} {first : Statement} {more : List Statement} {t : Text},
      CondensesTo (body.print L) (body.condensed L) →
      Statement.parseAll (pieces (· == ',') (trimEnd t)) = .ok (first :: more) →
      CondensesTo ((Expr.bounded body first more).print L)
        ((Expr.bounded body first more).condensed L) := by
    intro body first more t hbody hsts
    have hprint := pieces_printStatements (Statement.readable_of_parseAll hsts) .nil
    rw [List.nil_append, ← trimEnd_printStatements] at hprint
    have hall := hbody.bounded .nil .nil hprint
    simpa [Expr.print, Expr.condensed] using hall
  induction h with
  | padded _ _ _ ih => exact ih
  | predicate hread htrim =>
    obtain ⟨hprint, htrim'⟩ := hL.read_print hread
    exact .unbraced (hL.neutral hprint htrim') (hL.unbraced hprint htrim' (.inl rfl))
  | negation _ ih => exact ih.negation
  | group _ ih => exact ih.group
  | groupTail c _ _ _ ihl ihr => exact hbinary c ihl.group ihr
  | bounded _ _ _ _ hsts ih => exact hbounded ih hsts
  | boundedTail c _ _ _ _ hsts _ _ ihl ihr => exact hbinary c (hbounded ihl hsts) ihr
  | arrow _ _ ihl ihr => exact hbinary .implies ihl ihr
  | logical c _ _ _ _ ihl ihr => exact hbinary c ihl ihr
  | along b m _ _ _ _ ih =>
    have hall := (ih.padded hspace .nil).along b m hspace
    simpa [Expr.print, Expr.condensed] using hall
  | «until» b u _ _ _ _ _ ihl ihr =>
    have hall := (ihl.padded hspace hspace).until b u (ihr.padded hspace .nil)
    simpa [Expr.print, Expr.condensed] using hall

/-- A text and the canonical text of the tree that it is read as differ in layout only. -/
theorem Takes.normal_print {f : Text → Reading (Expr α)} (hf : Takes L f) (hL : L.Condenses)
    (h : f s = .ok e) : normal s = normal (e.print L) :=
  ((hf h).condensesTo hL).normal_eq.trans ((hf h).condensesTo_print hL).normal_eq.symm

end TimedReq
