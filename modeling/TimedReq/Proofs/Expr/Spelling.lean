import TimedReq.Proofs.Bound.Statement
import TimedReq.Proofs.Expr.Predicate
import TimedReq.Proofs.Expr.Row

/-!
# Texts that spell rows

A text spells a row if it is put together from the texts of its pieces. What may come next depends
on the place: an operand is due at the start and after a branch quantifier, where a modality may
come as well; behind an operand an operator is due or the end, and only behind a closing bracket a
connective may stand without blanks around it.
-/

namespace TimedReq

open Text

variable {α : Type} {L : Embedding α}

/-- Where in the text of an expression a piece is due. -/
inductive Slot where
  | start | path | behind | closed
deriving DecidableEq

/-- Whether an operand is due. -/
def Slot.isOpen : Slot → Bool
  | start | path => true
  | behind | closed => false

/-- The text spells the row, where the flag tells whether a blank stands before it. -/
inductive Spells (L : Embedding α) : Slot → Bool → Row α → Text → Prop
  | nil {slot : Slot} {a : Bool} (hslot : slot.isOpen = false) : Spells L slot a [] []
  | blank {slot : Slot} {a : Bool} {c : Char} {row : Row α} {s : Text} (hc : isBlank c = true)
    (h : Spells L slot true row s) : Spells L slot a row (c :: s)
  | predicate {slot : Slot} {a : Bool} {p : α} {w : Text} {row : Row α} {s : Text}
    (hslot : slot.isOpen = true) (hw : PredicateText L p w) (h : Spells L .behind false row s) :
    Spells L slot a (.predicate p (!w.any isBlank) (w.head? == some '(') :: row) (w ++ s)
  | negation {slot : Slot} {a : Bool} {row : Row α} {s : Text} (hslot : slot.isOpen = true)
    (h : Spells L .start false row s) : Spells L slot a (.negation :: row) ('!' :: s)
  | branch {slot : Slot} {a : Bool} (b : Branch) {row : Row α} {s : Text}
    (hslot : slot.isOpen = true) (hs : startsBlank s = true) (h : Spells L .path false row s) :
    Spells L slot a (.branch b :: row) (b.symbol :: s)
  | modality {a : Bool} (m : Modality) {row : Row α} {s : Text} (hs : startsBlank s = true)
    (h : Spells L .start false row s) : Spells L .path a (.modality m :: row) (m.symbol :: s)
  | until {slot : Slot} (u : Until) {row : Row α} {s : Text}
    (hslot : slot.isOpen = false) (hs : startsBlank s = true) (h : Spells L .start false row s) :
    Spells L slot true (.until u :: row) (u.symbol :: s)
  | connective {slot : Slot} {a : Bool} {c : Connective} {x : Char} {row : Row α} {s : Text}
    (hslot : slot.isOpen = false) (hc : c.char? = some x)
    (hapart : slot = .behind → (a && startsBlank s) = true) (h : Spells L .start false row s) :
    Spells L slot a (.connective c (a && startsBlank s) :: row) (x :: s)
  | arrow {slot : Slot} {a : Bool} {row : Row α} {s : Text} (hslot : slot.isOpen = false)
    (h : Spells L .start false row s) :
    Spells L slot a (.connective .implies true :: row) ('-' :: '>' :: s)
  | group {slot : Slot} {a : Bool} {body row : Row α} {v s : Text} (hslot : slot.isOpen = true)
    (hv : Spells L .start false body v) (h : Spells L .closed false row s) :
    Spells L slot a (.group body :: row) ('(' :: (v ++ ')' :: s))
  | bounded {slot : Slot} {a : Bool} {body row : Row α} {v x y t s : Text} {first : Statement}
    {more : List Statement} (hslot : slot.isOpen = true) (hv : Spells L .start false body v)
    (hx : AllBlank x) (hy : AllBlank y) (ht : '}' ∉ t)
    (hsts : Statement.parseAll (pieces (· == ',') (trimEnd t)) = .ok (first :: more))
    (h : Spells L .closed false row s) :
    Spells L slot a (.bounded body first more :: row)
      ('{' :: (v ++ '}' :: (x ++ '_' :: (y ++ '{' :: (t ++ '}' :: s)))))

/-- The texts of statements have no brackets. -/
lemma Statement.neutral_of_parseAll {t : Text} {sts : List Statement}
    (h : parseAll (pieces (· == ',') (trimEnd t)) = .ok sts) : Neutral t := by
  obtain ⟨u, hu, heq⟩ := exists_trimEnd t
  rw [heq]
  exact Neutral.append (Neutral.plain (isPlain_of_parseAll h)) (Neutral.allBlank hu)

/-- The text of a bounded expression closes its brackets. -/
lemma neutral_bounded {v x y t : Text} (hv : Neutral v) (hx : AllBlank x) (hy : AllBlank y)
    (ht : Neutral t) : Neutral ('{' :: (v ++ '}' :: (x ++ '_' :: (y ++ '{' :: (t ++ ['}']))))) := by
  have heq : '{' :: (v ++ '}' :: (x ++ '_' :: (y ++ '{' :: (t ++ ['}'])))) =
      '{' :: (v ++ ['}']) ++ (x ++ (['_'] ++ (y ++ '{' :: (t ++ ['}'])))) := by simp
  rw [heq]
  refine (hv.bracket (.inr rfl) (.inr rfl)).append ((Neutral.allBlank hx).append ?_)
  refine (Neutral.singleton (by decide)).append ((Neutral.allBlank hy).append ?_)
  exact ht.bracket (.inr rfl) (.inr rfl)

namespace Spells

variable {slot : Slot} {a : Bool} {row : Row α} {s : Text}

/-- Where an operand is due, the text is not blank. -/
lemma exists_not_blank (h : Spells L slot a row s) (hslot : slot.isOpen = true) :
    ∃ c ∈ s, isBlank c = false := by
  induction h with
  | nil hend =>
    rw [hend] at hslot
    exact absurd hslot (by simp)
  | blank hc _ ih =>
    obtain ⟨c, hmem, hblank⟩ := ih hslot
    exact ⟨c, List.mem_cons_of_mem _ hmem, hblank⟩
  | predicate _ hw _ _ =>
    obtain ⟨c, s, heq, -⟩ := hw.head
    exact ⟨c, by simp [heq], hw.not_blank heq⟩
  | negation | group | bounded => exact ⟨_, List.mem_cons_self, rfl⟩
  | branch b => exact ⟨_, List.mem_cons_self, not_blank_of_mem_operatorChars b.symbol_mem⟩
  | modality m => exact ⟨_, List.mem_cons_self, not_blank_of_mem_operatorChars m.symbol_mem⟩
  | «until» _ hend | connective hend | arrow hend =>
    rw [hend] at hslot
    exact absurd hslot (by simp)

lemma ne_nil (h : Spells L slot a row s) (hslot : slot.isOpen = true) : s ≠ [] := by
  obtain ⟨c, hmem, -⟩ := h.exists_not_blank hslot
  exact List.ne_nil_of_mem hmem

/-- The blank before a text matters only where an operator is due. -/
lemma of_open (h : Spells L slot a row s) (hslot : slot.isOpen = true) (b : Bool) :
    Spells L slot b row s := by
  cases h with
  | nil hend | «until» _ hend | connective hend | arrow hend =>
    rw [hend] at hslot
    exact absurd hslot (by simp)
  | blank hc h => exact .blank hc h
  | predicate hp hw h => exact .predicate hp hw h
  | negation hp h => exact .negation hp h
  | branch b hp hs h => exact .branch b hp hs h
  | modality m hs h => exact .modality m hs h
  | group hp hv h => exact .group hp hv h
  | bounded hp hv hx hy ht hsts h => exact .bounded hp hv hx hy ht hsts h

/-- What may stand at the start may stand after a branch quantifier. -/
lemma path (h : Spells L .start a row s) : Spells L .path a row s := by
  generalize hslot : Slot.start = slot at h
  induction h with
  | blank hc _ ih => exact .blank hc (ih hslot)
  | predicate _ hw h => exact .predicate rfl hw h
  | negation _ h => exact .negation rfl h
  | branch b _ hs h => exact .branch b rfl hs h
  | modality => simp at hslot
  | group _ hv h => exact .group rfl hv h
  | bounded _ hv hx hy ht hsts h => exact .bounded rfl hv hx hy ht hsts h
  | nil hend | «until» _ hend | connective hend | arrow hend =>
    subst hslot
    exact absurd hend (by decide)

/-- A connective between blanks. -/
lemma apart (hslot : slot.isOpen = false) (c : Connective) (hs : startsBlank s = true)
    (h : Spells L .start false row s) :
    Spells L slot true (.connective c true :: row) (c.symbol ++ s) := by
  have hflag : (true && startsBlank s) = true := hs
  cases c with
  | implies => exact .arrow hslot h
  | and =>
    have hand := Spells.connective (x := '^') (a := true) (c := .and) hslot rfl (fun _ => hflag) h
    rwa [hflag] at hand
  | or =>
    have hor := Spells.connective (x := 'V') (a := true) (c := .or) hslot rfl (fun _ => hflag) h
    rwa [hflag] at hor

/-- After a branch quantifier there is nothing special but a modality. -/
lemma start (h : Spells L .path a row s) (hne : ∀ m row', row ≠ .modality m :: row') :
    Spells L .start a row s := by
  generalize hslot : Slot.path = slot at h
  induction h with
  | blank hc _ ih => exact .blank hc (ih hne hslot)
  | predicate _ hw h => exact .predicate rfl hw h
  | negation _ h => exact .negation rfl h
  | branch b _ hs h => exact .branch b rfl hs h
  | modality m => exact absurd rfl (hne m _)
  | group _ hv h => exact .group rfl hv h
  | bounded _ hv hx hy ht hsts h => exact .bounded rfl hv hx hy ht hsts h
  | nil hend | «until» _ hend | connective hend | arrow hend =>
    subst hslot
    exact absurd hend (by decide)

/-- What may follow an operand may follow a bracket. -/
lemma closed (h : Spells L .behind a row s) : Spells L .closed a row s := by
  generalize hslot : Slot.behind = slot at h
  induction h with
  | nil => exact .nil rfl
  | blank hc _ ih => exact .blank hc (ih hslot)
  | «until» u _ hs h => exact .until u rfl hs h
  | connective _ hc _ h => exact .connective rfl hc (by simp) h
  | arrow _ h => exact .arrow rfl h
  | predicate hp | negation hp | branch _ hp | group hp | bounded hp =>
    subst hslot
    exact absurd hp (by decide)
  | modality => simp at hslot

lemma of_blanks {u : Text} (hu : AllBlank u) (h : Spells L slot true row s) (hne : u ≠ []) :
    Spells L slot a row (u ++ s) := by
  induction u generalizing a with
  | nil => exact absurd rfl hne
  | cons c u ih =>
    by_cases hnil : u = []
    · subst hnil
      exact .blank hu.of_cons.1 h
    · exact .blank hu.of_cons.1 (ih hu.of_cons.2 hnil)

/-- The text of a row closes its brackets. -/
theorem neutral (h : Spells L slot a row s) : Neutral s := by
  have hcons : ∀ {c : Char} {t : Text}, IsPlain c → Neutral t → Neutral (c :: t) :=
    fun hc ht => (Neutral.singleton hc).append ht
  have hsymbol : ∀ {c : Char} {t : Text}, c ∈ operatorChars → Neutral t → Neutral (c :: t) :=
    fun hc => hcons (isPlain_of_mem_operatorChars hc)
  induction h with
  | nil => exact .nil
  | blank hc _ ih => exact hcons (isPlain_of_isBlank hc) ih
  | predicate _ hw _ ih => exact hw.neutral.append ih
  | negation _ _ ih => exact hcons (by decide) ih
  | branch b _ _ _ ih => exact hsymbol b.symbol_mem ih
  | modality m _ _ ih => exact hsymbol m.symbol_mem ih
  | «until» u _ _ _ ih => exact hsymbol u.symbol_mem ih
  | connective _ hc _ _ ih => exact hsymbol (Connective.char?_mem hc) ih
  | arrow _ _ ih => exact hcons (by decide) (hcons (by decide) ih)
  | @group _ _ _ _ v s _ _ _ ihv ih =>
    have heq : '(' :: (v ++ ')' :: s) = '(' :: (v ++ [')']) ++ s := by simp
    rw [heq]
    exact (ihv.bracket (.inl rfl) (.inl rfl)).append ih
  | @bounded _ _ _ _ v x y t s _ _ _ _ hx hy _ hsts _ ihv ih =>
    have heq : '{' :: (v ++ '}' :: (x ++ '_' :: (y ++ '{' :: (t ++ '}' :: s)))) =
        '{' :: (v ++ '}' :: (x ++ '_' :: (y ++ '{' :: (t ++ ['}'])))) ++ s := by simp
    rw [heq]
    exact (neutral_bounded ihv hx hy (Statement.neutral_of_parseAll hsts)).append ih

lemma exists_trimStart (h : Spells L slot a row s) : ∃ b, Spells L slot b row (trimStart s) := by
  have hsymbol : ∀ {c : Char} {t : Text}, c ∈ operatorChars → trimStart (c :: t) = c :: t :=
    fun hc => trimStart_of_not_blank _ (not_blank_of_mem_operatorChars hc)
  have hmark : ∀ {c : Char} {t : Text}, isBlank c = false → trimStart (c :: t) = c :: t :=
    fun hc => trimStart_of_not_blank _ hc
  induction h with
  | nil hslot => exact ⟨a, .nil hslot⟩
  | @blank _ _ c _ t hc _ ih =>
    have heq : trimStart (c :: t) = trimStart t := trimStart_append (u := [c]) (.cons hc .nil) t
    rw [heq]
    exact ih
  | @predicate _ _ p w _ t hslot hw h _ =>
    obtain ⟨c, v, rfl, -⟩ := hw.head
    rw [List.cons_append, hmark (hw.not_blank rfl), ← List.cons_append]
    exact ⟨a, .predicate hslot hw h⟩
  | negation hslot h _ =>
    rw [hmark rfl]
    exact ⟨a, .negation hslot h⟩
  | branch b hslot hs h _ =>
    rw [hsymbol b.symbol_mem]
    exact ⟨a, .branch b hslot hs h⟩
  | modality m hs h _ =>
    rw [hsymbol m.symbol_mem]
    exact ⟨a, .modality m hs h⟩
  | «until» u hslot hs h _ =>
    rw [hsymbol u.symbol_mem]
    exact ⟨true, .until u hslot hs h⟩
  | @connective _ b _ _ _ _ hslot hc hapart h _ =>
    rw [hsymbol (Connective.char?_mem hc)]
    exact ⟨b, .connective hslot hc hapart h⟩
  | arrow hslot h _ =>
    rw [hmark rfl]
    exact ⟨a, .arrow hslot h⟩
  | group hslot hv h _ _ =>
    rw [hmark rfl]
    exact ⟨a, .group hslot hv h⟩
  | bounded hslot hv hx hy ht hsts h _ _ =>
    rw [hmark rfl]
    exact ⟨a, .bounded hslot hv hx hy ht hsts h⟩

/-- The empty text spells the empty row only. -/
lemma eq_nil (h : Spells L slot a row []) : row = [] ∧ slot.isOpen = false := by
  generalize hs : ([] : Text) = u at h
  cases h with
  | nil hslot => exact ⟨rfl, hslot⟩
  | predicate _ hw =>
    have hne := hw.ne_nil
    simp only [List.nil_eq, List.append_eq_nil_iff] at hs
    exact absurd hs.1 hne
  | blank | negation | branch | modality | «until» | connective | arrow | group | bounded =>
    simp at hs

/-- Blanks at the end of a text are no part of it. -/
lemma trimEnd (h : Spells L slot a row s) : Spells L slot a row (Text.trimEnd s) := by
  have hblank : ∀ {slot : Slot} {b : Bool} {row : Row α} {t : Text}, slot.isOpen = true →
      Spells L slot b row (Text.trimEnd t) → startsBlank (Text.trimEnd t) = startsBlank t := by
    intro slot b row t hslot h
    rcases startsBlank_trimEnd t with hnil | heq
    · exact absurd hnil (h.ne_nil hslot)
    · exact heq
  have hsymbol : ∀ {c : Char} {t : Text}, c ∈ operatorChars →
      Text.trimEnd (c :: t) = c :: Text.trimEnd t :=
    fun hc => trimEnd_cons (not_blank_of_mem_operatorChars hc) _
  induction h with
  | nil hslot => exact .nil hslot
  | @blank slot b c row t hc _ ih =>
    by_cases hnil : Text.trimEnd t = []
    · rw [hnil] at ih
      obtain ⟨rfl, hslot⟩ := ih.eq_nil
      rw [trimEnd_of_allBlank (.cons hc (allBlank_of_trimEnd_eq_nil hnil))]
      exact .nil hslot
    · have heq := trimEnd_append_of_ne [c] hnil
      rw [List.singleton_append, List.singleton_append] at heq
      rw [heq]
      exact .blank hc ih
  | predicate hslot hw _ ih =>
    rw [trimEnd_append_of_trim_eq hw.trim_eq hw.ne_nil]
    exact .predicate hslot hw ih
  | negation hslot _ ih =>
    rw [trimEnd_cons rfl]
    exact .negation hslot ih
  | branch b hslot hs _ ih =>
    rw [hsymbol b.symbol_mem]
    exact .branch b hslot ((hblank rfl ih).trans hs) ih
  | modality m hs _ ih =>
    rw [hsymbol m.symbol_mem]
    exact .modality m ((hblank rfl ih).trans hs) ih
  | «until» u hslot hs _ ih =>
    rw [hsymbol u.symbol_mem]
    exact .until u hslot ((hblank rfl ih).trans hs) ih
  | connective hslot hc hapart _ ih =>
    have heq := hblank rfl ih
    rw [hsymbol (Connective.char?_mem hc), ← heq]
    exact .connective hslot hc (by rwa [heq]) ih
  | arrow hslot _ ih =>
    rw [trimEnd_cons rfl, trimEnd_cons rfl]
    exact .arrow hslot ih
  | @group _ _ _ _ v t hslot hv _ _ ih =>
    have heq := trimEnd_append_cons ('(' :: v) (c := ')') rfl t
    rw [List.cons_append, List.cons_append] at heq
    rw [heq]
    exact .group hslot hv ih
  | @bounded _ _ _ _ v x y t s _ _ hslot hv hx hy ht hsts _ _ ih =>
    have heq := trimEnd_append_cons ('{' :: (v ++ '}' :: (x ++ '_' :: (y ++ '{' :: t)))) (c := '}')
      rfl s
    simp only [List.cons_append, List.append_assoc] at heq
    rw [heq]
    exact .bounded hslot hv hx hy ht hsts ih

/-- A text without the blanks at its ends spells the same row. -/
lemma exists_trim (h : Spells L slot a row s) : ∃ b, Spells L slot b row (trim s) := by
  obtain ⟨b, hb⟩ := h.exists_trimStart
  exact ⟨b, hb.trimEnd⟩

/-- Rows put one behind the other are spelled by the texts put one behind the other. -/
theorem append (h : Spells L slot a row s) {row' : Row α} {s' : Text}
    (h' : Spells L .behind (endsBlank a s) row' s') : Spells L slot a (row ++ row') (s ++ s') := by
  induction h with
  | @nil slot a hslot =>
    cases slot with
    | start | path => exact absurd hslot (by decide)
    | behind => exact h'
    | closed => exact h'.closed
  | blank hc _ ih =>
    rw [endsBlank, hc] at h'
    exact .blank hc (ih h')
  | @predicate _ _ p w _ t hslot hw _ ih =>
    rw [List.append_assoc]
    refine .predicate hslot hw (ih ?_)
    rwa [endsBlank_append, hw.endsBlank] at h'
  | @negation _ _ _ t hslot h ih =>
    refine .negation hslot (ih ?_)
    rwa [endsBlank, endsBlank_eq_of_ne_nil (h.ne_nil rfl) _ false] at h'
  | @branch _ _ b _ t hslot hs h ih =>
    refine .branch b hslot ?_ (ih ?_)
    · exact (startsBlank_append (h.ne_nil rfl) s').trans hs
    · rwa [endsBlank, endsBlank_eq_of_ne_nil (h.ne_nil rfl) _ false] at h'
  | @modality _ m _ t hs h ih =>
    refine .modality m ?_ (ih ?_)
    · exact (startsBlank_append (h.ne_nil rfl) s').trans hs
    · rwa [endsBlank, endsBlank_eq_of_ne_nil (h.ne_nil rfl) _ false] at h'
  | @«until» _ u _ t hslot hs h ih =>
    refine .until u hslot ?_ (ih ?_)
    · exact (startsBlank_append (h.ne_nil rfl) s').trans hs
    · rwa [endsBlank, endsBlank_eq_of_ne_nil (h.ne_nil rfl) _ false] at h'
  | @connective _ _ _ _ _ t hslot hc hapart h ih =>
    have heq : startsBlank (t ++ s') = startsBlank t := startsBlank_append (h.ne_nil rfl) s'
    rw [List.cons_append, List.cons_append, ← heq]
    refine .connective hslot hc (by rwa [heq]) (ih ?_)
    rwa [endsBlank, endsBlank_eq_of_ne_nil (h.ne_nil rfl) _ false] at h'
  | @arrow _ _ _ t hslot h ih =>
    refine .arrow hslot (ih ?_)
    rwa [endsBlank, endsBlank, endsBlank_eq_of_ne_nil (h.ne_nil rfl) _ false] at h'
  | @group _ _ _ _ v t hslot hv _ _ ih =>
    have heq : '(' :: (v ++ ')' :: t) ++ s' = '(' :: (v ++ ')' :: (t ++ s')) := by simp
    rw [List.cons_append, heq]
    refine .group hslot hv (ih ?_)
    rwa [endsBlank, endsBlank_append, endsBlank] at h'
  | @bounded _ _ _ _ v x y t s _ _ hslot hv hx hy ht hsts _ _ ih =>
    have heq : '{' :: (v ++ '}' :: (x ++ '_' :: (y ++ '{' :: (t ++ '}' :: s)))) ++ s' =
        '{' :: (v ++ '}' :: (x ++ '_' :: (y ++ '{' :: (t ++ '}' :: (s ++ s'))))) := by simp
    rw [List.cons_append, heq]
    refine .bounded hslot hv hx hy ht hsts (ih ?_)
    simp only [endsBlank, endsBlank_append] at h'
    exact h'

end Spells

end TimedReq
