import TimedReq.Proofs.Expr.Composition
import TimedReq.Proofs.Expr.Cutting

/-!
# Texts are read as their rows

The reader of texts and the reader of rows choose the same rule, split at the same operator and
refuse the same inputs, level by level.
-/

namespace TimedReq

open Text

variable {α : Type} {L : Embedding α}

/-- Texts are read as the rows that they spell. -/
def ReadsAs (L : Embedding α) (f : Text → Reading (Expr α)) (g : Row α → Option (Expr α)) : Prop :=
  ∀ {a : Bool} {row : Row α} {s : Text}, Spells L .start a row s → f s = .ofOption (g row)

namespace Spells

variable {slot : Slot} {a : Bool} {row : Row α} {s : Text}

/-- Behind an operand the text goes on with an operator, or only blanks follow. Behind a predicate
blanks are around every operator but an arrow. -/
lemma tail_cases (h : Spells L slot a row s) (hslot : slot.isOpen = false) :
    (row = [] ∧ AllBlank s) ∨
    (∃ v u r row', row = .until u :: row' ∧ s = v ++ u.symbol :: r ∧ AllBlank v ∧
      (a = false → v ≠ []) ∧ startsBlank r = true) ∨
    (∃ v c r apart row', row = .connective c apart :: row' ∧ s = v ++ (c.symbol ++ r) ∧
      AllBlank v ∧ Spells L .start false row' r ∧
      (slot = .behind → c ≠ .implies → (a = false → v ≠ []) ∧ startsBlank r = true)) := by
  induction h with
  | nil => exact .inl ⟨rfl, .nil⟩
  | @blank slot a c row s hc h ih =>
    obtain ⟨hrow, hs⟩ | ⟨v, u, r, row', hrow, hs, hv, -, hr⟩ |
      ⟨v, x, r, apart, row', hrow, hs, hv, hr, hbehind⟩ := ih hslot
    · exact .inl ⟨hrow, .cons hc hs⟩
    · refine .inr (.inl ⟨c :: v, u, r, row', hrow, ?_, .cons hc hv, by simp, hr⟩)
      rw [hs, List.cons_append]
    · refine .inr (.inr ⟨c :: v, x, r, apart, row', hrow, ?_, .cons hc hv, hr, ?_⟩)
      · rw [hs, List.cons_append]
      · intro hb hne
        exact ⟨by simp, (hbehind hb hne).2⟩
  | @«until» slot u row s _ hs _ _ =>
    exact .inr (.inl ⟨[], u, s, row, rfl, rfl, .nil, by simp, hs⟩)
  | @connective slot a c x row s _ hc hapart h _ =>
    have hsymbol : c.symbol = [x] := by
      cases c with
      | implies => simp [Connective.char?] at hc
      | and | or =>
        obtain rfl := Option.some.inj hc
        rfl
    refine .inr (.inr ⟨[], c, s, _, row, rfl, ?_, .nil, h, ?_⟩)
    · rw [hsymbol]
      rfl
    · intro hb _
      obtain ⟨ha, hs⟩ := Bool.and_eq_true_iff.mp (hapart hb)
      exact ⟨by simp [ha], hs⟩
  | @arrow slot a row s _ h _ =>
    exact .inr (.inr ⟨[], .implies, s, true, row, rfl, rfl, .nil, h, by simp⟩)
  | predicate hp | negation hp | branch _ hp | group hp | bounded hp =>
    rw [hslot] at hp
    exact absurd hp (by simp)
  | modality => exact absurd hslot (by decide)

lemma allBlank_of_nil (h : Spells L slot a [] s) (hslot : slot.isOpen = false) : AllBlank s := by
  obtain ⟨-, hs⟩ | ⟨_, _, _, _, hrow, -⟩ | ⟨_, _, _, _, _, hrow, -⟩ := h.tail_cases hslot
  · exact hs
  · simp at hrow
  · simp at hrow

end Spells

lemma Connective.symbol_append (c : Connective) (r : Text) :
    ∃ x t, c.symbol ++ r = x :: (t ++ r) ∧ isBlank x = false ∧
      trimEnd (c.symbol ++ r) = c.symbol ++ trimEnd r := by
  cases c with
  | implies => exact ⟨'-', ['>'], rfl, rfl, trimEnd_append_cons ['-'] rfl r⟩
  | and => exact ⟨'^', [], rfl, rfl, trimEnd_cons rfl r⟩
  | or => exact ⟨'V', [], rfl, rfl, trimEnd_cons rfl r⟩

lemma trim_connective {v : Text} (hv : AllBlank v) (c : Connective) (r : Text) :
    trim (v ++ (c.symbol ++ r)) = c.symbol ++ trimEnd r := by
  obtain ⟨x, t, heq, hx, htrim⟩ := c.symbol_append r
  rw [trim_append_left hv, ← htrim]
  unfold trim
  rw [heq, trimStart_of_not_blank _ hx]

lemma Connective.leading?_symbol (c : Connective) (r : Text) :
    leading? (c.symbol ++ r) = some (c, r) := by
  cases c <;> rfl

lemma trim_until {v : Text} (hv : AllBlank v) (u : Until) (r : Text) :
    trim (v ++ u.symbol :: r) = u.symbol :: trimEnd r := by
  have hu := not_blank_of_mem_operatorChars u.symbol_mem
  rw [trim_append_left hv]
  exact trim_append_cons (a := []) (by simp) hu r

lemma Connective.leading?_until (u : Until) (r : Text) : leading? (u.symbol :: r) = none := by
  cases u <;> rfl

lemma trim_cons_ne {c : Char} {s : Text} (hc : isBlank c = true) : trim (c :: s) ≠ c :: s := by
  intro h
  rw [not_blank_of_trim_eq_cons h] at hc
  exact absurd hc (by simp)

namespace Spells

variable {a : Bool} {s : Text}

lemma of_singleton {p : α} {tight bracketed : Bool}
    (h : Spells L .start a [.predicate p tight bracketed] s) (hs : trim s = s) :
    PredicateText L p s ∧ tight = !s.any isBlank := by
  cases h with
  | blank hc => exact absurd hs (trim_cons_ne hc)
  | @predicate _ _ _ w _ s _ hw h =>
    have hblank := h.allBlank_of_nil rfl
    have hnil : s = [] := by
      rw [trim_append_right hblank, hw.trim_eq] at hs
      simpa using hs
    rw [hnil, List.append_nil]
    exact ⟨hw, rfl⟩

end Spells

/-- What a leading connective tells of the text behind a closing bracket. -/
lemma Spells.leading?_cases {a : Bool} {row : Row α} {s : Text} (h : Spells L .closed a row s) :
    (row = [] ∧ AllBlank s) ∨
    (∃ c r apart row', row = .connective c apart :: row' ∧ trim s ≠ [] ∧
      Connective.leading? (trim s) = some (c, r) ∧ Spells L .start false row' r) ∨
    (∃ v u r row', row = .until u :: row' ∧ trim s ≠ [] ∧ Connective.leading? (trim s) = none ∧
      s = v ++ u.symbol :: r ∧ AllBlank v ∧ startsBlank r = true) := by
  obtain ⟨hrow, hs⟩ | ⟨v, u, r, row', hrow, hs, hv, -, hr⟩ |
    ⟨v, c, r, apart, row', hrow, hs, hv, hr, -⟩ := h.tail_cases rfl
  · exact .inl ⟨hrow, hs⟩
  · refine .inr (.inr ⟨v, u, r, row', hrow, ?_, ?_, hs, hv, hr⟩)
    · rw [hs, trim_until hv]
      simp
    · rw [hs, trim_until hv, Connective.leading?_until]
  · refine .inr (.inl ⟨c, Text.trimEnd r, apart, row', hrow, ?_, ?_, hr.trimEnd⟩)
    · rw [hs, trim_connective hv]
      cases c <;> simp [Connective.symbol]
    · rw [hs, trim_connective hv, Connective.leading?_symbol]

lemma leadingSymbol?_of_startsBlank {β : Type} (symbol? : Char → Option β) (c : Char) {s : Text}
    (hs : startsBlank s = true) : leadingSymbol? symbol? (c :: s) = (symbol? c).map (·, s) := by
  cases s with
  | nil => simp [startsBlank] at hs
  | cons b t => exact if_pos hs

lemma leadingSymbol?_of_none {β : Type} {symbol? : Char → Option β} {c : Char}
    (hc : symbol? c = none) (s : Text) : leadingSymbol? symbol? (c :: s) = none := by
  cases s with
  | nil => rfl
  | cons b t =>
    rw [leadingSymbol?, hc]
    exact ite_self _

/-- The text of a predicate does not begin with an operator. -/
lemma PredicateText.leadingSymbol? {β : Type} {symbol? : Char → Option β}
    (hsymbol : ∀ c, (symbol? c).isSome → c ∈ operatorChars) {p : α} {w : Text}
    (h : PredicateText L p w) (s : Text) : Text.leadingSymbol? symbol? (w ++ s) = none := by
  obtain ⟨c, v, rfl, -, -, hc⟩ := h.head
  by_cases hmem : c ∈ operatorChars
  · obtain ⟨b, t, rfl, hb⟩ := hc hmem
    exact if_neg (by simp [hb])
  · exact leadingSymbol?_of_none (symbol_eq_none hsymbol hmem) _

lemma Spells.path_cases {a : Bool} {row : Row α} {s : Text} (h : Spells L .path a row s)
    (hs : trim s = s) :
    (∃ m r row', row = .modality m :: row' ∧ leadingSymbol? Modality.ofChar? s = some (m, r) ∧
      Spells L .start false row' r) ∨
    leadingSymbol? Modality.ofChar? s = none ∧ ∀ m row', row ≠ .modality m :: row' := by
  cases h with
  | nil hslot | «until» _ hslot | connective hslot | arrow hslot => exact absurd hslot (by decide)
  | blank hc => exact absurd hs (trim_cons_ne hc)
  | @predicate _ _ p w row s _ hw h =>
    refine .inr ⟨hw.leadingSymbol? (fun _ => Modality.mem_operatorChars) s, ?_⟩
    intro m row'
    simp
  | negation | group | bounded => exact .inr ⟨leadingSymbol?_of_none rfl _, by simp⟩
  | @branch _ _ b row s _ hblank h =>
    have hb : Modality.ofChar? b.symbol = none := by cases b <;> rfl
    exact .inr ⟨leadingSymbol?_of_none hb _, by simp⟩
  | @modality _ m row s hblank h =>
    refine .inl ⟨m, s, row, rfl, ?_, h⟩
    rw [leadingSymbol?_of_startsBlank _ _ hblank]
    cases m <;> rfl

namespace ReadsAs

section

variable {two three : Text → Reading (Expr α)} {two' three' : Row α → Option (Expr α)}
  {body row : Row α} {v s : Text}

lemma groupRule (hL : L.KeepsGroups) (htwo : ReadsAs L two two') (hthree : ReadsAs L three three')
    (hv : Spells L .start false body v) (h : Spells L .closed false row s)
    (hs : trim ('(' :: (v ++ ')' :: s)) = '(' :: (v ++ ')' :: s)) :
    Expr.groupRule L two three ('(' :: (v ++ ')' :: s)) =
      .ofOption ((two' body).bind fun e => Row.tailRule three' (.group e) row) := by
  have hend : Text.trimEnd s = s :=
    trimEnd_eq_of_trim (a := '(' :: v) (by simp [isBlank]) rfl hs
  unfold Expr.groupRule
  rw [splitGroup?_bracket hv.neutral rfl]
  obtain ⟨rfl, hblank⟩ | ⟨c, r, apart, row', rfl, hne, hleading, hr⟩ |
    ⟨u, x, r, row', rfl, hne, hleading, hsplit, hu, hr⟩ := h.leading?_cases
  · rw [trimEnd_of_allBlank hblank] at hend
    subst hend
    simp only
    rw [htwo hv]
    cases two' body <;> rfl
  · obtain ⟨y, t, rfl⟩ := List.exists_cons_of_ne_nil (l := s) (by rintro rfl; exact hne rfl)
    simp only
    rw [hleading]
    simp only
    rw [htwo hv, hthree hr]
    simp only [Row.tailRule]
    cases two' body <;> cases three' row' <;> rfl
  · obtain ⟨y, t, rfl⟩ := List.exists_cons_of_ne_nil (l := s) (by rintro rfl; exact hne rfl)
    simp only
    rw [hleading]
    simp only
    unfold Expr.predicateRule
    rw [hsplit, hL.read_group hv.neutral hu x.symbol_mem hr]
    cases two' body <;> rfl

lemma boundedRule (hthree : ReadsAs L three three') {x y t : Text} {first : Statement}
    {more : List Statement} (hv : Spells L .start false body v) (hx : AllBlank x) (hy : AllBlank y)
    (ht : '}' ∉ t)
    (hsts : Statement.parseAll (pieces (· == ',') (Text.trimEnd t)) = .ok (first :: more))
    (h : Spells L .closed false row s) :
    Expr.boundedRule three ('{' :: (v ++ '}' :: (x ++ '_' :: (y ++ '{' :: (t ++ '}' :: s))))) =
      .ofOption ((three' body).bind fun e => Row.tailRule three' (.bounded e first more) row) := by
  have hgroup := splitGroup?_bracket hv.neutral (o := '{') rfl
    (x ++ '_' :: (y ++ '{' :: (t ++ '}' :: s)))
  unfold Expr.boundedRule
  rw [BoundedExpr.split?_eq hgroup hx hy ht]
  simp only
  rw [BoundedExpr.rule_eq_ofParts hgroup, hthree hv, hsts]
  obtain ⟨rfl, hblank⟩ | ⟨c, r, apart, row', rfl, hne, hleading, hr⟩ |
    ⟨u, x, r, row', rfl, hne, hleading, -⟩ := h.leading?_cases
  · rw [trim_of_allBlank hblank]
    cases three' body <;> rfl
  · simp only [if_neg hne, hleading, hthree hr, Row.tailRule]
    cases three' body <;> cases three' row' <;> rfl
  · simp only [if_neg hne, hleading]
    cases three' body <;> rfl

lemma pathRule (hthree : ReadsAs L three three') {a : Bool} (b : Branch)
    (h : Spells L .path a row s) :
    (fun path => Expr.ofBranch ⟨b, path⟩) <$> PathExpr.rule three s =
      .ofOption (Row.pathRule three' b row) := by
  obtain ⟨e, htrim⟩ := h.exists_trim
  unfold PathExpr.rule
  simp only
  obtain ⟨m, r, row', rfl, hleading, hr⟩ | ⟨hleading, hne⟩ := htrim.path_cases (trim_trim s)
  · rw [hleading]
    simp only
    rw [hthree hr, Row.pathRule]
    cases three' row' <;> rfl
  · rw [hleading]
    simp only
    rw [Row.pathRule_of_ne hne]
    obtain ⟨hrow, hcut⟩ | ⟨l, u, r, left, right, hrow, hcut, hl, hr⟩ :=
      (htrim.of_open rfl false).splits_cases (untilCutter L)
    · rw [show Row.cut? Piece.until? row = none from hrow,
        show splitToken? Until.ofChar? (trim s) = none from hcut]
      rfl
    · rw [show Row.cut? Piece.until? row = some (l, u, r) from hrow,
        show splitToken? Until.ofChar? (trim s) = some (left, u, right) from hcut]
      have hl' : Spells L .start false l left := by
        refine hl.start ?_
        rintro m l' rfl
        obtain ⟨x, hrow', -⟩ := Row.cut?_eq_some.mp hrow
        exact hne m _ hrow'
      simp only
      rw [hthree hl', hthree hr]
      cases three' l <;> cases three' r <;> rfl

lemma logicalRule (htwo : ReadsAs L two two') {a : Bool} (h : Spells L .start a row s) :
    Expr.logicalRule two s = .ofOption (Row.splitRule Piece.logical? two' row) := by
  unfold Expr.logicalRule Row.splitRule
  obtain ⟨hrow, hcut⟩ | ⟨l, c, r, left, right, hrow, hcut, hl, hr⟩ :=
    (h.of_open rfl false).splits_cases (logicalCutter L)
  · rw [show Row.cut? Piece.logical? row = none from hrow,
      show splitToken? Connective.ofChar? s = none from hcut]
    rfl
  · rw [show Row.cut? Piece.logical? row = some (l, c, r) from hrow,
      show splitToken? Connective.ofChar? s = some (left, c, right) from hcut]
    simp only
    rw [htwo hl, htwo hr]
    cases two' l <;> cases two' r <;> rfl

lemma implicationRule {one : Text → Reading (Expr α)} {one' : Row α → Option (Expr α)}
    (hone : ReadsAs L one one') {a : Bool} (h : Spells L .start a row s) :
    Expr.implicationRule L one s =
      .ofOption (if (Row.cut? Piece.arrow? row).isSome then Row.splitRule Piece.arrow? one' row
        else (L.read s).map .predicate) := by
  unfold Expr.implicationRule Row.splitRule
  obtain ⟨hrow, hcut⟩ | ⟨l, c, r, left, right, hrow, hcut, hl, hr⟩ := h.splits_cases (arrowCutter L)
  · rw [show Row.cut? Piece.arrow? row = none from hrow,
      show splitArrow? s = none from Option.map_eq_none_iff.mp hcut]
    rfl
  · obtain ⟨⟨left', right'⟩, harrow, heq⟩ := Option.map_eq_some_iff.mp hcut
    obtain ⟨rfl, hpair⟩ := Prod.mk.inj heq
    obtain ⟨rfl, rfl⟩ := Prod.mk.inj hpair
    have hfilled : ¬(trim left' = [] ∨ trim right' = []) := by
      rintro (hnil | hnil)
      · obtain ⟨b, hb⟩ := hl.exists_trim
        exact hb.ne_nil rfl hnil
      · obtain ⟨b, hb⟩ := hr.exists_trim
        exact hb.ne_nil rfl hnil
    rw [show Row.cut? Piece.arrow? row = some (l, .implies, r) from hrow,
      show splitArrow? s = some (left', right') from harrow]
    simp only [Option.isSome_some, if_true]
    rw [if_neg hfilled, hone hl, hone hr]
    cases one' l <;> cases one' r <;> rfl

end

variable {f : Text → Reading (Expr α)} {g : Row α → Option (Expr α)} {a : Bool} {row : Row α}
  {s : Text}

lemma negationRule (hf : ReadsAs L f g)
    (hg : ∀ {row e}, g row = some e → e.isPredicate = row.isPredicate)
    (h : Spells L .start a row s) :
    Expr.negationRule f s = .ofOption (Row.negationRule g row) := by
  obtain ⟨b, htrim⟩ := h.exists_trim
  have hread : f (trim s) = .ofOption (g row) := hf htrim
  unfold Expr.negationRule
  simp only [hread]
  unfold Row.negationRule
  split
  · rename_i p bracketed
    obtain ⟨-, htight⟩ := htrim.of_singleton (trim_trim s)
    have hblank : (trim s).any isBlank = true := by simpa using htight.symm
    cases he : g [.predicate p false bracketed] with
    | none => rfl
    | some e =>
      have hp : e.isPredicate = true := hg he
      simp [Reading.ofOption, bind, Except.bind, hp, hblank]
  · rename_i hne
    cases he : g row with
    | none => rfl
    | some e =>
      have hcond : (e.isPredicate && (trim s).any isBlank) = false := by
        rw [hg he]
        cases hrow : row.isPredicate with
        | false => rfl
        | true =>
          unfold Row.isPredicate at hrow
          split at hrow
          · rename_i p tight bracketed
            obtain ⟨-, htight⟩ := htrim.of_singleton (trim_trim s)
            cases tight with
            | true => simpa using htight
            | false => exact absurd rfl (hne p bracketed)
          · simp at hrow
      simp [Reading.ofOption, bind, Except.bind, hcond, pure, Except.pure]

end ReadsAs

/-- No predicate is read where the text goes on behind a predicate. -/
lemma PredicateText.read_tail {p : α} {w : Text} (hw : PredicateText L p w) {row : Row α} {s : Text}
    (h : Spells L .behind false row s) (hrow : row ≠ []) : L.read (w ++ s) = none := by
  obtain ⟨hnil, -⟩ | ⟨v, u, r, row', -, rfl, hv, hne, hr⟩ | ⟨v, c, r, apart, row', -, rfl, hv, -, hc⟩ :=
    h.tail_cases rfl
  · exact absurd hnil hrow
  · exact hw.read_operator hv (hne rfl) u.symbol_mem hr
  · cases c with
    | implies => exact hw.read_arrow hv
    | and =>
      obtain ⟨hne, hr⟩ := hc rfl (by simp)
      exact hw.read_operator hv (hne rfl) (by decide) hr
    | or =>
      obtain ⟨hne, hr⟩ := hc rfl (by simp)
      exact hw.read_operator hv (hne rfl) (by decide) hr

namespace ReadsAs

variable {one two three : Text → Reading (Expr α)} {one' two' three' : Row α → Option (Expr α)}
  {row : Row α} {s : Text}

/-- A predicate with a bracket in front is taken for a group and not split. -/
lemma groupRule_predicate {p : α} {w : Text} (hw : PredicateText L p w)
    (hbracket : w.head? = some '(') (h : Spells L .behind false row s)
    (hs : trim (w ++ s) = w ++ s) :
    Expr.groupRule L two three (w ++ s) =
      .ofOption (if row.isEmpty then some (.predicate p) else none) := by
  obtain ⟨inner, after, heq, hinner, hafter⟩ := hw.bracket hbracket
  obtain ⟨hne, hleading⟩ := hafter s
  have htext : w ++ s = '(' :: (inner ++ ')' :: (after ++ s)) := by
    rw [heq]
    simp
  have hrule : Expr.groupRule L two three (w ++ s) = Expr.predicateRule L (w ++ s) := by
    obtain ⟨c, t, hcons⟩ := List.exists_cons_of_ne_nil (l := after ++ s)
      (by intro hnil; rw [hnil] at hne; exact hne rfl)
    unfold Expr.groupRule
    rw [htext, splitGroup?_bracket hinner rfl]
    rw [hcons] at hleading ⊢
    simp only
    rw [hleading]
  rw [hrule, Expr.predicateRule]
  cases row with
  | nil =>
    have hnil : s = [] := by
      rw [trim_append_right (h.allBlank_of_nil rfl), hw.trim_eq] at hs
      simpa using hs
    rw [hnil, List.append_nil, hw.read_eq]
    rfl
  | cons x row =>
    rw [hw.read_tail h (by simp)]
    rfl

/-- A text with a predicate in front is split at an operator, or it is the predicate. -/
lemma splitRules (hone : ReadsAs L one one') (htwo : ReadsAs L two two') {p : α} {w : Text}
    (hw : PredicateText L p w) (h : Spells L .behind false row s) (hs : trim (w ++ s) = w ++ s)
    {tight bracketed a : Bool}
    (hrow : Spells L .start a (.predicate p tight bracketed :: row) (w ++ s)) :
    ((Expr.logicalRule two (w ++ s)).orElse fun _ => Expr.implicationRule L one (w ++ s)) =
      .ofOption (if row.isEmpty then some (.predicate p)
        else (Row.splitRule Piece.logical? two' (.predicate p tight bracketed :: row)).or
          (Row.splitRule Piece.arrow? one' (.predicate p tight bracketed :: row))) := by
  rw [logicalRule htwo hrow, implicationRule hone hrow, Reading.orElse_ofOption]
  congr 1
  cases row with
  | nil =>
    have hnil : s = [] := by
      rw [trim_append_right (h.allBlank_of_nil rfl), hw.trim_eq] at hs
      simpa using hs
    rw [hnil, List.append_nil, hw.read_eq]
    rfl
  | cons x row =>
    rw [hw.read_tail h (by simp)]
    simp only [List.isEmpty_cons, Bool.false_eq_true, if_false]
    have hfound : (if (Row.cut? Piece.arrow? (.predicate p tight bracketed :: x :: row)).isSome then
          Row.splitRule Piece.arrow? one' (.predicate p tight bracketed :: x :: row)
        else (none : Option α).map .predicate) =
        Row.splitRule Piece.arrow? one' (.predicate p tight bracketed :: x :: row) := by
      unfold Row.splitRule
      cases Row.cut? Piece.arrow? (.predicate p tight bracketed :: x :: row) <;> rfl
    rw [hfound]

/-- One rule reads texts as their rows if the rules for the parts do. -/
theorem rule (hL : L.KeepsGroups) (hone : ReadsAs L one one') (htwo : ReadsAs L two two')
    (hthree : ReadsAs L three three')
    (hpredicate : ∀ {row e}, two' row = some e → e.isPredicate = row.isPredicate) :
    ReadsAs L (Expr.rule L one two three) (Row.rule one' two' three') := by
  intro a row s h
  obtain ⟨e, htrim⟩ := h.exists_trim
  clear h
  have hs := trim_trim s
  unfold Expr.rule
  generalize trim s = t at htrim hs
  cases htrim with
  | nil hslot | «until» _ hslot | connective hslot | arrow hslot => exact absurd hslot (by decide)
  | blank hc => exact absurd hs (trim_cons_ne hc)
  | negation _ h => exact htwo.negationRule hpredicate h
  | group _ hv h => exact groupRule hL htwo hthree hv h hs
  | bounded _ hv hx hy ht hsts h => exact boundedRule hthree hv hx hy ht hsts h
  | @branch _ _ b row s _ hblank h =>
    have hleading : leadingSymbol? Branch.ofChar? (b.symbol :: s) = some (b, s) := by
      rw [leadingSymbol?_of_startsBlank _ _ hblank]
      cases b <;> rfl
    have hbranch : Expr.ofBranch <$> BranchExpr.rule three (b.symbol :: s) =
        .ofOption (Row.pathRule three' b row) := by
      rw [← pathRule hthree b h]
      unfold BranchExpr.rule
      rw [hs, hleading]
      simp only
      cases PathExpr.rule three s <;> rfl
    have hdefault : ∀ t, t = b.symbol :: s →
        (if (leadingSymbol? Branch.ofChar? t).isSome then Expr.ofBranch <$> BranchExpr.rule three t
          else (Expr.logicalRule two t).orElse fun _ => Expr.implicationRule L one t) =
        .ofOption (Row.pathRule three' b row) := by
      rintro t rfl
      rw [hleading, Option.isSome_some, if_pos rfl, hbranch]
    cases b <;> exact hdefault _ rfl
  | @predicate _ _ p w row s hslot hw h =>
    have hrow := Spells.predicate (a := false) hslot hw h
    obtain ⟨c, v, rfl, hneg, hbrace, -⟩ := hw.head
    by_cases hc : c = '('
    · subst hc
      have hgroup : Expr.groupRule L two three _ = _ := groupRule_predicate hw rfl h hs
      exact hgroup.trans (by cases row <;> rfl)
    · have hleading := hw.leadingSymbol? (fun _ => Branch.mem_operatorChars) s
      have hsplit := splitRules hone htwo hw h hs hrow
      rw [List.cons_append] at hleading hsplit ⊢
      split
      · simp at *
      · rename_i heq
        exact absurd (List.cons.inj heq).1 hneg
      · rename_i heq
        exact absurd (List.cons.inj heq).1 hbrace
      · rename_i heq
        exact absurd (List.cons.inj heq).1 hc
      · rw [hleading, if_neg (by simp), hsplit, Row.rule,
          if_neg (c := ((c :: v).head? == some '(') = true) (by simpa using hc)]

end ReadsAs

/-- A text that spells a row is read as the row is, at every level. -/
theorem readsAs_readLevels (hL : L.KeepsGroups) (n : Nat) :
    ReadsAs L (Expr.readLevels L n) (Row.read n) := by
  induction n using Nat.strongRecOn with
  | ind n ih =>
    cases n with
    | zero =>
      intro a row s _
      rw [Expr.readLevels, Row.read]
      rfl
    | succ n =>
      intro a row s h
      rw [Expr.readLevels, Row.read_succ]
      exact ReadsAs.rule hL (ih n (by omega)) (ih (n - 1) (by omega)) (ih (n - 2) (by omega))
        Row.isPredicate_of_read h

end TimedReq
