import TimedReq.Proofs.Expr.Spelling

/-!
# Splitting spelled texts

The text of a row is split at the same operator as the row, into texts that spell the two parts.
The searches for an operator between blanks and for an arrow are treated alike: each passes over
the text of a piece or stops at it.
-/

namespace TimedReq

open Text

variable {α : Type} {L : Embedding α} {β : Type}

/-- What is split, with a text put in front of the left part. -/
def prepend (t : Text) (x : Text × β × Text) : Text × β × Text := (t ++ x.1, x.2)

/-- A search in texts that stops where `piece?` stops in rows. -/
structure Cutter (L : Embedding α) (β : Type) where
  piece? : Piece α → Option β
  cut : Bool → Text → List (Option Int) → Option (Text × β × Text)
  /-- The search passes over the text, whatever follows it. -/
  Free : Bool → Text → List (Option Int) → Prop
  cut_nil : ∀ a, cut a [] [] = none
  free_nil : ∀ a, Free a [] []
  cut_append : ∀ {a : Bool} {w : Text} {ns : List (Option Int)}, Free a w ns →
    ns.length = w.length → ∀ s ds,
      cut a (w ++ s) (ns ++ ds) = (cut (endsBlank a w) s ds).map (prepend w)
  exists_append : ∀ {a : Bool} {s : Text} {ds : List (Option Int)} {u : Text} {y : β} {v : Text},
    cut a s ds = some (u, y, v) → ∃ q, s = u ++ q
  free_char : ∀ {c : Char}, c ∉ operatorChars → c ≠ '-' → ∀ a, Free a [c] [some 0]
  free_predicate : ∀ {p : α} {w : Text}, PredicateText L p w →
    ∀ a, Free a w (nestingFrom false 0 w)
  free_bracket : ∀ {o c : Char} {v : Text}, IsOpening o → IsClosing c → Neutral v →
    ∀ a, Free a (o :: (v ++ [c])) (nestingFrom false 0 (o :: (v ++ [c])))
  free_append : ∀ {a : Bool} {v w : Text} {ms ns : List (Option Int)}, Free a v ms →
    ms.length = v.length → Free (endsBlank a v) w ns → Free a (v ++ w) (ms ++ ns)
  free_branch : ∀ (b : Branch) (a : Bool), Free a [b.symbol] [some 0]
  free_modality : ∀ (m : Modality) (a : Bool), Free a [m.symbol] [some 0]
  piece?_eq_none : ∀ {x : Piece α}, x.isInfix = false → piece? x = none
  cut_until : ∀ (u : Until) (s : Text) (ds : List (Option Int)), startsBlank s = true →
    cut true (u.symbol :: s) (some 0 :: ds) =
      match piece? (.until u) with
      | some y => some ([], y, s)
      | none => (cut false s ds).map (prepend [u.symbol])
  cut_connective : ∀ {c : Connective} {x : Char} (a : Bool) (s : Text) (ds : List (Option Int)),
    c.char? = some x → cut a (x :: s) (some 0 :: ds) =
      match piece? (.connective c (a && startsBlank s)) with
      | some y => some ([], y, s)
      | none => (cut false s ds).map (prepend [x])
  cut_arrow : ∀ (a : Bool) (s : Text) (ds : List (Option Int)),
    cut a ('-' :: '>' :: s) (some 0 :: some 0 :: ds) =
      match piece? (.connective .implies true) with
      | some y => some ([], y, s)
      | none => (cut false s ds).map (prepend ['-', '>'])

namespace Cutter

/-- The text is split as the row is, into texts that spell the parts. -/
def Splits (C : Cutter L β) (slot : Slot) (a : Bool) (row : Row α) (s : Text) : Prop :=
  match Row.cut? C.piece? row with
  | none => C.cut a s (nestingFrom false 0 s) = none
  | some (l, y, r) => ∃ u v, C.cut a s (nestingFrom false 0 s) = some (u, y, v) ∧
      Spells L slot a l u ∧ Spells L .start false r v

variable {C : Cutter L β}

/-- Text of a piece at which the search does not stop is put in front of the left part. -/
lemma Splits.pass {slot slot' : Slot} {a b : Bool} {x : Piece α} {row : Row α} {t s : Text}
    (h : C.Splits slot' b row s) (hx : C.piece? x = none)
    (hcut : C.cut a (t ++ s) (nestingFrom false 0 (t ++ s)) =
      (C.cut b s (nestingFrom false 0 s)).map (prepend t))
    (hspells : ∀ l u q, s = u ++ q → Spells L slot' b l u → Spells L slot a (x :: l) (t ++ u)) :
    C.Splits slot a (x :: row) (t ++ s) := by
  unfold Splits at h ⊢
  rw [Row.cut?, hx]
  simp only
  cases hrow : Row.cut? C.piece? row with
  | none =>
    rw [hrow] at h
    simp only [Option.map_none]
    rw [hcut, h]
    rfl
  | some found =>
    obtain ⟨l, y, r⟩ := found
    rw [hrow] at h
    obtain ⟨u, v, hfound, hl, hr⟩ := h
    obtain ⟨q, hq⟩ := C.exists_append hfound
    simp only [Option.map_some]
    refine ⟨t ++ u, v, ?_, hspells l u q hq hl, hr⟩
    rw [hcut, hfound]
    rfl

/-- The search stops at a piece. -/
lemma Splits.stop {slot : Slot} {a : Bool} {x : Piece α} {y : β} {row : Row α} {t s : Text}
    (hx : C.piece? x = some y) (hcut : C.cut a t (nestingFrom false 0 t) = some ([], y, s))
    (hslot : slot.isOpen = false) (h : Spells L .start false row s) :
    C.Splits slot a (x :: row) t := by
  unfold Splits
  rw [Row.cut?, hx]
  exact ⟨[], s, hcut, .nil hslot, h⟩

/-- The text closes its brackets, and the search passes over it. -/
structure Passes (C : Cutter L β) (a : Bool) (t : Text) : Prop where
  neutral : Neutral t
  free : C.Free a t (nestingFrom false 0 t)

/-- A text that is passed over is put in front of the left part. -/
lemma Passes.cut {a : Bool} {t : Text} (h : C.Passes a t) (s : Text) :
    C.cut a (t ++ s) (nestingFrom false 0 (t ++ s)) =
      (C.cut (endsBlank a t) s (nestingFrom false 0 s)).map (prepend t) := by
  rw [h.neutral.nestingFrom_append]
  exact C.cut_append h.free (length_nestingFrom _ _ _) s _

lemma Passes.append {a : Bool} {v w : Text} (hv : C.Passes a v)
    (hw : C.Passes (endsBlank a v) w) : C.Passes a (v ++ w) := by
  refine ⟨hv.neutral.append hw.neutral, ?_⟩
  rw [hv.neutral.nestingFrom_append]
  exact C.free_append hv.free (length_nestingFrom _ _ _) hw.free

lemma Passes.char {a : Bool} {c : Char} (hc : IsPlain c) (h : C.Free a [c] [some 0]) :
    C.Passes a [c] := by
  refine ⟨.singleton hc, ?_⟩
  rwa [show nestingFrom false 0 [c] = [some 0] from nestingFrom_plain 0 [] hc]

lemma Passes.blank {c : Char} (hc : isBlank c = true) (a : Bool) : C.Passes a [c] := by
  refine .char (isPlain_of_isBlank hc) (C.free_char ?_ ?_ a)
  · intro hmem
    rw [not_blank_of_mem_operatorChars hmem] at hc
    exact absurd hc (by simp)
  · rintro rfl
    exact absurd hc (by decide)

lemma Passes.nil (a : Bool) : C.Passes a [] := ⟨.nil, C.free_nil a⟩

lemma Passes.allBlank {u : Text} (hu : AllBlank u) (a : Bool) : C.Passes a u := by
  induction u generalizing a with
  | nil => exact .nil a
  | cons c u ih => exact Passes.append (v := [c]) (.blank hu.of_cons.1 a) (ih hu.of_cons.2 _)

lemma Passes.bracket {o c : Char} {v : Text} (ho : IsOpening o) (hc : IsClosing c)
    (hv : Neutral v) (a : Bool) : C.Passes a (o :: (v ++ [c])) :=
  ⟨hv.bracket ho hc, C.free_bracket ho hc hv a⟩

lemma Passes.predicate {p : α} {w : Text} (hw : PredicateText L p w) (a : Bool) : C.Passes a w :=
  ⟨hw.neutral, C.free_predicate hw a⟩

/-- The braces of a bounded expression with its statements are passed over. -/
lemma Passes.bounded {v x y t : Text} (hv : Neutral v) (hx : AllBlank x) (hy : AllBlank y)
    (ht : Neutral t) (a : Bool) :
    C.Passes a ('{' :: (v ++ ['}']) ++ (x ++ (['_'] ++ (y ++ '{' :: (t ++ ['}']))))) := by
  refine (bracket (.inr rfl) (.inr rfl) hv a).append ((allBlank hx _).append ?_)
  refine Passes.append (.char (by decide) (C.free_char (by decide) (by decide) _)) ?_
  exact (allBlank hy _).append (bracket (.inr rfl) (.inr rfl) ht _)

lemma cut_symbol {a : Bool} {c : Char} (hc : c ∈ operatorChars) (hfree : C.Free a [c] [some 0])
    (s : Text) : C.cut a ([c] ++ s) (nestingFrom false 0 ([c] ++ s)) =
      (C.cut false s (nestingFrom false 0 s)).map (prepend [c]) := by
  have hcut := (Passes.char (isPlain_of_mem_operatorChars hc) hfree).cut s
  rwa [endsBlank, endsBlank, not_blank_of_mem_operatorChars hc] at hcut

/-- Blanks are put in front of the left part. -/
lemma splits_blank {slot : Slot} {a : Bool} {c : Char} {row : Row α} {s : Text}
    (hc : isBlank c = true) (h : C.Splits slot true row s) : C.Splits slot a row (c :: s) := by
  have hcut := (Passes.blank (C := C) hc a).cut s
  rw [endsBlank, endsBlank, hc, List.singleton_append] at hcut
  unfold Splits at h ⊢
  cases hrow : Row.cut? C.piece? row with
  | none =>
    rw [hrow] at h
    simp only at h ⊢
    rw [hcut, h]
    rfl
  | some found =>
    obtain ⟨l, y, r⟩ := found
    rw [hrow] at h
    obtain ⟨u, v, hfound, hl, hr⟩ := h
    refine ⟨c :: u, v, ?_, .blank hc hl, hr⟩
    rw [hcut, hfound]
    rfl

end Cutter

lemma startsBlank_of_append {s u q : Text} (h : s = u ++ q) (hu : u ≠ []) :
    startsBlank u = startsBlank s := by
  rw [h, startsBlank_append hu]

/-- A text that spells a row is split as the row is. -/
theorem Spells.splits (C : Cutter L β) {slot : Slot} {a : Bool} {row : Row α} {s : Text}
    (h : Spells L slot a row s) : C.Splits slot a row s := by
  have hns : ∀ {c : Char} (s : Text), c ∈ operatorChars →
      nestingFrom false 0 (c :: s) = some 0 :: nestingFrom false 0 s :=
    fun s hc => nestingFrom_plain 0 s (isPlain_of_mem_operatorChars hc)
  induction h with
  | nil hslot => exact C.cut_nil _
  | @blank slot a c row s hc h ih =>
    exact C.splits_blank hc ih
  | @predicate slot a p w row s hslot hw h ih =>
    have hcut := (Cutter.Passes.predicate (C := C) hw a).cut s
    rw [hw.endsBlank] at hcut
    exact ih.pass (C.piece?_eq_none rfl) hcut fun l u q _ hl => .predicate hslot hw hl
  | @negation slot a row s hslot h ih =>
    have hfree : C.Free a ['!'] [some 0] := C.free_char (by decide) (by decide) a
    have hcut := (Cutter.Passes.char (by decide) hfree).cut s
    exact ih.pass (C.piece?_eq_none rfl) hcut fun l u q _ hl => .negation hslot hl
  | @branch slot a b row s hslot hs h ih =>
    have hcut := C.cut_symbol b.symbol_mem (C.free_branch b a) s
    refine ih.pass (C.piece?_eq_none rfl) hcut fun l u q hq hl => .branch b hslot ?_ hl
    exact (startsBlank_of_append hq (hl.ne_nil rfl)).trans hs
  | @modality a m row s hs h ih =>
    have hcut := C.cut_symbol m.symbol_mem (C.free_modality m a) s
    refine ih.pass (C.piece?_eq_none rfl) hcut fun l u q hq hl => .modality m ?_ hl
    exact (startsBlank_of_append hq (hl.ne_nil rfl)).trans hs
  | @«until» slot u row s hslot hs h ih =>
    have hcut := C.cut_until u s (nestingFrom false 0 s) hs
    rw [← hns s u.symbol_mem] at hcut
    cases hy : C.piece? (.until u) with
    | some y =>
      rw [hy] at hcut
      exact .stop hy hcut hslot h
    | none =>
      rw [hy] at hcut
      refine ih.pass (t := [u.symbol]) hy hcut fun l v q hq hl => .until u hslot ?_ hl
      exact (startsBlank_of_append hq (hl.ne_nil rfl)).trans hs
  | @connective slot a c x row s hslot hc hapart h ih =>
    have hcut := C.cut_connective a s (nestingFrom false 0 s) hc
    rw [← hns s (Connective.char?_mem hc)] at hcut
    cases hy : C.piece? (.connective c (a && startsBlank s)) with
    | some y =>
      rw [hy] at hcut
      exact .stop hy hcut hslot h
    | none =>
      rw [hy] at hcut
      refine ih.pass (t := [x]) hy hcut fun l v q hq hl => ?_
      have hstarts := startsBlank_of_append hq (hl.ne_nil rfl)
      rw [← hstarts] at hapart ⊢
      exact .connective hslot hc hapart hl
  | @arrow slot a row s hslot h ih =>
    have hcut := C.cut_arrow a s (nestingFrom false 0 s)
    have harrow : nestingFrom false 0 ('-' :: '>' :: s) =
        some 0 :: some 0 :: nestingFrom false 0 s := by
      rw [nestingFrom_plain 0 _ (by decide), nestingFrom_plain 0 _ (by decide)]
    rw [← harrow] at hcut
    cases hy : C.piece? (.connective .implies true) with
    | some y =>
      rw [hy] at hcut
      exact .stop hy hcut hslot h
    | none =>
      rw [hy] at hcut
      exact ih.pass (t := ['-', '>']) hy hcut fun l v q _ hl => .arrow hslot hl
  | @group slot a body row v s hslot hv h ihv ih =>
    have heq : ∀ u, '(' :: (v ++ ')' :: u) = '(' :: (v ++ [')']) ++ u := by simp
    have hcut := (Cutter.Passes.bracket (C := C) (.inl rfl) (.inl rfl) hv.neutral a).cut s
    rw [endsBlank, endsBlank_append] at hcut
    rw [heq]
    refine ih.pass (C.piece?_eq_none rfl) hcut fun l u q _ hl => ?_
    rw [← heq]
    exact .group hslot hv hl
  | @bounded slot a body row v x y t s first more hslot hv hx hy ht hsts h ihv ih =>
    have heq : ∀ u, '{' :: (v ++ '}' :: (x ++ '_' :: (y ++ '{' :: (t ++ '}' :: u)))) =
        '{' :: (v ++ ['}']) ++ (x ++ (['_'] ++ (y ++ '{' :: (t ++ ['}'])))) ++ u := by simp
    have hneutral := Statement.neutral_of_parseAll hsts
    have hcut := (Cutter.Passes.bounded (C := C) hv.neutral hx hy hneutral a).cut s
    simp only [endsBlank, endsBlank_append] at hcut
    rw [heq]
    refine ih.pass (C.piece?_eq_none rfl) hcut fun l u q _ hl => ?_
    rw [← heq]
    exact .bounded hslot hv hx hy ht hsts hl

theorem Spells.splits_cases (C : Cutter L β) {slot : Slot} {a : Bool} {row : Row α} {s : Text}
    (h : Spells L slot a row s) :
    (Row.cut? C.piece? row = none ∧ C.cut a s (nestingFrom false 0 s) = none) ∨
    ∃ l y r u v, Row.cut? C.piece? row = some (l, y, r) ∧
      C.cut a s (nestingFrom false 0 s) = some (u, y, v) ∧ Spells L slot a l u ∧
      Spells L .start false r v := by
  have hsplits := h.splits C
  unfold Cutter.Splits at hsplits
  split at hsplits
  · rename_i hrow
    exact .inl ⟨hrow, hsplits⟩
  · rename_i l y r hrow
    obtain ⟨u, v, hcut, hl, hr⟩ := hsplits
    exact .inr ⟨l, y, r, u, v, hrow, hcut, hl, hr⟩

lemma cutAtToken_eq {symbol? : Char → Option β} (a : Bool) (c : Char) (s : Text)
    (ds : List (Option Int)) :
    cutAtToken symbol? a (c :: s) (some 0 :: ds) =
      match if a && startsBlank s then symbol? c else none with
      | some y => some ([], y, s)
      | none => (cutAtToken symbol? (isBlank c) s ds).map (prepend [c]) := by
  by_cases hapart : (a && startsBlank s) = true
  · obtain ⟨rfl, hs⟩ := Bool.and_eq_true_iff.mp hapart
    rw [if_pos hapart]
    cases hy : symbol? c with
    | some y =>
      cases s with
      | nil => exact absurd hs (by simp [startsBlank])
      | cons b t =>
        rw [cutAtToken, hy]
        exact if_pos ⟨rfl, rfl, hs⟩
    | none =>
      refine cutAtToken_cons ?_
      rw [hy]
      simp
  · rw [if_neg hapart]
    refine cutAtToken_cons ?_
    rintro - - rfl
    simpa using hapart

lemma symbol_eq_none {symbol? : Char → Option β}
    (hsymbol : ∀ c, (symbol? c).isSome → c ∈ operatorChars) {c : Char} (hc : c ∉ operatorChars) :
    symbol? c = none := by
  by_contra hne
  exact hc (hsymbol c (Option.isSome_iff_ne_none.mpr hne))

lemma tokenFree_singleton {symbol? : Char → Option β} {c : Char} (hc : symbol? c = none) (a : Bool)
    (ns : List (Option Int)) : TokenFree symbol? a [c] ns := by
  refine TokenFree.of_symbols (fun x hx => ?_) a ns
  obtain rfl := List.mem_singleton.mp hx
  exact hc

/-- What lies in brackets is passed over. -/
lemma tokenFree_bracket {symbol? : Char → Option β}
    (hsymbol : ∀ c, (symbol? c).isSome → c ∈ operatorChars) {o c : Char} {v : Text}
    (ho : IsOpening o) (hc : IsClosing c) (hv : Neutral v) (a : Bool) :
    TokenFree symbol? a (o :: (v ++ [c])) (nestingFrom false 0 (o :: (v ++ [c]))) := by
  have hfree : ∀ {x : Char}, x ∉ operatorChars → ∀ a ns, TokenFree symbol? a [x] ns :=
    fun hx => tokenFree_singleton (symbol_eq_none hsymbol hx)
  have hdeep : ∀ k, some k ∈ nestingFrom false (0 + 1) v → 1 ≤ k := by
    intro k hk
    have hle := hv.le_depth _ k hk
    omega
  rw [hv.nestingFrom_bracket ho hc]
  refine TokenFree.append (v := [o]) (hfree ?_ a [some 0]) rfl ?_
  · rcases ho with rfl | rfl <;> decide
  · refine (TokenFree.of_depth hdeep _ v).append (length_nestingFrom _ _ _) (hfree ?_ _ _)
    rcases hc with rfl | rfl <;> decide

lemma arrowFree_singleton {c : Char} (hc : c ≠ '-') (ns : List (Option Int)) :
    ArrowFree [c] ns := by
  refine ArrowFree.of_ne (fun x hx => ?_) ns
  obtain rfl := List.mem_singleton.mp hx
  exact hc

lemma arrowFree_bracket {o c : Char} {v : Text} (ho : IsOpening o) (hc : IsClosing c)
    (hv : Neutral v) : ArrowFree (o :: (v ++ [c])) (nestingFrom false 0 (o :: (v ++ [c]))) := by
  have hdeep : ∀ k, some k ∈ nestingFrom false (0 + 1) v → 1 ≤ k := by
    intro k hk
    have hle := hv.le_depth _ k hk
    omega
  rw [hv.nestingFrom_bracket ho hc]
  refine ArrowFree.append (v := [o]) (arrowFree_singleton ?_ [some 0]) rfl ?_
  · rcases ho with rfl | rfl <;> decide
  · refine (ArrowFree.of_depth hdeep v).append (length_nestingFrom _ _ _) (arrowFree_singleton ?_ _)
    rcases hc with rfl | rfl <;> decide

lemma ne_of_mem_operatorChars {c : Char} (hc : c ∈ operatorChars) : c ≠ '-' := by
  rintro rfl
  exact absurd hc (by decide)

/-- The search for an operator between blanks. -/
def tokenCutter (L : Embedding α) {symbol? : Char → Option β} {piece? : Piece α → Option β}
    (hsymbol : ∀ c, (symbol? c).isSome → c ∈ operatorChars)
    (hbranch : ∀ b : Branch, symbol? b.symbol = none)
    (hmodality : ∀ m : Modality, symbol? m.symbol = none)
    (hpiece : ∀ {x : Piece α}, x.isInfix = false → piece? x = none)
    (huntil : ∀ u, piece? (.until u) = symbol? u.symbol)
    (hconnective : ∀ {c : Connective} {x : Char} (apart : Bool), c.char? = some x →
      piece? (.connective c apart) = if apart then symbol? x else none)
    (harrow : piece? (.connective .implies true) = none) : Cutter L β where
  piece? := piece?
  cut := cutAtToken symbol?
  Free := TokenFree symbol?
  cut_nil := fun a => rfl
  free_nil := fun a => trivial
  cut_append := cutAtToken_append
  exists_append := by
    intro a s ds u y v h
    obtain ⟨c, hs, -⟩ := eq_of_cutAtToken h
    exact ⟨c :: v, hs⟩
  free_char := fun hc _ a => tokenFree_singleton (symbol_eq_none hsymbol hc) a _
  free_predicate := fun hw a => (hw.tokenFree symbol? hsymbol 0).mono a
  free_bracket := tokenFree_bracket hsymbol
  free_append := TokenFree.append
  free_branch := fun b a => tokenFree_singleton (hbranch b) a _
  free_modality := fun m a => tokenFree_singleton (hmodality m) a _
  piece?_eq_none := hpiece
  cut_until := by
    intro u s ds hs
    rw [cutAtToken_eq, hs, huntil, not_blank_of_mem_operatorChars u.symbol_mem]
    rfl
  cut_connective := by
    intro c x a s ds hc
    rw [cutAtToken_eq, hconnective _ hc, not_blank_of_mem_operatorChars (Connective.char?_mem hc)]
  cut_arrow := by
    intro a s ds
    have hnone : ∀ {c : Char}, c ∉ operatorChars → ∀ (a : Bool) (s : Text) (ds : List (Option Int)),
        cutAtToken symbol? a (c :: s) (some 0 :: ds) =
          (cutAtToken symbol? (isBlank c) s ds).map (prepend [c]) := by
      intro c hc a s ds
      rw [cutAtToken_eq, symbol_eq_none hsymbol hc, ite_self]
    rw [harrow, hnone (by decide), hnone (by decide), Option.map_map]
    rfl

lemma Piece.logical?_eq_none {x : Piece α} (hx : x.isInfix = false) : x.logical? = none := by
  cases x with
  | «until» | connective => simp [isInfix] at hx
  | _ => rfl

lemma Piece.arrow?_eq_none {x : Piece α} (hx : x.isInfix = false) : x.arrow? = none := by
  cases x with
  | «until» | connective => simp [isInfix] at hx
  | _ => rfl

lemma Piece.until?_eq_none {x : Piece α} (hx : x.isInfix = false) : x.until? = none := by
  cases x with
  | «until» | connective => simp [isInfix] at hx
  | _ => rfl

lemma Piece.logical?_connective {c : Connective} {x : Char} (apart : Bool) (hc : c.char? = some x) :
    (connective c apart : Piece α).logical? = if apart then Connective.ofChar? x else none := by
  cases c with
  | implies => simp [Connective.char?] at hc
  | and | or =>
    obtain rfl := Option.some.inj hc
    cases apart <;> rfl

lemma Until.ofChar?_char {c : Connective} {x : Char} (hc : c.char? = some x) :
    Until.ofChar? x = none := by
  cases c with
  | implies => simp [Connective.char?] at hc
  | and | or =>
    obtain rfl := Option.some.inj hc
    rfl

/-- The search for `^` or `V`. -/
def logicalCutter (L : Embedding α) : Cutter L Connective :=
  tokenCutter L (fun _ => Connective.mem_operatorChars) (by rintro (_ | _) <;> rfl)
    (by rintro (_ | _ | _) <;> rfl) Piece.logical?_eq_none (by rintro (_ | _) <;> rfl)
    Piece.logical?_connective rfl

/-- The search for an "until". -/
def untilCutter (L : Embedding α) : Cutter L Until :=
  tokenCutter L (fun _ => Until.mem_operatorChars) (by rintro (_ | _) <;> rfl)
    (by rintro (_ | _ | _) <;> rfl) Piece.until?_eq_none (by rintro (_ | _) <;> rfl)
    (by
      intro c x apart hc
      rw [Until.ofChar?_char hc, ite_self]
      rfl) rfl

/-- The search for an arrow. -/
def arrowCutter (L : Embedding α) : Cutter L Connective where
  piece? := Piece.arrow?
  cut := fun _ s ds => (cutAtArrow s ds).map fun (l, r) => (l, .implies, r)
  Free := fun _ w ns => ArrowFree w ns
  cut_nil := fun _ => rfl
  free_nil := fun _ => trivial
  cut_append := by
    intro a w ns h hlen s ds
    rw [cutAtArrow_append h hlen, Option.map_map, Option.map_map]
    rfl
  exists_append := by
    intro a s ds u y v h
    obtain ⟨⟨l, r⟩, hcut, heq⟩ := Option.map_eq_some_iff.mp h
    obtain ⟨rfl, -⟩ := Prod.mk.inj heq
    exact ⟨'-' :: '>' :: r, eq_of_cutAtArrow hcut⟩
  free_char := fun _ hc _ => arrowFree_singleton hc _
  free_predicate := fun hw _ => hw.arrowFree 0
  free_bracket := fun ho hc hv _ => arrowFree_bracket ho hc hv
  free_append := fun hv hm hw => hv.append hm hw
  free_branch := fun b _ => arrowFree_singleton (ne_of_mem_operatorChars b.symbol_mem) _
  free_modality := fun m _ => arrowFree_singleton (ne_of_mem_operatorChars m.symbol_mem) _
  piece?_eq_none := Piece.arrow?_eq_none
  cut_until := by
    intro u s ds _
    rw [cutAtArrow_cons fun h => absurd h (ne_of_mem_operatorChars u.symbol_mem), Option.map_map,
      Option.map_map]
    rfl
  cut_connective := by
    intro c x a s ds hc
    have hmem := Connective.char?_mem hc
    rw [cutAtArrow_cons fun h => absurd h (ne_of_mem_operatorChars hmem), Option.map_map]
    cases c with
    | implies => simp [Connective.char?] at hc
    | and | or =>
      have hmap := Option.map_map (prepend [x])
        (fun (l, r) => (l, Connective.implies, r)) (cutAtArrow s ds)
      exact hmap.symm
  cut_arrow := fun _ _ _ => rfl

end TimedReq
