import TimedReq.Proofs.Expr.Similar

/-!
# Blanks around connectives

Behind a closing bracket a connective is read without blanks around it. Where a text has blanks
around each of these, so has the row that it spells.
-/

namespace TimedReq

open Text

variable {α : Type} {L : Embedding α}

/-- Each `^` or `V` that follows a closing bracket, at once or behind blanks, has blanks on both
sides. What stands in literals does not count. -/
def WellSpaced (s : Text) : Prop :=
  ∀ before close blanks op after, s = before ++ close :: (blanks ++ op :: after) →
    IsClosing close → AllBlank blanks → (op = '^' ∨ op = 'V') →
    (nesting s)[before.length + 1 + blanks.length]? ≠ some none →
    blanks ≠ [] ∧ startsBlank after = true

/-- A closing bracket and blanks are at the end of the text, where the flag tells whether there are
blanks. -/
def EndsClosed (a : Bool) (s : Text) : Prop :=
  ∃ before close blanks, s = before ++ close :: blanks ∧ IsClosing close ∧ AllBlank blanks ∧
    (blanks ≠ [] → a = true)

lemma EndsClosed.append_blank {a : Bool} {s : Text} {c : Char} (h : EndsClosed a s)
    (hc : isBlank c = true) : EndsClosed true (s ++ [c]) := by
  obtain ⟨before, close, blanks, rfl, hclose, hblanks, -⟩ := h
  refine ⟨before, close, blanks ++ [c], by simp, hclose, ?_, fun _ => rfl⟩
  intro x hx
  rcases List.mem_append.mp hx with hx | hx
  · exact hblanks x hx
  · obtain rfl := List.mem_singleton.mp hx
    exact hc

lemma EndsClosed.closing (s : Text) {c : Char} (hc : IsClosing c) : EndsClosed false (s ++ [c]) :=
  ⟨s, c, [], rfl, hc, .nil, by simp⟩

/-- In a text with blanks around connectives, one that follows a closing bracket has them. -/
lemma WellSpaced.apart {s r : Text} {c : Char} {a : Bool} {d : Int}
    (h : WellSpaced (s ++ c :: r)) (hs : Closed d s) (hend : EndsClosed a s)
    (hc : c = '^' ∨ c = 'V') : a = true ∧ startsBlank r = true := by
  obtain ⟨before, close, blanks, rfl, hclose, hblanks, ha⟩ := hend
  have hplain : IsPlain c := by
    rcases hc with rfl | rfl <;> decide
  have hlen : before.length + 1 + blanks.length = (before ++ close :: blanks).length := by
    simp only [List.length_append, List.length_cons]
    omega
  have hnesting : (nesting ((before ++ close :: blanks) ++ c :: r))[before.length + 1 +
      blanks.length]? = some (some (0 + d)) := by
    have hns := length_nestingFrom false 0 (before ++ close :: blanks)
    rw [nesting, hs 0, nestingFrom_plain _ _ hplain, hlen,
      List.getElem?_append_right (Nat.le_of_eq hns), hns, Nat.sub_self]
    rfl
  obtain ⟨hne, hr⟩ := h before close blanks c r (by simp) hclose hblanks hc (by
    rw [hnesting]
    simp)
  exact ⟨ha hne, hr⟩

/-- The row of a text with blanks around connectives has them. -/
theorem Spells.spaced {slot : Slot} {a : Bool} {row : Row α} {s : Text}
    (h : Spells L slot a row s) {f r : Text} {d : Int}
    (hspaced : WellSpaced (f ++ (s ++ r))) (hf : Closed d f)
    (hclosed : slot = .closed → EndsClosed a f) : row.Spaced := by
  have hcons : ∀ {x : Piece α} {row : Row α}, x.Everywhere Piece.isSpaced → row.Spaced →
      Row.Spaced (x :: row) := by
    intro x row hx hrow y hy
    rcases List.mem_cons.mp hy with rfl | hy
    · exact hx
    · exact hrow y hy
  have hsymbol : ∀ {c : Char}, c ∈ operatorChars → Closed 0 [c] :=
    fun hc => (Neutral.singleton (isPlain_of_mem_operatorChars hc)).closed
  induction h generalizing f r d with
  | nil => simp [Row.Spaced]
  | @blank slot a c row s hc _ ih =>
    have hplain : Closed 0 [c] := (Neutral.singleton (isPlain_of_isBlank hc)).closed
    refine ih (f := f ++ [c]) (by simpa using hspaced) (hf.append hplain) ?_
    intro hslot
    exact (hclosed hslot).append_blank hc
  | @predicate slot a p w row s _ hw _ ih =>
    refine hcons (.single rfl) (ih (f := f ++ w) (by simpa using hspaced)
      (hf.append hw.neutral.closed) (by simp))
  | @negation slot a row s _ _ ih =>
    have hplain : Closed 0 ['!'] := .plain (by decide)
    exact hcons (.single rfl) (ih (f := f ++ ['!']) (by simpa using hspaced)
      (hf.append hplain) (by simp))
  | branch b _ _ _ ih =>
    exact hcons (.single rfl) (ih (f := f ++ [b.symbol]) (by simpa using hspaced)
      (hf.append (hsymbol b.symbol_mem)) (by simp))
  | modality m _ _ ih =>
    exact hcons (.single rfl) (ih (f := f ++ [m.symbol]) (by simpa using hspaced)
      (hf.append (hsymbol m.symbol_mem)) (by simp))
  | «until» u _ _ _ ih =>
    exact hcons (.single rfl) (ih (f := f ++ [u.symbol]) (by simpa using hspaced)
      (hf.append (hsymbol u.symbol_mem)) (by simp))
  | @connective slot a c x row s hslot hc hapart h ih =>
    have hx : x = '^' ∨ x = 'V' := by
      cases c with
      | implies => simp [Connective.char?] at hc
      | and => exact .inl (Option.some.inj hc).symm
      | or => exact .inr (Option.some.inj hc).symm
    have hflag : (a && startsBlank s) = true := by
      cases slot with
      | start | path => exact absurd hslot (by decide)
      | behind => exact hapart rfl
      | closed =>
        rw [List.cons_append] at hspaced
        obtain ⟨ha, hs⟩ := hspaced.apart hf (hclosed rfl) hx
        rw [startsBlank_append (h.ne_nil rfl)] at hs
        exact Bool.and_eq_true_iff.mpr ⟨ha, hs⟩
    rw [hflag]
    exact hcons (.single rfl) (ih (f := f ++ [x]) (by simpa using hspaced)
      (hf.append (hsymbol (Connective.char?_mem hc))) (by simp))
  | arrow _ _ ih =>
    have hplain : Closed 0 ['-', '>'] := .plain (by decide)
    exact hcons (.single rfl) (ih (f := f ++ ['-', '>']) (by simpa using hspaced)
      (hf.append hplain) (by simp))
  | @group slot a body row v s _ hv _ ihv ih =>
    have hopening : Closed 1 ['('] := .opening (.inl rfl)
    have hbracket := (hv.neutral.bracket (o := '(') (c := ')') (.inl rfl) (.inl rfl)).closed
    refine hcons (.group ?_) ?_
    · exact ihv (f := f ++ ['(']) (r := ')' :: (s ++ r)) (by simpa using hspaced)
        (hf.append hopening) (by simp)
    · refine ih (f := f ++ '(' :: (v ++ [')'])) (by simpa using hspaced)
        (hf.append hbracket) ?_
      intro _
      have hend := EndsClosed.closing (f ++ '(' :: v) (c := ')') (.inl rfl)
      simpa using hend
  | @bounded slot a body row v x y t s first more _ hv hx hy _ hsts _ ihv ih =>
    have hopening : Closed 1 ['{'] := .opening (.inr rfl)
    have hbraces := (neutral_bounded hv.neutral hx hy (Statement.neutral_of_parseAll hsts)).closed
    refine hcons (.bounded first more ?_) ?_
    · exact ihv (f := f ++ ['{'])
        (r := '}' :: (x ++ '_' :: (y ++ '{' :: (t ++ '}' :: (s ++ r)))))
        (by simpa using hspaced) (hf.append hopening) (by simp)
    · refine ih (f := f ++ '{' :: (v ++ '}' :: (x ++ '_' :: (y ++ '{' :: (t ++ ['}'])))))
        (by simpa using hspaced) (hf.append hbraces) ?_
      intro _
      have hend := EndsClosed.closing (f ++ '{' :: (v ++ '}' :: (x ++ '_' :: (y ++ '{' :: t))))
        (c := '}') (.inr rfl)
      simpa using hend

end TimedReq
