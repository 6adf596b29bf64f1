import TimedReq.Proofs.Text.Quoting
import TimedReq.Text.Digit

/-!
# Texts up to layout

Two texts have one layout-free form if they differ in blanks and in the case of letters outside
quoted literals, and in superfluous zeros in front of the numbers of bounds. The form of a text put
together from closed texts is put together from their forms.
-/

namespace TimedReq.Text

/-- What is kept of a character: outside literals a blank is left out, and the case of a letter is
dropped. -/
def squeezeMark : Mark → Option Mark
  | (c, true) => some (c, true)
  | (c, false) => if isBlank c then none else some (c.toLower, false)

/-- The characters that are kept. -/
def squeezed (s : Text) : List Mark := (marked s).filterMap squeezeMark

/-- Leaves out the zeros in front of numbers in sections, which begin with an underscore and a brace
outside literals and end with the next closing brace. The flags tell whether the text begins in a
section, and whether it begins behind a digit. -/
def dropZeros : Bool → Bool → List Mark → Text
  | _, _, [] => []
  | false, _, (c, quoted) :: s =>
    c :: dropZeros (c == '_' && !quoted && s.head? == some ('{', false)) false s
  | true, afterDigit, (c, _) :: s =>
    if c = '}' then c :: dropZeros false false s
    else if c = '0' ∧ afterDigit = false ∧ (s.head?.any fun m => isAsciiDigit m.1) = true then
      dropZeros true false s
    else c :: dropZeros true (isAsciiDigit c) s

/-- The text without its layout: without blanks outside quoted literals, with the letters there in
lower case, and without zeros in front of the numbers of bounds. -/
def normal (s : Text) : Text := dropZeros false false (squeezed s)

example : normal "\x7b A = \" A \" \x7d_\x7b t <  007 us \x7d".toList =
    "\x7ba=\" A \"\x7d_\x7bt<7us\x7d".toList := by
  decide +kernel

/-! ### What is kept -/

/-- Behind a closed text the characters that are kept are those of the text alone. -/
lemma squeezed_append {δ : Int} {s : Text} (hs : Closed δ s) (t : Text) :
    squeezed (s ++ t) = squeezed s ++ squeezed t := by
  rw [squeezed, marked_append hs, List.filterMap_append]
  rfl

lemma squeezed_cons {δ : Int} {c : Char} (hc : Closed δ [c]) (s : Text) :
    squeezed (c :: s) = squeezed [c] ++ squeezed s :=
  squeezed_append hc s

/-- Without literals the blanks are left out and the letters lose their case. -/
lemma squeezed_plain {w : Text} (hw : ∀ c ∈ w, IsPlain c) :
    squeezed w = (w.filter fun c => !isBlank c).map fun c => (c.toLower, false) := by
  induction w with
  | nil => rfl
  | cons c w ih =>
    have hc := hw c List.mem_cons_self
    have hclosed : Closed 0 [c] := (Neutral.singleton hc).closed
    have hone : squeezed [c] = ([c].filter fun c => !isBlank c).map fun c => (c.toLower, false) := by
      unfold squeezed marked nesting
      rw [nestingFrom_plain 0 [] hc]
      cases hb : isBlank c <;> simp [squeezeMark, hb]
    rw [squeezed_cons hclosed, ih fun x hx => hw x (List.mem_cons_of_mem c hx), hone,
      ← List.map_append, ← List.filter_append]
    rfl

lemma squeezed_allBlank {u : Text} (hu : AllBlank u) : squeezed u = [] := by
  rw [squeezed_plain fun c hc => isPlain_of_isBlank (hu c hc), List.map_eq_nil_iff,
    List.filter_eq_nil_iff]
  intro c hc
  simp [hu c hc]

/-- A text with blanks around it has the characters of the text alone. -/
lemma squeezed_padded {u s v : Text} {δ : Int} (hu : AllBlank u) (hs : Closed δ s)
    (hv : AllBlank v) : squeezed (u ++ s ++ v) = squeezed s := by
  rw [squeezed_append ((Neutral.allBlank hu).closed.append hs),
    squeezed_append (Neutral.allBlank hu).closed, squeezed_allBlank hu, squeezed_allBlank hv,
    List.nil_append, List.append_nil]

/-- A character that is kept, outside literals. -/
lemma squeezed_symbol {c : Char} (hc : IsPlain c) (hblank : isBlank c = false) (s : Text) :
    squeezed (c :: s) = (c.toLower, false) :: squeezed s := by
  have hone : squeezed [c] = [(c.toLower, false)] := by
    rw [squeezed_plain fun x hx => (List.mem_singleton.mp hx) ▸ hc]
    simp [hblank]
  rw [squeezed_cons (Neutral.singleton hc).closed, hone, List.singleton_append]

/-- A text in brackets. -/
lemma squeezed_bracket {δ : Int} {o c : Char} (ho : IsOpening o) (hc : IsClosing c) {s : Text}
    (hs : Closed δ s) : squeezed (o :: (s ++ [c])) = (o, false) :: (squeezed s ++ [(c, false)]) := by
  have hblank : isBlank o = false ∧ isBlank c = false ∧ o.toLower = o ∧ c.toLower = c := by
    rcases ho with rfl | rfl <;> rcases hc with rfl | rfl <;> decide
  rw [squeezed, marked_bracket ho hc hs, List.filterMap_cons_some (b := (o, false)) (by
    simp [squeezeMark, hblank.1, hblank.2.2.1]), List.filterMap_append]
  simp [squeezed, squeezeMark, hblank.2.1, hblank.2.2.2]

/-! ### Braces -/

/-- A brace is never what a letter becomes in lower case. -/
lemma eq_of_toLower_brace {c : Char} (h : c.toLower = '{') : c = '{' := by
  unfold Char.toLower at h
  split at h
  · rename_i hc
    have hval := congrArg (fun x : Char => x.val.toNat) h
    simp [UInt32.le_iff_toNat_le] at hval hc
    omega
  · exact h

/-- Braces are kept where they stand outside literals. -/
lemma brace_mem_marked {s : Text} (h : ('{', false) ∈ squeezed s) : ('{', false) ∈ marked s := by
  obtain ⟨⟨c, quoted⟩, hmem, hkeep⟩ := List.mem_filterMap.mp h
  cases quoted with
  | true => simp [squeezeMark] at hkeep
  | false =>
    simp only [squeezeMark] at hkeep
    split at hkeep
    · simp at hkeep
    · obtain rfl := eq_of_toLower_brace (Prod.mk.inj (Option.some.inj hkeep)).1
      exact hmem

/-! ### Sections -/

lemma dropZeros_outside (afterDigit : Bool) (c : Char) (quoted : Bool) (s : List Mark) :
    dropZeros false afterDigit ((c, quoted) :: s) =
      c :: dropZeros (c == '_' && !quoted && s.head? == some ('{', false)) false s := rfl

lemma dropZeros_inside (afterDigit : Bool) (c : Char) (quoted : Bool) (s : List Mark) :
    dropZeros true afterDigit ((c, quoted) :: s) =
      if c = '}' then c :: dropZeros false false s
      else if c = '0' ∧ afterDigit = false ∧ (s.head?.any fun m => isAsciiDigit m.1) = true then
        dropZeros true false s
      else c :: dropZeros true (isAsciiDigit c) s := rfl

/-- Outside sections, a character that is no underscore is kept as it is. -/
lemma dropZeros_cons {c : Char} (hc : c ≠ '_') (s : List Mark) :
    dropZeros false false ((c, false) :: s) = c :: dropZeros false false s := by
  have hbar : (c == '_') = false := beq_false_of_ne hc
  rw [dropZeros_outside, hbar]
  rfl

/-- No section begins in the characters, nor with the next one. -/
lemma dropZeros_append {w : List Mark} (hw : ('{', false) ∉ w) {s : List Mark}
    (hs : s.head? ≠ some ('{', false)) :
    dropZeros false false (w ++ s) = w.map Prod.fst ++ dropZeros false false s := by
  induction w with
  | nil => rfl
  | cons m w ih =>
    obtain ⟨c, quoted⟩ := m
    have hhead : (w ++ s).head? ≠ some ('{', false) := by
      cases w with
      | nil => exact hs
      | cons m w =>
        intro h
        obtain rfl := Option.some.inj h
        exact hw (by simp)
    have hflag : (c == '_' && !quoted && (w ++ s).head? == some ('{', false)) = false := by
      rw [beq_false_of_ne hhead, Bool.and_false]
    rw [List.cons_append, dropZeros_outside, hflag, ih fun h => hw (List.mem_cons_of_mem _ h)]
    rfl

/-- A section begins. -/
lemma dropZeros_section (s : List Mark) :
    dropZeros false false (('_', false) :: ('{', false) :: s) =
      '_' :: '{' :: dropZeros true false s := rfl

/-- A section ends. -/
lemma dropZeros_close (afterDigit : Bool) (s : List Mark) :
    dropZeros true afterDigit (('}', false) :: s) = '}' :: dropZeros false false s := by
  rw [dropZeros_inside, if_pos rfl]

/-- In a section, characters that are no digits are kept. -/
lemma dropZeros_letters {w : Text} (hw : ∀ c ∈ w, c ≠ '}' ∧ isAsciiDigit c = false)
    (hne : w ≠ []) (afterDigit : Bool) (s : List Mark) :
    dropZeros true afterDigit (w.map (·, false) ++ s) = w ++ dropZeros true false s := by
  induction w generalizing afterDigit with
  | nil => exact absurd rfl hne
  | cons c w ih =>
    obtain ⟨hbrace, hdigit⟩ := hw c List.mem_cons_self
    have hzero : c ≠ '0' := by
      rintro rfl
      exact absurd hdigit (by decide)
    rw [List.map_cons, List.cons_append, dropZeros_inside, if_neg hbrace, if_neg (fun h => hzero h.1),
      hdigit]
    by_cases hnil : w = []
    · subst hnil
      rfl
    · rw [ih (fun x hx => hw x (List.mem_cons_of_mem c hx)) hnil]
      rfl

/-- Behind a digit all digits are kept. -/
lemma dropZeros_digits {w : Text} (hw : ∀ c ∈ w, isAsciiDigit c = true) (s : List Mark) :
    dropZeros true true (w.map (·, false) ++ s) = w ++ dropZeros true true s := by
  induction w with
  | nil => rfl
  | cons c w ih =>
    have hdigit := hw c List.mem_cons_self
    have hbrace : c ≠ '}' := by
      rintro rfl
      exact absurd hdigit (by decide)
    rw [List.map_cons, List.cons_append, dropZeros_inside, if_neg hbrace, if_neg (by simp), hdigit,
      ih fun x hx => hw x (List.mem_cons_of_mem c hx)]
    rfl

/-- A numeral without the zeros in front; one zero is kept if there is nothing else. -/
def stripZeros : Text → Text
  | [] => []
  | [c] => [c]
  | c :: d :: s => if c = '0' then stripZeros (d :: s) else c :: d :: s

/-- In a section, zeros in front of a number are left out. -/
lemma dropZeros_number {w : Text} (hw : ∀ c ∈ w, isAsciiDigit c = true) (hne : w ≠ [])
    {s : List Mark} (hs : (s.head?.any fun m => isAsciiDigit m.1) = false) :
    dropZeros true false (w.map (·, false) ++ s) = stripZeros w ++ dropZeros true true s := by
  have hbrace : ∀ {c : Char}, isAsciiDigit c = true → c ≠ '}' := by
    rintro c hc rfl
    exact absurd hc (by decide)
  induction w with
  | nil => exact absurd rfl hne
  | cons c w ih =>
    have hc := hw c List.mem_cons_self
    have hrest : ∀ x ∈ w, isAsciiDigit x = true := fun x hx => hw x (List.mem_cons_of_mem c hx)
    rw [List.map_cons, List.cons_append, dropZeros_inside, if_neg (hbrace hc)]
    cases w with
    | nil =>
      rw [List.map_nil, List.nil_append, if_neg (by simp [hs]), hc]
      rfl
    | cons d w =>
      have hd : (((d :: w).map (·, false) ++ s).head?.any fun m => isAsciiDigit m.1) = true :=
        hrest d List.mem_cons_self
      by_cases hzero : c = '0'
      · rw [if_pos ⟨hzero, rfl, hd⟩, ih hrest (by simp), stripZeros, if_pos hzero]
      · rw [if_neg (fun h => hzero h.1), hc, dropZeros_digits hrest, stripZeros, if_neg hzero]
        rfl

end TimedReq.Text
