import Mathlib.Data.List.Chain
import TimedReq.Document.Blocks
import TimedReq.Proofs.Text.Lines

/-!
# Comments

Where the comment of a line begins, and what is left of lines without their comments. Blanks around
a line change nothing in this, and neither does a comment that is put behind a line.
-/

namespace TimedReq.Blocks

open Text

/-- No comment begins in the text: no two hyphens stand side by side. -/
def Uncommented (s : Text) : Prop := s.IsChain fun c d => c = '-' → d ≠ '-'

instance (s : Text) : Decidable (Uncommented s) := inferInstanceAs (Decidable (s.IsChain _))

/-- The line holds nothing but a comment. -/
def IsComment (l : Text) : Prop := commentMark <+: trim l

/-- What is left of lines without their comments and without the blanks around them. -/
def contents (ls : List Text) : List Text := (stripComments ls).map trim

theorem uncommented_iff {s : Text} : Uncommented s ↔ ¬commentMark <:+: s := by
  unfold Uncommented
  rw [List.isChain_iff_forall_rel_of_append_cons_cons]
  constructor
  · rintro h ⟨u, v, rfl⟩
    have hcut : u ++ commentMark ++ v = u ++ '-' :: '-' :: v := List.append_assoc u commentMark v
    exact h hcut rfl rfl
  · rintro h c d u v rfl rfl rfl
    exact h ⟨u, v, by simp [commentMark]⟩

lemma Uncommented.of_isInfix {s t : Text} (h : Uncommented s) (ht : t <:+: s) : Uncommented t :=
  uncommented_iff.mpr fun hmark => uncommented_iff.mp h (hmark.trans ht)

/-- Texts without hyphens where they meet. -/
lemma Uncommented.append {s t : Text} (hs : Uncommented s) (ht : Uncommented t)
    (hmeet : s.getLast? ≠ some '-' ∨ t.head? ≠ some '-') : Uncommented (s ++ t) := by
  refine List.isChain_append.mpr ⟨hs, ht, ?_⟩
  rintro c hc d hd rfl rfl
  exact hmeet.elim (fun h => h hc) fun h => h hd

lemma Uncommented.cons {c : Char} {s : Text} (hs : Uncommented s) (hc : c ≠ '-') :
    Uncommented (c :: s) := by
  have hone : Uncommented [c] := List.isChain_singleton c
  exact hone.append hs (.inl (by simpa using hc))

lemma Uncommented.of_forall_ne {s : Text} (h : ∀ c ∈ s, c ≠ '-') : Uncommented s := by
  induction s with
  | nil => exact List.isChain_nil
  | cons c s ih =>
    exact Uncommented.cons (ih fun d hd => h d (List.mem_cons_of_mem c hd))
      (h c List.mem_cons_self)

lemma ne_of_isBlank {c : Char} (h : isBlank c = true) : c ≠ '-' := by
  rintro rfl
  exact absurd h (by decide)

/-! ## The text before a comment -/

lemma before_cons_of_mark {c : Char} {s : Text} (h : commentMark <+: c :: s) :
    before commentMark (c :: s) = [] := by
  rw [before, if_pos (List.isPrefixOf_iff_prefix.mpr h)]

lemma before_cons {c : Char} {s : Text} (h : ¬commentMark <+: c :: s) :
    before commentMark (c :: s) = c :: before commentMark s := by
  rw [before, if_neg (mt List.isPrefixOf_iff_prefix.mp h)]

lemma before_isPrefix (s : Text) : before commentMark s <+: s := by
  induction s with
  | nil => exact List.nil_prefix
  | cons c s ih =>
    by_cases h : commentMark <+: c :: s
    · rw [before_cons_of_mark h]
      exact List.nil_prefix
    · rw [before_cons h]
      exact (List.prefix_cons_inj c).mpr ih

/-- No comment begins in what stands before the first one. -/
lemma uncommented_before (s : Text) : Uncommented (before commentMark s) := by
  induction s with
  | nil => exact List.isChain_nil
  | cons c s ih =>
    by_cases h : commentMark <+: c :: s
    · rw [before_cons_of_mark h]
      exact List.isChain_nil
    · rw [before_cons h]
      refine List.isChain_cons.mpr ⟨?_, ih⟩
      rintro d hd rfl rfl
      obtain ⟨t, ht⟩ := List.head?_eq_some_iff.mp hd
      obtain ⟨r, hr⟩ := before_isPrefix s
      exact h ⟨t ++ r, by rw [← hr, ht]; rfl⟩

/-- A text in which no comment begins goes over into what stands before the comment of the text
behind it, unless one begins where they meet. -/
lemma before_append {s t : Text} (hs : Uncommented s)
    (hmeet : s.getLast? ≠ some '-' ∨ t.head? ≠ some '-') :
    before commentMark (s ++ t) = s ++ before commentMark t := by
  induction s with
  | nil => rfl
  | cons c s ih =>
    have htail := List.isChain_cons.mp hs
    have hno : ¬commentMark <+: c :: (s ++ t) := by
      intro hprefix
      obtain ⟨rfl, hrest⟩ := List.cons_prefix_cons.mp hprefix
      cases s with
      | nil =>
        refine hmeet.elim (fun h => h rfl) fun h => h ?_
        obtain ⟨r, hr⟩ := hrest
        rw [List.nil_append] at hr
        rw [← hr]
        rfl
      | cons d s => exact htail.1 d rfl rfl (List.cons_prefix_cons.mp hrest).1.symm
    rw [List.cons_append, before_cons hno, ih htail.2 ?_, List.cons_append]
    cases s with
    | nil => exact .inl (by simp)
    | cons d s => rwa [List.getLast?_cons_cons] at hmeet

lemma before_of_uncommented {s : Text} (hs : Uncommented s) : before commentMark s = s := by
  have h := before_append hs (t := []) (.inr (by simp))
  rwa [List.append_nil, before, List.append_nil] at h

/-- Behind a comment nothing counts. -/
lemma before_append_of_commented {s : Text} (hs : ¬Uncommented s) (t : Text) :
    before commentMark (s ++ t) = before commentMark s := by
  induction s with
  | nil => exact absurd List.isChain_nil hs
  | cons c s ih =>
    by_cases h : commentMark <+: c :: s
    · have hall : commentMark <+: c :: (s ++ t) := h.trans (List.prefix_append (c :: s) t)
      rw [before_cons_of_mark h, List.cons_append, before_cons_of_mark hall]
    · have hrest : ¬Uncommented s := by
        intro hrest
        refine hs (List.isChain_cons.mpr ⟨?_, hrest⟩)
        rintro d hd rfl rfl
        obtain ⟨r, rfl⟩ := List.head?_eq_some_iff.mp hd
        exact h ⟨r, rfl⟩
      have hno : ¬commentMark <+: c :: (s ++ t) := by
        intro hprefix
        cases s with
        | nil => exact hrest List.isChain_nil
        | cons d s =>
          obtain ⟨rfl, hd⟩ := List.cons_prefix_cons.mp hprefix
          obtain ⟨rfl, -⟩ := List.cons_prefix_cons.mp hd
          exact h ⟨s, rfl⟩
      rw [List.cons_append, before_cons hno, before_cons h, ih hrest]

/-- Blanks in front of a text are blanks in front of what stands before its comment. -/
lemma before_append_left {u : Text} (hu : AllBlank u) (s : Text) :
    before commentMark (u ++ s) = u ++ before commentMark s := by
  refine before_append (.of_forall_ne fun c hc => ne_of_isBlank (hu c hc)) (.inl ?_)
  intro hlast
  exact ne_of_isBlank (hu _ (List.mem_of_getLast? hlast)) rfl

lemma trim_before_append_right {v : Text} (hv : AllBlank v) (s : Text) :
    trim (before commentMark (s ++ v)) = trim (before commentMark s) := by
  by_cases hs : Uncommented s
  · have hmeet : v.head? ≠ some '-' := fun hhead =>
      ne_of_isBlank (hv _ (List.mem_of_mem_head? hhead)) rfl
    have hblank : before commentMark v = v :=
      before_of_uncommented (.of_forall_ne fun c hc => ne_of_isBlank (hv c hc))
    rw [before_append hs (.inr hmeet), hblank, before_of_uncommented hs, trim_append_right hv]
  · rw [before_append_of_commented hs]

/-- Blanks around a line do not count for what is left of it. -/
lemma trim_before_append {u v : Text} (hu : AllBlank u) (hv : AllBlank v) (s : Text) :
    trim (before commentMark (u ++ s ++ v)) = trim (before commentMark s) := by
  rw [trim_before_append_right hv, before_append_left hu, trim_append_left hu]

/-- A comment that is put behind a line does not count. -/
lemma trim_before_remark (l t : Text) :
    trim (before commentMark (l ++ ' ' :: '-' :: '-' :: t)) = trim (before commentMark l) := by
  by_cases hl : Uncommented l
  · have hremark : before commentMark (' ' :: '-' :: '-' :: t) = [' '] := by
      have hmark : commentMark <+: '-' :: '-' :: t := ⟨t, rfl⟩
      rw [before_cons (by simp [commentMark]), before_cons_of_mark hmark]
    rw [before_append hl (.inr (by simp)), hremark, before_of_uncommented hl,
      trim_append_right (.cons rfl .nil)]
  · rw [before_append_of_commented hl]

/-! ## Lines that are comments -/

lemma IsComment.congr {l l' : Text} (h : trim l = trim l') : IsComment l ↔ IsComment l' := by
  unfold IsComment
  rw [h]

/-- A line that begins with two hyphens is a comment. -/
lemma isComment_mark (t : Text) : IsComment ('-' :: '-' :: t) := by
  refine ⟨trimEnd t, ?_⟩
  exact (trim_append_cons (a := ['-']) (c := '-') (by simp; decide) rfl t).symm

/-- A comment that is put behind a line does not turn it into one, unless the line is blank. -/
lemma isComment_remark {l : Text} (hl : ¬AllBlank l) (t : Text) :
    IsComment (l ++ ' ' :: '-' :: '-' :: t) ↔ IsComment l :=
  prefix_trim_append_blank (by decide) hl rfl _

/-! ## Contents of lines -/

lemma contents_append (ls ms : List Text) : contents (ls ++ ms) = contents ls ++ contents ms := by
  simp [contents, stripComments]

lemma contents_cons (l : Text) (ls : List Text) :
    contents (l :: ls) = contents [l] ++ contents ls :=
  contents_append [l] ls

lemma contents_of_isComment {l : Text} (h : IsComment l) : contents [l] = [] := by
  rw [contents, stripComments, List.filter_cons_of_neg]
  · rfl
  · rw [Bool.not_eq_true', Bool.not_eq_false]
    exact List.isPrefixOf_iff_prefix.mpr h

lemma contents_of_not_isComment {l : Text} (h : ¬IsComment l) :
    contents [l] = [trim (before commentMark l)] := by
  rw [contents, stripComments, List.filter_cons_of_pos]
  · rfl
  · rw [Bool.not_eq_true', Bool.eq_false_iff]
    exact mt List.isPrefixOf_iff_prefix.mp h

/-- What is left of a line depends on whether it is a comment and on what stands before one. -/
lemma contents_congr {l l' : Text} (hcomment : IsComment l ↔ IsComment l')
    (hbefore : trim (before commentMark l) = trim (before commentMark l')) :
    contents [l] = contents [l'] := by
  by_cases h : IsComment l
  · rw [contents_of_isComment h, contents_of_isComment (hcomment.mp h)]
  · rw [contents_of_not_isComment h, contents_of_not_isComment (mt hcomment.mpr h), hbefore]

lemma contents_pad {u v : Text} (hu : AllBlank u) (hv : AllBlank v) (l : Text) :
    contents [u ++ l ++ v] = contents [l] :=
  contents_congr (IsComment.congr (trim_pad hu hv l)) (trim_before_append hu hv l)

lemma contents_remark {l : Text} (hl : ¬AllBlank l) (t : Text) :
    contents [l ++ ' ' :: '-' :: '-' :: t] = contents [l] :=
  contents_congr (isComment_remark hl t) (trim_before_remark l t)

lemma contents_of_allBlank {l : Text} (h : AllBlank l) : contents [l] = [[]] := by
  have hpad := contents_pad h .nil []
  rw [List.append_nil, List.append_nil] at hpad
  exact hpad.trans rfl

lemma contents_replicate_nil (k : Nat) : contents (List.replicate k []) = List.replicate k [] := by
  induction k with
  | zero => rfl
  | succ k ih =>
    rw [List.replicate_succ, contents_cons, contents_of_allBlank .nil, ih]
    rfl

/-- A line in which no comment begins is left as it is but for the blanks around it. -/
lemma contents_of_uncommented {l : Text} (h : Uncommented l) : contents [l] = [trim l] := by
  obtain ⟨u, v, -, -, heq⟩ := exists_trim l
  have hinfix : trim l <:+: l := ⟨u, v, heq.symm⟩
  have hno : ¬IsComment l := fun hcomment =>
    uncommented_iff.mp h (hcomment.isInfix.trans hinfix)
  rw [contents_of_not_isComment hno, before_of_uncommented h]

lemma contents_map_trim (ls : List Text) : contents (ls.map trim) = contents ls := by
  induction ls with
  | nil => rfl
  | cons l ls ih =>
    obtain ⟨u, v, hu, hv, hl⟩ := exists_trim l
    have hline := contents_pad hu hv (trim l)
    rw [← hl] at hline
    rw [List.map_cons, contents_cons, ih, contents_cons l, hline]

/-- What is left of a line is a part of it in which no comment begins. -/
lemma exists_of_mem_contents {ls : List Text} {w : Text} (h : w ∈ contents ls) :
    trim w = w ∧ Uncommented w ∧ ∃ l ∈ ls, w <:+: l := by
  obtain ⟨s, hs, rfl⟩ := List.mem_map.mp h
  obtain ⟨l, hl, rfl⟩ := List.mem_map.mp hs
  obtain ⟨u, v, -, -, heq⟩ := exists_trim (before commentMark l)
  have hinfix : trim (before commentMark l) <:+: before commentMark l := ⟨u, v, heq.symm⟩
  exact ⟨trim_trim _, (uncommented_before l).of_isInfix hinfix, l, List.mem_of_mem_filter hl,
    hinfix.trans (before_isPrefix l).isInfix⟩

end TimedReq.Blocks
