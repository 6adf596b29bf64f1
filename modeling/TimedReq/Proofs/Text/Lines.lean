import TimedReq.Proofs.Text.Trim

/-!
# Lines of texts

A text that is joined from lines is cut into these lines again, whichever end the lines have. What
trimming takes from such a text are blank lines at its end, and blanks at the ends of lines.
-/

namespace TimedReq.Text

/-- No line ends in the text. -/
def Unbroken (s : Text) : Prop := ∀ c ∈ s, isLineBreak c = false

instance (s : Text) : Decidable (Unbroken s) := decidableForallMem s _

/-- What lines are ended with: a newline, or a return and a newline. -/
def lineEnds : List Text := [['\n'], ['\r', '\n']]

lemma Unbroken.append {s t : Text} (hs : Unbroken s) (ht : Unbroken t) : Unbroken (s ++ t) :=
  fun c hc => (List.mem_append.mp hc).elim (hs c) (ht c)

lemma Unbroken.mono {s t : Text} (ht : Unbroken t) (h : s ⊆ t) : Unbroken s :=
  fun c hc => ht c (h hc)

lemma Unbroken.trim {s : Text} (h : Unbroken s) : Unbroken (trim s) := by
  obtain ⟨u, v, -, -, hs⟩ := exists_trim s
  refine h.mono fun c hc => ?_
  rw [hs]
  simp [hc]

lemma Unbroken.newline_not_mem {s : Text} (h : Unbroken s) : '\n' ∉ s :=
  fun hc => absurd (h '\n' hc) (by decide)

lemma join_cons_cons (sep s t : Text) (ts : List Text) :
    join sep (s :: t :: ts) = s ++ (sep ++ join sep (t :: ts)) := by
  rw [join, List.append_assoc]

lemma join_append {sep : Text} {ss ts : List Text} (hs : ss ≠ []) (ht : ts ≠ []) :
    join sep (ss ++ ts) = join sep ss ++ (sep ++ join sep ts) := by
  induction ss with
  | nil => exact absurd rfl hs
  | cons s ss ih =>
    cases ss with
    | nil =>
      obtain ⟨t, ts, rfl⟩ := List.exists_cons_of_ne_nil ht
      exact join_cons_cons sep s t ts
    | cons s' ss =>
      rw [List.cons_append, List.cons_append, join_cons_cons, ← List.cons_append, ih (by simp),
        join_cons_cons]
      simp only [List.append_assoc]

lemma mem_join {sep : Text} {ss : List Text} {c : Char} (h : c ∈ join sep ss) :
    c ∈ sep ∨ ∃ s ∈ ss, c ∈ s := by
  induction ss with
  | nil => simp [join] at h
  | cons s ss ih =>
    cases ss with
    | nil => exact .inr ⟨s, List.mem_cons_self, h⟩
    | cons t ss =>
      rw [join_cons_cons, List.mem_append, List.mem_append] at h
      rcases h with h | h | h
      · exact .inr ⟨s, List.mem_cons_self, h⟩
      · exact .inl h
      · obtain h | ⟨r, hr, hc⟩ := ih h
        · exact .inl h
        · exact .inr ⟨r, List.mem_cons_of_mem s hr, hc⟩

/-- No line has a break in it. -/
lemma unbroken_of_mem_lines {s l : Text} (h : l ∈ lines s) : Unbroken l := by
  fun_induction lines s generalizing l with
  | case1 => simp at h
  | case2 s ih =>
    rcases List.mem_cons.mp h with rfl | h
    · simp [Unbroken]
    · exact ih h
  | case3 c s _ _ ih =>
    rcases List.mem_cons.mp h with rfl | h
    · simp [Unbroken]
    · exact ih h
  | case4 c s _ hc hnil _ =>
    obtain rfl := List.mem_singleton.mp h
    simpa [Unbroken] using hc
  | case5 c s _ hc l' ls hcons ih =>
    rcases List.mem_cons.mp h with rfl | h
    · intro d hd
      rcases List.mem_cons.mp hd with rfl | hd
      · simpa using hc
      · exact ih (hcons ▸ List.mem_cons_self) d hd
    · exact ih (hcons ▸ List.mem_cons_of_mem l' h)

lemma lines_cons {c : Char} (hc : isLineBreak c = false) (s : Text) :
    lines (c :: s) = (c :: (lines s).headD []) :: (lines s).tail := by
  rw [lines]
  · rw [if_neg (by simp [hc])]
    cases lines s <;> rfl
  · rintro r rfl -
    exact absurd hc (by decide)

lemma lines_of_unbroken {l : Text} (hl : Unbroken l) (hne : l ≠ []) : lines l = [l] := by
  induction l with
  | nil => exact absurd rfl hne
  | cons c l ih =>
    rw [lines_cons (hl c List.mem_cons_self)]
    by_cases hnil : l = []
    · rw [hnil]
      rfl
    · rw [ih (fun d hd => hl d (List.mem_cons_of_mem c hd)) hnil]
      rfl

/-- A line end behind a line closes it. -/
lemma lines_lineEnd {l eol : Text} (hl : Unbroken l) (h : eol ∈ lineEnds) (s : Text) :
    lines (l ++ (eol ++ s)) = l :: lines s := by
  induction l with
  | nil =>
    simp only [lineEnds, List.mem_cons, List.not_mem_nil, or_false] at h
    rcases h with rfl | rfl
    · rw [List.nil_append, List.singleton_append, lines]
      · rfl
      · simp
    · rfl
  | cons c l ih =>
    rw [List.cons_append, lines_cons (hl c List.mem_cons_self),
      ih fun d hd => hl d (List.mem_cons_of_mem c hd)]
    rfl

lemma allBlank_of_mem_lineEnds {eol : Text} (h : eol ∈ lineEnds) : AllBlank eol := by
  have hall : ∀ eol ∈ lineEnds, ∀ c ∈ eol, isBlank c = true := by decide
  exact hall eol h

lemma trim_eq_nil_of_trimEnd {s : Text} (h : trimEnd s = []) : trim s = [] :=
  trim_of_allBlank (allBlank_of_trimEnd_eq_nil h)

lemma trim_trimEnd (s : Text) : trim (trimEnd s) = trim s := by
  obtain ⟨v, hv, hs⟩ := exists_trimEnd s
  conv_rhs => rw [hs, trim_append_right hv]

/-- The lines of a text that is joined from lines are these, but for blanks at their ends and blank
lines at the end of the text. -/
lemma map_trim_lines_trimEnd {eol : Text} {ls : List Text} (heol : eol ∈ lineEnds)
    (hls : ∀ l ∈ ls, Unbroken l) :
    ∃ k, (lines (trimEnd (join eol ls))).map trim ++ List.replicate k [] = ls.map trim := by
  have hline : ∀ {l : Text}, Unbroken l →
      ∃ k, (lines (trimEnd l)).map trim ++ List.replicate k [] = [trim l] := by
    intro l hl
    by_cases hnil : trimEnd l = []
    · exact ⟨1, by rw [hnil, trim_eq_nil_of_trimEnd hnil]; rfl⟩
    · have hprefix : Unbroken (trimEnd l) := by
        obtain ⟨v, -, heq⟩ := exists_trimEnd l
        refine hl.mono fun c hc => ?_
        rw [heq]
        exact List.mem_append_left v hc
      exact ⟨0, by simp [lines_of_unbroken hprefix hnil, trim_trimEnd]⟩
  induction ls with
  | nil => exact ⟨0, rfl⟩
  | cons l ls ih =>
    have hl := hls l List.mem_cons_self
    cases ls with
    | nil => exact hline hl
    | cons l' ls =>
      obtain ⟨k, hk⟩ := ih fun x hx => hls x (List.mem_cons_of_mem l hx)
      rw [join_cons_cons, List.map_cons, ← hk]
      by_cases hnil : trimEnd (join eol (l' :: ls)) = []
      · -- all that follows the line is blank
        have hblank := allBlank_of_trimEnd_eq_nil hnil
        have hrest : AllBlank (eol ++ join eol (l' :: ls)) :=
          (allBlank_of_mem_lineEnds heol).append hblank
        obtain ⟨j, hj⟩ := hline hl
        rw [trimEnd_append hrest, hnil]
        refine ⟨j + k, ?_⟩
        rw [← List.replicate_append_replicate, ← List.append_assoc, hj]
        rfl
      · rw [← List.append_assoc, trimEnd_append_of_ne _ hnil, List.append_assoc,
          lines_lineEnd hl heol, List.map_cons]
        exact ⟨k, rfl⟩

/-- The trimmed lines of a trimmed text that is joined from lines, of which the first is not blank,
are the trimmed lines but for empty ones at the end. -/
theorem map_trim_lines_trim {eol l : Text} {ls : List Text} (heol : eol ∈ lineEnds)
    (hls : ∀ x ∈ l :: ls, Unbroken x) (hne : trim l ≠ []) :
    ∃ k, (lines (trim (join eol (l :: ls)))).map trim ++ List.replicate k [] =
      (l :: ls).map trim := by
  obtain ⟨u, hu, hl⟩ := exists_trimStart l
  obtain ⟨c, t, hstart⟩ : ∃ c t, trimStart l = c :: t := by
    refine List.exists_cons_of_ne_nil ?_
    intro hnil
    rw [hnil, List.append_nil] at hl
    exact hne (trim_of_allBlank (hl ▸ hu))
  have hc := not_blank_of_trimStart_eq_cons hstart
  have htrim : trim (c :: t) = trim l := by
    rw [hl, trim_append_left hu, hstart]
  have hunbroken : ∀ x ∈ (c :: t) :: ls, Unbroken x := by
    intro x hx
    rcases List.mem_cons.mp hx with rfl | hx
    · refine (hls l List.mem_cons_self).mono fun d hd => ?_
      rw [hl, hstart]
      exact List.mem_append_right u hd
    · exact hls x (List.mem_cons_of_mem l hx)
  have hjoin : ∃ r, join eol (l :: ls) = u ++ join eol ((c :: t) :: ls) ∧
      join eol ((c :: t) :: ls) = c :: r := by
    cases ls with
    | nil => exact ⟨t, hl.trans (by rw [hstart]; rfl), rfl⟩
    | cons l' ls =>
      refine ⟨t ++ (eol ++ join eol (l' :: ls)), ?_, by rw [join_cons_cons]; rfl⟩
      rw [join_cons_cons, join_cons_cons, ← List.append_assoc u, ← hstart, ← hl]
  obtain ⟨r, hcut, hhead⟩ := hjoin
  have hsame : trim (join eol (l :: ls)) = trimEnd (join eol ((c :: t) :: ls)) := by
    rw [hcut, trim_append_left hu, hhead, trim, trimStart_of_not_blank r hc]
  obtain ⟨k, hk⟩ := map_trim_lines_trimEnd heol hunbroken
  refine ⟨k, ?_⟩
  rw [hsame, hk, List.map_cons, List.map_cons, htrim]

end TimedReq.Text
