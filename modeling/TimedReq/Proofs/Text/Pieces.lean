import TimedReq.Proofs.Text.Trim

/-!
# Pieces of texts put together

Splitting a text at separators gives back the pieces that it was put together from.
-/

namespace TimedReq.Text

/-- A text is cut at the first occurrence of a character in one way only. -/
lemma eq_of_append_cons {c : Char} {v w s t : Text} (hv : c ∉ v) (hw : c ∉ w)
    (h : v ++ c :: s = w ++ c :: t) : v = w ∧ s = t := by
  obtain ⟨_ | ⟨d, x⟩, rfl, hx⟩ | ⟨_ | ⟨d, x⟩, rfl, hx⟩ := List.append_eq_append_iff.mp h
  · exact ⟨(List.append_nil v).symm, (List.cons.inj hx).2⟩
  · obtain ⟨rfl, -⟩ := List.cons.inj hx
    exact absurd (by simp) hw
  · exact ⟨List.append_nil w, (List.cons.inj hx).2.symm⟩
  · obtain ⟨rfl, -⟩ := List.cons.inj hx
    exact absurd (by simp) hv

/-- A text begins with a run of characters of a kind and goes on with something else. -/
lemma exists_run (p : Char → Bool) (s : Text) :
    ∃ a b, s = a ++ b ∧ s.takeWhile p = a ∧ (∀ c ∈ a, p c = true) ∧ ∀ c ∈ b.head?, p c = false := by
  refine ⟨s.takeWhile p, s.dropWhile p, List.takeWhile_append_dropWhile.symm, rfl,
    fun c hc => List.all_eq_true.mp List.all_takeWhile c hc, ?_⟩
  intro c hc
  have hhead := List.head?_dropWhile_not p s
  rw [Option.mem_def] at hc
  rw [hc] at hhead
  exact hhead

lemma takeWhile_run {p : Char → Bool} {a b : Text} (ha : ∀ c ∈ a, p c = true)
    (hb : ∀ c ∈ b.head?, p c = false) : (a ++ b).takeWhile p = a := by
  rw [List.takeWhile_append_of_pos ha]
  rcases b with _ | ⟨c, b⟩
  · simp
  · rw [List.takeWhile_cons_of_neg (by simp [hb c (by simp)]), List.append_nil]

lemma pieces_of_forall {p : Char → Bool} {w : Text} (hw : ∀ c ∈ w, p c = false) :
    pieces p w = [w] := by
  induction w with
  | nil => rfl
  | cons c w ih =>
    rw [pieces, if_neg (by simp [hw c List.mem_cons_self]),
      ih fun x hx => hw x (List.mem_cons_of_mem c hx)]

lemma pieces_append_cons {p : Char → Bool} {w : Text} (hw : ∀ c ∈ w, p c = false) {c : Char}
    (hc : p c = true) (s : Text) : pieces p (w ++ c :: s) = w :: pieces p s := by
  induction w with
  | nil => rw [List.nil_append, pieces, if_pos hc]
  | cons d w ih =>
    rw [List.cons_append, pieces, if_neg (by simp [hw d List.mem_cons_self]),
      ih fun x hx => hw x (List.mem_cons_of_mem d hx)]

/-- The pieces of a text are the text itself, or the first of them ends at a separator. -/
lemma pieces_cases (p : Char → Bool) (s : Text) :
    pieces p s = [s] ∨ ∃ w c t, s = w ++ c :: t ∧ p c = true ∧ pieces p s = w :: pieces p t := by
  induction s with
  | nil => exact .inl rfl
  | cons d s ih =>
    rw [pieces]
    split
    · rename_i hd
      exact .inr ⟨[], d, s, rfl, hd, rfl⟩
    · obtain hone | ⟨w, c, t, hs, hc, hpieces⟩ := ih
      · rw [hone]
        exact .inl rfl
      · rw [hpieces]
        exact .inr ⟨d :: w, c, t, by rw [hs]; rfl, hc, rfl⟩

lemma pieces_ne_nil (p : Char → Bool) (s : Text) : pieces p s ≠ [] := by
  obtain h | ⟨w, c, t, -, -, h⟩ := pieces_cases p s <;> simp [h]

lemma words_cons_blank {c : Char} (hc : isBlank c = true) (s : Text) : words (c :: s) = words s := by
  unfold words
  rw [pieces, if_pos hc]
  rfl

lemma words_word {w : Text} (hw : ∀ c ∈ w, isBlank c = false) (hne : w ≠ []) :
    words w = [w] := by
  unfold words
  rw [pieces_of_forall hw, List.filter_cons_of_pos (by simpa using hne)]
  rfl

lemma words_append_cons {w : Text} (hw : ∀ c ∈ w, isBlank c = false) (hne : w ≠ []) {c : Char}
    (hc : isBlank c = true) (s : Text) : words (w ++ c :: s) = w :: words s := by
  unfold words
  rw [pieces_append_cons hw hc, List.filter_cons_of_pos (by simpa using hne)]

lemma words_append_left {u : Text} (hu : AllBlank u) (s : Text) : words (u ++ s) = words s := by
  induction u with
  | nil => rfl
  | cons c u ih => rw [List.cons_append, words_cons_blank hu.of_cons.1, ih hu.of_cons.2]

lemma words_append_right {w y : Text} (hw : ∀ c ∈ w, isBlank c = false) (hne : w ≠ [])
    (hy : AllBlank y) : words (w ++ y) = [w] := by
  cases y with
  | nil => rw [List.append_nil, words_word hw hne]
  | cons c y =>
    have hrest := words_append_left hy.of_cons.2 []
    rw [List.append_nil] at hrest
    rw [words_append_cons hw hne hy.of_cons.1, hrest]
    rfl

/-- Two words between blanks. -/
lemma words_pair {u v w x y : Text} (hu : AllBlank u) (hv : ∀ c ∈ v, isBlank c = false)
    (hvne : v ≠ []) (hw : AllBlank w) (hwne : w ≠ []) (hx : ∀ c ∈ x, isBlank c = false)
    (hxne : x ≠ []) (hy : AllBlank y) : words (u ++ (v ++ (w ++ (x ++ y)))) = [v, x] := by
  obtain ⟨c, w, rfl⟩ := List.exists_cons_of_ne_nil hwne
  rw [words_append_left hu, List.cons_append, words_append_cons hv hvne hw.of_cons.1,
    words_append_left hw.of_cons.2, words_append_right hx hxne hy]

lemma splitOn_cons {sep : Text} {c : Char} {s v : Text} {vs : List Text}
    (hsep : sep.isPrefixOf (c :: s) = false) (h : splitOn sep s = v :: vs) :
    splitOn sep (c :: s) = (c :: v) :: vs := by
  rw [splitOn, if_neg (by simp [hsep]), h]

/-- What does not contain the first character of a separator belongs to the piece behind it. -/
lemma splitOn_append {x : Char} {xs w s v : Text} {vs : List Text} (hw : ∀ c ∈ w, c ≠ x)
    (h : splitOn (x :: xs) s = v :: vs) : splitOn (x :: xs) (w ++ s) = (w ++ v) :: vs := by
  induction w with
  | nil => exact h
  | cons c w ih =>
    refine splitOn_cons ?_ (ih fun y hy => hw y (List.mem_cons_of_mem c hy))
    rw [List.isPrefixOf_cons_cons, beq_false_of_ne (hw c List.mem_cons_self).symm, Bool.false_and]

lemma splitOn_of_forall {x : Char} {xs w : Text} (hw : ∀ c ∈ w, c ≠ x) :
    splitOn (x :: xs) w = [w] := by
  have h := @splitOn_append x xs w [] [] [] hw (by rw [splitOn])
  rwa [List.append_nil] at h

/-- A separator ends a piece. -/
lemma splitOn_separator (x : Char) (xs s : Text) :
    splitOn (x :: xs) (x :: (xs ++ s)) = [] :: splitOn (x :: xs) s := by
  have hprefix : (x :: xs).isPrefixOf (x :: (xs ++ s)) = true :=
    List.isPrefixOf_iff_prefix.mpr (List.prefix_append (x :: xs) s)
  rw [splitOn, if_pos hprefix, List.length_cons, Nat.add_sub_cancel, List.drop_left]

lemma splitOn_ne_nil (sep s : Text) : splitOn sep s ≠ [] := by
  fun_cases splitOn sep s <;> simp

/-- Every character of a text is a separator or stands in a piece. -/
lemma mem_pieces {p : Char → Bool} {s : Text} {c : Char} (hc : c ∈ s) :
    p c = true ∨ ∃ w ∈ pieces p s, c ∈ w := by
  induction s with
  | nil => simp at hc
  | cons d s ih =>
    rw [pieces]
    split
    · rename_i hd
      rcases List.mem_cons.mp hc with rfl | hc
      · exact .inl hd
      · rcases ih hc with h | ⟨w, hw, hcw⟩
        · exact .inl h
        · exact .inr ⟨w, List.mem_cons_of_mem _ hw, hcw⟩
    · split
      · rename_i hnil
        rcases List.mem_cons.mp hc with rfl | hc
        · exact .inr ⟨[c], by simp, by simp⟩
        · rcases ih hc with h | ⟨w, hw, hcw⟩
          · exact .inl h
          · rw [hnil] at hw
            simp at hw
      · rename_i v vs hcons
        rcases List.mem_cons.mp hc with rfl | hc
        · exact .inr ⟨c :: v, by simp, by simp⟩
        · rcases ih hc with h | ⟨w, hw, hcw⟩
          · exact .inl h
          · rw [hcons] at hw
            rcases List.mem_cons.mp hw with rfl | hw
            · exact .inr ⟨d :: w, by simp, List.mem_cons_of_mem d hcw⟩
            · exact .inr ⟨w, List.mem_cons_of_mem _ hw, hcw⟩

lemma mem_words {s : Text} {c : Char} (hc : c ∈ s) :
    isBlank c = true ∨ ∃ w ∈ words s, c ∈ w := by
  rcases mem_pieces (p := isBlank) hc with h | ⟨w, hw, hcw⟩
  · exact .inl h
  · refine .inr ⟨w, List.mem_filter.mpr ⟨hw, ?_⟩, hcw⟩
    cases w with
    | nil => simp at hcw
    | cons => rfl

lemma allBlank_of_words_eq_nil {s : Text} (h : words s = []) : AllBlank s := by
  intro c hc
  rcases mem_words hc with hblank | ⟨w, hw, -⟩
  · exact hblank
  · rw [h] at hw
    simp at hw

/-- In front of the first word there are blanks, and a blank ends it if anything follows. -/
lemma exists_of_words_cons {s v : Text} {vs : List Text} (h : words s = v :: vs) :
    ∃ u r, s = u ++ (v ++ r) ∧ AllBlank u ∧ v ≠ [] ∧ (∀ c ∈ v, isBlank c = false) ∧
      (∀ c ∈ r.head?, isBlank c = true) ∧ words r = vs := by
  induction s with
  | nil => simp [words, pieces] at h
  | cons c s ih =>
    by_cases hc : isBlank c = true
    · rw [words_cons_blank hc] at h
      obtain ⟨u, r, rfl, hu, hrest⟩ := ih h
      exact ⟨c :: u, r, rfl, .cons hc hu, hrest⟩
    · obtain ⟨w, r, hcut, htake, hrun, hstop⟩ := exists_run (!isBlank ·) (c :: s)
      have hword : ∀ x ∈ w, isBlank x = false := by simpa using hrun
      have hhead : ∀ x ∈ r.head?, isBlank x = true := by simpa using hstop
      have hne : w ≠ [] := by
        rw [List.takeWhile_cons_of_pos (by simpa using hc)] at htake
        rw [← htake]
        simp
      have hwords : words (c :: s) = w :: words r := by
        rw [hcut]
        cases r with
        | nil =>
          rw [List.append_nil, words_word hword hne]
          rfl
        | cons d r =>
          rw [words_append_cons hword hne (hhead d rfl), words_cons_blank (hhead d rfl)]
      obtain ⟨rfl, hvs⟩ := List.cons.inj (hwords.symm.trans h)
      exact ⟨[], r, hcut, .nil, hne, hword, hhead, hvs⟩

/-- Blanks stand around two words that make up a text, and between them. -/
lemma exists_of_words_pair {s v x : Text} (h : words s = [v, x]) :
    ∃ u w y, s = u ++ (v ++ (w ++ (x ++ y))) ∧ AllBlank u ∧ v ≠ [] ∧ AllBlank w ∧ w ≠ [] ∧
      AllBlank y := by
  obtain ⟨u, r, rfl, hu, hv, -, hhead, hr⟩ := exists_of_words_cons h
  obtain ⟨w, y, rfl, hw, hx, hword, -, hy⟩ := exists_of_words_cons hr
  refine ⟨u, w, y, rfl, hu, hv, hw, ?_, allBlank_of_words_eq_nil hy⟩
  rintro rfl
  obtain ⟨c, x, rfl⟩ := List.exists_cons_of_ne_nil hx
  have hblank := hhead c rfl
  rw [hword c List.mem_cons_self] at hblank
  exact absurd hblank (by simp)

/-- A separator stands between the pieces that it splits off. -/
lemma join_splitOn {x : Char} {xs : Text} (s : Text) :
    join (x :: xs) (splitOn (x :: xs) s) = s := by
  have hcons : ∀ (v : Text) {ws : List Text}, ws ≠ [] →
      join (x :: xs) (v :: ws) = v ++ (x :: xs) ++ join (x :: xs) ws := by
    intro v ws hws
    cases ws with
    | nil => exact absurd rfl hws
    | cons w ws => rfl
  fun_induction splitOn (x :: xs) s with
  | case1 => rfl
  | case2 d s hprefix ih =>
    obtain ⟨r, hr⟩ := List.isPrefixOf_iff_prefix.mp hprefix
    obtain ⟨rfl, rfl⟩ := List.cons.inj hr
    have hdrop : (List.append xs r).drop xs.length = r := List.drop_left
    rw [List.length_cons, Nat.add_sub_cancel, hdrop] at ih ⊢
    rw [hcons _ (splitOn_ne_nil _ r), ih]
    rfl
  | case3 d s _ hnil _ => exact absurd hnil (splitOn_ne_nil _ s)
  | case4 d s _ v vs hv ih =>
    rw [hv] at ih
    cases vs with
    | nil =>
      rw [join] at ih ⊢
      rw [ih]
    | cons w ws =>
      rw [hcons _ (by simp)] at ih ⊢
      rw [← ih]
      rfl

end TimedReq.Text
