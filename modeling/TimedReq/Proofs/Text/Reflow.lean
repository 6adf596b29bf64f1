import TimedReq.Proofs.Text.Pieces

/-!
# Runs of other lengths

Two lists have the same flow if one becomes the other when every run of soft elements is exchanged
for another run that is not empty either. In a text the blanks are soft; words, pieces and trimmed
texts then have the same flow as well.
-/

namespace TimedReq.Text

/-- The second list has other runs of soft elements in place of those of the first. -/
inductive Reflowed {β : Type} (soft : β → Bool) : List β → List β → Prop
  | nil : Reflowed soft [] []
  | kept {x : β} {xs ys : List β} (hx : soft x = false) (h : Reflowed soft xs ys) :
    Reflowed soft (x :: xs) (x :: ys)
  | run {u v xs ys : List β} (hu : ∀ x ∈ u, soft x = true) (hv : ∀ x ∈ v, soft x = true)
    (hune : u ≠ []) (hvne : v ≠ []) (h : Reflowed soft xs ys) : Reflowed soft (u ++ xs) (v ++ ys)

namespace Reflowed

variable {β : Type} {soft : β → Bool} {xs ys xs' ys' : List β} {x : β}

lemma refl (soft : β → Bool) (xs : List β) : Reflowed soft xs xs := by
  induction xs with
  | nil => exact .nil
  | cons x xs ih =>
    cases hx : soft x with
    | false => exact .kept hx ih
    | true => exact .run (u := [x]) (v := [x]) (by simp [hx]) (by simp [hx]) (by simp) (by simp) ih

lemma symm (h : Reflowed soft xs ys) : Reflowed soft ys xs := by
  induction h with
  | nil => exact .nil
  | kept hx _ ih => exact .kept hx ih
  | run hu hv hune hvne _ ih => exact .run hv hu hvne hune ih

lemma append (h : Reflowed soft xs ys) (h' : Reflowed soft xs' ys') :
    Reflowed soft (xs ++ xs') (ys ++ ys') := by
  induction h with
  | nil => exact h'
  | kept hx _ ih => exact .kept hx ih
  | run hu hv hune hvne _ ih =>
    rw [List.append_assoc, List.append_assoc]
    exact .run hu hv hune hvne ih

lemma reverse (h : Reflowed soft xs ys) : Reflowed soft xs.reverse ys.reverse := by
  induction h with
  | nil => exact .nil
  | kept hx _ ih =>
    rw [List.reverse_cons, List.reverse_cons]
    exact ih.append (.kept hx .nil)
  | @run u v xs ys hu hv hune hvne _ ih =>
    rw [List.reverse_append, List.reverse_append]
    refine ih.append ?_
    have hrun : Reflowed soft (u.reverse ++ []) (v.reverse ++ []) :=
      .run (by simpa using hu) (by simpa using hv) (by simpa using hune) (by simpa using hvne) .nil
    rwa [List.append_nil, List.append_nil] at hrun

/-- A list goes on in the same way behind an element that is not soft. -/
lemma cut {l r : List β} (h : Reflowed soft (l ++ x :: r) ys) (hx : soft x = false) :
    ∃ l' r', ys = l' ++ x :: r' ∧ Reflowed soft l l' ∧ Reflowed soft r r' := by
  generalize hxs : l ++ x :: r = xs at h
  induction h generalizing l with
  | nil => simp at hxs
  | @kept y xs ys hy h ih =>
    cases l with
    | nil =>
      obtain ⟨rfl, rfl⟩ := List.cons.inj hxs
      exact ⟨[], ys, rfl, .nil, h⟩
    | cons z l =>
      obtain ⟨rfl, rfl⟩ := List.cons.inj hxs
      obtain ⟨l', r', rfl, hl, hr⟩ := ih rfl
      exact ⟨z :: l', r', rfl, .kept hy hl, hr⟩
  | @run u v xs ys hu hv hune hvne h ih =>
    obtain ⟨w, rfl, hw⟩ | ⟨w, rfl, hw⟩ := List.append_eq_append_iff.mp hxs
    · cases w with
      | nil =>
        obtain ⟨l', r', rfl, hl, hr⟩ := ih (l := []) hw
        rw [List.append_nil] at hu hune
        have hrun := Reflowed.run hu hv hune hvne hl
        rw [List.append_nil] at hrun
        exact ⟨v ++ l', r', by simp, hrun, hr⟩
      | cons y w =>
        obtain ⟨rfl, -⟩ := List.cons.inj hw
        have hsoft := hu x (by simp)
        rw [hx] at hsoft
        exact absurd hsoft (by simp)
    · obtain ⟨l', r', rfl, hl, hr⟩ := ih hw.symm
      exact ⟨v ++ l', r', by simp, .run hu hv hune hvne hl, hr⟩

lemma eq_nil (h : Reflowed soft [] ys) : ys = [] := by
  generalize hxs : ([] : List β) = xs at h
  cases h with
  | nil => rfl
  | kept => simp at hxs
  | run _ _ hune =>
    obtain ⟨rfl, -⟩ := List.append_eq_nil_iff.mp hxs.symm
    exact absurd rfl hune

lemma cons_inv (h : Reflowed soft (x :: xs) ys) (hx : soft x = false) :
    ∃ ys', ys = x :: ys' ∧ Reflowed soft xs ys' := by
  obtain ⟨l', r', rfl, hl, hr⟩ := h.cut (l := []) hx
  obtain rfl := hl.eq_nil
  exact ⟨r', rfl, hr⟩

lemma append_inv {l : List β} (hl : ∀ x ∈ l, soft x = false) (h : Reflowed soft (l ++ xs) ys) :
    ∃ ys', ys = l ++ ys' ∧ Reflowed soft xs ys' := by
  induction l generalizing ys with
  | nil => exact ⟨ys, rfl, h⟩
  | cons x l ih =>
    obtain ⟨ys, rfl, hrest⟩ := h.cons_inv (hl x List.mem_cons_self)
    obtain ⟨ys, rfl, hxs⟩ := ih (fun y hy => hl y (List.mem_cons_of_mem x hy)) hrest
    exact ⟨ys, rfl, hxs⟩

/-- A soft element is one of a run, which goes on behind it or not. -/
lemma soft_cons_inv (h : Reflowed soft (x :: xs) ys) (hx : soft x = true) :
    Reflowed soft xs ys ∨
      ∃ v ys', ys = v ++ ys' ∧ (∀ y ∈ v, soft y = true) ∧ Reflowed soft xs ys' := by
  generalize hzs : x :: xs = zs at h
  cases h with
  | nil => simp at hzs
  | kept hy =>
    obtain ⟨rfl, -⟩ := List.cons.inj hzs
    rw [hx] at hy
    exact absurd hy (by simp)
  | @run u v xs' ys' hu hv hune hvne h =>
    obtain ⟨y, u, rfl⟩ := List.exists_cons_of_ne_nil hune
    obtain ⟨rfl, rfl⟩ := List.cons.inj hzs
    rcases u with _ | ⟨y, u⟩
    · exact .inr ⟨v, ys', rfl, hv, h⟩
    · exact .inl (.run (fun z hz => hu z (List.mem_cons_of_mem _ hz)) hv (by simp) hvne h)

lemma mem (h : Reflowed soft xs ys) (hx : soft x = false) (hmem : x ∈ xs) : x ∈ ys := by
  obtain ⟨l, r, rfl⟩ := List.append_of_mem hmem
  obtain ⟨l', r', rfl, -, -⟩ := h.cut hx
  simp

/-- What all soft elements satisfy is dropped from both lists alike. -/
lemma dropWhile {p : β → Bool} (hp : ∀ x, soft x = true → p x = true) (h : Reflowed soft xs ys) :
    Reflowed soft (xs.dropWhile p) (ys.dropWhile p) := by
  induction h with
  | nil => exact .nil
  | @kept x xs ys hx h ih =>
    cases hpx : p x with
    | true =>
      rw [List.dropWhile_cons_of_pos hpx, List.dropWhile_cons_of_pos hpx]
      exact ih
    | false =>
      rw [List.dropWhile_cons_of_neg (by simp [hpx]), List.dropWhile_cons_of_neg (by simp [hpx])]
      exact .kept hx h
  | run hu hv _ _ _ ih =>
    rw [List.dropWhile_append_of_pos fun x hx => hp x (hu x hx),
      List.dropWhile_append_of_pos fun x hx => hp x (hv x hx)]
    exact ih

/-- Soft elements may be exchanged for soft ones. -/
lemma map {γ : Type} {soft' : γ → Bool} {f : β → γ} (hf : ∀ x, soft x = true → soft' (f x) = true)
    (h : Reflowed soft xs ys) : Reflowed soft' (xs.map f) (ys.map f) := by
  induction h with
  | nil => exact .nil
  | kept _ _ ih => exact (refl soft' [f _]).append ih
  | @run u v xs ys hu hv hune hvne _ ih =>
    have hmap : ∀ {w : List β}, (∀ x ∈ w, soft x = true) → ∀ y ∈ w.map f, soft' y = true := by
      intro w hw y hy
      obtain ⟨x, hx, rfl⟩ := List.mem_map.mp hy
      exact hf x (hw x hx)
    rw [List.map_append, List.map_append]
    exact .run (hmap hu) (hmap hv) (by simpa using hune) (by simpa using hvne) ih

end Reflowed

/-! ### Texts -/

section

variable {s t : Text}

lemma Reflowed.startsBlank (h : Reflowed isBlank s t) : startsBlank s = startsBlank t := by
  cases h with
  | nil => rfl
  | kept hx => exact hx.trans hx.symm
  | @run u v _ _ hu hv hune hvne =>
    rw [startsBlank_append hune, startsBlank_append hvne]
    obtain ⟨c, u, rfl⟩ := List.exists_cons_of_ne_nil hune
    obtain ⟨d, v, rfl⟩ := List.exists_cons_of_ne_nil hvne
    exact (hu c List.mem_cons_self).trans (hv d List.mem_cons_self).symm

lemma Reflowed.allBlank (h : Reflowed isBlank s t) (hs : AllBlank s) : AllBlank t := by
  intro c hc
  by_contra hblank
  have hmem := h.symm.mem (Bool.eq_false_iff.mpr hblank) hc
  exact hblank (hs c hmem)

lemma Reflowed.any_isBlank (h : Reflowed isBlank s t) : s.any isBlank = t.any isBlank := by
  have hrun : ∀ {u : Text}, (∀ c ∈ u, isBlank c = true) → u ≠ [] → u.any isBlank = true := by
    intro u hu hne
    obtain ⟨c, u, rfl⟩ := List.exists_cons_of_ne_nil hne
    simp [hu c List.mem_cons_self]
  induction h with
  | nil => rfl
  | kept _ _ ih => rw [List.any_cons, List.any_cons, ih]
  | run hu hv hune hvne => rw [List.any_append, List.any_append, hrun hu hune, hrun hv hvne,
      Bool.true_or, Bool.true_or]

lemma Reflowed.trimStart (h : Reflowed isBlank s t) :
    Reflowed isBlank (trimStart s) (trimStart t) :=
  h.dropWhile fun _ => id

lemma Reflowed.trimEnd (h : Reflowed isBlank s t) : Reflowed isBlank (trimEnd s) (trimEnd t) :=
  h.reverse.trimStart.reverse

lemma Reflowed.trim (h : Reflowed isBlank s t) : Reflowed isBlank (trim s) (trim t) :=
  h.trimStart.trimEnd

/-- The pieces between separators other than blanks. -/
lemma Reflowed.pieces {p : Char → Bool} (hp : ∀ c, p c = true → isBlank c = false)
    (h : Reflowed isBlank s t) : List.Forall₂ (Reflowed isBlank) (pieces p s) (pieces p t) := by
  have hcons : ∀ {c : Char} {s w : Text} {ws : List Text}, p c = false → Text.pieces p s = w :: ws →
      Text.pieces p (c :: s) = (c :: w) :: ws := by
    intro c s w ws hc hs
    rw [Text.pieces, if_neg (by simp [hc]), hs]
  have happend : ∀ {u s w : Text} {ws : List Text}, (∀ c ∈ u, isBlank c = true) →
      Text.pieces p s = w :: ws → Text.pieces p (u ++ s) = (u ++ w) :: ws := by
    intro u s w ws hu hs
    induction u with
    | nil => exact hs
    | cons c u ih =>
      refine hcons ?_ (ih fun d hd => hu d (List.mem_cons_of_mem c hd))
      by_contra hc
      have hblank := hp c (by simpa using hc)
      rw [hu c List.mem_cons_self] at hblank
      exact absurd hblank (by simp)
  induction h with
  | nil => exact .cons .nil .nil
  | @kept c s t hc h ih =>
    cases hpc : p c with
    | true =>
      rw [Text.pieces, Text.pieces, if_pos hpc, if_pos hpc]
      exact .cons .nil ih
    | false =>
      generalize hs : Text.pieces p s = ws at ih
      generalize ht : Text.pieces p t = vs at ih
      cases ih with
      | nil => exact absurd hs (pieces_ne_nil p s)
      | cons hw hrest =>
        rw [hcons hpc hs, hcons hpc ht]
        exact .cons (.kept hc hw) hrest
  | @run u v s t hu hv hune hvne h ih =>
    generalize hs : Text.pieces p s = ws at ih
    generalize ht : Text.pieces p t = vs at ih
    cases ih with
    | nil => exact absurd hs (pieces_ne_nil p s)
    | cons hw hrest =>
      rw [happend hu hs, happend hv ht]
      exact .cons (.run hu hv hune hvne hw) hrest

/-- The words do not depend on the blanks between them. -/
lemma Reflowed.words_eq (h : Reflowed isBlank s t) : words s = words t := by
  have hblank : ∀ {u s : Text}, (∀ c ∈ u, isBlank c = true) → words (u ++ s) = words s := by
    intro u s hu
    induction u with
    | nil => rfl
    | cons c u ih =>
      rw [List.cons_append, words_cons_blank (hu c List.mem_cons_self),
        ih fun d hd => hu d (List.mem_cons_of_mem c hd)]
  -- the first pieces are the same, empty or not
  have hpieces : ∃ w ws vs, Text.pieces isBlank s = w :: ws ∧ Text.pieces isBlank t = w :: vs ∧
      ws.filter (!·.isEmpty) = vs.filter (!·.isEmpty) := by
    induction h with
    | nil => exact ⟨[], [], [], rfl, rfl, rfl⟩
    | @kept c s t hc _ ih =>
      obtain ⟨w, ws, vs, hs, ht, hrest⟩ := ih
      refine ⟨c :: w, ws, vs, ?_, ?_, hrest⟩
      · rw [Text.pieces, if_neg (by simp [hc]), hs]
      · rw [Text.pieces, if_neg (by simp [hc]), ht]
    | @run u v s t hu hv hune hvne _ ih =>
      obtain ⟨w, ws, vs, hs, ht, hrest⟩ := ih
      have hwords : words s = words t := by
        unfold words
        rw [hs, ht, List.filter_cons, List.filter_cons, hrest]
      obtain ⟨c, u, rfl⟩ := List.exists_cons_of_ne_nil hune
      obtain ⟨d, v, rfl⟩ := List.exists_cons_of_ne_nil hvne
      refine ⟨[], Text.pieces isBlank (u ++ s), Text.pieces isBlank (v ++ t), ?_, ?_, ?_⟩
      · rw [List.cons_append, Text.pieces, if_pos (hu c List.mem_cons_self)]
      · rw [List.cons_append, Text.pieces, if_pos (hv d List.mem_cons_self)]
      · have hus := hblank (s := s) fun x hx => hu x (List.mem_cons_of_mem c hx)
        have hvt := hblank (s := t) fun x hx => hv x (List.mem_cons_of_mem d hx)
        exact hus.trans (hwords.trans hvt.symm)
  obtain ⟨w, ws, vs, hs, ht, hrest⟩ := hpieces
  unfold words
  rw [hs, ht, List.filter_cons, List.filter_cons, hrest]

end

end TimedReq.Text
