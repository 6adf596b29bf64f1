import TimedReq.Proofs.Text.Steady

/-!
# Texts with other blanks

Two texts are respaced if they differ only in the runs of blanks outside quoted literals. They have
the same depths, are cut at the same symbols, and their pieces are respaced again.
-/

namespace TimedReq.Text

/-- The second text has other runs of blanks outside literals in place of those of the first. -/
def Respaced (s t : Text) : Prop := Reflowed isSpacing (marked s) (marked t)

/-- The characters of marks of one flow. -/
lemma Reflowed.texts {ms ns : List Mark} (h : Reflowed isSpacing ms ns) :
    Reflowed isBlank (ms.map Prod.fst) (ns.map Prod.fst) :=
  h.map fun _ => isBlank_of_isSpacing

lemma exists_of_rel_some {α γ : Type} {R : α → γ → Prop} {x : α} {p : Option γ}
    (h : Option.Rel R (some x) p) : ∃ y, p = some y ∧ R x y := by
  cases h with
  | some hxy => exact ⟨_, rfl, hxy⟩

/-! ### Marks -/

/-- A text is cut where its marks are cut outside literals. -/
lemma exists_cut {s : Text} {ml mr : List Mark} {c : Char} (h : marked s = ml ++ (c, false) :: mr) :
    s = ml.map Prod.fst ++ c :: mr.map Prod.fst ∧ ml = marked (ml.map Prod.fst) ∧
      mr = marked (mr.map Prod.fst) := by
  have htext : s = ml.map Prod.fst ++ c :: mr.map Prod.fst := by
    rw [← map_fst_marked s, h]
    simp
  have hquotes : quotes false s = ml.map Prod.snd ++ false :: mr.map Prod.snd := by
    rw [← map_snd_marked, h]
    simp
  have hcut : marked s = marked (ml.map Prod.fst) ++ (c, false) :: marked (mr.map Prod.fst) := by
    conv_lhs => rw [htext]
    refine marked_cut ?_
    rw [← htext, hquotes, List.getElem?_append_right (by simp)]
    simp
  have hlen : ml.length = (marked (ml.map Prod.fst)).length := by
    rw [marked_eq_zip, List.length_zip, length_quotes]
    simp
  rw [h] at hcut
  obtain ⟨hl, hr⟩ := List.append_inj hcut hlen
  exact ⟨htext, hl, (List.cons.inj hr).2⟩

lemma exists_of_marked_append {δ : Int} {s w : Text} (hs : Closed δ s) {ms : List Mark}
    (h : marked w = marked s ++ ms) : ∃ t, w = s ++ t ∧ marked t = ms := by
  have htext : w = s ++ ms.map Prod.fst := by
    rw [← map_fst_marked w, h, List.map_append, map_fst_marked]
  rw [htext, marked_append hs] at h
  exact ⟨_, htext, List.append_cancel_left h⟩

lemma marked_allBlank {u : Text} (hu : AllBlank u) : marked u = u.map (·, false) := by
  induction u with
  | nil => rfl
  | cons c u ih =>
    have hc := isPlain_of_isBlank hu.of_cons.1
    rw [marked_plain hc, ih hu.of_cons.2]
    rfl

/-- Spacing is the text of its characters. -/
lemma exists_allBlank {v : List Mark} (hv : ∀ m ∈ v, isSpacing m = true) :
    ∃ u, AllBlank u ∧ v = marked u := by
  have hu : AllBlank (v.map Prod.fst) := by
    intro c hc
    obtain ⟨m, hm, rfl⟩ := List.mem_map.mp hc
    exact isBlank_of_isSpacing (hv m hm)
  refine ⟨v.map Prod.fst, hu, ?_⟩
  rw [marked_allBlank hu, List.map_map]
  refine (List.map_id v).symm.trans (List.map_congr_left fun m hm => Prod.ext rfl ?_)
  have hm := hv m hm
  unfold isSpacing at hm
  simpa using (Bool.and_eq_true_iff.mp hm).1

lemma dropWhile_ends {β : Type} {p : β → Bool} {u l v : List β} (hu : ∀ x ∈ u, p x = true)
    (hv : ∀ x ∈ v, p x = true) (hhead : ∀ x ∈ l.head?, p x = false)
    (hlast : ∀ x ∈ l.getLast?, p x = false) :
    (((u ++ (l ++ v)).dropWhile p).reverse.dropWhile p).reverse = l := by
  have hstop : ∀ {w r : List β}, (∀ x ∈ w, p x = true) → (∀ x ∈ r.head?, p x = false) →
      (w ++ r).dropWhile p = r := by
    intro w r hw hr
    rw [List.dropWhile_append_of_pos hw]
    rcases r with _ | ⟨x, r⟩
    · rfl
    · rw [List.dropWhile_cons_of_neg (by simp [hr x rfl])]
  rcases l with _ | ⟨x, l⟩
  · have hall := hstop (r := []) (fun x hx => (List.mem_append.mp hx).elim (hu x) (hv x)) (by simp)
    rw [List.nil_append, ← List.append_nil (u ++ v), hall]
    rfl
  · have hback := hstop (w := v.reverse) (by simpa using hv) (by rwa [List.head?_reverse])
    rw [hstop (r := x :: l ++ v) hu hhead, List.reverse_append, hback, List.reverse_reverse]

/-- Trimming, done to marked characters. -/
lemma marked_trim_eq (s : Text) : marked (trim s) =
    (((marked s).dropWhile fun m => isBlank m.1).reverse.dropWhile fun m => isBlank m.1).reverse := by
  obtain ⟨u, v, hu, hv, heq⟩ := exists_marked_trim s
  rw [heq, dropWhile_ends hu hv]
  · intro m hm
    have hhead : (trim s).head? = some m.1 := by
      rw [← map_fst_marked (trim s), List.head?_map, hm]
      rfl
    obtain ⟨t, ht⟩ := List.head?_eq_some_iff.mp hhead
    exact not_blank_of_trim_eq_cons ht
  · intro m hm
    have hlast : (trim s).getLast? = some m.1 := by
      rw [← map_fst_marked (trim s), List.getLast?_map, hm]
      rfl
    obtain ⟨t, ht⟩ := List.getLast?_eq_some_iff.mp hlast
    exact not_blank_of_trim_eq_append ht

/-! ### Pieces -/

namespace Respaced

variable {s t : Text}

lemma symm (h : Respaced s t) : Respaced t s := Reflowed.symm h

/-- The texts have one flow, in literals as well. -/
lemma reflowed (h : Respaced s t) : Reflowed isBlank s t := by
  have htexts := Reflowed.texts h
  rwa [map_fst_marked, map_fst_marked] at htexts

/-- What is found in texts, if it is found in respaced ones as well. -/
lemma rel {γ : Type} {R : γ → γ → Prop} {f : Text → Option γ} (h : Respaced s t)
    (hf : ∀ {s t : Text}, Respaced s t → ∀ p, f s = some p → ∃ q, f t = some q ∧ R p q) :
    Option.Rel R (f s) (f t) := by
  cases hs : f s with
  | none =>
    cases ht : f t with
    | none => exact .none
    | some q =>
      obtain ⟨p, hp, -⟩ := hf h.symm q ht
      rw [hs] at hp
      exact absurd hp (by simp)
  | some p =>
    obtain ⟨q, hq, hpq⟩ := hf h p hs
    rw [hq]
    exact .some hpq

lemma trim_eq_nil (h : Respaced s t) : Text.trim s = [] ↔ Text.trim t = [] := by
  have hnil : ∀ {s t : Text}, Respaced s t → Text.trim s = [] → Text.trim t = [] := by
    intro s t h hs
    have hflow := h.reflowed.trim
    rw [hs] at hflow
    exact hflow.eq_nil
  exact ⟨hnil h, hnil h.symm⟩

/-- Behind a character that begins no literal the texts are respaced as well. -/
lemma cons_inv {c : Char} (h : Respaced (c :: s) t) (hc : isBlank c = false) (hq : c ≠ '"')
    (hs : ∀ e r, c = '\'' → s = e :: '\'' :: r → False) : ∃ t', t = c :: t' ∧ Respaced s t' := by
  unfold Respaced at h
  rw [marked_other hq hs] at h
  obtain ⟨ns, hns, hrest⟩ := h.cons_inv (by simp [isSpacing, hc])
  obtain ⟨rfl, -, hmarked⟩ := exists_cut (hns.trans (List.nil_append _).symm)
  exact ⟨ns.map Prod.fst, rfl, by rwa [Respaced, ← hmarked]⟩

lemma cons_inv_of_plain {c : Char} (h : Respaced (c :: s) t) (hc : isBlank c = false)
    (hq : c ≠ '"' ∧ c ≠ '\'') : ∃ t', t = c :: t' ∧ Respaced s t' :=
  h.cons_inv hc hq.1 fun _ _ heq => absurd heq hq.2

/-- A character outside literals behind a plain text. -/
lemma append_cons_inv {w : Text} {c : Char} (h : Respaced (w ++ c :: s) t)
    (hw : ∀ x ∈ w, IsPlain x) (hc : isBlank c = false) (hq : c ≠ '"' ∧ c ≠ '\'') :
    ∃ w' t', t = w' ++ c :: t' ∧ Respaced s t' ∧ Reflowed isBlank w w' ∧
      ∀ m ∈ marked t', m ∈ marked t := by
  unfold Respaced at h
  rw [marked_append (Closed.plain hw), marked_cons hq] at h
  obtain ⟨ml, mr, ht, hl, hr⟩ := h.cut (by simp [isSpacing, hc])
  obtain ⟨htext, -, hmr⟩ := exists_cut ht
  refine ⟨ml.map Prod.fst, mr.map Prod.fst, htext, by rwa [Respaced, ← hmr], ?_, ?_⟩
  · have htexts := Reflowed.texts hl
    rwa [map_fst_marked] at htexts
  · intro m hm
    rw [ht, hmr]
    simp [hm]

/-- Respaced texts are cut at the same character, into respaced pieces. -/
lemma cutFirst {stop : Bool → Option Int → Text → Bool} (hstop : Steady stop) (h : Respaced s t)
    {a : Bool} {d : Int} {l r : Text}
    (hcut : cutFirst stop a s (depths d (marked s)) = some (l, r)) :
    ∃ c r₀ l' r', r = c :: r₀ ∧ s = l ++ c :: r₀ ∧
      Text.cutFirst stop a t (depths d (marked t)) = some (l', c :: r') ∧ Respaced l l' ∧
      Respaced r₀ r' := by
  have hmarks : Text.cutFirst stop a ((marked s).map Prod.fst) (depths d (marked s)) =
      some (l, r) := by
    rwa [map_fst_marked]
  obtain ⟨ml, nl, c, mr, nr, hs, ht, hl, hr, rfl, rfl, hcut'⟩ := hstop.cutFirst_respaced h hmarks
  rw [map_fst_marked] at hcut'
  obtain ⟨htext, hml, hmr⟩ := exists_cut hs
  obtain ⟨-, hnl, hnr⟩ := exists_cut ht
  refine ⟨c, _, _, _, rfl, htext, hcut', ?_, ?_⟩
  · rwa [Respaced, ← hml, ← hnl]
  · rwa [Respaced, ← hmr, ← hnr]

section

variable {β : Type} {symbol? : Char → Option β}

lemma splitToken? (hsymbol : ∀ c, (symbol? c).isSome → isBlank c = false) (h : Respaced s t) :
    Option.Rel (fun p q => Respaced p.1 q.1 ∧ p.2.1 = q.2.1 ∧ Respaced p.2.2 q.2.2)
      (splitToken? symbol? s) (splitToken? symbol? t) := by
  refine h.rel ?_
  rintro s t h ⟨l, x, r⟩ hcut
  unfold Text.splitToken? at hcut ⊢
  rw [cutAtToken_eq_cutFirst, nesting_eq_depths] at hcut ⊢
  obtain ⟨⟨l, r⟩, hfirst, hx⟩ := Option.bind_eq_some_iff.mp hcut
  obtain ⟨c, r, l', r', rfl, -, hfirst', hl, hr⟩ := h.cutFirst (steady_atToken hsymbol) hfirst
  obtain ⟨y, hy, heq⟩ := Option.map_eq_some_iff.mp hx
  obtain ⟨rfl, hxr⟩ := Prod.mk.inj heq
  obtain ⟨rfl, rfl⟩ := Prod.mk.inj hxr
  rw [hfirst']
  exact ⟨(l', y, r'), Option.map_eq_some_iff.mpr ⟨y, hy, rfl⟩, hl, rfl, hr⟩

lemma splitArrow? (h : Respaced s t) :
    Option.Rel (fun p q => Respaced p.1 q.1 ∧ Respaced p.2 q.2) (splitArrow? s) (splitArrow? t) := by
  refine h.rel ?_
  rintro s t h ⟨l, r⟩ hcut
  have htext := eq_of_cutAtArrow hcut
  unfold Text.splitArrow? at hcut ⊢
  rw [cutAtArrow_eq_cutFirst false, nesting_eq_depths] at hcut ⊢
  obtain ⟨⟨l', r₀⟩, hfirst, heq⟩ := Option.map_eq_some_iff.mp hcut
  obtain ⟨rfl, rfl⟩ := Prod.mk.inj heq
  obtain ⟨c, r, l'', r', rfl, hs, hfirst', hl, hr⟩ := h.cutFirst steady_atArrow hfirst
  obtain ⟨rfl, hgt⟩ := List.cons.inj (List.append_cancel_left (hs.symm.trans htext))
  rw [hgt] at hr
  obtain ⟨r', rfl, hrest⟩ := hr.cons_inv_of_plain (by decide) (by decide)
  rw [hfirst']
  exact ⟨(l'', r'), rfl, hl, hrest⟩

/-- What a bracket encloses, and what follows it. -/
lemma splitGroup? (h : Respaced s t) :
    Option.Rel (fun p q => Respaced p.1 q.1 ∧ Respaced p.2 q.2) (splitGroup? s) (splitGroup? t) := by
  refine h.rel ?_
  rintro s t h ⟨inner, after⟩ hcut
  rcases s with _ | ⟨o, s⟩
  · simp [Text.splitGroup?] at hcut
  · unfold Text.splitGroup? at hcut
    simp only at hcut
    obtain ⟨close, hclose, hcut⟩ := Option.bind_eq_some_iff.mp hcut
    have ho := (isBracket_of_closer? hclose).1
    have hblank : isBlank o = false := by
      rcases ho with rfl | rfl <;> rfl
    obtain ⟨t, rfl, hrest⟩ := h.cons_inv_of_plain hblank ho.not_quote
    have hdepths : ∀ s : Text, (nesting (o :: s)).tail = depths 1 (marked s) := by
      intro s
      rw [nesting_opening ho, List.tail_cons]
    rw [hdepths, cutAtCloser_eq_cutFirst close false] at hcut
    obtain ⟨⟨l, r⟩, hfirst, hfound⟩ := Option.bind_eq_some_iff.mp hcut
    obtain ⟨c, r, l', r', rfl, -, hfirst', hl, hr⟩ := hrest.cutFirst steady_atCloser hfirst
    obtain ⟨rfl, heq⟩ : c = close ∧ (l, r) = (inner, after) := by simpa using hfound
    obtain ⟨rfl, rfl⟩ := Prod.mk.inj heq
    refine ⟨(l', r'), ?_, hl, hr⟩
    unfold Text.splitGroup?
    simp only
    rw [hclose, Option.bind_some, hdepths, cutAtCloser_eq_cutFirst c false, hfirst']
    simp

lemma leadingSymbol? (hsymbol : ∀ c, (symbol? c).isSome → c ∈ operatorChars) (h : Respaced s t) :
    Option.Rel (fun p q => p.1 = q.1 ∧ Respaced p.2 q.2) (leadingSymbol? symbol? s)
      (leadingSymbol? symbol? t) := by
  refine h.rel ?_
  rintro s t h ⟨x, r⟩ hs
  obtain ⟨c, b, s, rfl, hb, hx⟩ : ∃ c b s', s = c :: b :: s' ∧ isBlank b = true ∧
      (symbol? c).map (·, b :: s') = some (x, r) := by
    unfold Text.leadingSymbol? at hs
    split at hs
    · split at hs
      · exact ⟨_, _, _, rfl, ‹_›, hs⟩
      · simp at hs
    · simp at hs
  obtain ⟨y, hy, heq⟩ := Option.map_eq_some_iff.mp hx
  obtain ⟨rfl, rfl⟩ := Prod.mk.inj heq
  have hc := hsymbol c (by rw [hy]; rfl)
  obtain ⟨t, rfl, hrest⟩ := h.cons_inv_of_plain (not_blank_of_mem_operatorChars hc)
    ⟨(isPlain_of_mem_operatorChars hc).1, (isPlain_of_mem_operatorChars hc).2.1⟩
  have hstart : startsBlank t = true := by
    rw [← hrest.reflowed.startsBlank]
    exact hb
  rcases t with _ | ⟨d, t⟩
  · simp [startsBlank] at hstart
  · have hd : isBlank d = true := hstart
    refine ⟨(y, d :: t), ?_, rfl, hrest⟩
    unfold Text.leadingSymbol?
    simp only
    rw [if_pos hd, hy]
    rfl

end

lemma trim (h : Respaced s t) : Respaced (trim s) (trim t) := by
  have hsoft : ∀ m, isSpacing m = true → isBlank m.1 = true := fun _ => isBlank_of_isSpacing
  unfold Respaced
  rw [marked_trim_eq, marked_trim_eq]
  exact ((h.dropWhile hsoft).reverse.dropWhile hsoft).reverse

end Respaced

/-! ### Marks of a kind -/

/-- All characters of the text are good, by their marks. -/
def Within (good : Mark → Prop) (s : Text) : Prop := ∀ m ∈ marked s, good m

namespace Within

variable {good : Mark → Prop} {s : Text}

lemma of_marked {ms : List Mark} (h : Within good s) {t : Text} (hs : marked s = ms)
    (ht : ∀ m ∈ marked t, m ∈ ms) : Within good t :=
  fun m hm => h m (hs ▸ ht m hm)

lemma trim (h : Within good s) : Within good (trim s) :=
  fun m hm => h m ((marked_trim s).subset hm)

/-- Behind a character that begins no literal. -/
lemma of_cons {c : Char} (h : Within good (c :: s)) (hq : c ≠ '"' ∧ c ≠ '\'') : Within good s :=
  h.of_marked (marked_cons hq s) fun _ => List.mem_cons_of_mem _

end Within

end TimedReq.Text
