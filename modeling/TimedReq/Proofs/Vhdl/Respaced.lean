import TimedReq.Proofs.Text.Spaced
import TimedReq.Proofs.Vhdl.Condition

/-!
# Conditions with other gaps

The tokens of a text do not depend on the gaps between them, as long as gaps stand where gaps stood.
-/

namespace TimedReq.Vhdl

open Text Lexeme

namespace Lexeme

/-- Whether a character begins a token does not depend on what follows it. -/
lemma isSome_next?_cons {c : Char} {s : Text} (hc : isTokenChar c = true)
    (h : (next? (c :: s)).isSome) (t : Text) : (next? (c :: t)).isSome := by
  by_cases hplain : (isDigit c || isAsciiLetter c) = true
  · rw [next?_plain hplain]
    split
    · rfl
    · split <;> rfl
  · have hshort : ∀ x ∈ shortSymbols, ∀ t : Text, (next? (x.1 :: t)).isSome := by
      intro x hx t
      by_cases ht : t.head? = some x.2.1
      · obtain ⟨u, rfl⟩ := List.head?_eq_some_iff.mp ht
        simp only [shortSymbols, List.mem_cons, List.not_mem_nil, or_false] at hx
        rcases hx with rfl | rfl | rfl | rfl <;> rfl
      · rw [next?_shortSymbol hx ht]
        rfl
    unfold isTokenChar isWordChar at hc
    simp only [Bool.or_eq_true, beq_iff_eq, decide_eq_true_eq, not_or] at hc hplain
    rcases hc with (hc | (hc | hc) | rfl) | hc
    · exact absurd hc hplain.1
    · exact absurd hc hplain.2
    · exact absurd (isDigit_of_isAsciiDigit hc) hplain.1
    · have hnone : next? ('_' :: s) = none := rfl
      rw [hnone] at h
      exact absurd h (by simp)
    · simp only [List.mem_cons, List.not_mem_nil, or_false] at hc
      rcases hc with rfl | rfl | rfl | rfl | rfl | rfl | rfl | rfl | rfl
      · have hnone : next? ('.' :: s) = none := rfl
        rw [hnone] at h
        exact absurd h (by simp)
      · rfl
      · rfl
      · rfl
      · exact hshort ('/', '=', .divide) (by decide) t
      · exact hshort ('<', '=', .lt) (by decide) t
      · exact hshort ('>', '=', .gt) (by decide) t
      · exact hshort ('*', '*', .times) (by decide) t
      · rfl

lemma Leads.isSome_append {k : TokenKind} {a b : Text} (h : Leads k a b) (t : Text) :
    (Lexeme.next? (a ++ t)).isSome := by
  have halone := h.alone
  have hshape := h.shape
  cases hshape with
  | plain _ _ hchars =>
    obtain ⟨c, w, rfl, -⟩ := h.exists_cons
    exact isSome_next?_cons (hchars c List.mem_cons_self) (by rw [halone]; rfl) (w ++ t)
  | leftParen | rightParen => rfl
  | character c =>
    have hall : ∀ s, Lexeme.next? ('\'' :: c :: '\'' :: s) =
        if c = '\'' ∨ c = '\n' then none else some (.character, 3) := fun _ => rfl
    rw [hall] at halone
    split at halone
    · simp at halone
    · rename_i hc
      have hcut : ['\'', c, '\''] ++ t = '\'' :: c :: '\'' :: t := rfl
      rw [hcut, hall, if_neg hc]
      rfl
  | @string w hw =>
    rw [Lexeme.next?] at halone
    obtain ⟨n, hn, -⟩ := Option.map_eq_some_iff.mp halone
    obtain ⟨v, b, heq, -, hv, hall⟩ := stringTail?_split hn
    have hquote : '"' ∉ v := fun hmem => absurd (hv _ hmem) (by decide)
    obtain ⟨rfl, -⟩ := eq_of_append_cons (fun hmem => hw _ hmem rfl) hquote heq
    have hcut : '"' :: (w ++ ['"']) ++ t = '"' :: (w ++ '"' :: t) := by simp
    rw [hcut, Lexeme.next?, hall t]
    rfl
  | bitString hbase =>
    exact isSome_next?_cons (isTokenChar_of_isWordChar (isWordChar_of_isAsciiLetter hbase))
      (by rw [halone]; rfl) _

/-- Up to a separator a token depends on the text in front of the separator only. -/
lemma Leads.change {k : TokenKind} {a x y y' : Text} (h : Leads k a (x ++ y)) (hy : Separates y)
    (hy' : Separates y') : Leads k a (x ++ y') := by
  obtain ⟨⟨l, n⟩, hfront⟩ := Option.isSome_iff_exists.mp (h.isSome_append x)
  obtain ⟨v, r, hcut, rfl, hv⟩ := exists_leads hfront
  have hnext := hv.append y hy
  have hwhole : v ++ (r ++ y) = a ++ (x ++ y) := by
    rw [← List.append_assoc, ← hcut, List.append_assoc]
  obtain ⟨rfl, rfl, hr⟩ := h.unique hwhole.symm hnext
  obtain rfl := List.append_cancel_right hr
  exact leads_of_next? (hv.append y' hy')

/-- No blank stands in a token outside literals. -/
lemma Shape.not_spacing {k : TokenKind} {w : Text} (h : Shape k w) :
    ∀ m ∈ marked w, isSpacing m = false := by
  rintro ⟨c, q⟩ hm
  cases q with
  | true => rfl
  | false =>
    rcases h.of_unquoted hm with hc | rfl | rfl
    · simp [isSpacing, not_blank_of_isTokenChar hc]
    · rfl
    · rfl

/-- Other blanks behind a token leave it a token. -/
lemma Leads.respaced {k : TokenKind} {a b b' : Text} (h : Leads k a b) (hb : Respaced b b') :
    Leads k a b' := by
  -- up to the first blank the texts behind the token are the same
  let kept : Mark → Bool := fun m => !isSpacing m
  have hcut : marked b = (marked b).takeWhile kept ++ (marked b).dropWhile kept :=
    List.takeWhile_append_dropWhile.symm
  have hkept : ∀ m ∈ (marked b).takeWhile kept, isSpacing m = false := fun m hm => by
    simpa [kept] using List.all_eq_true.mp List.all_takeWhile m hm
  have hstop := List.head?_dropWhile_not kept (marked b)
  generalize (marked b).takeWhile kept = ms at hcut hkept
  generalize (marked b).dropWhile kept = xs at hcut hstop
  unfold Respaced at hb
  rw [hcut] at hb
  obtain ⟨ys, hys, hflow⟩ := hb.append_inv hkept
  have htext : b = ms.map Prod.fst ++ xs.map Prod.fst := by
    rw [← map_fst_marked b, hcut, List.map_append]
  have htext' : b' = ms.map Prod.fst ++ ys.map Prod.fst := by
    rw [← map_fst_marked b', hys, List.map_append]
  have hstart : xs = [] ∨ startsBlank (xs.map Prod.fst) = true := by
    rcases xs with _ | ⟨m, xs⟩
    · exact .inl rfl
    · have hm : isSpacing m = true := by simpa [kept] using hstop
      exact .inr (isBlank_of_isSpacing hm)
  have hseparates : ∀ {s : Text}, startsBlank s = true → Separates s := by
    intro s hs
    rcases s with _ | ⟨c, s⟩
    · trivial
    · exact .inl hs
  rw [htext] at h
  rw [htext']
  rcases hstart with rfl | hstart
  · obtain rfl := hflow.eq_nil
    exact h
  · exact h.change (hseparates hstart) (hseparates (hflow.texts.startsBlank ▸ hstart))

end Lexeme

/-! ### Texts of tokens -/

/-- Blanks outside literals are gaps between tokens. -/
def gappy (m : Mark) : Prop := isSpacing m = true → isGap m.1

/-- No single quote stands outside literals. -/
lemma Written.unticked {w : Text} {ts : List Token} (h : Written w ts) :
    Within (· ≠ ('\'', false)) w := by
  rintro m hm rfl
  have hkind := h.of_unquoted hm
  unfold isGap at hkind
  exact absurd hkind (by decide)

lemma Lexes.gaps {u s : Text} {ts : List Token} (hu : ∀ c ∈ u, isGap c) (h : Lexes s ts) :
    Lexes (u ++ s) ts := by
  induction u with
  | nil => exact h
  | cons c u ih =>
    exact .gap (hu c List.mem_cons_self) (ih fun d hd => hu d (List.mem_cons_of_mem c hd))

/-- Other gaps between the tokens leave the tokens as they are. -/
theorem Lexes.respaced {w w' : Text} {ts : List Token} (h : Lexes w ts) (hw : Respaced w w')
    (hgap : Within Vhdl.gappy w') : Lexes w' ts := by
  induction h generalizing w' with
  | nil =>
    obtain rfl : w' = [] := by
      rw [← map_fst_marked w', Reflowed.eq_nil hw]
      rfl
    exact .nil
  | @gap c s ts hc _ ih =>
    have hblank := isBlank_of_isGap hc
    have hplain := isPlain_of_isBlank hblank
    unfold Respaced at hw
    rw [marked_plain hplain] at hw
    obtain hrest | ⟨v, ms, hms, hv, hrest⟩ := hw.soft_cons_inv (by simp [isSpacing, hblank])
    · exact ih hrest hgap
    · obtain ⟨u, hu, rfl⟩ := exists_allBlank hv
      obtain ⟨r, rfl, rfl⟩ := exists_of_marked_append (Neutral.allBlank hu).closed hms
      refine (ih hrest fun m hm => hgap m (by simp [hms, hm])).gaps fun d hd => ?_
      exact hgap (d, false) (by simp [hms, marked_allBlank hu, hd]) (by simp [isSpacing, hu d hd])
  | @token t b ts ht _ ih =>
    obtain ⟨δ, hδ⟩ := ht.shape.closed
    unfold Respaced at hw
    rw [marked_append hδ] at hw
    obtain ⟨ms, hms, hrest⟩ := hw.append_inv ht.shape.not_spacing
    obtain ⟨b', rfl, rfl⟩ := exists_of_marked_append hδ hms
    exact .token (ht.respaced hrest) (ih hrest fun m hm => hgap m (by simp [hms, hm]))

/-! ### Reading -/

section

variable {s t : Text}

theorem read_respaced {p : Node} (h : Respaced s t) (ht : Within gappy t)
    (hread : Embedding.vhdl.read s = some p) : Embedding.vhdl.read t = some p := by
  obtain ⟨hparse, hcondition⟩ := read_eq_some.mp hread
  obtain ⟨ts, hlexes, hparses⟩ := parse_eq_ok.mp hparse
  exact read_eq_some.mpr
    ⟨parse_eq_ok.mpr ⟨ts, hlexes.respaced h.trim ht.trim, hparses⟩, hcondition⟩

/-- Conditions do not depend on the gaps between their tokens. -/
theorem read_eq_of_respaced (h : Respaced s t) (hs : Within gappy s) (ht : Within gappy t) :
    Embedding.vhdl.read s = Embedding.vhdl.read t :=
  Option.ext fun _ => ⟨read_respaced h ht, read_respaced h.symm hs⟩

end

end TimedReq.Vhdl
