import TimedReq.Proofs.Document.OneLine
import TimedReq.Proofs.Vhdl.Condition

/-!
# Conditions on one line

No token goes over the end of a line that a newline ends: string and character literals end on their
line. The printer keeps two signs apart, so a condition whose tokens were found in text without
comments is printed on one line without comments.
-/

namespace TimedReq.Vhdl

open Text Lexeme Blocks

namespace Lexeme

/-- A run that is as long as a text in front is that text. -/
lemma forall_of_length_takeWhile {p : Char → Bool} {w t : Text}
    (h : ((w ++ t).takeWhile p).length = w.length) : ∀ c ∈ w, p c = true := by
  have hprefix : (w ++ t).takeWhile p <+: w :=
    List.prefix_of_prefix_length_le (List.takeWhile_prefix p) (List.prefix_append w t) h.le
  have heq := hprefix.eq_of_length h
  intro c hc
  rw [← heq] at hc
  exact List.all_eq_true.mp List.all_takeWhile c hc

lemma newline_not_mem_string {w : Text} (h : stringTail? (w ++ ['"']) = some (w.length + 2)) :
    '\n' ∉ w := by
  unfold stringTail? at h
  simp only at h
  split at h
  · have hlen : ((w ++ ['"']).takeWhile fun c => c != '"' && c != '\n').length = w.length := by
      have heq := Option.some.inj h
      omega
    intro hmem
    exact absurd (forall_of_length_takeWhile hlen '\n' hmem) (by decide)
  · simp at h

lemma newline_not_mem_bitString {base : Char} {w : Text}
    (h : bitString? (base :: '"' :: (w ++ ['"'])) = some (w.length + 3)) : '\n' ∉ w := by
  unfold bitString? at h
  simp only at h
  split at h
  · have hlen : ((w ++ ['"']).takeWhile isBitDigit).length = w.length := by
      have heq := Option.some.inj h
      omega
    intro hmem
    exact absurd (forall_of_length_takeWhile hlen '\n' hmem) (by decide)
  · simp at h

/-- No newline is in a token. -/
lemma newline_not_mem {k : TokenKind} {w : Text} (h : next? w = some (k, w.length)) :
    '\n' ∉ w := by
  have hshape : Shape k w := (leads_of_alone (b := []) h trivial).shape
  cases hshape with
  | plain hl hr hw =>
    intro hmem
    exact absurd (hw '\n' hmem) (by decide)
  | leftParen => decide
  | rightParen => decide
  | character c =>
    intro hmem
    obtain rfl : c = '\n' := by simpa [eq_comm] using hmem
    exact absurd h (by simp [next?])
  | @string w hw =>
    rw [next?] at h
    obtain ⟨n, hn, heq⟩ := Option.map_eq_some_iff.mp h
    have hlen : n = w.length + 2 := by simpa using (Prod.mk.inj heq).2
    simpa using newline_not_mem_string (hlen ▸ hn)
  | @bitString base w hbase hw =>
    have hbits : bitString? (base :: '"' :: (w ++ ['"'])) = some (w.length + 3) := by
      rw [next?_letter hbase] at h
      split at h
      · rename_i n hn
        have hlen : n = w.length + 3 := by simpa using (Prod.mk.inj (Option.some.inj h)).2
        rw [hn, hlen]
      · -- a name ends in front of the quote
        have hlen := (Prod.mk.inj (Option.some.inj h)).2
        have htail : nameTail ('"' :: (w ++ ['"'])) = 0 := rfl
        rw [htail] at hlen
        simp at hlen
    have hne : base ≠ '\n' := by
      rintro rfl
      exact absurd hbase (by decide)
    simpa [hne.symm] using newline_not_mem_bitString hbits

end Lexeme

/-- A tree whose tokens are on one line each is printed on one line. -/
lemma Derives.oneLine_print {ts : List Token} {x : Node} (h : Derives ts x)
    (hts : ∀ t ∈ ts, OneLine t.text) : OneLine x.print := by
  induction h with
  | @leaf t x ht =>
    have hself : OneLine t.text := hts t List.mem_cons_self
    obtain ⟨-, rfl⟩ | ⟨kind, -, rfl⟩ | ⟨value, -, rfl⟩ := Token.leaf?_cases ht
    · exact hself
    · exact hself
    · cases value <;> exact ⟨by decide, by decide⟩
  | @paren l r ts x hl hr _ ih =>
    have hin := ih fun t ht => hts t (by simp [ht])
    exact (hin.cons (by decide)).concat (by decide)
  | @unary t o ts x ht _ ih =>
    have hin := ih fun u hu => hts u (List.mem_cons_of_mem t hu)
    have hword : OneLine o.word := by
      cases o
      all_goals exact ⟨by decide, by decide⟩
    rw [Node.print]
    split
    · exact hword.spaced hin
    · -- the operand begins with no sign
      rename_i hspaced
      refine hword.append hin (.inr fun hsign => hspaced ?_)
      unfold Node.isSpaced
      rw [hsign]
      simp
  | @binary t o ts us x y ht _ _ ihx ihy =>
    have hword : OneLine o.word := by
      cases o
      all_goals exact ⟨by decide, by decide⟩
    exact .binary (ihx fun u hu => hts u (List.mem_append_left _ hu)) hword
      (ihy fun u hu => hts u (List.mem_append_right _ (List.mem_cons_of_mem t hu)))

/-- Each token of a text is a part of it. -/
lemma Lexes.isInfix {s : Text} {ts : List Token} (h : Lexes s ts) : ∀ t ∈ ts, t.text <:+: s := by
  induction h with
  | nil => simp
  | gap hc _ ih => exact fun t ht => List.infix_cons (ih t ht)
  | @token t b ts ht _ ih =>
    intro u hu
    rcases List.mem_cons.mp hu with rfl | hu
    · exact (List.prefix_append u.text b).isInfix
    · exact (ih u hu).trans (List.suffix_append t.text b).isInfix

/-- Conditions that are read in text without comments are printed on one line. -/
theorem oneLine : Embedding.vhdl.OneLine := by
  intro w p hread htrim hw
  obtain ⟨ts, hlexes, hparses, -, -⟩ := exists_tokens hread htrim
  refine hparses.derives.oneLine_print fun t ht => ?_
  exact (hw.of_isInfix (hlexes.isInfix t ht)).oneLine (newline_not_mem (hlexes.alone t ht))

end TimedReq.Vhdl
