import TimedReq.Proofs.Vhdl.Lexing
import TimedReq.Vhdl.Parser

/-!
# The tokens of a text

The scan of a text as a relation between texts and tokens, whose places do not matter. The tokens
of a text that separators continue begin with those of the text.
-/

namespace TimedReq.Vhdl

open Text Lexeme

/-- The characters that stand between tokens. -/
def isGap (c : Char) : Prop := (c = ' ' ∨ c = '\t' ∨ c = '\r') ∨ c = '\n'

/-- Tokens of one kind that a parser tells from each other no further. -/
structure Alike (t u : Token) : Prop where
  kind : t.kind = u.kind
  leaf : t.leaf? = u.leaf?

/-- The kind and the characters of a token, wherever it stands. -/
def Token.lexeme (t : Token) : TokenKind × Text := (t.kind, t.text)

/-- The tokens of a text, wherever they stand. -/
inductive Lexes : Text → List Token → Prop
  | nil : Lexes [] []
  | gap {c : Char} {s : Text} {ts : List Token} (hc : isGap c) (h : Lexes s ts) : Lexes (c :: s) ts
  | token {t : Token} {b : Text} {ts : List Token} (ht : Leads t.kind t.text b) (h : Lexes b ts) :
    Lexes (t.text ++ b) (t :: ts)

/-- A text that is put together from gaps and tokens, read as other tokens or not. -/
inductive Written : Text → List Token → Prop
  | nil : Written [] []
  | gap {c : Char} {s : Text} {ts : List Token} (hc : isGap c) (h : Written s ts) :
    Written (c :: s) ts
  | token {t : Token} {s : Text} {ts : List Token} (ht : next? t.text = some (t.kind, t.text.length))
    (h : Written s ts) : Written (t.text ++ s) (t :: ts)

lemma Alike.refl (t : Token) : Alike t t := ⟨rfl, rfl⟩

lemma Alike.of_text {t u : Token} (hk : t.kind = u.kind) (ht : t.text = u.text) : Alike t u := by
  refine ⟨hk, ?_⟩
  unfold Token.leaf?
  rw [hk, ht]

lemma Alike.of_lexemes {ts us : List Token} (h : ts.map Token.lexeme = us.map Token.lexeme) :
    List.Forall₂ Alike ts us := by
  induction ts generalizing us with
  | nil =>
    obtain rfl := List.map_eq_nil_iff.mp h.symm
    exact .nil
  | cons t ts ih =>
    obtain ⟨u, us, rfl, hu, hus⟩ := List.map_eq_cons_iff.mp h.symm
    obtain ⟨hkind, htext⟩ := Prod.mk.inj hu
    exact .cons (.of_text hkind.symm htext.symm) (ih hus.symm)

lemma isBlank_of_isGap {c : Char} (h : isGap c) : isBlank c = true := by
  rcases h with (rfl | rfl | rfl) | rfl <;> rfl

lemma not_blank_of_isTokenChar {c : Char} (h : isTokenChar c = true) : isBlank c = false := by
  unfold isTokenChar isWordChar at h
  simp only [Bool.or_eq_true, beq_iff_eq, decide_eq_true_eq] at h
  rcases h with (h | (h | h) | rfl) | h
  · exact not_blank_of_isDigit h
  · exact not_blank_of_isAsciiLetter h
  · exact not_blank_of_isDigit (isDigit_of_isAsciiDigit h)
  · rfl
  · simp only [List.mem_cons, List.not_mem_nil, or_false] at h
    rcases h with rfl | rfl | rfl | rfl | rfl | rfl | rfl | rfl | rfl <;> rfl

namespace Lexeme

lemma Shape.head_not_blank {k : TokenKind} {w : Text} (h : Shape k w) :
    ∀ c ∈ w.head?, isBlank c = false := by
  intro c hc
  cases h with
  | plain hl hr hw => exact not_blank_of_isTokenChar (hw c (List.mem_of_mem_head? hc))
  | bitString hbase hw =>
    obtain rfl := Option.some.inj hc
    exact not_blank_of_isAsciiLetter hbase
  | leftParen | rightParen | character | string =>
    obtain rfl := Option.some.inj hc
    rfl

lemma Leads.ne_nil {k : TokenKind} {a b : Text} (h : Leads k a b) : a ≠ [] := by
  rintro rfl
  exact absurd h.alone (by simp [next?])

/-- A token begins with a character other than a blank. -/
lemma Leads.exists_cons {k : TokenKind} {a b : Text} (h : Leads k a b) :
    ∃ c w, a = c :: w ∧ isBlank c = false := by
  obtain ⟨c, w, rfl⟩ := List.exists_cons_of_ne_nil h.ne_nil
  exact ⟨c, w, rfl, h.shape.head_not_blank c rfl⟩

lemma Leads.next? {k : TokenKind} {a b : Text} (h : Leads k a b) :
    next? (a ++ b) = some (k, a.length) := by
  have hnil := h.append [] trivial
  rwa [List.append_nil] at hnil

lemma leads_of_next? {k : TokenKind} {a b : Text}
    (h : Lexeme.next? (a ++ b) = some (k, a.length)) : Leads k a b := by
  obtain ⟨v, w, hvw, hlen, hleads⟩ := exists_leads h
  obtain ⟨rfl, rfl⟩ := List.append_inj hvw hlen.symm
  exact hleads

/-- A token that stands alone is a token in front of every separator. -/
lemma leads_of_alone {k : TokenKind} {a b : Text} (h : Lexeme.next? a = some (k, a.length))
    (hb : Separates b) : Leads k a b := by
  have hleads : Leads k a [] := leads_of_next? (by rwa [List.append_nil])
  refine ⟨h, ?_, hleads.shape, hleads.word⟩
  intro r hr
  refine hleads.append (b ++ r) ?_
  rcases b with _ | ⟨c, _ | ⟨d, b⟩⟩
  · exact hr
  · rcases hb with hb | hb | ⟨-, hb⟩
    · exact .inl hb
    · exact .inr (.inl hb)
    · simp at hb
  · rcases hb with hb | hb | hb
    · exact .inl hb
    · exact .inr (.inl hb)
    · exact .inr (.inr hb)

end Lexeme

lemma Lexes.written {s : Text} {ts : List Token} (h : Lexes s ts) : Written s ts := by
  induction h with
  | nil => exact .nil
  | gap hc _ ih => exact .gap hc ih
  | token ht _ ih => exact .token ht.alone ih

/-- The line goes up at a newline. -/
lemma scanFrom_gap (index line : Nat) {c : Char} (s : Text) (hc : isGap c) :
    scanFrom index line (c :: s) = scanFrom (index + 1) (line + [c].count '\n') s := by
  rw [scanFrom]
  rcases hc with hc | rfl
  · have hne : c ≠ '\n' := by
      rintro rfl
      exact absurd hc (by decide)
    rw [if_pos hc, List.count_eq_zero_of_not_mem (by simpa using hne.symm)]
    rfl
  · rw [if_neg (by decide), if_pos rfl]
    rfl

lemma scanFrom_token (index line : Nat) {k : TokenKind} {a b : Text} (h : Leads k a b) :
    scanFrom index line (a ++ b) =
      (⟨k, a, index, line⟩ :: (scanFrom (index + a.length) line b).1,
        (scanFrom (index + a.length) line b).2) := by
  obtain ⟨c, w, rfl, hc⟩ := h.exists_cons
  have hgap : ¬isGap c := by
    intro hgap
    rw [isBlank_of_isGap hgap] at hc
    exact absurd hc (by simp)
  have hnext := h.next?
  rw [List.cons_append] at hnext
  rw [List.cons_append, scanFrom, if_neg (fun h => hgap (.inl h)), if_neg (fun h => hgap (.inr h)),
    hnext]
  simp only [List.length_cons, Nat.add_sub_cancel, List.drop_left, List.take_succ_cons,
    List.take_left]

/-- The scan of a text that is put together from tokens finds them. -/
lemma Lexes.scanFrom {s : Text} {ts : List Token} (h : Lexes s ts) (index line : Nat) :
    ∃ us, scanFrom index line s = (us, none) ∧ us.map Token.lexeme = ts.map Token.lexeme := by
  induction h generalizing index line with
  | nil => exact ⟨[], by rw [Vhdl.scanFrom], rfl⟩
  | gap hc _ ih =>
    rw [scanFrom_gap index line _ hc]
    exact ih _ _
  | @token t b ts ht _ ih =>
    obtain ⟨us, hus, hall⟩ := ih (index + t.text.length) line
    refine ⟨⟨t.kind, t.text, index, line⟩ :: us, ?_, ?_⟩
    · rw [scanFrom_token index line ht, hus]
    · rw [List.map_cons, List.map_cons, hall]
      rfl

lemma scanFrom_stuck (index line : Nat) {c : Char} {s : Text} (hc : ¬isGap c)
    (hnext : Lexeme.next? (c :: s) = none) :
    scanFrom index line (c :: s) = ([], some ⟨c, index⟩) := by
  rw [Vhdl.scanFrom, if_neg (fun h => hc (.inl h)), if_neg (fun h => hc (.inr h)), hnext]

/-- A scan goes over gaps and tokens up to the end of the text or to a character that starts
none. -/
theorem scan_induction {P : Text → Prop} (nil : P [])
    (gap : ∀ c s, isGap c → P s → P (c :: s))
    (stuck : ∀ c s, ¬isGap c → Lexeme.next? (c :: s) = none → P (c :: s))
    (token : ∀ k a b, Leads k a b → P b → P (a ++ b)) (s : Text) : P s := by
  induction hn : s.length using Nat.strongRecOn generalizing s with
  | ind n ih =>
    rcases s with _ | ⟨c, s⟩
    · exact nil
    · by_cases hgap : isGap c
      · exact gap c s hgap (ih s.length (hn ▸ Nat.lt_succ_self _) s rfl)
      · cases hnext : Lexeme.next? (c :: s) with
        | none => exact stuck c s hgap hnext
        | some found =>
          obtain ⟨a, b, hs, -, hleads⟩ := exists_leads (k := found.1) (n := found.2) hnext
          have hpos := List.length_pos_iff.mpr hleads.ne_nil
          rw [hs, List.length_append] at hn
          rw [hs]
          exact token _ a b hleads (ih b.length (by omega) b rfl)

lemma lexes_of_scanFrom {index line : Nat} {s : Text} {ts : List Token}
    (h : scanFrom index line s = (ts, none)) : Lexes s ts := by
  induction s using scan_induction generalizing index line ts with
  | nil =>
    rw [Vhdl.scanFrom] at h
    obtain ⟨rfl, -⟩ := Prod.mk.inj h
    exact .nil
  | gap c s hc ih =>
    rw [scanFrom_gap index line s hc] at h
    exact .gap hc (ih h)
  | stuck c s hc hnext =>
    rw [scanFrom_stuck index line hc hnext] at h
    simp at h
  | token k a b hleads ih =>
    rw [scanFrom_token index line hleads] at h
    obtain ⟨rfl, herror⟩ := Prod.mk.inj h
    exact .token (t := ⟨k, a, index, line⟩) hleads (ih (Prod.ext rfl herror))

/-- The tokens that a scan finds stand for themselves, also if it stops at a character that starts
none. -/
lemma scanFrom_alone (index line : Nat) (s : Text) :
    ∀ t ∈ (scanFrom index line s).1, Lexeme.next? t.text = some (t.kind, t.text.length) := by
  induction s using scan_induction generalizing index line with
  | nil => simp [Vhdl.scanFrom]
  | gap c s hc ih =>
    rw [scanFrom_gap index line s hc]
    exact ih _ _
  | stuck c s hc hnext =>
    rw [scanFrom_stuck index line hc hnext]
    simp
  | token k a b hleads ih =>
    rw [scanFrom_token index line hleads]
    exact List.forall_mem_cons.mpr ⟨hleads.alone, ih (index + a.length) line⟩

lemma Lexes.gap_inv {c : Char} {s : Text} {ts : List Token} (h : Lexes (c :: s) ts)
    (hc : isBlank c = true) : Lexes s ts := by
  generalize hcs : c :: s = w at h
  cases h with
  | nil => simp at hcs
  | gap hgap h =>
    obtain ⟨rfl, rfl⟩ := List.cons.inj hcs
    exact h
  | token ht h =>
    obtain ⟨d, v, hd, hblank⟩ := ht.exists_cons
    rw [hd] at hcs
    obtain ⟨rfl, -⟩ := List.cons.inj hcs
    rw [hc] at hblank
    exact absurd hblank (by simp)

lemma Lexes.allBlank_inv {u s : Text} {ts : List Token} (hu : AllBlank u)
    (h : Lexes (u ++ s) ts) : Lexes s ts := by
  induction u with
  | nil => exact h
  | cons c u ih => exact ih hu.of_cons.2 (h.gap_inv hu.of_cons.1)

/-- What a text begins with is its first token, unless it is a blank. -/
lemma Lexes.token_inv {c : Char} {s : Text} {ts : List Token} (h : Lexes (c :: s) ts)
    (hc : isBlank c = false) :
    ∃ t b us, c :: s = t.text ++ b ∧ Leads t.kind t.text b ∧ ts = t :: us ∧ Lexes b us := by
  generalize hcs : c :: s = w at h
  cases h with
  | nil => simp at hcs
  | gap hgap h =>
    obtain ⟨rfl, rfl⟩ := List.cons.inj hcs
    rw [isBlank_of_isGap hgap] at hc
    exact absurd hc (by simp)
  | token ht h => exact ⟨_, _, _, rfl, ht, rfl, h⟩

/-- Tokens that are read in front of one text are the same. -/
lemma Lexeme.Leads.unique {k l : TokenKind} {a b v w : Text} (h : Leads k a b) (hvw : a ++ b = v ++ w)
    (hnext : Lexeme.next? (v ++ w) = some (l, v.length)) : k = l ∧ a = v ∧ b = w := by
  rw [← hvw, h.next?] at hnext
  obtain ⟨rfl, hlen⟩ := Prod.mk.inj (Option.some.inj hnext)
  exact ⟨rfl, List.append_inj hvw hlen⟩

/-- The tokens of a text that separators continue begin with those of the text. -/
lemma Lexes.append_inv {w r : Text} {ts us : List Token} (h : Lexes w ts) (hr : Separates r)
    (hall : Lexes (w ++ r) us) :
    ∃ vs ws, us = vs ++ ws ∧ List.Forall₂ Alike ts vs ∧ Lexes r ws := by
  induction h generalizing us with
  | nil => exact ⟨[], us, rfl, .nil, hall⟩
  | gap hc _ ih => exact ih (hall.gap_inv (isBlank_of_isGap hc))
  | @token t b ts ht _ ih =>
    obtain ⟨c, v, hc, hblank⟩ := ht.exists_cons
    rw [List.append_assoc, hc, List.cons_append] at hall
    obtain ⟨u, d, us, hcut, hu, rfl, hd⟩ := hall.token_inv hblank
    rw [← List.cons_append, ← hc] at hcut
    obtain ⟨hkind, htext, hrest⟩ := hu.unique hcut.symm (ht.append r hr)
    rw [hrest] at hd
    obtain ⟨vs, ws, rfl, hvs, hws⟩ := ih hd
    exact ⟨u :: vs, ws, rfl, .cons (.of_text hkind.symm htext.symm) hvs, hws⟩

/-- A text that does not begin like a token has no tokens. -/
lemma not_lexes {c : Char} {s : Text} {ts : List Token} (hc : isBlank c = false)
    (hnext : next? (c :: s) = none) : ¬Lexes (c :: s) ts := by
  intro h
  obtain ⟨t, b, us, hs, ht, -, -⟩ := h.token_inv hc
  rw [hs, ht.next?] at hnext
  exact absurd hnext (by simp)

end TimedReq.Vhdl
