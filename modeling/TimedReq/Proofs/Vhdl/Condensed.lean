import TimedReq.Proofs.Expr.Condensed
import TimedReq.Proofs.Vhdl.Restored

/-!
# Conditions up to layout

The text of a condition and its canonical text differ in blanks and in the case of letters only:
both are put together from the tokens of the condition.
-/

namespace TimedReq

open Text

namespace Vhdl

open Lexeme

/-- A token of a kind with a fixed word is the word but for the case of its letters. -/
lemma Lexeme.Leads.squeezed_eq {k : TokenKind} {a b v : Text} (h : Leads k a b)
    (hk : word? k = some v) : squeezed a = v.map (·, false) := by
  have hword := h.word v hk
  have hshape := h.shape
  cases hshape with
  | plain _ _ hchars =>
    have hfilter : (a.filter fun c => !isBlank c) = a := by
      rw [List.filter_eq_self]
      intro c hc
      simp [not_blank_of_isTokenChar (hchars c hc)]
    rw [squeezed_plain fun c hc => isPlain_of_isTokenChar (hchars c hc), hfilter, ← hword,
      List.map_map]
    rfl
  | leftParen | rightParen | character | string | bitString => simp [word?] at hk

/-- Tokens that the parser does not tell from each other differ in the case of letters only. -/
lemma Alike.squeezed_eq {t u : Token} (h : Alike t u) (ht : Leads t.kind t.text [])
    (hu : Leads u.kind u.text []) : squeezed t.text = squeezed u.text := by
  have hword : ∀ {v : Text}, word? t.kind = some v → squeezed t.text = squeezed u.text := by
    intro v hv
    rw [ht.squeezed_eq hv, hu.squeezed_eq (h.kind ▸ hv)]
  have hleaf := h.leaf
  have htshape := ht.shape
  have hushape := hu.shape
  unfold Token.leaf? at hleaf
  rw [← h.kind] at hleaf hushape
  generalize t.kind = k at hleaf htshape hushape hword
  cases k with
  | name | integer | real | character | string | bitString =>
    have heq : t.text = u.text := by simpa using hleaf
    rw [heq]
  | boolean value => cases value <;> exact hword rfl
  | binary | abs | not => exact hword rfl
  | leftParen => rw [htshape.eq_leftParen, hushape.eq_leftParen]
  | rightParen => rw [htshape.eq_rightParen, hushape.eq_rightParen]

lemma squeezed_alike {ts us : List Token} (h : List.Forall₂ Alike ts us)
    (hts : ∀ t ∈ ts, Leads t.kind t.text []) (hus : ∀ t ∈ us, Leads t.kind t.text []) :
    (ts.map fun t => squeezed t.text) = us.map fun t => squeezed t.text := by
  induction h with
  | nil => rfl
  | cons hhead _ ih =>
    rw [List.map_cons, List.map_cons,
      hhead.squeezed_eq (hts _ List.mem_cons_self) (hus _ List.mem_cons_self),
      ih (fun t ht => hts t (List.mem_cons_of_mem _ ht)) fun t ht => hus t (List.mem_cons_of_mem _ ht)]

/-- A text of tokens is made of their characters, apart from blanks. -/
lemma Written.squeezed_eq {w : Text} {ts : List Token} (h : Written w ts) :
    squeezed w = (ts.map fun t => squeezed t.text).flatten := by
  induction h with
  | nil => rfl
  | @gap c s ts hc _ ih =>
    have hblank : AllBlank [c] := .cons (isBlank_of_isGap hc) .nil
    rw [squeezed_cons (Neutral.allBlank hblank).closed, squeezed_allBlank hblank, ih]
    rfl
  | token ht _ ih =>
    obtain ⟨δ, hδ⟩ := (leads_of_alone (b := []) ht trivial).shape.closed
    rw [squeezed_append hδ, ih]
    rfl

lemma Written.unbraced {w : Text} {ts : List Token} (h : Written w ts) {c : Char}
    (hc : c = '{' ∨ c = '}') : (c, false) ∉ marked w := by
  intro hmem
  have hkind := h.of_unquoted hmem
  unfold isGap at hkind
  rcases hc with rfl | rfl <;> exact absurd hkind (by decide)

/-- The texts of a condition have the characters of its tokens. -/
theorem condenses : Embedding.vhdl.Condenses where
  neutral := by
    intro w p hread hw
    obtain ⟨ts, hlexes, hparses, -, -⟩ := exists_tokens hread hw
    exact hparses.derives.neutral hlexes.written
  unbraced := by
    intro w p hread hw c hc
    obtain ⟨ts, hlexes, -, -, -⟩ := exists_tokens hread hw
    exact hlexes.written.unbraced hc
  read_print := read_print
  squeezed_print := by
    intro w p hread hw
    obtain ⟨ts, hlexes, hparses, -, -⟩ := exists_tokens hread hw
    obtain ⟨us, halike, hprint⟩ := hparses.derives.lexes_print hlexes.alone (r := []) trivial
    have hback : Lexes p.print us := by
      have hall := hprint [] .nil
      rwa [List.append_nil, List.append_nil] at hall
    have hsame := squeezed_alike halike
      (fun t ht => leads_of_alone (hlexes.alone t ht) trivial)
      fun t ht => leads_of_alone (hback.alone t ht) trivial
    exact hback.written.squeezed_eq.trans ((congrArg List.flatten hsame).symm.trans
      hlexes.written.squeezed_eq.symm)

end Vhdl

end TimedReq
