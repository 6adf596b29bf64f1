import TimedReq.Proofs.Vhdl.Scanning
import TimedReq.Text.LetterCase

/-!
# Keywords in lower case

Keywords are recognised in any case and printed in lower case. A token and its canonical form
differ in the case of a keyword only, so both stand for themselves as tokens of one kind and the
parser does not tell them apart.
-/

namespace TimedReq

namespace Text

/-- What holds of each ASCII character by its number. -/
lemma forall_ascii {P : Char → Prop} (h : ∀ n < 128, P (Char.ofNat n)) {c : Char}
    (hc : c.toNat < 128) : P c := by
  have hself := h c.toNat hc
  rwa [Char.ofNat_toNat] at hself

/-- Runs that begin behind a character do not hold it. -/
lemma shiftBy_cons_of_lt {r : CaseRun} {runs : List CaseRun} {c : Char}
    (h : ∀ r ∈ runs, c.toNat < r.first) : shiftBy (r :: runs) c = shiftBy [r] c := by
  have hnone : runs.find? (·.holds c.toNat) = none := by
    refine List.find?_eq_none.mpr fun r hr => ?_
    have hlt := h r hr
    simp only [CaseRun.holds, Bool.and_eq_true, decide_eq_true_eq, not_and]
    omega
  unfold shiftBy
  rw [List.find?_cons, List.find?_cons, hnone, List.find?_nil]

lemma lowerForm_ascii {c : Char} (hc : c.toNat < 128) : lowerForm c = [c.toLower] := by
  have hruns : ∀ r ∈ lowerRuns.tail, 128 ≤ r.first := by decide +kernel
  have hshift : shiftBy lowerRuns c = shiftBy [⟨0x41, 0x5A, 1, 32⟩] c :=
    shiftBy_cons_of_lt fun r hr => Nat.lt_of_lt_of_le hc (hruns r hr)
  have hdot : c ≠ '\u0130' := by
    rintro rfl
    exact absurd hc (by decide)
  rw [lowerForm, if_neg hdot, hshift]
  exact forall_ascii (P := fun c => [shiftBy [⟨0x41, 0x5A, 1, 32⟩] c] = [c.toLower])
    (by decide +kernel) hc

lemma lowerFrom_eq_map {w : Text} (hw : ∀ c ∈ w, c.toNat < 128) (casedBefore : Bool) :
    lowerFrom casedBefore w = w.map Char.toLower := by
  induction w generalizing casedBefore with
  | nil => rfl
  | cons c w ih =>
    obtain ⟨hc, hw⟩ := List.forall_mem_cons.mp hw
    have hsigma : c ≠ '\u03A3' := by
      rintro rfl
      exact absurd hc (by decide)
    rw [lowerFrom, lowerAt, if_neg (fun h => hsigma h.1), lowerForm_ascii hc, ih hw]
    rfl

/-- In a text of ASCII characters each of them has its own lower-case form. -/
lemma lower_eq_map {w : Text} (hw : ∀ c ∈ w, c.toNat < 128) : lower w = w.map Char.toLower :=
  lowerFrom_eq_map hw false

/-- A character with another lower-case form is an ASCII character, and the form is a letter. -/
lemma toLower_eq_self_or (c : Char) : c.toLower = c ∨ c.toNat < 128 ∧ isAsciiLetter c.toLower := by
  by_cases hc : c.toNat < 128
  · have hself : c.toLower = c ∨ isAsciiLetter c.toLower = true :=
      forall_ascii (P := fun c => c.toLower = c ∨ isAsciiLetter c.toLower = true)
        (by decide +kernel) hc
    exact hself.imp_right fun h => ⟨hc, h⟩
  · left
    refine dif_neg ?_
    rintro ⟨-, hz⟩
    exact hc (Nat.lt_of_le_of_lt (UInt32.le_iff_toNat_le.mp hz) (by decide))

end Text

namespace Vhdl

open Text Lexeme

/-- Whether tokens of a kind are words that may be written in any case. -/
def TokenKind.isKeyword : TokenKind → Bool
  | boolean _ | abs | not => true
  | binary .and | binary .or | binary .xor | binary .nand | binary .nor | binary .xnor => true
  | binary .mod | binary .rem => true
  | _ => false

/-- The token with a keyword in lower case. -/
def Token.canonical (t : Token) : Token :=
  if t.kind.isKeyword then { t with text := lower t.text } else t

@[simp] lemma Token.canonical_kind (t : Token) : t.canonical.kind = t.kind := by
  unfold canonical
  split <;> rfl

lemma Token.canonical_of_not_keyword {t : Token} (h : t.kind.isKeyword = false) :
    t.canonical = t := by
  rw [canonical, h]
  rfl

/-- The parser does not see the case of keywords. -/
lemma Alike.canonical (t : Token) : Alike t t.canonical := by
  cases hkey : t.kind.isKeyword with
  | false =>
    rw [Token.canonical_of_not_keyword hkey]
    exact .refl t
  | true =>
    refine ⟨t.canonical_kind.symm, ?_⟩
    rw [Token.leaf?, Token.leaf?, Token.canonical_kind]
    cases hk : t.kind with
    | name | integer | real | character | string | bitString =>
      rw [hk] at hkey
      exact absurd hkey (by decide)
    | boolean value => cases value <;> rfl
    | binary | abs | not | leftParen | rightParen => rfl

namespace Lexeme

lemma word?_ascii {k : TokenKind} {v : Text} (h : word? k = some v) : ∀ c ∈ v, c.toNat < 128 := by
  cases k with
  | boolean value =>
    cases value <;> (obtain rfl := Option.some.inj h; decide)
  | binary o =>
    obtain rfl := Option.some.inj h
    cases o <;> decide
  | abs | not =>
    obtain rfl := Option.some.inj h
    decide
  | _ => simp [word?] at h

/-- The words that are no keywords are symbols. -/
lemma word?_symbol {k : TokenKind} {v : Text} (h : word? k = some v) (hk : k.isKeyword = false) :
    ∀ c ∈ v, isAsciiLetter c = false := by
  cases k with
  | boolean | abs | not => exact absurd hk (by simp [TokenKind.isKeyword])
  | binary o =>
    obtain rfl := Option.some.inj h
    revert hk
    cases o <;> decide
  | _ => simp [word?] at h

/-- The word of a kind is a token of the kind. -/
lemma next?_word? {k : TokenKind} {v : Text} (h : word? k = some v) :
    next? v = some (k, v.length) := by
  cases k with
  | boolean value =>
    cases value <;> (obtain rfl := Option.some.inj h; decide)
  | binary o =>
    obtain rfl := Option.some.inj h
    cases o <;> decide
  | abs | not =>
    obtain rfl := Option.some.inj h
    decide
  | _ => simp [word?] at h

lemma word?_of_isKeyword {k : TokenKind} (h : k.isKeyword = true) : (word? k).isSome := by
  cases k with
  | boolean value => cases value <;> rfl
  | binary | abs | not => rfl
  | _ => exact absurd h (by decide)

end Lexeme

variable {t : Token}

/-- A token whose kind has a word is that word, but for its case. -/
lemma Token.canonical_text (ht : next? t.text = some (t.kind, t.text.length)) {v : Text}
    (hv : word? t.kind = some v) : t.canonical.text = v := by
  have hlower : t.text.map Char.toLower = v := (leads_of_alone (b := []) ht trivial).word v hv
  have hmem : ∀ c ∈ t.text, c.toLower ∈ v := by
    intro c hc
    rw [← hlower]
    exact List.mem_map_of_mem hc
  cases hk : t.kind.isKeyword with
  | true =>
    rw [Token.canonical, if_pos hk]
    refine (lower_eq_map ?_).trans hlower
    intro c hc
    rcases toLower_eq_self_or c with hself | hascii
    · rw [← hself]
      exact word?_ascii hv _ (hmem c hc)
    · exact hascii.1
  | false =>
    have hself : ∀ c ∈ t.text, c.toLower = c := by
      intro c hc
      refine (toLower_eq_self_or c).resolve_right ?_
      rintro ⟨-, hletter⟩
      rw [word?_symbol hv hk _ (hmem c hc)] at hletter
      exact absurd hletter (by simp)
    have hmap : t.text.map Char.toLower = t.text.map id := List.map_congr_left hself
    rw [Token.canonical_of_not_keyword hk, ← hlower, hmap, List.map_id]

/-- The canonical form of a token is a token of the same kind. -/
lemma Token.canonical_alone (ht : next? t.text = some (t.kind, t.text.length)) :
    next? t.canonical.text = some (t.canonical.kind, t.canonical.text.length) := by
  cases hkey : t.kind.isKeyword with
  | false =>
    rw [Token.canonical_of_not_keyword hkey]
    exact ht
  | true =>
    obtain ⟨v, hv⟩ := Option.isSome_iff_exists.mp (word?_of_isKeyword hkey)
    rw [Token.canonical_text ht hv, Token.canonical_kind]
    exact next?_word? hv

end Vhdl

end TimedReq
