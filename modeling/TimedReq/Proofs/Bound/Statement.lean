import Mathlib.Algebra.Group.Nat.Defs
import Mathlib.Data.List.Basic
import Mathlib.Data.List.Induction
import TimedReq.Proofs.Bound.Written
import TimedReq.Proofs.Text.Nesting

/-!
# Printed statements are read back

The canonical text of a statement is one of its texts, so it is read as that statement, provided
its numeral is short enough to be read at all. What was read has such a numeral.
-/

namespace TimedReq

open Text

namespace Number

lemma digitValue?_digitChar {d : Nat} (hd : d < 10) : digitValue? (Nat.digitChar d) = some d := by
  have hall : ∀ d < 10, digitValue? (Nat.digitChar d) = some d := by decide
  exact hall d hd

lemma isAsciiDigit_digitChar {d : Nat} (hd : d < 10) : isAsciiDigit (Nat.digitChar d) = true := by
  have hall : ∀ d < 10, isAsciiDigit (Nat.digitChar d) = true := by decide
  exact hall d hd

lemma ofDigits_concat (ds : List Nat) (d : Nat) : ofDigits (ds ++ [d]) = 10 * ofDigits ds + d := by
  unfold ofDigits
  rw [List.foldl_append]
  rfl

/-- A numeral is made of digits that denote its number. -/
lemma numeral_spec (n : Nat) :
    (∀ c ∈ numeral n, isAsciiDigit c = true) ∧
      ofDigits ((numeral n).filterMap digitValue?) = n := by
  induction n using Nat.strongRecOn with
  | ind n ih =>
    unfold numeral at ih ⊢
    rw [Nat.toDigits_eq_if (by omega)]
    split
    · rename_i hn
      refine ⟨?_, ?_⟩
      · intro c hc
        obtain rfl := List.mem_singleton.mp hc
        exact isAsciiDigit_digitChar hn
      · simp [digitValue?_digitChar hn, ofDigits]
    · have hmod : n % 10 < 10 := Nat.mod_lt n (by omega)
      obtain ⟨hdigits, hvalue⟩ := ih (n / 10) (by omega)
      have hmap : [Nat.digitChar (n % 10)].filterMap digitValue? = [n % 10] := by
        simp [digitValue?_digitChar hmod]
      refine ⟨?_, ?_⟩
      · intro c hc
        rcases List.mem_append.mp hc with hc | hc
        · exact hdigits c hc
        · obtain rfl := List.mem_singleton.mp hc
          exact isAsciiDigit_digitChar hmod
      · rw [List.filterMap_append, hmap, ofDigits_concat, hvalue]
        omega

lemma numeral_ne_nil (n : Nat) : numeral n ≠ [] := Nat.toDigits_ne_nil

lemma digitValue?_le {c : Char} {d : Nat} (h : digitValue? c = some d) : d ≤ 9 := by
  unfold digitValue? at h
  obtain ⟨z, hz, rfl⟩ := Option.map_eq_some_iff.mp h
  have hfound := List.find?_some hz
  simp only [Bool.and_eq_true, decide_eq_true_eq] at hfound
  omega

lemma ofDigits_lt {ds : List Nat} (hds : ∀ d ∈ ds, d ≤ 9) : ofDigits ds < 10 ^ ds.length := by
  induction ds using List.reverseRecOn with
  | nil => decide
  | append_singleton ds d ih =>
    have hd := hds d (by simp)
    have hlt := ih fun e he => hds e (by simp [he])
    rw [ofDigits_concat, List.length_append, List.length_singleton, Nat.pow_succ]
    omega

/-- The numeral of a number is no longer than digits that denote the number. -/
lemma length_numeral_ofDigits {s : Text} (hs : s ≠ []) :
    (numeral (ofDigits (s.filterMap digitValue?))).length ≤ s.length := by
  have hdigits : ∀ d ∈ s.filterMap digitValue?, d ≤ 9 := by
    intro d hd
    obtain ⟨c, -, hc⟩ := List.mem_filterMap.mp hd
    exact digitValue?_le hc
  have hlt := ofDigits_lt hdigits
  have hmono : 10 ^ (s.filterMap digitValue?).length ≤ 10 ^ s.length :=
    Nat.pow_le_pow_right (by omega) (List.length_filterMap_le digitValue? s)
  exact (Nat.length_toDigits_le_iff (by omega) (List.length_pos_iff.mpr hs)).mpr (by omega)

end Number

namespace Statement

/-- The amount of the statement has a numeral that is read. -/
def Readable (st : Statement) : Prop := (Number.numeral st.bound.amount).length ≤ Number.digitLimit

/-- The characters of the canonical text of a bound, with a space in front. -/
def isBoundChar (c : Char) : Bool := isAsciiDigit c || isAsciiLetter c || c == ' '

lemma isBoundChar_print (b : Bound) : ∀ c ∈ ' ' :: b.print, isBoundChar c = true := by
  intro c hc
  unfold Bound.print at hc
  simp only [List.mem_cons, List.mem_append] at hc
  unfold isBoundChar
  rcases hc with rfl | hc | rfl | hc
  · rfl
  · rw [(Number.numeral_spec b.amount).1 c hc, Bool.true_or, Bool.true_or]
  · rfl
  · rw [(b.unit.token_spec.2 c hc).1, Bool.or_true, Bool.true_or]

/-- What stands in front of the comparison in a canonical text. -/
def lead (st : Statement) : Text := [st.bound.unit.quantity.symbol, ' ']

lemma print_eq (st : Statement) :
    st.print = st.lead ++ (st.comparison.symbol ++ ' ' :: st.bound.print) := rfl

/-- The canonical text has no blanks around it and single spaces within. -/
lemma written_print (st : Statement) : st.Written (Number.numeral st.bound.amount) st.print := by
  have hspace : AllBlank [' '] := .cons rfl .nil
  have hprint : st.print = [] ++ (st.bound.unit.quantity.symbol :: ([' '] ++
      (st.comparison.symbol ++ ([' '] ++ (Number.numeral st.bound.amount ++
        ([' '] ++ (st.bound.unit.token ++ []))))))) := by
    rw [print_eq, lead, Bound.print]
    simp
  obtain ⟨hdigits, hvalue⟩ := Number.numeral_spec st.bound.amount
  rw [hprint]
  exact .intro .nil hspace hspace hspace .nil (by simp) hdigits (Number.numeral_ne_nil _) hvalue

/-- The canonical text of a statement is read as that statement. -/
theorem parse_print {st : Statement} (hst : st.Readable) : parse st.print = .ok st :=
  parse_of_written st.written_print hst

/-- The canonical text of a statement is trimmed. -/
lemma trim_print (st : Statement) : trim st.print = st.print := by
  obtain ⟨token, last, hlast, hblank⟩ := st.bound.unit.exists_token_eq_append
  refine trim_of_ends (isBlank_quantity _) hblank
    (t := st.lead ++ st.comparison.symbol ++
      ' ' :: (Number.numeral st.bound.amount ++ ' ' :: token)) ?_
  simp [lead, Bound.print, hlast]

/-- What was read is read back. -/
lemma readable_of_parse {s : Text} {st : Statement} (h : parse s = .ok st) : st.Readable := by
  obtain ⟨digits, hlen, hwritten⟩ := written_of_parse h
  cases hwritten with
  | intro _ _ _ _ _ _ _ hne hvalue =>
    unfold Readable
    rw [← hvalue]
    exact Nat.le_trans (Number.length_numeral_ofDigits hne) hlen

/-- The characters of statements. -/
def isStatementChar (c : Char) : Bool :=
  isBlank c || isAsciiDigit c || isAsciiLetter c || c ∈ ['<', '>', '=', '!']

lemma isStatementChar_of_parse {s : Text} {st : Statement} (h : parse s = .ok st) :
    ∀ c ∈ s, isStatementChar c = true := by
  have hquantity : ∀ q : Quantity, isStatementChar q.symbol = true := by
    intro q
    cases q <;> decide
  have hsymbol : ∀ c ∈ Comparison.alphabet, isStatementChar c = true := by decide
  have hblank : ∀ {u : Text}, AllBlank u → ∀ c ∈ u, isStatementChar c = true := by
    intro u hu c hc
    rw [isStatementChar, hu c hc]
    rfl
  obtain ⟨digits, -, hwritten⟩ := written_of_parse h
  cases hwritten with
  | intro hu hv hw hx hy _ hdigits =>
    intro c hc
    simp only [List.mem_append, List.mem_cons] at hc
    rcases hc with hc | rfl | hc | hc | hc | hc | hc | hc | hc
    · exact hblank hu c hc
    · exact hquantity _
    · exact hblank hv c hc
    · exact hsymbol c (Comparison.mem_alphabet hc)
    · exact hblank hw c hc
    · rw [isStatementChar, hdigits c hc, Bool.or_true]
      rfl
    · exact hblank hx c hc
    · rw [isStatementChar, (st.bound.unit.token_spec.2 c hc).1, Bool.or_true]
      rfl
    · exact hblank hy c hc

lemma parseAll_cons {s : Text} {rest : List Text} {sts : List Statement} :
    parseAll (s :: rest) = .ok sts ↔
      ∃ st more, parse s = .ok st ∧ parseAll rest = .ok more ∧ sts = st :: more := by
  rw [parseAll]
  split
  · rename_i st more hst hmore
    rw [hst, hmore]
    constructor
    · intro h
      exact ⟨st, more, rfl, rfl, (Except.ok.inj h).symm⟩
    · rintro ⟨st', more', h1, h2, rfl⟩
      obtain rfl := Except.ok.inj h1
      obtain rfl := Except.ok.inj h2
      rfl
  · rename_i n hst
    rw [hst]
    simp
  · rename_i n hmore _
    rw [hmore]
    simp
  · rename_i hne
    constructor
    · intro h
      exact absurd h (Reading.malformed_ne_ok sts)
    · rintro ⟨st, more, h1, h2, -⟩
      exact (hne st more h1 h2).elim

/-- All statements of a list that was read are read back. -/
lemma readable_of_parseAll {texts : List Text} {sts : List Statement}
    (h : parseAll texts = .ok sts) : ∀ st ∈ sts, st.Readable := by
  induction texts generalizing sts with
  | nil =>
    obtain rfl := Except.ok.inj h
    simp
  | cons s rest ih =>
    obtain ⟨st, more, hst, hmore, rfl⟩ := parseAll_cons.mp h
    intro x hx
    rcases List.mem_cons.mp hx with rfl | hx
    · exact readable_of_parse hst
    · exact ih hmore x hx

/-- No brackets and no quotes stand in a list of statements. -/
lemma isPlain_of_parseAll {s : Text} {sts : List Statement}
    (h : parseAll (pieces (· == ',') s) = .ok sts) : ∀ c ∈ s, IsPlain c := by
  have hpieces : ∀ {texts : List Text} {sts : List Statement}, parseAll texts = .ok sts →
      ∀ w ∈ texts, ∀ c ∈ w, isStatementChar c = true := by
    intro texts
    induction texts with
    | nil => simp
    | cons t rest ih =>
      intro sts h w hw
      obtain ⟨st, more, hst, hmore, -⟩ := parseAll_cons.mp h
      rcases List.mem_cons.mp hw with rfl | hw
      · exact isStatementChar_of_parse hst
      · exact ih hmore w hw
  have hplain : ∀ {c : Char}, isStatementChar c = true → IsPlain c := by
    intro c hc
    refine ⟨?_, ?_, ?_, ?_, ?_, ?_⟩ <;> rintro rfl <;> exact absurd hc (by decide)
  intro c hc
  rcases mem_pieces (p := (· == ',')) hc with hc | ⟨w, hw, hc⟩
  · obtain rfl := beq_iff_eq.mp hc
    decide
  · exact hplain (hpieces h w hw c hc)

lemma isPlain_of_parseAll_trimEnd {s : Text} {sts : List Statement}
    (h : parseAll (pieces (· == ',') (trimEnd s)) = .ok sts) : ∀ c ∈ s, IsPlain c := by
  obtain ⟨v, hv, hs⟩ := exists_trimEnd s
  intro c hc
  rw [hs] at hc
  rcases List.mem_append.mp hc with hc | hc
  · exact isPlain_of_parseAll h c hc
  · exact isPlain_of_isBlank (hv c hc)

/-- The characters of canonical texts of statements. -/
lemma mem_print {st : Statement} {c : Char} (hc : c ∈ st.print) :
    isBoundChar c = true ∨ c ∈ ['<', '>', '=', '!'] := by
  have hlead : ∀ q : Quantity, ∀ c ∈ [q.symbol, ' '], isBoundChar c = true := by
    intro q
    cases q <;> decide
  rw [print_eq] at hc
  rcases List.mem_append.mp hc with hc | hc
  · exact .inl (hlead _ c hc)
  · rcases List.mem_append.mp hc with hc | hc
    · exact .inr (Comparison.mem_alphabet hc)
    · exact .inl (isBoundChar_print st.bound c hc)

lemma print_ne (st : Statement) {x : Char} (hx : x ∈ [',', '}']) : ∀ c ∈ st.print, c ≠ x := by
  have hno : ∀ x ∈ [',', '}'], isBoundChar x = false ∧ x ∉ ['<', '>', '=', '!'] := by decide
  rintro c hc rfl
  rcases mem_print hc with hchar | hchar
  · rw [(hno c hx).1] at hchar
    exact absurd hchar (by simp)
  · exact (hno c hx).2 hchar

end Statement

end TimedReq
