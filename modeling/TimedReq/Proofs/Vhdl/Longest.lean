import TimedReq.Proofs.Vhdl.Lexing

/-!
# The longest token in front of a text

What the lexer finds in front of a text is a token, and no longer piece in front of the text belongs
to any class of tokens.
-/

namespace TimedReq.Vhdl

open Text Lexeme

namespace Pattern

/-- A number goes on at least to the end of the digits it begins with, and is real if it goes on
further. -/
lemma numeral_le_number {s : Text} {k : TokenKind} {n : Nat} (h : number s = (k, n)) :
    numeral s ≤ n ∧ (n = numeral s → k = .integer) := by
  unfold number at h
  simp only at h
  split at h
  · split at h
    · obtain ⟨rfl, rfl⟩ := Prod.mk.inj h
      exact ⟨Nat.le_refl _, fun _ => rfl⟩
    · obtain ⟨rfl, rfl⟩ := Prod.mk.inj h
      exact ⟨by omega, by omega⟩
  · obtain ⟨rfl, rfl⟩ := Prod.mk.inj h
    exact ⟨Nat.le_refl _, fun _ => rfl⟩

/-- A real number is read to its end at least, and as a real number. -/
lemma number_append_real {w : Text} (hw : w ∈ reals) (s : Text) :
    ∃ n, number (w ++ s) = (.real, n) ∧ w.length ≤ n := by
  obtain ⟨a, ha, b, hb, e, he, rfl⟩ := mem_reals.mp hw
  have hpos : b.length ≠ 0 := by
    obtain ⟨c, v, rfl, -⟩ := tail_digits.append hb
    simp
  have hfraction := numeral_of_mem hb (e ++ s)
  have hnumber := number_point ha (s := b ++ (e ++ s)) (by omega)
  have hassoc : a ++ '.' :: (b ++ e) ++ s = a ++ '.' :: (b ++ (e ++ s)) := by simp
  refine ⟨_, hassoc ▸ hnumber, ?_⟩
  rcases he with rfl | he
  · rw [hfraction]
    simp only [List.append_nil, List.length_append, List.length_cons]
    omega
  · have hstop := digitTail_exponent he s
    have hexp := le_exponent he s
    have hwhole : numeral (b ++ (e ++ s)) = b.length := by omega
    rw [hwhole, List.drop_left]
    simp only [List.length_append, List.length_cons]
    omega

/-- What is read in front of all texts that begin with a text of a class: no less than that text,
and if no more, a token of the class. -/
def Reached (k : TokenKind) (l : CharLanguage) : Prop :=
  ∀ w ∈ l, ∀ s, ∃ k' n, next? (w ++ s) = some (k', n) ∧ w.length ≤ n ∧
    (n = w.length → k' = retyped k w)

lemma reached_shortSymbol {a c : Char} {o : BinaryOperator} (h : (a, c, o) ∈ shortSymbols) :
    Reached (.binary o) {[a]} := by
  rintro w rfl s
  have hlong : ∃ p, ∀ t, next? (a :: c :: t) = some (.binary p, 2) := by
    simp only [shortSymbols, List.mem_cons, Prod.mk.injEq, List.not_mem_nil, or_false] at h
    obtain ⟨rfl, rfl, -⟩ | ⟨rfl, rfl, -⟩ | ⟨rfl, rfl, -⟩ | ⟨rfl, rfl, -⟩ := h <;>
      exact ⟨_, fun _ => rfl⟩
  by_cases hhead : s.head? = some c
  · obtain ⟨t, rfl⟩ := List.head?_eq_some_iff.mp hhead
    obtain ⟨p, hp⟩ := hlong
    exact ⟨_, _, hp t, by simp, by simp⟩
  · exact ⟨_, _, next?_shortSymbol h hhead, Nat.le_refl _, fun _ => rfl⟩

lemma reached_symbol {o : BinaryOperator} (ho : o ∈ symbols) : Reached (.binary o) {o.word} := by
  have hshort : ∀ {a c}, (a, c, o) ∈ shortSymbols → o.word = [a] →
      Reached (.binary o) {o.word} := by
    intro a c h hword
    rw [hword]
    exact reached_shortSymbol h
  simp only [symbols, List.mem_cons, List.not_mem_nil, or_false] at ho
  rcases ho with rfl | rfl | rfl | rfl | rfl | rfl | rfl | rfl | rfl | rfl | rfl | rfl
  case inr.inr.inr.inr.inl => exact hshort (a := '<') (c := '=') (by decide) rfl
  case inr.inr.inr.inr.inr.inl => exact hshort (a := '>') (c := '=') (by decide) rfl
  case inr.inr.inr.inr.inr.inr.inr.inl => exact hshort (a := '*') (c := '*') (by decide) rfl
  case inr.inr.inr.inr.inr.inr.inr.inr.inl => exact hshort (a := '/') (c := '=') (by decide) rfl
  all_goals
    rintro w rfl s
    exact ⟨_, _, rfl, by decide, fun _ => rfl⟩

lemma reached_bitStrings : Reached .bitString bitStrings := by
  intro w hw s
  obtain ⟨base, ds, rfl, hbase, hne, hds⟩ := mem_bitStrings.mp hw
  have hletter : isAsciiLetter base = true := by
    have hall : ∀ c ∈ ['b', 'B', 'o', 'O', 'x', 'X'], isAsciiLetter c = true := by decide
    exact hall base hbase
  have hbits : bitString? (base :: '"' :: (ds ++ '"' :: s)) = some (ds.length + 3) := by
    rw [bitString?_eq hds (by simp [show isBitDigit '"' = false by decide]),
      if_pos ⟨hbase, List.length_pos_iff.mpr hne, rfl⟩]
  refine ⟨.bitString, ds.length + 3, ?_, by simp, fun _ => rfl⟩
  have hassoc : base :: '"' :: (ds ++ ['"']) ++ s = base :: '"' :: (ds ++ '"' :: s) := by simp
  rw [hassoc, next?_letter hletter, hbits]

lemma reached_strings : Reached .string strings := by
  intro w hw s
  obtain ⟨v, rfl, hv⟩ := mem_strings.mp hw
  have hassoc : '"' :: (v ++ ['"']) ++ s = '"' :: (v ++ '"' :: s) := by simp
  refine ⟨.string, v.length + 2, ?_, by simp, fun _ => rfl⟩
  rw [hassoc, next?, stringTail?_eq hv (by simp)]
  rfl

lemma reached_characters : Reached .character characters := by
  intro w hw s
  obtain ⟨c, rfl, hc⟩ := mem_characters.mp hw
  refine ⟨.character, 3, ?_, Nat.le_refl _, fun _ => rfl⟩
  have hall : next? ('\'' :: c :: '\'' :: s) =
      if c = '\'' ∨ c = '\n' then none else some (.character, 3) := rfl
  exact hall.trans (if_neg hc)

lemma reached_reals : Reached .real reals := by
  intro w hw s
  obtain ⟨c, v, hc, hcv⟩ : ∃ c v, isDigit c = true ∧ w = c :: v := by
    obtain ⟨a, ha, b, -, e, -, rfl⟩ := mem_reals.mp hw
    obtain ⟨c, v, rfl, hc, -⟩ := tail_digits.append ha
    exact ⟨c, _, hc, rfl⟩
  obtain ⟨n, hn, hle⟩ := number_append_real hw s
  refine ⟨.real, n, ?_, hle, fun _ => rfl⟩
  rw [hcv, List.cons_append] at hn ⊢
  rw [next?_digit hc, hn]

lemma reached_numerals : Reached .integer numerals := by
  intro w hw s
  obtain ⟨c, v, hcv, hc, -⟩ := tail_digits.append hw
  have hlen := numeral_of_mem hw s
  rcases hn : number (w ++ s) with ⟨k, n⟩
  obtain ⟨hle, hkind⟩ := numeral_le_number hn
  refine ⟨k, n, ?_, by omega, fun heq => hkind (by omega)⟩
  rw [hcv, List.cons_append] at hn ⊢
  rw [next?_digit hc, hn]

lemma reached_names : Reached .name names := by
  intro w hw s
  obtain ⟨c, v, rfl, hc, hv⟩ := tail_names.append hw
  rw [List.cons_append, next?_letter hc]
  cases hbits : bitString? (c :: (v ++ s)) with
  | some m =>
    obtain ⟨base, ds, b, hs, rfl, -, hpos, -⟩ := bitString?_split hbits
    -- a quote ends the name
    have hnil : v = [] := by
      rcases v with _ | ⟨d, v⟩
      · rfl
      · obtain ⟨-, htail⟩ := List.cons.inj hs
        obtain ⟨rfl, -⟩ := List.cons.inj htail
        have hzero : nameTail ('"' :: (v ++ s)) = 0 := rfl
        have hlen := hv s
        rw [List.cons_append, hzero, List.length_cons] at hlen
        omega
    refine ⟨.bitString, _, rfl, ?_, ?_⟩
    · simp [hnil]
    · intro heq
      rw [hnil, List.length_singleton] at heq
      omega
  | none =>
    refine ⟨_, _, rfl, ?_, ?_⟩
    · rw [hv, List.length_cons]
      omega
    · intro heq
      rw [hv, List.length_cons] at heq
      have hzero : nameTail s = 0 := by omega
      rw [← wordKind_eq, hv, hzero, Nat.add_zero, List.take_left]

lemma reached_of_mem {p : TokenKind × CharLanguage} (h : p ∈ all) : Reached p.1 p.2 := by
  rcases List.mem_append.mp h with h | h
  · obtain ⟨o, ho, rfl⟩ := List.mem_map.mp h
    exact reached_symbol ho
  · simp only [List.mem_cons, List.not_mem_nil, or_false] at h
    rcases h with rfl | rfl | rfl | rfl | rfl | rfl | rfl | rfl
    · rintro w rfl s
      exact ⟨_, _, rfl, Nat.le_refl _, fun _ => rfl⟩
    · rintro w rfl s
      exact ⟨_, _, rfl, Nat.le_refl _, fun _ => rfl⟩
    · exact reached_bitStrings
    · exact reached_strings
    · exact reached_characters
    · exact reached_reals
    · exact reached_numerals
    · exact reached_names

/-- No text of a class in front is longer than what is read, and what is read is of the kind of
every class to which it belongs. -/
lemma le_of_next? {s : Text} {k : TokenKind} {n : Nat} (h : next? s = some (k, n))
    {p : TokenKind × CharLanguage} (hp : p ∈ all) {w : Text} (hw : w ∈ p.2) (hs : w <+: s) :
    w.length ≤ n ∧ (n = w.length → k = retyped p.1 w) := by
  obtain ⟨t, rfl⟩ := hs
  obtain ⟨k', n', hnext, hle, hkind⟩ := reached_of_mem hp w hw t
  rw [h] at hnext
  obtain ⟨rfl, rfl⟩ := Prod.mk.inj (Option.some.inj hnext)
  exact ⟨hle, hkind⟩

/-- Where nothing is read, no class has a text in front. -/
lemma not_prefix_of_next? {s : Text} (h : next? s = none) {p : TokenKind × CharLanguage}
    (hp : p ∈ all) {w : Text} (hw : w ∈ p.2) : ¬w <+: s := by
  rintro ⟨t, rfl⟩
  obtain ⟨k, n, hnext, -⟩ := reached_of_mem hp w hw t
  rw [h] at hnext
  simp at hnext

/-- A token in front of a text that a digit begins. -/
lemma exists_isToken_digit {c : Char} (hc : isDigit c = true) {s : Text} {k : TokenKind} {n : Nat}
    (h : number (c :: s) = (k, n)) : ∃ a b, c :: s = a ++ b ∧ a.length = n ∧ IsToken k a := by
  have hne : numeral (c :: s) ≠ 0 := by
    rw [numeral, if_pos hc]
    omega
  obtain ⟨k', a, b, hs, hkind, hfront⟩ := number_split hne
  rw [hs, hfront.eq] at h
  obtain ⟨rfl, rfl⟩ := Prod.mk.inj h
  obtain ⟨rfl, ha⟩ | ⟨rfl, ha⟩ := hkind
  · exact ⟨a, b, hs, rfl, .of_mem (by simp [all]) (by simp) ha⟩
  · exact ⟨a, b, hs, rfl, .of_mem (by simp [all]) (by simp) ha⟩

/-- A token in front of a text that a letter begins. -/
lemma exists_isToken_letter {c : Char} (hc : isAsciiLetter c = true) {s : Text} {k : TokenKind}
    {n : Nat} (h : next? (c :: s) = some (k, n)) :
    ∃ a b, c :: s = a ++ b ∧ a.length = n ∧ IsToken k a := by
  rw [next?_letter hc] at h
  cases hbits : bitString? (c :: s) with
  | some m =>
    rw [hbits] at h
    obtain ⟨rfl, rfl⟩ := Prod.mk.inj (Option.some.inj h)
    obtain ⟨base, ds, b, hs, rfl, hbase, hpos, hds, -⟩ := bitString?_split hbits
    refine ⟨base :: '"' :: (ds ++ ['"']), b, by simp [hs], by simp, ?_⟩
    exact .of_mem (by simp [all]) (by simp)
      (mem_bitStrings.mpr ⟨base, ds, rfl, hbase, List.length_pos_iff.mp hpos, hds⟩)
  | none =>
    rw [hbits] at h
    obtain ⟨rfl, rfl⟩ := Prod.mk.inj (Option.some.inj h)
    obtain ⟨a, b, rfl, hlen, ha, -⟩ := tail_names.split hc s
    rw [← hlen, List.take_left]
    exact ⟨c :: a, b, rfl, rfl, (.name, names), by simp [all], ha, wordKind_eq _⟩

/-- What is read in front of a text is a token. -/
lemma exists_isToken {s : Text} {k : TokenKind} {n : Nat} (h : next? s = some (k, n)) :
    ∃ a b, s = a ++ b ∧ a.length = n ∧ IsToken k a := by
  have hsymbol : ∀ {o : BinaryOperator} {b : Text}, o ∈ symbols →
      some (TokenKind.binary o, o.word.length) = some (k, n) →
      ∃ a b', o.word ++ b = a ++ b' ∧ a.length = n ∧ IsToken k a := by
    intro o b ho heq
    obtain ⟨rfl, rfl⟩ := Prod.mk.inj (Option.some.inj heq)
    exact ⟨o.word, b, rfl, rfl,
      .of_mem (List.mem_append_left _ (List.mem_map_of_mem ho)) (by simp) rfl⟩
  have hcopy := h
  rw [next?.eq_def] at h
  split at h
  · simp at h
  · exact hsymbol (o := .ne) (by decide) h
  · exact hsymbol (o := .le) (by decide) h
  · exact hsymbol (o := .ge) (by decide) h
  · exact hsymbol (o := .pow) (by decide) h
  · exact hsymbol (o := .eq) (by decide) h
  · exact hsymbol (o := .lt) (by decide) h
  · exact hsymbol (o := .gt) (by decide) h
  · exact hsymbol (o := .times) (by decide) h
  · exact hsymbol (o := .divide) (by decide) h
  · exact hsymbol (o := .plus) (by decide) h
  · exact hsymbol (o := .minus) (by decide) h
  · exact hsymbol (o := .concat) (by decide) h
  · obtain ⟨rfl, rfl⟩ := Prod.mk.inj (Option.some.inj h)
    exact ⟨['('], _, rfl, rfl, .of_mem (l := {['(']}) (by simp [all]) (by simp) rfl⟩
  · obtain ⟨rfl, rfl⟩ := Prod.mk.inj (Option.some.inj h)
    exact ⟨[')'], _, rfl, rfl, .of_mem (l := {[')']}) (by simp [all]) (by simp) rfl⟩
  · obtain ⟨m, hm, heq⟩ := Option.map_eq_some_iff.mp h
    obtain ⟨rfl, rfl⟩ := Prod.mk.inj heq
    obtain ⟨w, b, rfl, rfl, hw, -⟩ := stringTail?_split hm
    exact ⟨'"' :: (w ++ ['"']), b, by simp, by simp,
      .of_mem (by simp [all]) (by simp) (mem_strings.mpr ⟨w, rfl, hw⟩)⟩
  · rename_i c t
    split at h
    · simp at h
    · rename_i hc
      obtain ⟨rfl, rfl⟩ := Prod.mk.inj (Option.some.inj h)
      exact ⟨['\'', c, '\''], t, rfl, rfl,
        .of_mem (by simp [all]) (by simp) (mem_characters.mpr ⟨c, rfl, hc⟩)⟩
  · split at h
    · rename_i hc
      exact exists_isToken_digit hc (Option.some.inj h)
    · split at h
      · rename_i hc
        exact exists_isToken_letter hc hcopy
      · simp at h

end Pattern

end TimedReq.Vhdl
