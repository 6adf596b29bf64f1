import TimedReq.Bound.Statement
import TimedReq.Proofs.Reading
import TimedReq.Proofs.Text.Pieces

/-!
# The texts of a statement

A text is read as a statement exactly if it is the symbol of the quantity, the comparison, digits
that denote the amount and the unit, with blanks around and between them. No text can be read with
two comparisons, so the order in which they are tried does not matter.
-/

namespace TimedReq

open Text

namespace Number

lemma ofDigitsWithin_eq_ok {ds : List Nat} {n : Nat} :
    ofDigitsWithin ds = .ok n ↔ ds.length ≤ digitLimit ∧ ofDigits ds = n := by
  unfold ofDigitsWithin
  split <;> simp [*]

/-- Every digit of an amount has a value. -/
lemma length_digitValues {w : Text} (hw : ∀ c ∈ w, isAsciiDigit c = true) :
    (w.filterMap digitValue?).length = w.length :=
  List.filterMap_length_eq_length.mpr fun c hc => isDigit_of_isAsciiDigit (hw c hc)

lemma not_blank_of_isAsciiDigit {c : Char} (hc : isAsciiDigit c = true) : isBlank c = false := by
  by_contra hb
  have hblank : isBlank c = true := by simpa using hb
  simp only [isAsciiDigit, Bool.and_eq_true, decide_eq_true_eq] at hc
  simp only [isBlank, Bool.or_eq_true, Bool.and_eq_true, decide_eq_true_eq, beq_iff_eq] at hblank
  omega

end Number

lemma PhysicalUnit.token_spec (u : PhysicalUnit) :
    u.token ≠ [] ∧ ∀ c ∈ u.token, isAsciiLetter c = true ∧ isBlank c = false := by
  obtain ⟨q, s⟩ := u
  cases q <;> cases s <;> decide

/-- A token ends with a character other than a blank. -/
lemma PhysicalUnit.exists_token_eq_append (u : PhysicalUnit) :
    ∃ w c, u.token = w ++ [c] ∧ isBlank c = false := by
  obtain ⟨hne, htoken⟩ := u.token_spec
  exact ⟨_, _, (List.dropLast_concat_getLast hne).symm, (htoken _ (List.getLast_mem hne)).2⟩

lemma PhysicalUnit.eq_token_of_ofToken? {w : Text} {u : PhysicalUnit} (h : ofToken? w = some u) :
    w = u.token := by
  have hfound := List.find?_some (p := fun v : PhysicalUnit => v.token == w) h
  exact (beq_iff_eq.mp hfound).symm

namespace Bound

/-- Of digits and a unit only the number of digits can keep a bound from being read. -/
lemma parse_of_words {t amount : Text} {u : PhysicalUnit} (hwords : words t = [amount, u.token])
    (hdigits : ∀ c ∈ amount, isAsciiDigit c = true) :
    parse t = (⟨·, u⟩) <$> Number.ofDigitsWithin (amount.filterMap digitValue?) := by
  unfold parse
  rw [hwords]
  simp only [List.all_eq_true.mpr hdigits, if_true, PhysicalUnit.ofToken?_token]
  rfl

/-- Everything else is malformed. -/
lemma exists_words_of_parse {t : Text} (h : parse t ≠ .malformed) :
    ∃ amount u, words t = [amount, PhysicalUnit.token u] ∧
      ∀ c ∈ amount, isAsciiDigit c = true := by
  unfold parse at h
  split at h
  · rename_i amount unit hwords
    split at h
    · rename_i hdigits
      split at h
      · rename_i u hu
        rw [PhysicalUnit.eq_token_of_ofToken? hu] at hwords
        exact ⟨amount, u, hwords, List.all_eq_true.mp hdigits⟩
      · exact absurd rfl h
    · exact absurd rfl h
  · exact absurd rfl h

lemma parse_eq_ok {t : Text} {b : Bound} :
    parse t = .ok b ↔ ∃ amount : Text, words t = [amount, b.unit.token] ∧
      (∀ c ∈ amount, isAsciiDigit c = true) ∧ amount.length ≤ Number.digitLimit ∧
      Number.ofDigits (amount.filterMap digitValue?) = b.amount := by
  constructor
  · intro h
    obtain ⟨amount, u, hwords, hdigits⟩ :=
      exists_words_of_parse fun hmal => Reading.malformed_ne_ok b (hmal.symm.trans h)
    rw [parse_of_words hwords hdigits] at h
    obtain ⟨n, hn, rfl⟩ := Reading.map_eq_ok.mp h
    obtain ⟨hlen, hvalue⟩ := Number.ofDigitsWithin_eq_ok.mp hn
    rw [Number.length_digitValues hdigits] at hlen
    exact ⟨amount, hwords, hdigits, hlen, hvalue⟩
  · rintro ⟨amount, hwords, hdigits, hlen, hvalue⟩
    rw [← Number.length_digitValues hdigits] at hlen
    rw [parse_of_words hwords hdigits, Number.ofDigitsWithin_eq_ok.mpr ⟨hlen, hvalue⟩]
    rfl

end Bound

namespace Comparison

/-- The characters of which comparisons are made. -/
def alphabet : Text := ['<', '>', '=', '!']

lemma mem_all (k : Comparison) : k ∈ all := by
  cases k <;> decide

lemma ofSymbol?_symbol (k : Comparison) : ofSymbol? (trim k.symbol) = some k := by
  cases k <;> decide

lemma mem_alphabet {k : Comparison} {c : Char} (hc : c ∈ k.symbol) : c ∈ alphabet := by
  have hall : ∀ k : Comparison, ∀ c ∈ k.symbol, c ∈ alphabet := by
    intro k
    cases k <;> decide
  exact hall k c hc

lemma exists_symbol_eq_cons (k : Comparison) : ∃ x xs, k.symbol = x :: xs := by
  cases k <;> exact ⟨_, _, rfl⟩

lemma exists_symbol_eq_append (k : Comparison) :
    ∃ xs x, k.symbol = xs ++ [x] ∧ x ∈ alphabet := by
  cases k <;> exact ⟨_, _, (List.dropLast_concat_getLast (by decide)).symm, by decide⟩

/-- No comparison ends with another one. -/
lemma eq_of_suffix {k l : Comparison} (h : k.symbol <:+ l.symbol) : k = l := by
  revert h
  cases k <;> cases l <;> decide

end Comparison

namespace Statement

/-- A comparison is found where nothing around it could belong to a comparison. -/
lemma splitOn_comparison (k : Comparison) {left right : Text}
    (hleft : ∀ c ∈ left, c ∉ Comparison.alphabet) (hright : ∀ c ∈ right, c ∉ Comparison.alphabet) :
    splitOn k.symbol (left ++ (k.symbol ++ right)) = [left, right] := by
  obtain ⟨x, xs, hk⟩ := k.exists_symbol_eq_cons
  have hx : x ∈ Comparison.alphabet := Comparison.mem_alphabet (k := k) (by simp [hk])
  have hne : ∀ {w : Text}, (∀ c ∈ w, c ∉ Comparison.alphabet) → ∀ c ∈ w, c ≠ x := by
    rintro w hw c hc rfl
    exact hw c hc hx
  have hcut := splitOn_separator x xs right
  rw [splitOn_of_forall (hne hright)] at hcut
  have hall := splitOn_append (hne hleft) hcut
  rw [List.append_nil] at hall
  rw [hk]
  exact hall

/-- Pieces on the two sides of a comparison make up the text. -/
lemma eq_of_splitOn {k : Comparison} {s left right : Text}
    (h : splitOn k.symbol s = [left, right]) : s = left ++ (k.symbol ++ right) := by
  obtain ⟨x, xs, hk⟩ := k.exists_symbol_eq_cons
  rw [hk] at h ⊢
  rw [← join_splitOn s, h]
  simp [join]

/-- A text that is read as a bound holds nothing of a comparison. -/
lemma not_mem_alphabet_of_bound {t : Text} (h : Bound.parse t ≠ .malformed) :
    ∀ c ∈ t, c ∉ Comparison.alphabet := by
  have hno : ∀ c ∈ Comparison.alphabet,
      isBlank c = false ∧ isAsciiDigit c = false ∧ isAsciiLetter c = false := by decide
  obtain ⟨amount, u, hwords, hdigits⟩ := Bound.exists_words_of_parse h
  intro c hc hmem
  obtain ⟨hblank, hdigit, hletter⟩ := hno c hmem
  rcases mem_words hc with hc | ⟨w, hw, hc⟩
  · simp [hblank] at hc
  · rw [hwords] at hw
    simp only [List.mem_cons, List.not_mem_nil, or_false] at hw
    rcases hw with rfl | rfl
    · simp [hdigits c hc] at hdigit
    · simp [(u.token_spec.2 c hc).1] at hletter

/-- Reading at a comparison is malformed unless the comparison stands in front of a bound. -/
lemma exists_split_of_parseAt {k : Comparison} {s : Text} (h : parseAt k s ≠ .malformed) :
    ∃ left right, splitOn k.symbol s = [left, right] ∧ Bound.parse right ≠ .malformed := by
  unfold parseAt at h
  split at h
  · rename_i left right hsplit
    refine ⟨left, right, hsplit, ?_⟩
    intro hmal
    rw [hmal] at h
    exact h rfl
  · exact absurd rfl h

lemma parseAt_eq_ok {k : Comparison} {s : Text} {st : Statement} :
    parseAt k s = .ok st ↔ st.comparison = k ∧ ∃ left right, splitOn k.symbol s = [left, right] ∧
      Bound.parse right = .ok st.bound ∧ trim left = [st.bound.unit.quantity.symbol] := by
  constructor
  · intro h
    obtain ⟨left, right, hsplit, -⟩ :=
      exists_split_of_parseAt fun hmal => Reading.malformed_ne_ok st (hmal.symm.trans h)
    unfold parseAt at h
    rw [hsplit] at h
    obtain ⟨b, hb, heq⟩ := Reading.bind_eq_ok.mp h
    have hparts := Reading.ofOption_eq_ok.mp heq
    unfold ofParts? at hparts
    split at hparts
    · rename_i htrim
      rw [Comparison.ofSymbol?_symbol] at hparts
      obtain rfl := Option.some.inj hparts
      exact ⟨rfl, left, right, hsplit, hb, htrim⟩
    · simp at hparts
  · rintro ⟨rfl, left, right, hsplit, hbound, htrim⟩
    unfold parseAt
    rw [hsplit]
    refine Reading.bind_eq_ok.mpr ⟨st.bound, hbound, ?_⟩
    rw [ofParts?, if_pos htrim, Comparison.ofSymbol?_symbol]
    rfl

/-- A text is cut at the last character of a kind in one way only. -/
lemma eq_of_append_last {p : Char → Prop} {u v s t : Text} {c d : Char} (hs : ∀ x ∈ s, ¬p x)
    (ht : ∀ x ∈ t, ¬p x) (hc : p c) (hd : p d) (h : u ++ c :: s = v ++ d :: t) :
    u ++ [c] = v ++ [d] := by
  obtain ⟨_ | ⟨e, x⟩, rfl, hx⟩ | ⟨_ | ⟨e, x⟩, rfl, hx⟩ := List.append_eq_append_iff.mp h
  · obtain ⟨rfl, -⟩ := List.cons.inj hx
    rw [List.append_nil]
  · obtain ⟨-, rfl⟩ := List.cons.inj hx
    exact absurd hd (hs d (by simp))
  · obtain ⟨rfl, -⟩ := List.cons.inj hx
    rw [List.append_nil]
  · obtain ⟨-, rfl⟩ := List.cons.inj hx
    exact absurd hc (ht c (by simp))

/-- A text is malformed with all comparisons but one: the one that the bound follows. -/
lemma parseAt_unique {k l : Comparison} {s : Text} (hk : parseAt k s ≠ .malformed)
    (hl : parseAt l s ≠ .malformed) : k = l := by
  obtain ⟨left, right, hsplit, hbound⟩ := exists_split_of_parseAt hk
  obtain ⟨left', right', hsplit', hbound'⟩ := exists_split_of_parseAt hl
  obtain ⟨xs, x, hxs, hx⟩ := k.exists_symbol_eq_append
  obtain ⟨ys, y, hys, hy⟩ := l.exists_symbol_eq_append
  have hsame : left ++ k.symbol = left' ++ l.symbol := by
    have hcut := (eq_of_splitOn hsplit).symm.trans (eq_of_splitOn hsplit')
    rw [hxs, hys] at hcut ⊢
    rw [← List.append_assoc, ← List.append_assoc]
    refine eq_of_append_last (not_mem_alphabet_of_bound hbound)
      (not_mem_alphabet_of_bound hbound') hx hy ?_
    simpa using hcut
  have hsuffix := List.suffix_append left k.symbol
  rw [hsame] at hsuffix
  obtain h | h := List.suffix_or_suffix_of_suffix hsuffix (List.suffix_append left' l.symbol)
  · exact Comparison.eq_of_suffix h
  · exact (Comparison.eq_of_suffix h).symm

/-- The comparison with which a text can be read decides, wherever it stands in the list. -/
lemma parseWith_of_mem {k : Comparison} {s : Text} (h : parseAt k s ≠ .malformed)
    {ks : List Comparison} (hk : k ∈ ks) : parseWith s ks = parseAt k s := by
  induction ks with
  | nil => simp at hk
  | cons l ks ih =>
    rw [parseWith]
    by_cases hl : parseAt l s = .malformed
    · have hne : k ≠ l := by
        rintro rfl
        exact h hl
      rw [hl, ← ih ((List.mem_cons.mp hk).resolve_left hne)]
      rfl
    · obtain rfl := parseAt_unique h hl
      unfold Reading.orElse
      split
      · rename_i hmal
        exact absurd hmal h
      · rfl

lemma parseWith_of_forall {s : Text} {ks : List Comparison}
    (h : ∀ k ∈ ks, parseAt k s = .malformed) : parseWith s ks = .malformed := by
  induction ks with
  | nil => rfl
  | cons l ks ih =>
    rw [parseWith, h l List.mem_cons_self]
    exact ih fun k hk => h k (List.mem_cons_of_mem l hk)

/-- Only which comparisons are tried matters, not their order. -/
lemma parseWith_congr (s : Text) {ks ls : List Comparison} (h : ∀ k, k ∈ ks ↔ k ∈ ls) :
    parseWith s ks = parseWith s ls := by
  by_cases hone : ∃ k ∈ ks, parseAt k s ≠ .malformed
  · obtain ⟨k, hk, hne⟩ := hone
    rw [parseWith_of_mem hne hk, parseWith_of_mem hne ((h k).mp hk)]
  · have hnone : ∀ k ∈ ks, parseAt k s = .malformed := by
      intro k hk
      by_contra hne
      exact hone ⟨k, hk, hne⟩
    rw [parseWith_of_forall hnone, parseWith_of_forall fun k hk => hnone k ((h k).mpr hk)]

/-- What is read with any comparison is read with the statement's own. -/
lemma parse_eq_ok_iff_parseAt {s : Text} {st : Statement} :
    parse s = .ok st ↔ parseAt st.comparison (trim s) = .ok st := by
  constructor
  · intro h
    by_cases hone : ∃ k, parseAt k (trim s) ≠ .malformed
    · obtain ⟨k, hk⟩ := hone
      unfold parse at h
      rw [parseWith_of_mem hk k.mem_all] at h
      rwa [(parseAt_eq_ok.mp h).1]
    · have hnone : parse s = .malformed :=
        parseWith_of_forall fun k _ => not_not.mp fun hk => hone ⟨k, hk⟩
      exact absurd (hnone.symm.trans h) (Reading.malformed_ne_ok st)
  · intro h
    have hne : parseAt st.comparison (trim s) ≠ .malformed := by
      rw [h]
      exact (Reading.malformed_ne_ok st).symm
    exact (parseWith_of_mem hne st.comparison.mem_all).trans h

/-- The text of a statement whose amount is denoted by some digits: the symbol of the quantity,
the comparison, the digits and the unit, with blanks around and between them. Only between the
digits and the unit there must be a blank. -/
inductive Written (st : Statement) (digits : Text) : Text → Prop
  | intro {u v w x y : Text} (hu : AllBlank u) (hv : AllBlank v) (hw : AllBlank w)
      (hx : AllBlank x) (hy : AllBlank y) (hxne : x ≠ [])
      (hdigits : ∀ c ∈ digits, isAsciiDigit c = true) (hne : digits ≠ [])
      (hvalue : Number.ofDigits (digits.filterMap digitValue?) = st.bound.amount) :
      Written st digits (u ++ (st.bound.unit.quantity.symbol :: (v ++ (st.comparison.symbol ++
        (w ++ (digits ++ (x ++ (st.bound.unit.token ++ y))))))))

lemma Written.isAsciiDigit {st : Statement} {digits s : Text} (h : Written st digits s) :
    ∀ c ∈ digits, isAsciiDigit c = true := by
  cases h with
  | intro _ _ _ _ _ _ hdigits => exact hdigits

lemma Written.isInfix {st : Statement} {digits s : Text} (h : Written st digits s) :
    digits <:+: s := by
  cases h with
  | @intro u v w x y =>
    exact ⟨u ++ st.bound.unit.quantity.symbol :: (v ++ (st.comparison.symbol ++ w)),
      x ++ (st.bound.unit.token ++ y), by simp⟩

lemma isBlank_quantity (q : Quantity) : isBlank q.symbol = false := by
  cases q <;> decide

lemma not_mem_alphabet_of_quantity (q : Quantity) {v : Text} (hv : AllBlank v) :
    ∀ c ∈ q.symbol :: v, c ∉ Comparison.alphabet := by
  have hno : ∀ c ∈ Comparison.alphabet, isBlank c = false := by decide
  have hquantity : q.symbol ∉ Comparison.alphabet := by
    cases q <;> decide
  intro c hc hmem
  rcases List.mem_cons.mp hc with rfl | hc
  · exact hquantity hmem
  · have hblank := hv c hc
    rw [hno c hmem] at hblank
    exact absurd hblank (by simp)

lemma written_of_parse {s : Text} {st : Statement} (h : parse s = .ok st) :
    ∃ digits : Text, digits.length ≤ Number.digitLimit ∧ Written st digits s := by
  obtain ⟨-, left, right, hsplit, hbound, htrim⟩ :=
    parseAt_eq_ok.mp (parse_eq_ok_iff_parseAt.mp h)
  obtain ⟨digits, hwords, hdigits, hlen, hvalue⟩ := Bound.parse_eq_ok.mp hbound
  obtain ⟨w, x, y, rfl, hw, hne, hx, hxne, hy⟩ := exists_of_words_pair hwords
  obtain ⟨u, v, hu, hv, hleft⟩ := exists_trim left
  obtain ⟨u', y', hu', hy', hs⟩ := exists_trim s
  have heq : s = (u' ++ u) ++ (st.bound.unit.quantity.symbol :: (v ++ (st.comparison.symbol ++
      (w ++ (digits ++ (x ++ (st.bound.unit.token ++ (y ++ y')))))))) := by
    rw [htrim] at hleft
    rw [hs, eq_of_splitOn hsplit, hleft]
    simp
  refine ⟨digits, hlen, ?_⟩
  rw [heq]
  exact .intro (hu'.append hu) hv hw hx (hy.append hy') hxne hdigits hne hvalue

lemma parse_of_written {s digits : Text} {st : Statement} (h : Written st digits s)
    (hlen : digits.length ≤ Number.digitLimit) : parse s = .ok st := by
  cases h with
  | @intro u v w x y hu hv hw hx hy hxne hdigits hne hvalue =>
    obtain ⟨htokenNe, htoken⟩ := st.bound.unit.token_spec
    have hbound : Bound.parse (w ++ (digits ++ (x ++ (st.bound.unit.token ++ [])))) =
        .ok st.bound := by
      have hwords := words_pair hw (fun c hc => Number.not_blank_of_isAsciiDigit (hdigits c hc)) hne
        hx hxne (fun c hc => (htoken c hc).2) htokenNe .nil
      exact Bound.parse_eq_ok.mpr ⟨digits, hwords, hdigits, hlen, hvalue⟩
    have hright := not_mem_alphabet_of_bound
      (fun hmal => Reading.malformed_ne_ok _ (hmal.symm.trans hbound))
    have hleft := not_mem_alphabet_of_quantity st.bound.unit.quantity hv
    have hsymbol : trim (st.bound.unit.quantity.symbol :: v) =
        [st.bound.unit.quantity.symbol] := by
      rw [← List.singleton_append, trim_append_right hv]
      exact trim_of_ends (isBlank_quantity _) (isBlank_quantity _) (t := []) rfl
    have htrim : trim (u ++ (st.bound.unit.quantity.symbol :: (v ++ (st.comparison.symbol ++
        (w ++ (digits ++ (x ++ (st.bound.unit.token ++ y)))))))) =
        (st.bound.unit.quantity.symbol :: v) ++ (st.comparison.symbol ++
          (w ++ (digits ++ (x ++ (st.bound.unit.token ++ []))))) := by
      obtain ⟨token, last, hlast, hblank⟩ := st.bound.unit.exists_token_eq_append
      have hends := trim_pad_of_ends hu hy (isBlank_quantity st.bound.unit.quantity) hblank
        (v ++ (st.comparison.symbol ++ (w ++ (digits ++ (x ++ token)))))
      rw [hlast]
      simpa using hends
    refine parse_eq_ok_iff_parseAt.mpr ?_
    rw [htrim]
    exact parseAt_eq_ok.mpr ⟨rfl, _, _, splitOn_comparison _ hleft hright, hbound, hsymbol⟩

/-- A text is read as a statement exactly if it is a text of the statement, with few enough
digits. -/
theorem parse_eq_ok {s : Text} {st : Statement} :
    parse s = .ok st ↔ ∃ digits : Text, digits.length ≤ Number.digitLimit ∧ Written st digits s :=
  ⟨written_of_parse, fun ⟨_, hlen, hwritten⟩ => parse_of_written hwritten hlen⟩

end Statement

end TimedReq
