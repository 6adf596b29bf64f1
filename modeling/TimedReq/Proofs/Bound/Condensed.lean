import TimedReq.Proofs.Bound.Statement
import TimedReq.Proofs.Text.Normal

/-!
# Statements up to layout

A text that is read as a statement is, apart from blanks, the symbol of the quantity, the
comparison, the numeral with zeros in front of it, and the unit.
-/

namespace TimedReq

open Text

namespace Text

lemma filter_allBlank {u : Text} (hu : AllBlank u) : (u.filter fun c => !isBlank c) = [] := by
  rw [List.filter_eq_nil_iff]
  intro c hc
  simp [hu c hc]

end Text

namespace Number

lemma digitChar_toNat {c : Char} (hc : isAsciiDigit c = true) :
    c.toNat - 48 < 10 ∧ Nat.digitChar (c.toNat - 48) = c := by
  simp only [isAsciiDigit, Bool.and_eq_true, decide_eq_true_eq] at hc
  have hlt : c.toNat - 48 < 10 := by omega
  refine ⟨hlt, Char.toNat_inj.mp ?_⟩
  rw [Nat.toNat_digitChar_of_lt_ten hlt]
  omega

lemma digitValue?_of_isAsciiDigit {c : Char} (hc : isAsciiDigit c = true) :
    digitValue? c = some (c.toNat - 48) := by
  obtain ⟨hlt, heq⟩ := digitChar_toNat hc
  have hvalue := digitValue?_digitChar hlt
  rwa [heq] at hvalue

lemma toLower_of_isAsciiDigit {c : Char} (hc : isAsciiDigit c = true) : c.toLower = c := by
  have hall : ∀ d < 10, (Nat.digitChar d).toLower = Nat.digitChar d := by decide
  obtain ⟨hlt, heq⟩ := digitChar_toNat hc
  rw [← heq]
  exact hall _ hlt

lemma numeral_concat {n d : Nat} (hn : 0 < n) (hd : d < 10) :
    numeral (10 * n + d) = numeral n ++ [Nat.digitChar d] := by
  unfold numeral
  rw [Nat.toDigits_eq_if (by omega), if_neg (by omega)]
  have hdiv : (10 * n + d) / 10 = n := by omega
  have hmod : (10 * n + d) % 10 = d := by omega
  rw [hdiv, hmod]

/-- Digits that do not begin with a zero are the numeral of their number. -/
lemma numeral_ofDigits {c : Char} (hc : isAsciiDigit c = true) (hzero : c ≠ '0') {s : Text}
    (hs : ∀ x ∈ s, isAsciiDigit x = true) :
    numeral (ofDigits ((c :: s).filterMap digitValue?)) = c :: s ∧
      0 < ofDigits ((c :: s).filterMap digitValue?) := by
  induction s using List.reverseRecOn with
  | nil =>
    obtain ⟨hlt, heq⟩ := digitChar_toNat hc
    have hpos : 0 < c.toNat - 48 := by
      rw [Nat.pos_iff_ne_zero]
      intro h
      rw [h] at heq
      exact hzero heq.symm
    have hvalue : ofDigits ([c].filterMap digitValue?) = c.toNat - 48 := by
      simp [digitValue?_of_isAsciiDigit hc, ofDigits]
    rw [hvalue]
    refine ⟨?_, hpos⟩
    unfold numeral
    rw [Nat.toDigits_of_lt_base hlt, heq]
  | append_singleton s x ih =>
    obtain ⟨hnumeral, hpos⟩ := ih fun y hy => hs y (by simp [hy])
    have hx := hs x (by simp)
    obtain ⟨hlt, heq⟩ := digitChar_toNat hx
    have hvalue : ofDigits ((c :: (s ++ [x])).filterMap digitValue?) =
        10 * ofDigits ((c :: s).filterMap digitValue?) + (x.toNat - 48) := by
      rw [← List.cons_append, List.filterMap_append, ← ofDigits_concat]
      simp [digitValue?_of_isAsciiDigit hx]
    rw [hvalue, numeral_concat hpos hlt, hnumeral, heq]
    exact ⟨rfl, by omega⟩

/-- Without the zeros in front, digits are the numeral of their number. -/
lemma stripZeros_eq_numeral {w : Text} (hw : ∀ c ∈ w, isAsciiDigit c = true) (hne : w ≠ []) :
    stripZeros w = numeral (ofDigits (w.filterMap digitValue?)) := by
  fun_induction stripZeros w with
  | case1 => exact absurd rfl hne
  | case2 c =>
    have hc := hw c List.mem_cons_self
    by_cases hzero : c = '0'
    · subst hzero
      decide
    · exact (numeral_ofDigits hc hzero (by simp)).1.symm
  | case3 d s ih =>
    have hvalue : ofDigits (('0' :: d :: s).filterMap digitValue?) =
        ofDigits ((d :: s).filterMap digitValue?) := by
      rw [List.filterMap_cons_some (b := 0) (by decide)]
      rfl
    rw [ih (fun x hx => hw x (List.mem_cons_of_mem _ hx)) (by simp), hvalue]
  | case4 c d s hzero =>
    have hc := hw c List.mem_cons_self
    exact (numeral_ofDigits hc hzero fun x hx => hw x (List.mem_cons_of_mem c hx)).1.symm

end Number

namespace Statement

/-- The canonical text without its blanks and with its letters in lower case. -/
def condensed (st : Statement) : Text :=
  st.bound.unit.quantity.symbol.toLower :: st.comparison.symbol ++
    (Number.numeral st.bound.amount ++ st.bound.unit.token.map Char.toLower)

/-- The canonical texts of statements without blanks and with letters in lower case. -/
def condensedAll (sts : List Statement) : Text := join [','] (sts.map condensed)

/-- What a text that is read as a statement has besides blanks. -/
lemma exists_amount_of_parse {s : Text} {st : Statement} (h : parse s = .ok st) :
    ∃ amount : Text, (∀ c ∈ amount, isAsciiDigit c = true) ∧ amount ≠ [] ∧
      Number.ofDigits (amount.filterMap digitValue?) = st.bound.amount ∧
      (s.filter fun c => !isBlank c) = st.bound.unit.quantity.symbol ::
        (st.comparison.symbol ++ (amount ++ st.bound.unit.token)) := by
  obtain ⟨amount, -, hwritten⟩ := written_of_parse h
  cases hwritten with
  | intro hu hv hw hx hy _ hdigits hne hvalue =>
    refine ⟨amount, hdigits, hne, hvalue, ?_⟩
    have hfilter : ∀ {w : Text}, (∀ c ∈ w, isBlank c = false) →
        (w.filter fun c => !isBlank c) = w := by
      intro w hw
      rw [List.filter_eq_self]
      intro c hc
      rw [hw c hc]
      rfl
    have hsymbol : ∀ c ∈ st.comparison.symbol, isBlank c = false := by
      cases st.comparison <;> decide
    rw [List.filter_append, filter_allBlank hu, List.nil_append,
      List.filter_cons_of_pos (by simp [isBlank_quantity]), List.filter_append, filter_allBlank hv,
      List.nil_append, List.filter_append, hfilter hsymbol, List.filter_append, filter_allBlank hw,
      List.nil_append, List.filter_append,
      hfilter fun c hc => Number.not_blank_of_isAsciiDigit (hdigits c hc), List.filter_append,
      filter_allBlank hx, List.nil_append, List.filter_append,
      hfilter fun c hc => (st.bound.unit.token_spec.2 c hc).2, filter_allBlank hy, List.append_nil]

/-- In a section, a text that is read as a statement is the statement. -/
lemma dropZeros_parse {s : Text} {st : Statement} (h : parse s = .ok st) (r : List Mark) :
    dropZeros true false (((s.filter fun c => !isBlank c).map fun c => (c.toLower, false)) ++ r) =
      st.condensed ++ dropZeros true false r := by
  obtain ⟨amount, hdigits, hne, hvalue, hfilter⟩ := exists_amount_of_parse h
  have hlead : ∀ q : Quantity, ∀ k : Comparison, ∀ c ∈ q.symbol.toLower :: k.symbol,
      c ≠ '}' ∧ isAsciiDigit c = false := by
    intro q k
    cases q <;> cases k <;> decide
  have hsymbol : ∀ k : Comparison, k.symbol.map Char.toLower = k.symbol := by
    intro k
    cases k <;> decide
  have htoken : ∀ u : PhysicalUnit, (∀ c ∈ u.token.map Char.toLower,
      c ≠ '}' ∧ isAsciiDigit c = false) ∧ u.token.map Char.toLower ≠ [] := by
    rintro ⟨q, k⟩
    cases q <;> cases k <;> decide
  have hlower : amount.map Char.toLower = amount :=
    (List.map_congr_left fun c hc => Number.toLower_of_isAsciiDigit (hdigits c hc)).trans
      (List.map_id amount)
  have hmarks : ((s.filter fun c => !isBlank c).map fun c => (c.toLower, false)) =
      (st.bound.unit.quantity.symbol.toLower :: st.comparison.symbol).map (·, false) ++
        (amount.map (·, false) ++ (st.bound.unit.token.map Char.toLower).map (·, false)) := by
    have hmap : ((s.filter fun c => !isBlank c).map fun c => (c.toLower, false)) =
        ((s.filter fun c => !isBlank c).map Char.toLower).map (·, false) := by
      rw [List.map_map]
      rfl
    rw [hmap, hfilter, List.map_cons, List.map_append, List.map_append, hsymbol, hlower]
    simp
  obtain ⟨hletters, htokenNe⟩ := htoken st.bound.unit
  have hhead : ((((st.bound.unit.token.map Char.toLower).map (·, false)) ++ r).head?.any
      fun m => isAsciiDigit m.1) = false := by
    obtain ⟨x, xs, hx⟩ := List.exists_cons_of_ne_nil htokenNe
    rw [hx] at hletters ⊢
    exact (hletters x List.mem_cons_self).2
  rw [hmarks, List.append_assoc, List.append_assoc, dropZeros_letters (hlead _ _) (by simp),
    dropZeros_number hdigits hne hhead, dropZeros_letters hletters htokenNe,
    Number.stripZeros_eq_numeral hdigits hne, hvalue]
  simp [condensed]

/-- In a section, a text that is read as a list of statements is these statements. -/
theorem dropZeros_parseAll {s : Text} {st : Statement} {more : List Statement}
    (h : parseAll (pieces (· == ',') s) = .ok (st :: more)) (r : List Mark) :
    dropZeros true false (squeezed s ++ r) =
      condensedAll (st :: more) ++ dropZeros true false r := by
  rw [squeezed_plain (isPlain_of_parseAll h)]
  induction more generalizing s st with
  | nil =>
    obtain hone | ⟨w, c, t, -, -, hpieces⟩ := pieces_cases (· == ',') s
    · rw [hone] at h
      obtain ⟨st', more', hst, -, heq⟩ := parseAll_cons.mp h
      obtain ⟨rfl, -⟩ := List.cons.inj heq
      exact dropZeros_parse hst r
    · rw [hpieces] at h
      obtain ⟨st', more', -, hmore, heq⟩ := parseAll_cons.mp h
      obtain ⟨-, rfl⟩ := List.cons.inj heq
      obtain ⟨v, vs, hv⟩ := List.exists_cons_of_ne_nil (pieces_ne_nil (· == ',') t)
      rw [hv] at hmore
      obtain ⟨_, _, -, -, hnil⟩ := parseAll_cons.mp hmore
      simp at hnil
  | cons next more ih =>
    obtain hone | ⟨w, c, t, rfl, hc, hpieces⟩ := pieces_cases (· == ',') s
    · rw [hone] at h
      obtain ⟨st', more', -, hmore, heq⟩ := parseAll_cons.mp h
      obtain ⟨-, rfl⟩ := List.cons.inj heq
      simp [parseAll] at hmore
    · rw [hpieces] at h
      obtain ⟨st', more', hst, hmore, heq⟩ := parseAll_cons.mp h
      obtain ⟨rfl, rfl⟩ := List.cons.inj heq
      obtain rfl : c = ',' := by simpa using hc
      have hcomma : ∀ m : List Mark, dropZeros true false ((',', false) :: m) =
          ',' :: dropZeros true false m := fun m => dropZeros_letters (w := [',']) (by decide)
            (by simp) false m
      have hfilter : ((w ++ ',' :: t).filter fun c => !isBlank c) =
          (w.filter fun c => !isBlank c) ++ ',' :: (t.filter fun c => !isBlank c) := by
        rw [List.filter_append, List.filter_cons_of_pos (by decide)]
      rw [hfilter, List.map_append, List.append_assoc, dropZeros_parse hst, List.map_cons,
        List.cons_append]
      rw [show ((',' : Char).toLower, false) = (',', false) from rfl, hcomma, ih hmore]
      simp [condensedAll, join]

end Statement

end TimedReq
