import TimedReq.Proofs.Text.Nesting
import TimedReq.Proofs.Vhdl.Pattern

/-!
# Numbers in front of texts

A number is the longest piece of its form, so what follows it decides where it ends. It is read
alike if nothing follows it, and if the text behind it goes on with a blank, a closing bracket or
an arrow.
-/

namespace TimedReq.Text

/-- The code points of all blanks. -/
def blankPoints : List Nat :=
  [9, 10, 11, 12, 13, 28, 29, 30, 31, 32, 0x85, 0xA0, 0x1680, 0x2000, 0x2001, 0x2002, 0x2003,
    0x2004, 0x2005, 0x2006, 0x2007, 0x2008, 0x2009, 0x200A, 0x2028, 0x2029, 0x202F, 0x205F, 0x3000]

lemma mem_blankPoints {c : Char} (h : isBlank c = true) : c.toNat ∈ blankPoints := by
  have hrun : ∀ lo len, (∀ n ∈ List.range' lo len, n ∈ blankPoints) → lo ≤ c.toNat →
      c.toNat < lo + len → c.toNat ∈ blankPoints :=
    fun lo len hall hlo hhi => hall _ (List.mem_range'_1.mpr ⟨hlo, hhi⟩)
  simp only [isBlank, Bool.or_eq_true, Bool.and_eq_true, decide_eq_true_eq, beq_iff_eq] at h
  rcases h with (((((((((h | h) | h) | h) | h) | h) | h) | h) | h) | h) | h
  · exact hrun 0x09 5 (by decide) h.1 (by omega)
  · exact hrun 0x1C 5 (by decide) h.1 (by omega)
  case' inl.inl.inl.inl.inl.inr => exact hrun 0x2000 11 (by decide) h.1 (by omega)
  all_goals
    rw [h]
    decide

lemma exists_zero_of_isDigit {c : Char} (h : isDigit c = true) :
    ∃ z ∈ zeros, z ≤ c.toNat ∧ c.toNat < z + 10 := by
  unfold isDigit digitValue? at h
  rw [Option.isSome_map, List.find?_isSome] at h
  obtain ⟨z, hz, hc⟩ := h
  simp only [Bool.and_eq_true, decide_eq_true_eq] at hc
  exact ⟨z, hz, hc⟩

lemma not_blank_of_isDigit {c : Char} (h : isDigit c = true) : isBlank c = false := by
  obtain ⟨z, hz, hle, hlt⟩ := exists_zero_of_isDigit h
  have hfree : ∀ z ∈ zeros, ∀ b ∈ blankPoints, ¬(z ≤ b ∧ b < z + 10) := by decide +kernel
  by_contra hb
  exact hfree z hz c.toNat (mem_blankPoints (by simpa using hb)) ⟨hle, hlt⟩

/-- Apart from the ten ASCII digits, digits are no ASCII characters. -/
lemma toNat_of_isDigit {c : Char} (h : isDigit c = true) :
    (48 ≤ c.toNat ∧ c.toNat ≤ 57) ∨ 128 ≤ c.toNat := by
  obtain ⟨z, hz, hle, hlt⟩ := exists_zero_of_isDigit h
  have hzero : ∀ z ∈ zeros, z = 48 ∨ 128 ≤ z := by decide +kernel
  rcases hzero z hz with rfl | hz
  · omega
  · omega

lemma not_blank_of_isAsciiLetter {c : Char} (h : isAsciiLetter c = true) : isBlank c = false := by
  by_contra hb
  have hmem := mem_blankPoints (by simpa using hb)
  simp only [isAsciiLetter, Bool.or_eq_true, Bool.and_eq_true, decide_eq_true_eq] at h
  simp only [blankPoints, List.mem_cons, List.not_mem_nil, or_false] at hmem
  omega

end TimedReq.Text

namespace TimedReq.Vhdl.Lexeme

open Text Pattern

/-- The text is empty or goes on with a blank, a closing bracket or an arrow. -/
def Separates : Text → Prop
  | [] => True
  | c :: s => isBlank c = true ∨ c = ')' ∨ (c = '-' ∧ s.head? = some '>')

lemma Separates.head_toNat {c : Char} {s : Text} (h : Separates (c :: s)) :
    c.toNat ∈ 41 :: 45 :: blankPoints := by
  rcases h with h | rfl | ⟨rfl, -⟩
  · exact List.mem_cons_of_mem _ (List.mem_cons_of_mem _ (mem_blankPoints h))
  · decide
  · decide

lemma Separates.head_ne {r : Text} (h : Separates r) {c : Char}
    (hc : c.toNat ∉ 41 :: 45 :: blankPoints) : r.head? ≠ some c := by
  rcases r with _ | ⟨d, s⟩
  · simp
  · intro heq
    obtain rfl := Option.some.inj heq
    exact hc h.head_toNat

lemma Separates.not_digit {r : Text} (h : Separates r) : ∀ c ∈ r.head?, isDigit c = false := by
  rcases r with _ | ⟨c, s⟩
  · simp
  · intro d hd
    obtain rfl := Option.some.inj hd
    by_contra hdigit
    have hdigit : isDigit c = true := by simpa using hdigit
    rcases h with h | rfl | ⟨rfl, -⟩
    · rw [not_blank_of_isDigit hdigit] at h
      exact absurd h (by simp)
    · exact absurd hdigit (by decide)
    · exact absurd hdigit (by decide)

lemma Separates.not_letter {r : Text} (h : Separates r) :
    ∀ c ∈ r.head?, isAsciiLetter c = false := by
  rcases r with _ | ⟨c, s⟩
  · simp
  · intro d hd
    obtain rfl := Option.some.inj hd
    by_contra hletter
    have hletter : isAsciiLetter c = true := by simpa using hletter
    rcases h with h | rfl | ⟨rfl, -⟩
    · rw [not_blank_of_isAsciiLetter hletter] at h
      exact absurd h (by simp)
    · exact absurd hletter (by decide)
    · exact absurd hletter (by decide)

/-- A character is not in front of a text continued with a separator if it is not in front of the
text. -/
lemma Separates.head_append_ne {b r : Text} (hr : Separates r) {c : Char}
    (hc : c.toNat ∉ 41 :: 45 :: blankPoints) (hb : b.head? ≠ some c) :
    (b ++ r).head? ≠ some c := by
  cases b with
  | nil => exact hr.head_ne hc
  | cons d b => exact hb

/-- The characters of numbers. -/
def isNumberChar (c : Char) : Bool :=
  isDigit c || c == '_' || c == '.' || c == 'e' || c == 'E' || c == '+' || c == '-'

lemma isNumberChar_of_isDigit {c : Char} (h : isDigit c = true) : isNumberChar c = true := by
  unfold isNumberChar
  rw [h]
  rfl

/-- The characters of numerals. -/
def isNumeralChar (c : Char) : Bool := isDigit c || c == '_'

lemma isNumeralChar_of_isDigit {c : Char} (h : isDigit c = true) : isNumeralChar c = true := by
  rw [isNumeralChar, h, Bool.true_or]

lemma isNumberChar_of_isNumeralChar {c : Char} (h : isNumeralChar c = true) :
    isNumberChar c = true := by
  unfold isNumeralChar at h
  simp only [Bool.or_eq_true, beq_iff_eq] at h
  rcases h with h | rfl
  · exact isNumberChar_of_isDigit h
  · rfl

lemma getLast?_ne_of_mem {w : Text} {c : Char} (h : c ∉ w) : w.getLast? ≠ some c := by
  intro heq
  exact h (List.mem_of_getLast? heq)

lemma getLast?_append_ne {v w : Text} {c : Char} (hw : w ≠ []) (h : w.getLast? ≠ some c) :
    (v ++ w).getLast? ≠ some c := by
  rw [List.getLast?_eq_some_getLast hw] at h
  rw [List.getLast?_append, List.getLast?_eq_some_getLast hw]
  exact h

/-- A function that counts how far a text goes on like separated texts after the first character:
with characters of one kind, and with separators in front of characters of another kind. -/
structure Tail (x : Char) (p q : Char → Bool) (f : Text → Nat) : Prop where
  further : ∀ {c}, q c = true → ∀ s, f (c :: s) = f s + 1
  separator : ∀ {c}, p c = true → ∀ s, f (x :: c :: s) = f s + 2
  stop : ∀ {s}, f s ≠ 0 →
    (∃ c t, s = c :: t ∧ q c = true) ∨ ∃ c t, s = x :: c :: t ∧ p c = true

section

variable {x : Char} {p q : Char → Bool} {f : Text → Nat} (hf : Tail x p q f)

include hf

lemma Tail.append_forall {v : Text} (hv : ∀ c ∈ v, q c = true) (s : Text) :
    f (v ++ s) = v.length + f s := by
  induction v with
  | nil => rw [List.nil_append, List.length_nil, Nat.zero_add]
  | cons c v ih =>
    rw [List.cons_append, hf.further (hv c List.mem_cons_self),
      ih fun d hd => hv d (List.mem_cons_of_mem c hd), List.length_cons]
    omega

/-- The count goes on at least to the end of separated texts, and from there as it would without
them. -/
lemma Tail.append {w : Text} (hw : w ∈ separated x (headed p q)) :
    ∃ c v, w = c :: v ∧ p c = true ∧ ∀ s, f (v ++ s) = v.length + f s := by
  induction hn : w.length using Nat.strongRecOn generalizing w with
  | ind n ih =>
    obtain hw | ⟨v, hv, u, hu, rfl⟩ := mem_separated.mp hw
    · obtain ⟨c, v, rfl, hc, hv⟩ := mem_headed.mp hw
      exact ⟨c, v, rfl, hc, hf.append_forall hv⟩
    · obtain ⟨c, v, rfl, hc, hv⟩ := mem_headed.mp hv
      simp only [List.length_append, List.length_cons] at hn
      obtain ⟨d, u, rfl, hd, hrest⟩ := ih u.length (by omega) hu rfl
      refine ⟨c, v ++ x :: d :: u, rfl, hc, ?_⟩
      intro s
      rw [List.append_assoc, hf.append_forall hv, List.cons_append, List.cons_append,
        hf.separator hd, hrest s]
      simp only [List.length_append, List.length_cons]
      omega

/-- What is counted makes up separated texts with the character in front. -/
lemma Tail.exists_mem (s : Text) :
    ∃ a b, s = a ++ b ∧ a.length = f s ∧ ∀ c, p c = true → c :: a ∈ separated x (headed p q) := by
  have hsingle : ∀ {c}, p c = true → [c] ∈ headed p q :=
    fun hc => mem_headed.mpr ⟨_, [], rfl, hc, by simp⟩
  induction hn : s.length using Nat.strongRecOn generalizing s with
  | ind n ih =>
    by_cases hzero : f s = 0
    · exact ⟨[], s, rfl, hzero.symm, fun c hc => mem_separated.mpr (.inl (hsingle hc))⟩
    · obtain ⟨d, t, rfl, hd⟩ | ⟨d, t, rfl, hd⟩ := hf.stop hzero
      · rw [List.length_cons] at hn
        obtain ⟨a, b, rfl, hlen, hmem⟩ := ih t.length (by omega) t rfl
        refine ⟨d :: a, b, rfl, by rw [hf.further hd, ← hlen, List.length_cons], ?_⟩
        intro c hc
        exact insert_mem_separated (hmem c hc) hd
      · rw [List.length_cons, List.length_cons] at hn
        obtain ⟨a, b, rfl, hlen, hmem⟩ := ih t.length (by omega) t rfl
        refine ⟨x :: d :: a, b, rfl, by rw [hf.separator hd, ← hlen]; rfl, ?_⟩
        intro c hc
        exact mem_separated.mpr (.inr ⟨[c], hsingle hc, d :: a, hmem d hd, rfl⟩)

lemma Tail.split {c : Char} (hc : p c = true) (s : Text) :
    ∃ a b, s = a ++ b ∧ a.length = f s ∧ c :: a ∈ separated x (headed p q) ∧ f b = 0 := by
  obtain ⟨a, b, rfl, hlen, hmem⟩ := hf.exists_mem s
  obtain ⟨d, v, heq, -, hrest⟩ := hf.append (hmem c hc)
  obtain ⟨-, rfl⟩ := List.cons.inj heq
  rw [hrest] at hlen
  exact ⟨a, b, rfl, (hrest b).symm ▸ hlen, hmem c hc, by omega⟩

/-- The count does not begin behind a text if it begins neither in the text nor behind it. -/
lemma Tail.append_eq_zero {b r : Text} (hb : f b = 0) (hp : ∀ c ∈ r.head?, p c = false)
    (hq : ∀ c ∈ r.head?, q c = false) (hx : r.head? ≠ some x) : f (b ++ r) = 0 := by
  by_contra hne
  obtain ⟨c, t, heq, hc⟩ | ⟨c, t, heq, hc⟩ := hf.stop hne
  · rcases b with _ | ⟨d, b⟩
    · rw [List.nil_append] at heq
      simp [hq c (by simp [heq])] at hc
    · obtain ⟨rfl, -⟩ := List.cons.inj heq
      rw [hf.further hc] at hb
      omega
  · rcases b with _ | ⟨d, _ | ⟨e, b⟩⟩
    · rw [List.nil_append] at heq
      exact hx (by rw [heq]; rfl)
    · obtain ⟨-, hr⟩ := List.cons.inj (List.singleton_append ▸ heq)
      simp [hp c (by simp [hr])] at hc
    · rw [List.cons_append, List.cons_append] at heq
      obtain ⟨rfl, hrest⟩ := List.cons.inj heq
      obtain ⟨rfl, -⟩ := List.cons.inj hrest
      rw [hf.separator hc] at hb
      omega

end

lemma digitTail_digit {c : Char} (hc : isDigit c = true) (s : Text) :
    digitTail (c :: s) = digitTail s + 1 := by
  rw [digitTail.eq_def]
  split
  · rename_i heq
    obtain ⟨rfl, -⟩ := List.cons.inj heq
    exact absurd hc (by decide)
  · rename_i heq
    obtain ⟨rfl, rfl⟩ := List.cons.inj heq
    rw [if_pos hc]
  · rename_i heq
    exact absurd heq (by simp)

lemma tail_digits : Tail '_' isDigit isDigit digitTail := by
  refine ⟨fun hc => digitTail_digit hc, ?_, ?_⟩
  · intro c hc s
    rw [digitTail, if_pos hc]
  · intro s hs
    rw [digitTail.eq_def] at hs
    split at hs
    · rename_i d t
      split at hs
      · rename_i hd
        exact .inr ⟨d, t, rfl, hd⟩
      · exact absurd rfl hs
    · rename_i c t _
      split at hs
      · rename_i hc
        exact .inl ⟨c, t, rfl, hc⟩
      · exact absurd rfl hs
    · exact absurd rfl hs

lemma digitTail_append {b r : Text} (hb : digitTail b = 0) (hr : Separates r) :
    digitTail (b ++ r) = 0 :=
  tail_digits.append_eq_zero hb hr.not_digit hr.not_digit (hr.head_ne (by decide))

lemma numeral_of_mem {w : Text} (hw : w ∈ numerals) (s : Text) :
    numeral (w ++ s) = w.length + digitTail s := by
  obtain ⟨c, v, rfl, hc, hrest⟩ := tail_digits.append hw
  rw [List.cons_append, numeral, if_pos hc, hrest, List.length_cons]
  omega

lemma numeral_split {s : Text} (h : numeral s ≠ 0) :
    ∃ a b, s = a ++ b ∧ a ∈ numerals ∧ digitTail b = 0 := by
  rcases s with _ | ⟨c, s⟩
  · exact absurd rfl h
  · rw [numeral] at h
    split at h
    · rename_i hc
      obtain ⟨a, b, rfl, -, hmem, hb⟩ := tail_digits.split hc s
      exact ⟨c :: a, b, rfl, hmem, hb⟩
    · exact absurd rfl h

lemma numeral_append {b r : Text} (hb : numeral b = 0) (hr : Separates r) :
    numeral (b ++ r) = 0 := by
  rcases b with _ | ⟨c, b⟩
  · rcases r with _ | ⟨c, r⟩
    · rfl
    · rw [List.nil_append, numeral, if_neg]
      simp [hr.not_digit c (by simp)]
  · rw [numeral] at hb
    split at hb
    · exact absurd hb (by simp)
    · rename_i hc
      rw [List.cons_append, numeral, if_neg hc]

lemma exponent_other {e : Char} (he : ¬(e = 'e' ∨ e = 'E')) (s : Text) : exponent (e :: s) = 0 := by
  cases s with
  | nil => rw [exponent, if_neg he]
  | cons c s => rw [exponent, if_neg he]

lemma exponent_signed {e sign : Char} (he : e = 'e' ∨ e = 'E') (hsign : sign = '+' ∨ sign = '-')
    {ds t : Text} (hds : ∀ c ∈ ds, isDigit c = true) (ht : ∀ c ∈ t.head?, isDigit c = false) :
    exponent (e :: sign :: (ds ++ t)) = if ds.length = 0 then 0 else ds.length + 2 := by
  rw [exponent, if_pos he]
  simp only [if_pos hsign]
  rw [takeWhile_run hds ht]

lemma exponent_unsigned {e sign : Char} (he : e = 'e' ∨ e = 'E')
    (hsign : ¬(sign = '+' ∨ sign = '-')) (s : Text) :
    exponent (e :: sign :: s) =
      if ((sign :: s).takeWhile isDigit).length = 0 then 0
      else ((sign :: s).takeWhile isDigit).length + 1 := by
  rw [exponent, if_pos he]
  simp only [if_neg hsign]

lemma exponent_of_mem {w t : Text} (hw : w ∈ exponents) (ht : ∀ c ∈ t.head?, isDigit c = false) :
    exponent (w ++ t) = w.length := by
  obtain ⟨e, sign, ds, rfl, he, hsign, hne, hds⟩ := mem_exponents.mp hw
  have hpos := List.length_pos_iff.mpr hne
  have hsigned : ∀ {c}, c = '+' ∨ c = '-' →
      exponent (e :: ([c] ++ ds) ++ t) = (e :: ([c] ++ ds)).length := by
    intro c hc
    exact (exponent_signed he hc hds ht).trans (if_neg (by omega))
  rcases hsign with rfl | rfl | rfl
  · obtain ⟨d, ds, rfl⟩ := List.exists_cons_of_ne_nil hne
    have hd : ¬(d = '+' ∨ d = '-') := by
      rintro (rfl | rfl) <;> exact absurd (hds _ List.mem_cons_self) (by decide)
    have heq := exponent_unsigned he hd (ds ++ t)
    rw [← List.cons_append, takeWhile_run hds ht, if_neg (by omega)] at heq
    exact heq
  · exact hsigned (.inl rfl)
  · exact hsigned (.inr rfl)

lemma exponent_split {s : Text} (h : exponent s ≠ 0) :
    ∃ a b, s = a ++ b ∧ a ∈ exponents ∧ ∀ c ∈ b.head?, isDigit c = false := by
  rcases s with _ | ⟨e, _ | ⟨sign, s⟩⟩
  · exact absurd rfl h
  · exact absurd (by rw [exponent]; simp) h
  · by_cases he : e = 'e' ∨ e = 'E'
    · by_cases hsign : sign = '+' ∨ sign = '-'
      · obtain ⟨ds, b, rfl, -, hds, hb⟩ := exists_run isDigit s
        have hne : ds ≠ [] := by
          rintro rfl
          exact h (exponent_signed he hsign hds hb)
        have hmem : e :: ([sign] ++ ds) ∈ exponents :=
          mem_exponents.mpr ⟨e, [sign], ds, rfl, he, .inr (by simpa using hsign), hne, hds⟩
        exact ⟨e :: ([sign] ++ ds), b, rfl, hmem, hb⟩
      · obtain ⟨ds, b, hs, htake, hds, hb⟩ := exists_run isDigit (sign :: s)
        have hne : ds ≠ [] := by
          rintro rfl
          rw [exponent_unsigned he hsign, htake] at h
          exact h rfl
        have hmem : e :: ([] ++ ds) ∈ exponents :=
          mem_exponents.mpr ⟨e, [], ds, rfl, he, .inl rfl, hne, hds⟩
        exact ⟨e :: ds, b, by rw [hs]; rfl, hmem, hb⟩
    · rw [exponent_other he] at h
      exact absurd rfl h

/-- An exponent goes on with the digits behind it. -/
lemma le_exponent {w : Text} (hw : w ∈ exponents) (s : Text) : w.length ≤ exponent (w ++ s) := by
  obtain ⟨e, sign, ds, rfl, he, hsign, hne, hds⟩ := mem_exponents.mp hw
  obtain ⟨more, t, rfl, -, hmore, ht⟩ := exists_run isDigit s
  have hmem : e :: (sign ++ (ds ++ more)) ∈ exponents :=
    mem_exponents.mpr ⟨e, sign, ds ++ more, rfl, he, hsign, by simp [hne],
      List.forall_mem_append.mpr ⟨hds, hmore⟩⟩
  have hlen := exponent_of_mem hmem ht
  simp only [List.cons_append, List.append_assoc, List.length_cons, List.length_append] at hlen ⊢
  omega

lemma exponent_append {b r : Text} (hb : exponent b = 0) (hr : Separates r) :
    exponent (b ++ r) = 0 := by
  rcases b with _ | ⟨e, b⟩
  · rcases r with _ | ⟨e, r⟩
    · rfl
    · refine exponent_other ?_ r
      rintro (rfl | rfl)
      · exact hr.head_ne (c := 'e') (by decide) rfl
      · exact hr.head_ne (c := 'E') (by decide) rfl
  · by_cases he : e = 'e' ∨ e = 'E'
    · rcases b with _ | ⟨sign, b⟩
      · -- an arrow behind the letter is no sign of an exponent
        rcases r with _ | ⟨c, r⟩
        · exact hb
        · by_cases hsign : c = '+' ∨ c = '-'
          · have hds : ∀ d ∈ r.head?, isDigit d = false := by
              rcases hr with hc | rfl | ⟨-, hc⟩
              · rcases hsign with rfl | rfl <;> exact absurd hc (by decide)
              · exact absurd hsign (by decide)
              · rw [hc]
                intro d hd
                obtain rfl := Option.some.inj hd
                decide
            have h := @exponent_signed _ _ he hsign [] _ (by simp) hds
            exact h
          · rw [List.singleton_append, exponent_unsigned he hsign, if_pos]
            rw [List.takeWhile_cons_of_neg (by simp [hr.not_digit c (by simp)])]
            rfl
      · by_cases hsign : sign = '+' ∨ sign = '-'
        · obtain ⟨ds, t, rfl, -, hds, ht⟩ := exists_run isDigit b
          rw [exponent_signed he hsign hds ht] at hb
          have hnil : ds = [] := by
            by_contra hne
            rw [if_neg (by simpa using hne)] at hb
            exact absurd hb (by simp)
          subst hnil
          have htr : ∀ c ∈ (t ++ r).head?, isDigit c = false := by
            cases t with
            | nil => exact hr.not_digit
            | cons c t => exact ht
          have h := @exponent_signed _ _ he hsign [] _ (by simp) htr
          rw [List.cons_append, List.cons_append, List.nil_append]
          exact h
        · rw [exponent_unsigned he hsign] at hb
          rw [List.cons_append, List.cons_append, exponent_unsigned he hsign]
          by_cases hd : isDigit sign = true
          · rw [List.takeWhile_cons_of_pos hd] at hb
            exact absurd hb (by simp)
          · rw [List.takeWhile_cons_of_neg hd]
            rfl
    · exact exponent_other he _

/-- An exponent is none of the digits in front of it. -/
lemma digitTail_exponent {e : Text} (he : e ∈ exponents) (s : Text) : digitTail (e ++ s) = 0 := by
  obtain ⟨c, sign, ds, rfl, rfl | rfl, -⟩ := mem_exponents.mp he <;> rfl

lemma number_integer {a t : Text} (ha : a ∈ numerals) (htail : digitTail t = 0)
    (ht : ∀ u, t = '.' :: u → numeral u = 0) : number (a ++ t) = (.integer, a.length) := by
  have hwhole : numeral (a ++ t) = a.length := by rw [numeral_of_mem ha, htail, Nat.add_zero]
  unfold number
  simp only [hwhole, List.drop_left]
  rcases t with _ | ⟨c, t⟩
  · rfl
  · by_cases hc : c = '.'
    · subst hc
      simp only [ht t rfl, if_true]
    · split
      · rename_i heq
        obtain ⟨rfl, -⟩ := List.cons.inj heq
        exact absurd rfl hc
      · rfl

/-- With a point and digits behind its first digits a number is real. -/
lemma number_point {a : Text} (ha : a ∈ numerals) {s : Text} (hs : numeral s ≠ 0) :
    number (a ++ '.' :: s) =
      (.real, a.length + 1 + numeral s + exponent (s.drop (numeral s))) := by
  have hwhole : numeral (a ++ '.' :: s) = a.length := numeral_of_mem ha ('.' :: s)
  unfold number
  simp only [hwhole, List.drop_left, if_neg hs]

lemma number_real {a b t : Text} (ha : a ∈ numerals) (hb : b ∈ numerals) (ht : digitTail t = 0) :
    number (a ++ '.' :: (b ++ t)) = (.real, (a ++ '.' :: b).length + exponent t) := by
  have hfraction : numeral (b ++ t) = b.length := by rw [numeral_of_mem hb, ht, Nat.add_zero]
  have hne : b.length ≠ 0 := by
    obtain ⟨c, v, rfl, -⟩ := tail_digits.append hb
    simp
  rw [number_point ha (by omega), hfraction, List.drop_left, List.length_append, List.length_cons]
  simp only [Prod.mk.injEq, true_and]
  omega

/-- What a text in front of others is read as, if nothing follows it or a separator comes up. -/
structure Front (f : Text → TokenKind × Nat) (k : TokenKind) (a b : Text) : Prop where
  alone : f a = (k, a.length)
  append : ∀ r, Separates r → f (a ++ (b ++ r)) = (k, a.length)

lemma Front.eq {f : Text → TokenKind × Nat} {k : TokenKind} {a b : Text} (h : Front f k a b) :
    f (a ++ b) = (k, a.length) := by
  have hnil := h.append [] trivial
  rwa [List.append_nil] at hnil

/-- It is enough that a text is read alike in front of all texts of a kind to which the text behind
it belongs, also with a separator. -/
lemma Front.of_forall {f : Text → TokenKind × Nat} {k : TokenKind} {a b : Text}
    (good : Text → Prop) (h : ∀ t, good t → f (a ++ t) = (k, a.length)) (hnil : good [])
    (happend : ∀ r, Separates r → good (b ++ r)) : Front f k a b := by
  refine ⟨?_, fun r hr => h _ (happend r hr)⟩
  have heq := h [] hnil
  rwa [List.append_nil] at heq

lemma number_split {s : Text} (h : numeral s ≠ 0) :
    ∃ k a b, s = a ++ b ∧ ((k = .integer ∧ a ∈ numerals) ∨ (k = .real ∧ a ∈ reals)) ∧
      Front number k a b := by
  obtain ⟨a, b, rfl, ha, hb⟩ := numeral_split h
  by_cases hpoint : ∃ u, b = '.' :: u ∧ numeral u ≠ 0
  · obtain ⟨u, rfl, hu⟩ := hpoint
    obtain ⟨f, v, rfl, hf, hv⟩ := numeral_split hu
    by_cases hexp : exponent v = 0
    · have hreal := mem_reals.mpr ⟨a, ha, f, hf, [], .inl rfl, rfl⟩
      rw [List.append_nil] at hreal
      refine ⟨.real, a ++ '.' :: f, v, by simp, .inr ⟨rfl, hreal⟩, ?_⟩
      refine .of_forall (fun t => digitTail t = 0 ∧ exponent t = 0) ?_ ⟨rfl, rfl⟩
        fun r hr => ⟨digitTail_append hv hr, exponent_append hexp hr⟩
      rintro t ⟨htail, hzero⟩
      rw [List.append_assoc, List.cons_append, number_real ha hf htail, hzero, Nat.add_zero]
    · obtain ⟨e, w, rfl, he, hw⟩ := exponent_split hexp
      have hreal := mem_reals.mpr ⟨a, ha, f, hf, e, .inr he, rfl⟩
      refine ⟨.real, a ++ '.' :: (f ++ e), w, by simp, .inr ⟨rfl, hreal⟩, ?_⟩
      refine .of_forall (fun t => ∀ c ∈ t.head?, isDigit c = false) ?_ (by simp) ?_
      · intro t ht
        rw [List.append_assoc, List.cons_append, List.append_assoc,
          number_real ha hf (digitTail_exponent he t), exponent_of_mem he ht]
        simp only [List.length_append, List.length_cons, Prod.mk.injEq, true_and]
        omega
      · intro r hr
        cases w with
        | nil => exact hr.not_digit
        | cons c w => exact hw
  · have hstop : ∀ u, b = '.' :: u → numeral u = 0 := by
      intro u hu
      by_contra hne
      exact hpoint ⟨u, hu, hne⟩
    refine ⟨.integer, a, b, rfl, .inl ⟨rfl, ha⟩, ?_⟩
    refine .of_forall (fun t => digitTail t = 0 ∧ ∀ u, t = '.' :: u → numeral u = 0)
      (fun t ht => number_integer ha ht.1 ht.2) ⟨rfl, by simp⟩ ?_
    intro r hr
    refine ⟨digitTail_append hb hr, ?_⟩
    intro u hu
    rcases b with _ | ⟨c, b⟩
    · rw [List.nil_append] at hu
      subst hu
      exact absurd rfl (hr.head_ne (c := '.') (by decide))
    · obtain ⟨rfl, rfl⟩ := List.cons.inj hu
      exact numeral_append (hstop b rfl) hr

lemma exponent_spec {w : Text} (h : w ∈ exponents) :
    w ≠ [] ∧ (∀ c ∈ w, isNumberChar c = true) ∧ w.getLast? ≠ some '-' := by
  obtain ⟨e, sign, ds, rfl, he, hsign, hne, hds⟩ := mem_exponents.mp h
  refine ⟨by simp, ?_, ?_⟩
  · intro c hc
    simp only [List.mem_cons, List.mem_append] at hc
    rcases hc with rfl | hc | hc
    · rcases he with rfl | rfl <;> rfl
    · rcases hsign with rfl | rfl | rfl
      · simp at hc
      · obtain rfl := List.mem_singleton.mp hc
        rfl
      · obtain rfl := List.mem_singleton.mp hc
        rfl
    · exact isNumberChar_of_isDigit (hds c hc)
  · refine getLast?_append_ne (v := e :: sign) hne (getLast?_ne_of_mem fun hmem => ?_)
    exact absurd (hds _ hmem) (by decide)

/-- A number begins with a digit and has no sign at its end. -/
lemma number_spec {w : Text} (h : w ∈ numerals ∨ w ∈ reals) :
    (∃ c v, w = c :: v ∧ isDigit c = true) ∧ (∀ c ∈ w, isNumberChar c = true) ∧
      w.getLast? ≠ some '-' := by
  have hchars : ∀ {v}, v ∈ numerals → ∀ c ∈ v, isNumeralChar c = true := fun hv =>
    forall_of_mem_separated rfl (fun _ => isNumeralChar_of_isDigit)
      (fun _ => isNumeralChar_of_isDigit) hv
  have hlast : ∀ {v}, v ∈ numerals → v.getLast? ≠ some '-' := fun hv =>
    getLast?_ne_of_mem fun hmem => absurd (hchars hv _ hmem) (by decide)
  have hhead : ∀ {v}, v ∈ numerals → ∃ c u, v = c :: u ∧ isDigit c = true := by
    intro v hv
    obtain ⟨c, u, rfl, hc, -⟩ := tail_digits.append hv
    exact ⟨c, u, rfl, hc⟩
  obtain h | h := h
  · exact ⟨hhead h, fun c hc => isNumberChar_of_isNumeralChar (hchars h c hc), hlast h⟩
  · obtain ⟨a, ha, b, hb, e, he, rfl⟩ := mem_reals.mp h
    obtain ⟨c, u, hcu, hc⟩ := hhead ha
    have hbne : b ≠ [] := by
      obtain ⟨d, v, rfl, -⟩ := hhead hb
      simp
    have hexp : (∀ c ∈ e, isNumberChar c = true) ∧ (b ++ e).getLast? ≠ some '-' := by
      obtain rfl | he := he
      · rw [List.append_nil]
        exact ⟨by simp, hlast hb⟩
      · obtain ⟨hne, hall, hend⟩ := exponent_spec he
        exact ⟨hall, getLast?_append_ne hne hend⟩
    refine ⟨⟨c, u ++ '.' :: (b ++ e), by rw [hcu]; rfl, hc⟩, ?_, ?_⟩
    · refine List.forall_mem_append.mpr ⟨?_, List.forall_mem_cons.mpr ⟨rfl, ?_⟩⟩
      · exact fun d hd => isNumberChar_of_isNumeralChar (hchars ha d hd)
      · exact List.forall_mem_append.mpr
          ⟨fun d hd => isNumberChar_of_isNumeralChar (hchars hb d hd), hexp.1⟩
    · refine getLast?_append_ne (by simp) (getLast?_append_ne (v := ['.']) ?_ hexp.2)
      simp [hbne]

end TimedReq.Vhdl.Lexeme
