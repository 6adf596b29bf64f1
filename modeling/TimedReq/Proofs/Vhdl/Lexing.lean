import TimedReq.Proofs.Vhdl.Number

/-!
# Tokens in front of texts

A token read in front of a text is also read if it stands alone, and if the text behind it goes on
with a blank, a closing bracket or an arrow. Its characters are quoted, or brackets, or such as
operators of expressions are not made of.
-/

namespace TimedReq.Vhdl.Lexeme

open Text Pattern

/-- The characters of tokens that are neither quoted nor brackets. -/
def isTokenChar (c : Char) : Bool :=
  isDigit c || isWordChar c || c ∈ ['.', '+', '-', '=', '/', '<', '>', '*', '&']

lemma isTokenChar_of_isNumberChar {c : Char} (h : isNumberChar c = true) :
    isTokenChar c = true := by
  unfold isNumberChar at h
  simp only [Bool.or_eq_true, beq_iff_eq] at h
  rcases h with (((((h | rfl) | rfl) | rfl) | rfl) | rfl) | rfl
  · rw [isTokenChar, h, Bool.true_or, Bool.true_or]
  all_goals decide

lemma isTokenChar_of_isWordChar {c : Char} (h : isWordChar c = true) : isTokenChar c = true := by
  rw [isTokenChar, h, Bool.or_true, Bool.true_or]

lemma isWordChar_of_isAsciiLetter {c : Char} (h : isAsciiLetter c = true) :
    isWordChar c = true := by
  rw [isWordChar, h, Bool.true_or, Bool.true_or]

/-- The texts of tokens of a kind. Only the sign ends with a minus, and no arrow is in a token. -/
inductive Shape : TokenKind → Text → Prop
  | plain {k : TokenKind} {w : Text} (hl : k ≠ .leftParen) (hr : k ≠ .rightParen)
      (hw : ∀ c ∈ w, isTokenChar c = true) (hlast : w.getLast? = some '-' → w = ['-'])
      (harrow : '-' ∈ w → '>' ∉ w) : Shape k w
  | leftParen : Shape .leftParen ['(']
  | rightParen : Shape .rightParen [')']
  | character (c : Char) : Shape .character ['\'', c, '\'']
  | string {w : Text} (hw : ∀ c ∈ w, c ≠ '"') : Shape .string ('"' :: (w ++ ['"']))
  | bitString {base : Char} {w : Text} (hbase : isAsciiLetter base = true)
      (hw : ∀ c ∈ w, c ≠ '"') : Shape .bitString (base :: '"' :: (w ++ ['"']))

lemma Shape.eq_leftParen {w : Text} (h : Shape .leftParen w) : w = ['('] := by
  cases h with
  | plain hl => exact absurd rfl hl
  | leftParen => rfl

lemma Shape.eq_rightParen {w : Text} (h : Shape .rightParen w) : w = [')'] := by
  cases h with
  | plain _ hr => exact absurd rfl hr
  | rightParen => rfl

/-- The word, in lower case, that all tokens of a kind are. -/
def word? : TokenKind → Option Text
  | .boolean true => some ['t', 'r', 'u', 'e']
  | .boolean false => some ['f', 'a', 'l', 's', 'e']
  | .binary o => some o.word
  | .abs => some UnaryOperator.abs.word
  | .not => some UnaryOperator.not.word
  | _ => none

/-- The token `a` of a kind in front of a text, which goes on with `b`. -/
structure Leads (k : TokenKind) (a b : Text) : Prop where
  alone : next? a = some (k, a.length)
  append : ∀ r, Separates r → next? (a ++ (b ++ r)) = some (k, a.length)
  shape : Shape k a
  word : ∀ v, word? k = some v → a.map Char.toLower = v

/-- It is enough that a token is read before all texts that do not begin with some character. -/
lemma Leads.of_head {k : TokenKind} {a b : Text} {c : Char}
    (h : ∀ t : Text, t.head? ≠ some c → next? (a ++ t) = some (k, a.length))
    (hc : c.toNat ∉ 41 :: 45 :: blankPoints) (hb : b.head? ≠ some c) (hshape : Shape k a)
    (hword : ∀ v, word? k = some v → a.map Char.toLower = v) : Leads k a b := by
  refine ⟨?_, ?_, hshape, hword⟩
  · have hnil := h [] (by simp)
    rwa [List.append_nil] at hnil
  · intro r hr
    exact h _ (hr.head_append_ne hc hb)

lemma Leads.of_forall {k : TokenKind} {a : Text} (b : Text)
    (h : ∀ t : Text, next? (a ++ t) = some (k, a.length)) (hshape : Shape k a)
    (hword : ∀ v, word? k = some v → a.map Char.toLower = v) : Leads k a b := by
  refine ⟨?_, fun r _ => h _, hshape, hword⟩
  have hnil := h []
  rwa [List.append_nil] at hnil

/-- The symbols that are tokens whatever follows them. -/
lemma Leads.symbol {o : BinaryOperator} {a : Text} (b : Text)
    (h : ∀ t : Text, next? (a ++ t) = some (.binary o, a.length)) (ha : a = o.word)
    (hchars : ∀ c ∈ a, isTokenChar c = true := by decide)
    (hlast : a.getLast? = some '-' → a = ['-'] := by decide)
    (harrow : '-' ∈ a → '>' ∉ a := by decide)
    (hlower : a.map Char.toLower = a := by decide) : Leads (.binary o) a b := by
  refine Leads.of_forall b h (.plain (by simp) (by simp) hchars hlast harrow) ?_
  intro v hv
  obtain rfl := Option.some.inj hv
  rw [hlower, ha]

/-- The symbols that are tokens unless another character, which is given with them, makes them
longer. -/
def shortSymbols : List (Char × Char × BinaryOperator) :=
  [('/', '=', .divide), ('<', '=', .lt), ('>', '=', .gt), ('*', '*', .times)]

lemma next?_shortSymbol {a c : Char} {o : BinaryOperator} (h : (a, c, o) ∈ shortSymbols) {t : Text}
    (ht : t.head? ≠ some c) : next? (a :: t) = some (.binary o, 1) := by
  simp only [shortSymbols, List.mem_cons, Prod.mk.injEq, List.not_mem_nil, or_false] at h
  obtain ⟨rfl, rfl, rfl⟩ | ⟨rfl, rfl, rfl⟩ | ⟨rfl, rfl, rfl⟩ | ⟨rfl, rfl, rfl⟩ := h <;>
  · rw [next?]
    rintro u rfl
    exact ht rfl

lemma Leads.shortSymbol {a c : Char} {b : Text} {o : BinaryOperator} (h : (a, c, o) ∈ shortSymbols)
    (hb : ∀ u, b = c :: u → False) : Leads (.binary o) [a] b := by
  have hshort : ∀ x ∈ shortSymbols, x.2.1.toNat ∉ 41 :: 45 :: blankPoints ∧
      isTokenChar x.1 = true ∧ x.1 ≠ '-' ∧ [x.1.toLower] = x.2.2.word := by
    decide
  obtain ⟨hc, hchar, hminus, hword⟩ := hshort _ h
  refine Leads.of_head (fun t => next?_shortSymbol h) hc ?_ (.plain (by simp) (by simp) ?_ ?_ ?_) ?_
  · intro hhead
    obtain ⟨u, rfl⟩ := List.head?_eq_some_iff.mp hhead
    exact hb u rfl
  · simpa using hchar
  · intro hlast
    exact absurd (Option.some.inj hlast) hminus
  · intro hmem
    exact absurd (List.mem_singleton.mp hmem).symm hminus
  · intro v hv
    exact hword.trans (Option.some.inj hv)

/-- The characters of names. -/
def isNameChar (c : Char) : Bool := isWordChar c || c == '.'

lemma isTokenChar_of_isNameChar {c : Char} (h : isNameChar c = true) : isTokenChar c = true := by
  unfold isNameChar at h
  simp only [Bool.or_eq_true, beq_iff_eq] at h
  rcases h with h | rfl
  · exact isTokenChar_of_isWordChar h
  · decide

lemma nameTail_word {c : Char} (hc : isWordChar c = true) (s : Text) :
    nameTail (c :: s) = nameTail s + 1 := by
  rw [nameTail.eq_def]
  split
  · rename_i heq
    obtain ⟨rfl, -⟩ := List.cons.inj heq
    exact absurd hc (by decide)
  · rename_i heq
    obtain ⟨rfl, rfl⟩ := List.cons.inj heq
    rw [if_pos hc]
  · rename_i heq
    exact absurd heq (by simp)

lemma tail_names : Tail '.' isAsciiLetter isWordChar nameTail := by
  refine ⟨fun hc => nameTail_word hc, ?_, ?_⟩
  · intro c hc s
    rw [nameTail, if_pos hc]
  · intro s hs
    rw [nameTail.eq_def] at hs
    split at hs
    · rename_i d t
      split at hs
      · rename_i hd
        exact .inr ⟨d, t, rfl, hd⟩
      · exact absurd rfl hs
    · rename_i c t _
      split at hs
      · rename_i hc
        exact .inl ⟨c, t, rfl, hc⟩
      · exact absurd rfl hs
    · exact absurd rfl hs

lemma Separates.not_word {r : Text} (h : Separates r) : ∀ c ∈ r.head?, isWordChar c = false := by
  intro c hc
  have hletter := h.not_letter c hc
  have hdigit := h.not_digit c hc
  have hascii : isAsciiDigit c = false := by
    by_contra hd
    rw [isDigit_of_isAsciiDigit (by simpa using hd)] at hdigit
    exact absurd hdigit (by simp)
  have hu : c ≠ '_' := by
    rintro rfl
    exact h.head_ne (c := '_') (by decide) hc
  unfold isWordChar
  rw [hletter, hascii]
  simpa using hu

lemma nameTail_append {b r : Text} (hb : nameTail b = 0) (hr : Separates r) :
    nameTail (b ++ r) = 0 :=
  tail_names.append_eq_zero hb hr.not_letter hr.not_word (hr.head_ne (by decide))

lemma isNameChar_of_mem {w : Text} (hw : w ∈ names) : ∀ c ∈ w, isNameChar c = true := by
  refine forall_of_mem_separated rfl ?_ ?_ hw
  · intro c hc
    rw [isNameChar, isWordChar_of_isAsciiLetter hc, Bool.true_or]
  · intro c hc
    rw [isNameChar, hc, Bool.true_or]

lemma not_quote_of_isBitDigit {c : Char} (h : isBitDigit c = true) : c ≠ '"' := by
  rintro rfl
  exact absurd h (by decide)

lemma isWordChar_of_isBitDigit {c : Char} (h : isBitDigit c = true) : isWordChar c = true := by
  unfold isBitDigit at h
  simp only [Bool.or_eq_true, Bool.and_eq_true, decide_eq_true_eq, Char.le_def,
    UInt32.le_iff_toNat_le] at h
  unfold isWordChar isAsciiLetter
  simp only [Bool.or_eq_true, Bool.and_eq_true, decide_eq_true_eq]
  have ha : ('a' : Char).val.toNat = 0x61 := rfl
  have hf : ('f' : Char).val.toNat = 0x66 := rfl
  have hA : ('A' : Char).val.toNat = 0x41 := rfl
  have hF : ('F' : Char).val.toNat = 0x46 := rfl
  have hn : c.toNat = c.val.toNat := rfl
  rw [ha, hf, hA, hF] at h
  rw [hn]
  rcases h with ((h | h) | h) | h
  · exact .inl (.inr h)
  · exact .inr h
  · exact .inl (.inl (.inr ⟨h.1, by omega⟩))
  · exact .inl (.inl (.inl ⟨h.1, by omega⟩))

lemma bitString?_eq {base : Char} {ds t : Text} (hds : ∀ c ∈ ds, isBitDigit c = true)
    (ht : ∀ c ∈ t.head?, isBitDigit c = false) :
    bitString? (base :: '"' :: (ds ++ t)) =
      if base ∈ ['b', 'B', 'o', 'O', 'x', 'X'] ∧ 0 < ds.length ∧ t.head? = some '"' then
        some (ds.length + 3)
      else none := by
  unfold bitString?
  simp only [takeWhile_run hds ht, List.drop_left]

lemma bitString?_split {s : Text} {n : Nat} (h : bitString? s = some n) :
    ∃ base ds b, s = base :: '"' :: (ds ++ '"' :: b) ∧ n = ds.length + 3 ∧
      base ∈ ['b', 'B', 'o', 'O', 'x', 'X'] ∧ 0 < ds.length ∧ (∀ c ∈ ds, isBitDigit c = true) ∧
      ∀ t, bitString? (base :: '"' :: (ds ++ '"' :: t)) = some n := by
  unfold bitString? at h
  split at h
  · rename_i base s
    obtain ⟨ds, b, rfl, -, hds, hb⟩ := exists_run isBitDigit s
    have heq := @bitString?_eq base _ _ hds hb
    unfold bitString? at heq
    simp only at heq h
    rw [heq] at h
    split at h
    · rename_i hcond
      obtain ⟨hbase, hpos, hquote⟩ := hcond
      obtain rfl := Option.some.inj h
      rcases b with _ | ⟨q, b⟩
      · simp at hquote
      · obtain rfl := Option.some.inj hquote
        refine ⟨base, ds, b, rfl, rfl, hbase, hpos, hds, ?_⟩
        intro t
        rw [bitString?_eq hds, if_pos ⟨hbase, hpos, rfl⟩]
        intro c hc
        obtain rfl := Option.some.inj hc
        decide
    · simp at h
  · simp at h

lemma bitString?_append {c : Char} {b r : Text} (h : bitString? (c :: b) = none)
    (hr : Separates r) : bitString? (c :: (b ++ r)) = none := by
  rcases b with _ | ⟨q, b⟩
  · rcases r with _ | ⟨d, r⟩
    · rfl
    · unfold bitString?
      split
      · rename_i heq
        obtain ⟨-, hrest⟩ := List.cons.inj heq
        obtain ⟨rfl, -⟩ := List.cons.inj hrest
        exact absurd rfl (hr.head_ne (c := '"') (by decide))
      · rfl
  · by_cases hq : q = '"'
    · subst hq
      obtain ⟨ds, t, rfl, -, hds, ht⟩ := exists_run isBitDigit b
      rw [bitString?_eq hds ht] at h
      rw [List.cons_append, List.append_assoc, bitString?_eq hds, if_neg]
      · rintro ⟨hbase, hpos, hquote⟩
        rcases t with _ | ⟨d, t⟩
        · exact hr.head_ne (c := '"') (by decide) hquote
        · rw [if_pos ⟨hbase, hpos, hquote⟩] at h
          exact absurd h (by simp)
      · rcases t with _ | ⟨d, t⟩
        · intro d hd
          by_contra hbit
          have hword := isWordChar_of_isBitDigit (by simpa using hbit)
          rw [hr.not_word d hd] at hword
          exact absurd hword (by simp)
        · exact ht
    · unfold bitString?
      split
      · rename_i heq
        obtain ⟨-, hrest⟩ := List.cons.inj heq
        obtain ⟨rfl, -⟩ := List.cons.inj hrest
        exact absurd rfl hq
      · rfl

lemma stringTail?_eq {w t : Text} (hw : ∀ c ∈ w, (c != '"' && c != '\n') = true)
    (ht : ∀ c ∈ t.head?, (c != '"' && c != '\n') = false) :
    stringTail? (w ++ t) = if t.head? = some '"' then some (w.length + 2) else none := by
  unfold stringTail?
  simp only [takeWhile_run hw ht, List.drop_left]

lemma stringTail?_split {s : Text} {n : Nat} (h : stringTail? s = some n) :
    ∃ w b, s = w ++ '"' :: b ∧ n = w.length + 2 ∧ (∀ c ∈ w, (c != '"' && c != '\n') = true) ∧
      ∀ t, stringTail? (w ++ '"' :: t) = some n := by
  obtain ⟨w, t, rfl, -, hw, ht⟩ := exists_run (fun c => c != '"' && c != '\n') s
  rw [stringTail?_eq hw ht] at h
  split at h
  · rename_i hquote
    obtain rfl := Option.some.inj h
    rcases t with _ | ⟨q, t⟩
    · simp at hquote
    · obtain rfl := Option.some.inj hquote
      refine ⟨w, t, rfl, rfl, hw, ?_⟩
      intro u
      rw [stringTail?_eq hw (by simp)]
      exact if_pos rfl
  · simp at h

lemma next?_plain {c : Char} (hc : (isDigit c || isAsciiLetter c) = true) (s : Text) :
    next? (c :: s) =
      if isDigit c then some (number (c :: s))
      else match bitString? (c :: s) with
        | some n => some (.bitString, n)
        | none => some (wordKind (c :: s.take (nameTail s)), nameTail s + 1) := by
  rw [next?]
  · split
    · rfl
    · rename_i hd
      rw [Bool.or_eq_true, or_iff_right hd] at hc
      rw [if_pos hc]
      rfl
  all_goals intros; subst_vars; exact absurd hc (by decide)

lemma next?_digit {c : Char} (hc : isDigit c = true) (s : Text) :
    next? (c :: s) = some (number (c :: s)) := by
  rw [next?_plain (by rw [hc, Bool.true_or]), if_pos hc]

lemma not_digit_of_isAsciiLetter {c : Char} (hc : isAsciiLetter c = true) : isDigit c = false := by
  by_contra hd
  have hdigit := toNat_of_isDigit (by simpa using hd : isDigit c = true)
  simp only [isAsciiLetter, Bool.or_eq_true, Bool.and_eq_true, decide_eq_true_eq] at hc
  omega

lemma next?_letter {c : Char} (hc : isAsciiLetter c = true) (s : Text) :
    next? (c :: s) =
      match bitString? (c :: s) with
      | some n => some (.bitString, n)
      | none => some (wordKind (c :: s.take (nameTail s)), nameTail s + 1) := by
  rw [next?_plain (by rw [hc, Bool.or_true]), if_neg (by simp [not_digit_of_isAsciiLetter hc])]

/-- Negations, bounded expressions and conjunction begin with characters that no token begins
with. -/
lemma next?_eq_none {c : Char} (hc : c ∈ ['!', '{', '^']) (s : Text) : next? (c :: s) = none := by
  simp only [List.mem_cons, List.not_mem_nil, or_false] at hc
  rcases hc with rfl | rfl | rfl <;> rfl

lemma word?_wordKind {w v : Text} (h : word? (wordKind w) = some v) : w.map Char.toLower = v := by
  unfold wordKind at h
  simp only at h
  split at h
  · rename_i htrue
    exact htrue.trans (Option.some.inj h)
  split at h
  · rename_i hfalse
    exact hfalse.trans (Option.some.inj h)
  split at h
  · rename_i habs
    exact habs.trans (Option.some.inj h)
  split at h
  · rename_i hnot
    exact hnot.trans (Option.some.inj h)
  split at h
  · rename_i p hp
    obtain rfl := Option.some.inj h
    exact (by simpa using List.find?_some hp : p.word = w.map Char.toLower).symm
  · simp [word?] at h

lemma wordKind_ne_paren (w : Text) : wordKind w ≠ .leftParen ∧ wordKind w ≠ .rightParen := by
  unfold wordKind
  simp only
  constructor <;> (repeat' split) <;> simp

lemma Leads.number {c : Char} (hc : isDigit c = true) {s : Text} {k : TokenKind} {n : Nat}
    (h : number (c :: s) = (k, n)) :
    ∃ a b, c :: s = a ++ b ∧ a.length = n ∧ Leads k a b := by
  have hne : numeral (c :: s) ≠ 0 := by
    rw [numeral, if_pos hc]
    simp
  obtain ⟨k', a, b, hs, hkind, hfront⟩ := number_split hne
  obtain ⟨⟨d, v, rfl, hd⟩, hchars, hlast⟩ := number_spec (hkind.imp And.right And.right)
  obtain ⟨rfl, -⟩ := List.cons.inj hs
  rw [hs, hfront.eq] at h
  obtain ⟨rfl, rfl⟩ := Prod.mk.inj h
  refine ⟨c :: v, b, hs, rfl, ?_, ?_, .plain ?_ ?_ ?_ ?_ ?_, ?_⟩
  · rw [next?_digit hc, hfront.alone]
  · intro r hr
    rw [List.cons_append, next?_digit hc, ← List.cons_append, hfront.append r hr]
  · rcases hkind with ⟨rfl, -⟩ | ⟨rfl, -⟩ <;> simp
  · rcases hkind with ⟨rfl, -⟩ | ⟨rfl, -⟩ <;> simp
  · intro d hd
    exact isTokenChar_of_isNumberChar (hchars d hd)
  · intro h
    exact absurd h hlast
  · intro _ hmem
    exact absurd (hchars _ hmem) (by decide)
  · rcases hkind with ⟨rfl, -⟩ | ⟨rfl, -⟩ <;> simp [word?]

lemma Leads.word_or_bitString {c : Char} (hc : isAsciiLetter c = true) {s : Text} {k : TokenKind}
    {n : Nat} (h : next? (c :: s) = some (k, n)) :
    ∃ a b, c :: s = a ++ b ∧ a.length = n ∧ Leads k a b := by
  rw [next?_letter hc] at h
  cases hbits : bitString? (c :: s) with
  | some m =>
    rw [hbits] at h
    obtain ⟨rfl, rfl⟩ := Prod.mk.inj (Option.some.inj h)
    obtain ⟨base, ds, b, hs, rfl, -, -, hds, ht⟩ := bitString?_split hbits
    obtain ⟨rfl, rfl⟩ := List.cons.inj hs
    refine ⟨c :: '"' :: (ds ++ ['"']), b, by simp, by simp, ?_⟩
    refine Leads.of_forall b ?_ (.bitString hc fun d hd => not_quote_of_isBitDigit (hds d hd))
      (by simp [word?])
    intro t
    have heq : c :: '"' :: (ds ++ ['"']) ++ t = c :: '"' :: (ds ++ '"' :: t) := by simp
    rw [heq, next?_letter hc, ht t]
    simp
  | none =>
    rw [hbits] at h
    obtain ⟨hk, hn⟩ := Prod.mk.inj (Option.some.inj h)
    obtain ⟨a, b, rfl, hlen, hmem, hb⟩ := tail_names.split hc s
    obtain ⟨_, _, heq, -, ha⟩ := tail_names.append hmem
    obtain ⟨-, rfl⟩ := List.cons.inj heq
    rw [← hlen, List.take_left] at hk
    have hname := isNameChar_of_mem hmem
    have hword : ∀ t, nameTail t = 0 → bitString? (c :: (a ++ t)) = none →
        next? (c :: a ++ t) = some (k, (c :: a).length) := by
      intro t htail hnone
      rw [List.cons_append, next?_letter hc, hnone, ha, htail, Nat.add_zero, List.take_left]
      simp only [hk, List.length_cons]
    refine ⟨c :: a, b, rfl, by rw [List.length_cons, hlen, hn], ?_, ?_, .plain ?_ ?_ ?_ ?_ ?_, ?_⟩
    · have hnone : bitString? (c :: (a ++ [])) = none := by
        rw [List.append_nil]
        -- a quote in the name would not be a character of it
        unfold bitString?
        split
        · rename_i heq
          obtain ⟨-, rfl⟩ := List.cons.inj heq
          exact absurd (hname '"' (by simp)) (by decide)
        · rfl
      have hnil := hword [] rfl hnone
      rwa [List.append_nil] at hnil
    · intro r hr
      refine hword (b ++ r) (nameTail_append hb hr) ?_
      rw [← List.append_assoc]
      exact bitString?_append hbits hr
    · rw [← hk]
      exact (wordKind_ne_paren _).1
    · rw [← hk]
      exact (wordKind_ne_paren _).2
    · intro d hd
      exact isTokenChar_of_isNameChar (hname d hd)
    · intro h
      exact absurd (hname _ (List.mem_of_getLast? h)) (by decide)
    · intro _ hmem
      exact absurd (hname _ hmem) (by decide)
    · intro v hv
      exact word?_wordKind (by rw [hk, hv])

/-- What the lexer finds in front of a text is a token of that kind in front of the rest. -/
theorem exists_leads {s : Text} {k : TokenKind} {n : Nat} (h : next? s = some (k, n)) :
    ∃ a b, s = a ++ b ∧ a.length = n ∧ Leads k a b := by
  have hsymbol : ∀ {o : BinaryOperator} {a b : Text}, Leads (.binary o) a b →
      some (TokenKind.binary o, a.length) = some (k, n) →
      ∃ a' b', a ++ b = a' ++ b' ∧ a'.length = n ∧ Leads k a' b' := by
    intro o a b hleads heq
    obtain ⟨rfl, rfl⟩ := Prod.mk.inj (Option.some.inj heq)
    exact ⟨a, b, rfl, rfl, hleads⟩
  have hcopy := h
  rw [next?.eq_def] at h
  split at h
  · simp at h
  · exact hsymbol (a := ['/', '=']) (.symbol _ (fun _ => rfl) rfl) h
  · exact hsymbol (a := ['<', '=']) (.symbol _ (fun _ => rfl) rfl) h
  · exact hsymbol (a := ['>', '=']) (.symbol _ (fun _ => rfl) rfl) h
  · exact hsymbol (a := ['*', '*']) (.symbol _ (fun _ => rfl) rfl) h
  · exact hsymbol (a := ['=']) (.symbol _ (fun _ => rfl) rfl) h
  · rename_i hne
    exact hsymbol (Leads.shortSymbol (a := '<') (by decide) hne) h
  · rename_i hne
    exact hsymbol (Leads.shortSymbol (a := '>') (by decide) hne) h
  · rename_i hne
    exact hsymbol (Leads.shortSymbol (a := '*') (by decide) hne) h
  · rename_i hne
    exact hsymbol (Leads.shortSymbol (a := '/') (by decide) hne) h
  · exact hsymbol (a := ['+']) (.symbol _ (fun _ => rfl) rfl) h
  · exact hsymbol (a := ['-']) (.symbol _ (fun _ => rfl) rfl) h
  · exact hsymbol (a := ['&']) (.symbol _ (fun _ => rfl) rfl) h
  · obtain ⟨rfl, rfl⟩ := Prod.mk.inj (Option.some.inj h)
    exact ⟨['('], _, rfl, rfl, .of_forall _ (fun _ => rfl) .leftParen (by simp [word?])⟩
  · obtain ⟨rfl, rfl⟩ := Prod.mk.inj (Option.some.inj h)
    exact ⟨[')'], _, rfl, rfl, .of_forall _ (fun _ => rfl) .rightParen (by simp [word?])⟩
  · obtain ⟨m, hm, heq⟩ := Option.map_eq_some_iff.mp h
    obtain ⟨rfl, rfl⟩ := Prod.mk.inj heq
    obtain ⟨w, b, rfl, rfl, hw, ht⟩ := stringTail?_split hm
    have hquote : ∀ c ∈ w, c ≠ '"' := by
      rintro c hc rfl
      exact absurd (hw _ hc) (by decide)
    refine ⟨'"' :: (w ++ ['"']), b, by simp, by simp,
      .of_forall _ ?_ (.string hquote) (by simp [word?])⟩
    intro t
    have heq : '"' :: (w ++ ['"']) ++ t = '"' :: (w ++ '"' :: t) := by simp
    rw [heq, next?, ht t]
    simp
  · rename_i c t
    split at h
    · simp at h
    · rename_i hc
      obtain ⟨rfl, rfl⟩ := Prod.mk.inj (Option.some.inj h)
      refine ⟨['\'', c, '\''], t, rfl, rfl, .of_forall _ ?_ (.character c) (by simp [word?])⟩
      intro u
      rw [List.cons_append, List.cons_append, List.singleton_append, next?, if_neg hc]
      rfl
  · split at h
    · rename_i hc
      exact Leads.number hc (Option.some.inj h)
    · split at h
      · rename_i hc
        exact Leads.word_or_bitString hc hcopy
      · simp at h

end TimedReq.Vhdl.Lexeme
