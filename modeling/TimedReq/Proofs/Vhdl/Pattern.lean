import Mathlib.Computability.Language
import TimedReq.Proofs.Text.Pieces
import TimedReq.Vhdl.Lexer

/-!
# Token patterns

The texts of every class of tokens as a regular language. Keywords are names; a name that is a
keyword as a whole is of the keyword's kind.
-/

/-- A set of texts, for which union, concatenation and repetition are defined. -/
abbrev CharLanguage := Language Char

namespace TimedReq.Vhdl

open Text Lexeme
open scoped Computability

namespace Pattern

/-- One character of a kind. -/
def one (p : Char → Bool) : CharLanguage := {w | ∃ c, p c = true ∧ w = [c]}

/-- A character of one kind and any number of characters of another. -/
def headed (p q : Char → Bool) : CharLanguage := one p * (one q)∗

/-- Texts of a language, one or more, with a character between neighbours. -/
def separated (x : Char) (l : CharLanguage) : CharLanguage := l * ({[x]} * l)∗

/-- Digits of any script, single underscores between them. -/
def numerals : CharLanguage := separated '_' (headed isDigit isDigit)

/-- The exponents of real numbers. -/
def exponents : CharLanguage :=
  one (fun c => c == 'e' || c == 'E') * (1 + one fun c => c == '+' || c == '-') *
    headed isDigit isDigit

/-- Real numbers. -/
def reals : CharLanguage := numerals * {['.']} * numerals * (1 + exponents)

/-- Names, selected by points. -/
def names : CharLanguage := separated '.' (headed isAsciiLetter isWordChar)

/-- Bit strings. -/
def bitStrings : CharLanguage :=
  one (fun c => c ∈ ['b', 'B', 'o', 'O', 'x', 'X']) * {['"']} * headed isBitDigit isBitDigit *
    {['"']}

/-- String literals. -/
def strings : CharLanguage := {['"']} * (one fun c => c != '"' && c != '\n')∗ * {['"']}

/-- Character literals. -/
def characters : CharLanguage := {['\'']} * (one fun c => c != '\'' && c != '\n') * {['\'']}

/-- The operators that are symbols. -/
def symbols : List BinaryOperator :=
  [.ne, .le, .ge, .eq, .lt, .gt, .pow, .times, .divide, .plus, .minus, .concat]

/-- The classes of tokens. Keywords belong to the names. -/
def all : List (TokenKind × CharLanguage) :=
  symbols.map (fun o => (.binary o, {o.word})) ++
    [(.leftParen, {['(']}), (.rightParen, {[')']}), (.bitString, bitStrings), (.string, strings),
      (.character, characters), (.real, reals), (.integer, numerals), (.name, names)]

/-- The keywords in lower case. -/
def keywords : List (Text × TokenKind) :=
  [(['t', 'r', 'u', 'e'], .boolean true), (['f', 'a', 'l', 's', 'e'], .boolean false),
    (UnaryOperator.abs.word, .abs), (UnaryOperator.not.word, .not)] ++
    [.and, .or, .xor, .nand, .nor, .xnor, .mod, .rem].map fun o =>
      (BinaryOperator.word o, .binary o)

/-- The kind of a token of a class: a name that is a keyword as a whole, in any case, is of the
keyword's kind. -/
def retyped (k : TokenKind) (w : Text) : TokenKind :=
  if k = .name then (keywords.lookup (w.map Char.toLower)).getD .name else k

lemma mem_kstar_one {p : Char → Bool} {w : Text} : w ∈ (one p)∗ ↔ ∀ c ∈ w, p c = true := by
  constructor
  · intro h c hc
    obtain ⟨vs, rfl, hvs⟩ := Language.mem_kstar.mp h
    obtain ⟨v, hv, hc⟩ := List.mem_flatten.mp hc
    obtain ⟨d, hd, rfl⟩ := hvs v hv
    obtain rfl := List.mem_singleton.mp hc
    exact hd
  · intro h
    refine Language.mem_kstar.mpr ⟨w.map ([·]), ?_, ?_⟩
    · induction w with
      | nil => rfl
      | cons c w ih =>
        rw [List.map_cons, List.flatten_cons, ← ih fun d hd => h d (List.mem_cons_of_mem c hd)]
        rfl
    · intro v hv
      obtain ⟨c, hc, rfl⟩ := List.mem_map.mp hv
      exact ⟨c, h c hc, rfl⟩

lemma mem_headed {p q : Char → Bool} {w : Text} :
    w ∈ headed p q ↔ ∃ c v, w = c :: v ∧ p c = true ∧ ∀ d ∈ v, q d = true := by
  constructor
  · intro h
    obtain ⟨u, ⟨c, hc, rfl⟩, v, hv, rfl⟩ := Language.mem_mul.mp h
    exact ⟨c, v, rfl, hc, mem_kstar_one.mp hv⟩
  · rintro ⟨c, v, rfl, hc, hv⟩
    exact Language.mem_mul.mpr ⟨[c], ⟨c, hc, rfl⟩, v, mem_kstar_one.mpr hv, rfl⟩

lemma mem_headed_self {p : Char → Bool} {w : Text} :
    w ∈ headed p p ↔ w ≠ [] ∧ ∀ c ∈ w, p c = true := by
  rw [mem_headed]
  constructor
  · rintro ⟨c, v, rfl, hc, hv⟩
    exact ⟨by simp, List.forall_mem_cons.mpr ⟨hc, hv⟩⟩
  · rintro ⟨hne, hw⟩
    obtain ⟨c, v, rfl⟩ := List.exists_cons_of_ne_nil hne
    exact ⟨c, v, rfl, List.forall_mem_cons.mp hw⟩

/-- One text, or a text in front of separated ones. -/
lemma mem_separated {x : Char} {l : CharLanguage} {w : Text} :
    w ∈ separated x l ↔ w ∈ l ∨ ∃ v ∈ l, ∃ u ∈ separated x l, w = v ++ x :: u := by
  have hunfold : separated x l = l + l * ({[x]} * separated x l) := by
    conv_lhs => rw [separated, ← Language.one_add_self_mul_kstar_eq_kstar, mul_add, mul_one]
    rw [separated, mul_assoc {[x]} l]
  rw [hunfold, Language.mem_add, Language.mem_mul, ← hunfold]
  refine or_congr_right ⟨?_, ?_⟩
  · rintro ⟨v, hv, b, hb, rfl⟩
    obtain ⟨a, rfl, u, hu, rfl⟩ := Language.mem_mul.mp hb
    exact ⟨v, hv, u, hu, rfl⟩
  · rintro ⟨v, hv, u, hu, rfl⟩
    exact ⟨v, hv, x :: u, Language.mem_mul.mpr ⟨[x], rfl, u, hu, rfl⟩, rfl⟩

section

variable {x : Char} {p q : Char → Bool}

/-- A character of the second kind goes behind the first character. -/
lemma insert_mem_separated {c d : Char} {r : Text} (h : c :: r ∈ separated x (headed p q))
    (hd : q d = true) : c :: d :: r ∈ separated x (headed p q) := by
  have hinsert : ∀ {c r}, c :: r ∈ headed p q → c :: d :: r ∈ headed p q := by
    intro c r h
    obtain ⟨c', v, heq, hc, hv⟩ := mem_headed.mp h
    obtain ⟨rfl, rfl⟩ := List.cons.inj heq
    exact mem_headed.mpr ⟨c, d :: r, rfl, hc, List.forall_mem_cons.mpr ⟨hd, hv⟩⟩
  obtain h | ⟨v, hv, u, hu, heq⟩ := mem_separated.mp h
  · exact mem_separated.mpr (.inl (hinsert h))
  · obtain ⟨c', v, rfl, -⟩ := mem_headed.mp hv
    obtain ⟨rfl, rfl⟩ := List.cons.inj heq
    exact mem_separated.mpr (.inr ⟨c :: d :: v, hinsert hv, u, hu, rfl⟩)

/-- All characters of separated texts are of a kind to which the separator belongs. -/
lemma forall_of_mem_separated {r : Char → Bool} (hx : r x = true)
    (hp : ∀ c, p c = true → r c = true) (hq : ∀ c, q c = true → r c = true) {w : Text}
    (hw : w ∈ separated x (headed p q)) : ∀ c ∈ w, r c = true := by
  have hone : ∀ {v : Text}, v ∈ headed p q → ∀ c ∈ v, r c = true := by
    intro v hv
    obtain ⟨c, v, rfl, hc, hv⟩ := mem_headed.mp hv
    exact List.forall_mem_cons.mpr ⟨hp c hc, fun d hd => hq d (hv d hd)⟩
  induction hn : w.length using Nat.strongRecOn generalizing w with
  | ind n ih =>
    obtain hw | ⟨v, hv, u, hu, rfl⟩ := mem_separated.mp hw
    · exact hone hw
    · simp only [List.length_append, List.length_cons] at hn
      exact List.forall_mem_append.mpr
        ⟨hone hv, List.forall_mem_cons.mpr ⟨hx, ih u.length (by omega) hu rfl⟩⟩

end

lemma mem_exponents {w : Text} :
    w ∈ exponents ↔ ∃ e sign ds, w = e :: (sign ++ ds) ∧ (e = 'e' ∨ e = 'E') ∧
      (sign = [] ∨ sign = ['+'] ∨ sign = ['-']) ∧ ds ≠ [] ∧ ∀ c ∈ ds, isDigit c = true := by
  constructor
  · intro h
    obtain ⟨u, hu, ds, hds, rfl⟩ := Language.mem_mul.mp h
    obtain ⟨v, ⟨e, he, rfl⟩, sign, hsign, rfl⟩ := Language.mem_mul.mp hu
    refine ⟨e, sign, ds, by simp, by simpa using he, ?_, mem_headed_self.mp hds⟩
    obtain rfl | ⟨c, hc, rfl⟩ := (Language.mem_add _ _ _).mp hsign
    · exact .inl rfl
    · exact .inr (by simpa using hc)
  · rintro ⟨e, sign, ds, rfl, he, hsign, hds⟩
    have hmem : sign ∈ (1 : CharLanguage) + one fun c => c == '+' || c == '-' := by
      refine (Language.mem_add _ _ _).mpr ?_
      rcases hsign with rfl | rfl | rfl
      · exact .inl rfl
      · exact .inr ⟨'+', rfl, rfl⟩
      · exact .inr ⟨'-', rfl, rfl⟩
    have hhead : [e] ∈ one fun c => c == 'e' || c == 'E' := ⟨e, by simpa using he, rfl⟩
    exact Language.append_mem_mul (Language.append_mem_mul hhead hmem) (mem_headed_self.mpr hds)

lemma mem_reals {w : Text} :
    w ∈ reals ↔ ∃ a ∈ numerals, ∃ b ∈ numerals, ∃ e, (e = [] ∨ e ∈ exponents) ∧
      w = a ++ '.' :: (b ++ e) := by
  constructor
  · intro h
    obtain ⟨u, hu, e, he, rfl⟩ := Language.mem_mul.mp h
    obtain ⟨v, hv, b, hb, rfl⟩ := Language.mem_mul.mp hu
    obtain ⟨a, ha, x, rfl, rfl⟩ := Language.mem_mul.mp hv
    exact ⟨a, ha, b, hb, e, (Language.mem_add _ _ _).mp he, by simp⟩
  · rintro ⟨a, ha, b, hb, e, he, rfl⟩
    refine Language.mem_mul.mpr ⟨a ++ ['.'] ++ b, ?_, e, (Language.mem_add _ _ _).mpr he, by simp⟩
    exact Language.append_mem_mul (Language.append_mem_mul ha rfl) hb

lemma mem_bitStrings {w : Text} :
    w ∈ bitStrings ↔ ∃ base ds, w = base :: '"' :: (ds ++ ['"']) ∧
      base ∈ ['b', 'B', 'o', 'O', 'x', 'X'] ∧ ds ≠ [] ∧ ∀ c ∈ ds, isBitDigit c = true := by
  constructor
  · intro h
    obtain ⟨u, hu, q, rfl, rfl⟩ := Language.mem_mul.mp h
    obtain ⟨v, hv, ds, hds, rfl⟩ := Language.mem_mul.mp hu
    obtain ⟨b, ⟨base, hbase, rfl⟩, x, rfl, rfl⟩ := Language.mem_mul.mp hv
    exact ⟨base, ds, by simp, by simpa using hbase, mem_headed_self.mp hds⟩
  · rintro ⟨base, ds, rfl, hbase, hds⟩
    refine Language.mem_mul.mpr ⟨[base] ++ ['"'] ++ ds, ?_, ['"'], rfl, by simp⟩
    refine Language.append_mem_mul (Language.append_mem_mul ⟨base, ?_, rfl⟩ rfl)
      (mem_headed_self.mpr hds)
    simpa using hbase

lemma mem_strings {w : Text} :
    w ∈ strings ↔ ∃ v, w = '"' :: (v ++ ['"']) ∧ ∀ c ∈ v, (c != '"' && c != '\n') = true := by
  constructor
  · intro h
    obtain ⟨u, hu, q, rfl, rfl⟩ := Language.mem_mul.mp h
    obtain ⟨x, rfl, v, hv, rfl⟩ := Language.mem_mul.mp hu
    exact ⟨v, by simp, mem_kstar_one.mp hv⟩
  · rintro ⟨v, rfl, hv⟩
    refine Language.mem_mul.mpr ⟨['"'] ++ v, ?_, ['"'], rfl, by simp⟩
    exact Language.append_mem_mul rfl (mem_kstar_one.mpr hv)

lemma mem_characters {w : Text} :
    w ∈ characters ↔ ∃ c, w = ['\'', c, '\''] ∧ ¬(c = '\'' ∨ c = '\n') := by
  constructor
  · intro h
    obtain ⟨u, hu, q, rfl, rfl⟩ := Language.mem_mul.mp h
    obtain ⟨x, rfl, v, ⟨c, hc, rfl⟩, rfl⟩ := Language.mem_mul.mp hu
    exact ⟨c, rfl, by simpa using hc⟩
  · rintro ⟨c, rfl, hc⟩
    refine Language.mem_mul.mpr ⟨['\'', c], ?_, ['\''], rfl, rfl⟩
    exact Language.append_mem_mul (a := ['\'']) rfl ⟨c, by simpa using hc, rfl⟩

/-- The kind of a word is that of the keyword that it is, if it is one. -/
lemma wordKind_eq (w : Text) : wordKind w = retyped .name w := by
  unfold wordKind retyped
  generalize w.map Char.toLower = l
  by_cases hl : l ∈ keywords.map Prod.fst
  · simp only [keywords, List.map_cons, List.map_nil, List.map_append, List.mem_append,
      List.mem_cons, List.not_mem_nil, or_false] at hl
    rcases hl with (rfl | rfl | rfl | rfl) | rfl | rfl | rfl | rfl | rfl | rfl | rfl | rfl <;> rfl
  · have hne : ∀ v ∈ keywords.map Prod.fst, l ≠ v := by
      rintro v hv rfl
      exact hl hv
    have hfind : [.and, .or, .xor, .nand, .nor, .xnor, .mod, .rem].find?
        (fun o : BinaryOperator => o.word == l) = none := by
      refine List.find?_eq_none.mpr ?_
      intro o ho heq
      have hmem : ∀ o ∈ [BinaryOperator.and, .or, .xor, .nand, .nor, .xnor, .mod, .rem],
          o.word ∈ keywords.map Prod.fst := by decide
      exact hne _ (hmem o ho) (beq_iff_eq.mp heq).symm
    have hlookup : keywords.lookup l = none := by
      refine List.lookup_eq_none_iff.mpr ?_
      intro p hp
      exact bne_iff_ne.mpr (hne _ (List.mem_map_of_mem hp))
    simp only [hne _ (show ['t', 'r', 'u', 'e'] ∈ keywords.map Prod.fst by decide),
      hne _ (show ['f', 'a', 'l', 's', 'e'] ∈ keywords.map Prod.fst by decide),
      hne _ (show UnaryOperator.abs.word ∈ keywords.map Prod.fst by decide),
      hne _ (show UnaryOperator.not.word ∈ keywords.map Prod.fst by decide), hfind, hlookup]
    rfl

/-- The texts of the tokens of a kind. -/
def IsToken (k : TokenKind) (w : Text) : Prop := ∃ p ∈ all, w ∈ p.2 ∧ k = retyped p.1 w

/-- A text of a class of its own kind is a token. -/
lemma IsToken.of_mem {k : TokenKind} {l : CharLanguage} {w : Text} (h : (k, l) ∈ all)
    (hk : k ≠ .name) (hw : w ∈ l) : IsToken k w :=
  ⟨(k, l), h, hw, (if_neg hk).symm⟩

end Pattern

end TimedReq.Vhdl
