import TimedReq.Proofs.Vhdl.Derivation
import TimedReq.Proofs.Vhdl.Longest

/-!
# Trees that respect the levels of operators

The canonical text of a condition has no brackets but those of the tree, so it stands for the tree
only if the levels of the operators put them together that way. Here the operators are given by a
table of their words, and names and literals by the patterns of tokens, so that nothing but classes
of characters is taken from the lexer and nothing from the parser. Both agree with the table and
with the patterns.
-/

namespace TimedReq.Vhdl

open Text Lexeme

namespace Precedence

/-- Operators of one level that make operations of one sort. -/
def row (level : Nat) (sort : BinarySort) (words : List String) :
    List ((BinarySort × Text) × Nat) :=
  words.map fun word => ((sort, word.toList), level)

/-- The operators between two operands, with the sort of operation that they make, and their levels:
an operator of a higher level binds stronger. -/
def binary : List ((BinarySort × Text) × Nat) :=
  row 1 .logical ["and", "or", "xor", "nand", "nor", "xnor"] ++
    row 2 .comparison ["=", "/=", "<", "<=", ">", ">="] ++
    row 3 .arithmetic ["+", "-", "&"] ++
    row 4 .arithmetic ["*", "/", "mod", "rem"] ++
    row 6 .arithmetic ["**"]

/-- The operators in front of an operand and their levels. -/
def unary : List (Text × Nat) :=
  [("+".toList, 5), ("-".toList, 5), ("abs".toList, 6), ("not".toList, 6)]

/-- How the operators of each level associate. -/
def associativities : List (Nat × Associativity) :=
  [(1, .left), (2, .none), (3, .left), (4, .left), (5, .right), (6, .right)]

end Precedence

/-- Of two operators around an operand, the left one takes it. -/
def TakesLeft (l r : Nat) : Prop := r < l ∨ l = r ∧ (l, .left) ∈ Precedence.associativities

/-- Of two operators around an operand, the right one takes it. -/
def TakesRight (l r : Nat) : Prop := l < r ∨ l = r ∧ (r, .right) ∈ Precedence.associativities

instance (l r : Nat) : Decidable (TakesLeft l r) :=
  inferInstanceAs (Decidable (r < l ∨ l = r ∧ (l, .left) ∈ Precedence.associativities))

instance (l r : Nat) : Decidable (TakesRight l r) :=
  inferInstanceAs (Decidable (l < r ∨ l = r ∧ (r, .right) ∈ Precedence.associativities))

/-- The words that are no names, in lower case. -/
def reservedWords : List Text :=
  ["true", "false", "and", "or", "xor", "nand", "nor", "xnor", "not", "abs", "mod", "rem"].map
    String.toList

/-- The texts of the literals of a kind. -/
def LiteralKind.texts : LiteralKind → CharLanguage
  | boolean => {"true".toList, "false".toList}
  | integer => Pattern.numerals
  | real => Pattern.reals
  | character => Pattern.characters
  | string => Pattern.strings
  | bitString => Pattern.bitStrings

namespace Node

/-- The level of the operator of an operation. -/
def level? : Node → Option Nat
  | unary operator _ => Precedence.unary.lookup operator
  | binary sort operator _ _ => Precedence.binary.lookup (sort, operator)
  | _ => none

/-- The operations at the right edge of a tree outside brackets: each is the last operand of the
one before. -/
def rightSpine : Node → List Node
  | unary operator x => unary operator x :: x.rightSpine
  | binary sort operator x y => binary sort operator x y :: y.rightSpine
  | _ => []

/-- The operations with two operands at the left edge of a tree outside brackets: each is the left
operand of the one before. -/
def leftSpine : Node → List Node
  | binary sort operator x y => binary sort operator x y :: x.leftSpine
  | _ => []

/-- The levels of the operations at the right edge. -/
def rightLevels (x : Node) : List Nat := x.rightSpine.filterMap level?

/-- The levels of the operations at the left edge. -/
def leftLevels (x : Node) : List Nat := x.leftSpine.filterMap level?

/-- The tree has the words of tokens, and each operand is the one that the levels of the operators
around it allow. -/
inductive WellFormed : Node → Prop
  | name {x : Text} (hx : x ∈ Pattern.names) (hword : x.map Char.toLower ∉ reservedWords) :
    WellFormed (.name x)
  | literal {kind : LiteralKind} {x : Text} (hx : x ∈ kind.texts) : WellFormed (.literal kind x)
  | paren {x : Node} (hx : WellFormed x) : WellFormed (.paren x)
  | unary {operator : Text} {n : Nat} {x : Node} (hn : Precedence.unary.lookup operator = some n)
    (hx : WellFormed x) (hleft : ∀ k ∈ x.leftLevels, TakesRight n k) :
    WellFormed (.unary operator x)
  | binary {sort : BinarySort} {operator : Text} {n : Nat} {x y : Node}
    (hn : Precedence.binary.lookup (sort, operator) = some n) (hx : WellFormed x)
    (hy : WellFormed y) (hright : ∀ k ∈ x.rightLevels, TakesLeft k n)
    (hleft : ∀ k ∈ y.leftLevels, TakesRight n k) : WellFormed (.binary sort operator x y)

end Node

/-! ## The operators of the table -/

/-- What is looked up in a table is an entry of it. -/
lemma mem_of_lookup {κ ν : Type} [BEq κ] [LawfulBEq κ] {table : List (κ × ν)} {k : κ} {v : ν}
    (h : table.lookup k = some v) : (k, v) ∈ table := by
  obtain ⟨before, after, rfl, -⟩ := List.lookup_eq_some_iff.mp h
  exact List.mem_append_right before List.mem_cons_self

/-- The operators between two operands. -/
def BinaryOperator.all : List BinaryOperator :=
  [and, or, xor, nand, nor, xnor, eq, ne, lt, le, gt, ge, plus, minus, concat, times, divide, mod,
    rem, pow]

/-- The operators in front of an operand. -/
def UnaryOperator.all : List UnaryOperator := [plus, minus, abs, not]

lemma BinaryOperator.level_bounds (o : BinaryOperator) : 0 < o.level ∧ o.level ≤ 6 := by
  cases o <;> decide

lemma UnaryOperator.level_bounds (o : UnaryOperator) : 0 < o.level ∧ o.level ≤ 6 := by
  cases o <;> decide

namespace Precedence

lemma lookup_binary (o : BinaryOperator) : binary.lookup (o.sort, o.word) = some o.level := by
  cases o <;> rfl

lemma lookup_unary (o : UnaryOperator) : unary.lookup o.word = some o.level := by
  cases o <;> rfl

/-- The table has no operators but those that the parser knows. -/
lemma exists_binary {sort : BinarySort} {w : Text} {n : Nat}
    (h : binary.lookup (sort, w) = some n) :
    ∃ o : BinaryOperator, sort = o.sort ∧ w = o.word ∧ n = o.level := by
  have hall : ∀ p ∈ binary, ∃ o ∈ BinaryOperator.all, p = ((o.sort, o.word), o.level) := by decide
  obtain ⟨o, -, ho⟩ := hall _ (mem_of_lookup h)
  obtain ⟨hw, hn⟩ := Prod.mk.inj ho
  obtain ⟨hsort, hw⟩ := Prod.mk.inj hw
  exact ⟨o, hsort, hw, hn⟩

lemma exists_unary {w : Text} {n : Nat} (h : unary.lookup w = some n) :
    ∃ o : UnaryOperator, w = o.word ∧ n = o.level := by
  have hall : ∀ p ∈ unary, ∃ o ∈ UnaryOperator.all, p = (o.word, o.level) := by decide
  obtain ⟨o, -, ho⟩ := hall _ (mem_of_lookup h)
  obtain ⟨hw, hn⟩ := Prod.mk.inj ho
  exact ⟨o, hw, hn⟩

/-- On the levels of operators the parser associates as the table says. -/
lemma mem_associativities {l : Nat} {a : Associativity} (hl : 0 < l ∧ l ≤ 6) :
    (l, a) ∈ associativities ↔ Associativity.ofLevel l = a := by
  have hall : ∀ l ∈ List.range 7, 0 < l →
      ((l, a) ∈ associativities ↔ Associativity.ofLevel l = a) := by
    cases a <;> decide
  exact hall l (List.mem_range.mpr (by omega)) hl.1

end Precedence

lemma Contest.ofLevels_eq_left {l r : Nat} (hl : 0 < l ∧ l ≤ 6) :
    ofLevels l r = .left ↔ TakesLeft l r := by
  unfold ofLevels TakesLeft
  rw [Precedence.mem_associativities hl]
  rcases Nat.lt_trichotomy l r with h | rfl | h
  · rw [if_neg (by omega), if_pos h]
    simp only [reduceCtorEq, false_iff]
    omega
  · rw [if_neg (by omega), if_neg (by omega)]
    cases Associativity.ofLevel l <;> simp
  · simp [h]

lemma Contest.ofLevels_eq_right {l r : Nat} (hl : 0 < l ∧ l ≤ 6) :
    ofLevels l r = .right ↔ TakesRight l r := by
  unfold ofLevels TakesRight
  rcases Nat.lt_trichotomy l r with h | rfl | h
  · rw [if_neg (by omega), if_pos h]
    simp [h]
  · rw [if_neg (by omega), if_neg (by omega), Precedence.mem_associativities hl]
    cases Associativity.ofLevel l <;> simp
  · rw [if_pos h]
    simp only [reduceCtorEq, false_iff]
    omega

namespace Node

lemma WellFormed.ofBool (value : Bool) : (Node.ofBool value).WellFormed := by
  cases value with
  | true => exact .literal (.inl rfl)
  | false => exact .literal (.inr rfl)

variable (o : BinaryOperator) (u : UnaryOperator) (x y : Node)

@[simp] lemma leftLevels_binary :
    (binary o.sort o.word x y).leftLevels = o.level :: x.leftLevels :=
  List.filterMap_cons_some (Precedence.lookup_binary o)

@[simp] lemma leftLevels_unary (operator : Text) : (unary operator x).leftLevels = [] := rfl

@[simp] lemma rightLevels_binary :
    (binary o.sort o.word x y).rightLevels = o.level :: y.rightLevels :=
  List.filterMap_cons_some (Precedence.lookup_binary o)

@[simp] lemma rightLevels_unary : (unary u.word x).rightLevels = u.level :: x.rightLevels :=
  List.filterMap_cons_some (Precedence.lookup_unary u)

/-- All operators of the tree have levels above 0. -/
lemma WellFormed.rightLevels_pos {x : Node} (h : x.WellFormed) : ∀ k ∈ x.rightLevels, 0 < k := by
  induction h with
  | name | literal | paren => exact fun k hk => absurd hk List.not_mem_nil
  | unary hn _ _ ih =>
    obtain ⟨o, rfl, -⟩ := Precedence.exists_unary hn
    simpa using ⟨o.level_bounds.1, ih⟩
  | binary hn _ _ _ _ _ ih =>
    obtain ⟨o, rfl, rfl, -⟩ := Precedence.exists_binary hn
    simpa using ⟨o.level_bounds.1, ih⟩

lemma WellFormed.of_paren {x : Node} (h : (Node.paren x).WellFormed) : x.WellFormed := by
  cases h with
  | paren hx => exact hx

lemma WellFormed.of_unary {u : UnaryOperator} {x : Node} (h : (Node.unary u.word x).WellFormed) :
    x.WellFormed ∧ ∀ k ∈ x.leftLevels, TakesRight u.level k := by
  cases h with
  | unary hn hx hleft =>
    rw [Precedence.lookup_unary] at hn
    obtain rfl := Option.some.inj hn
    exact ⟨hx, hleft⟩

lemma WellFormed.of_binary {o : BinaryOperator} {x y : Node}
    (h : (Node.binary o.sort o.word x y).WellFormed) : x.WellFormed ∧ y.WellFormed ∧
      (∀ k ∈ x.rightLevels, TakesLeft k o.level) ∧ ∀ k ∈ y.leftLevels, TakesRight o.level k := by
  cases h with
  | binary hn hx hy hright hleft =>
    rw [Precedence.lookup_binary] at hn
    obtain rfl := Option.some.inj hn
    exact ⟨hx, hy, hright, hleft⟩

end Node

/-! ## The texts of names and literals -/

/-- The lexer reads the text as a single token of the kind. -/
def Lexeme.Alone (k : TokenKind) (w : Text) : Prop := next? w = some (k, w.length)

instance (k : TokenKind) (w : Text) : Decidable (Alone k w) :=
  inferInstanceAs (Decidable (next? w = some (k, w.length)))

namespace Pattern

/-- The lexer reads a text as a single token just if the patterns make it one. -/
lemma isToken_iff_alone {k : TokenKind} {w : Text} : IsToken k w ↔ Alone k w := by
  constructor
  · rintro ⟨p, hp, hw, rfl⟩
    obtain ⟨k, n, hnext, hle, hkind⟩ := reached_of_mem hp w hw []
    rw [List.append_nil] at hnext
    obtain ⟨a, b, rfl, rfl, -⟩ := exists_isToken hnext
    have hlength : a.length = (a ++ b).length := by
      rw [List.length_append] at hle ⊢
      omega
    rw [Alone, hnext, hkind hlength, hlength]
  · intro h
    obtain ⟨a, b, rfl, hlength, ha⟩ := exists_isToken h
    obtain rfl : b = [] := by simpa using hlength
    rwa [List.append_nil]

/-- A name or a keyword is of none of the kinds of literals. -/
lemma retyped_name_not_mem (w : Text) : retyped .name w ∉ TokenKind.literals := by
  have hall : ∀ p ∈ keywords, p.2 ∉ TokenKind.literals := by decide
  rw [retyped, if_pos rfl]
  cases h : keywords.lookup (w.map Char.toLower) with
  | none => decide
  | some k => exact hall _ (mem_of_lookup h)

/-- Each kind has one class at most. -/
lemma eq_of_mem_all {k : TokenKind} {l l' : CharLanguage} (h : (k, l) ∈ all) (h' : (k, l') ∈ all) :
    l = l' := by
  have hnodup : (all.map Prod.fst).Nodup := by decide
  exact congrArg Prod.snd (List.inj_on_of_nodup_map hnodup h h' rfl)

/-- A text is a token of a kind of literals just if it belongs to the class of that kind. -/
lemma isToken_literal {k : TokenKind} {l : CharLanguage} {w : Text} (h : (k, l) ∈ all)
    (hk : k ∈ TokenKind.literals) : IsToken k w ↔ w ∈ l := by
  constructor
  · rintro ⟨⟨k', l'⟩, hp, hw, rfl⟩
    have hname : k' ≠ .name := by
      rintro rfl
      exact retyped_name_not_mem w hk
    rw [retyped, if_neg hname] at h
    exact eq_of_mem_all hp h ▸ hw
  · intro hw
    refine .of_mem h ?_ hw
    rintro rfl
    exact absurd hk (by decide)

/-- The words that are no names are the keywords. -/
lemma lookup_keywords_eq_none {w : Text} : keywords.lookup w = none ↔ w ∉ reservedWords := by
  have hreserved : ∀ v ∈ reservedWords, v ∈ keywords.map Prod.fst := by decide
  have hkeyword : ∀ p ∈ keywords, p.1 ∈ reservedWords := by decide
  rw [List.lookup_eq_none_iff]
  constructor
  · intro h hw
    obtain ⟨p, hp, rfl⟩ := List.mem_map.mp (hreserved w hw)
    simpa using h p hp
  · rintro h p hp
    refine bne_iff_ne.mpr ?_
    rintro rfl
    exact h (hkeyword p hp)

/-- A text is a token of the kind of names just if it matches their pattern and is not reserved. -/
lemma isToken_name {w : Text} :
    IsToken .name w ↔ w ∈ names ∧ w.map Char.toLower ∉ reservedWords := by
  rw [← lookup_keywords_eq_none]
  constructor
  · rintro ⟨⟨k, l⟩, hp, hw, heq⟩
    obtain rfl : k = .name := by
      by_contra hk
      rw [retyped, if_neg hk] at heq
      exact hk heq.symm
    have hnames : l = names := eq_of_mem_all hp (by simp [all])
    refine ⟨hnames ▸ hw, ?_⟩
    rw [retyped, if_pos rfl] at heq
    cases h : keywords.lookup (w.map Char.toLower) with
    | none => rfl
    | some k =>
      have hall : ∀ p ∈ keywords, p.2 ≠ .name := by decide
      rw [h] at heq
      exact absurd heq.symm (hall _ (mem_of_lookup h))
  · rintro ⟨hw, hnone⟩
    exact ⟨(.name, names), by simp [all], hw, by simp [retyped, hnone]⟩

end Pattern

lemma Lexeme.alone_name {w : Text} :
    Alone .name w ↔ w ∈ Pattern.names ∧ w.map Char.toLower ∉ reservedWords :=
  Pattern.isToken_iff_alone.symm.trans Pattern.isToken_name

lemma LiteralKind.alone_iff {kind : LiteralKind} {k : TokenKind} {w : Text}
    (hk : kind.tokenKind? = some k) : Alone k w ↔ w ∈ kind.texts := by
  refine Pattern.isToken_iff_alone.symm.trans ?_
  cases kind with
  | boolean => simp [tokenKind?] at hk
  | integer | real | character | string | bitString =>
    obtain rfl := Option.some.inj hk
    exact Pattern.isToken_literal (by simp [texts, Pattern.all]) (by decide)

end TimedReq.Vhdl
