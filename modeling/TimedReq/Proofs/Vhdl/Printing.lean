import Mathlib.Data.List.Forall2
import TimedReq.Proofs.Vhdl.Derivation
import TimedReq.Proofs.Vhdl.Keyword

/-!
# Printed conditions are read back

The canonical text of what was derived from tokens is made of tokens that the parser does not tell
from those, so it is read as the same tree.
-/

namespace TimedReq.Vhdl

open Text Lexeme

/-- The kind of the token that stands for an operator in front of an operand. -/
def UnaryOperator.kind : UnaryOperator → TokenKind
  | plus => .binary .plus
  | minus => .binary .minus
  | abs => .abs
  | not => .not

lemma TokenKind.eq_of_unary? {k : TokenKind} {o : UnaryOperator} (h : k.unary? = some o) :
    k = o.kind := by
  unfold TokenKind.unary? at h
  split at h
  all_goals first | contradiction | (obtain rfl := Option.some.inj h; rfl)

lemma word?_unary (o : UnaryOperator) : word? o.kind = some o.word := by
  cases o <;> rfl

lemma next?_unary (o : UnaryOperator) : next? o.word = some (o.kind, o.word.length) :=
  next?_word? (word?_unary o)

lemma next?_binary (o : BinaryOperator) : next? o.word = some (.binary o, o.word.length) :=
  next?_word? rfl

/-- A sign is a token in front of every text. -/
lemma leads_sign {o : UnaryOperator} (ho : Node.isWord o.word = false) (b : Text) :
    Leads o.kind o.word b := by
  have hshape : Shape o.kind o.word := (leads_of_alone (b := []) (next?_unary o) trivial).shape
  have hword := (leads_of_alone (b := []) (next?_unary o) trivial).word
  refine Leads.of_forall b ?_ hshape hword
  intro t
  cases o with
  | plus | minus => rfl
  | abs | not => exact absurd ho (by decide)

lemma leads_leftParen (b : Text) : Leads .leftParen ['('] b :=
  Leads.of_forall b (fun _ => rfl) .leftParen (by simp [word?])

lemma leads_rightParen (b : Text) : Leads .rightParen [')'] b :=
  Leads.of_forall b (fun _ => rfl) .rightParen (by simp [word?])

lemma leaf?_of_unary {t : Token} {o : UnaryOperator} (h : t.kind.unary? = some o) :
    t.leaf? = none := by
  rw [Token.leaf?, TokenKind.eq_of_unary? h]
  cases o <;> rfl

/-- An operand that is a token is printed as the token is, with a keyword in lower case. -/
lemma Token.print_leaf {t : Token} {x : Node} (hx : t.leaf? = some x)
    (ht : next? t.text = some (t.kind, t.text.length)) : x.print = t.canonical.text := by
  obtain ⟨hk, rfl⟩ | ⟨kind, hk, rfl⟩ | ⟨value, hk, rfl⟩ := Token.leaf?_cases hx
  · rw [Token.canonical_of_not_keyword (by rw [hk]; rfl)]
    rfl
  · have hkey : ∀ k ∈ TokenKind.literals, k.isKeyword = false := by decide
    rw [Token.canonical_of_not_keyword (hkey _ (LiteralKind.mem_literals hk))]
    rfl
  · refine (Token.canonical_text ht ?_).symm
    rw [hk]
    cases value <;> rfl

/-- A token in canonical form in front of a text. -/
lemma Lexes.canonical {t : Token} {v b : Text} {ts : List Token} (hv : t.canonical.text = v)
    (ht : Leads t.kind v b) (h : Lexes b ts) : Lexes (v ++ b) (t.canonical :: ts) := by
  subst hv
  exact .token (t := t.canonical) (by rwa [Token.canonical_kind]) h

section

variable {t : Token} {b : Text} {ts : List Token} (ht : next? t.text = some (t.kind, t.text.length))

include ht

/-- The word of a token with a blank behind it. -/
lemma Lexes.word {v : Text} (hv : word? t.kind = some v) (h : Lexes b ts) :
    Lexes (v ++ ' ' :: b) (t.canonical :: ts) :=
  .canonical (Token.canonical_text ht hv) (leads_of_alone (next?_word? hv) (.inl rfl))
    (.gap (.inl (.inl rfl)) h)

lemma Lexes.leftParen (hk : t.kind = .leftParen) (h : Lexes b ts) :
    Lexes ('(' :: b) (t.canonical :: ts) := by
  have hshape : Shape .leftParen t.text := hk ▸ (leads_of_alone (b := []) ht trivial).shape
  refine .canonical (v := ['(']) ?_ (hk ▸ leads_leftParen b) h
  rw [Token.canonical_of_not_keyword (by rw [hk]; rfl), hshape.eq_leftParen]

lemma Lexes.rightParen (hk : t.kind = .rightParen) (h : Lexes b ts) :
    Lexes (')' :: b) (t.canonical :: ts) := by
  have hshape : Shape .rightParen t.text := hk ▸ (leads_of_alone (b := []) ht trivial).shape
  refine .canonical (v := [')']) ?_ (hk ▸ leads_rightParen b) h
  rw [Token.canonical_of_not_keyword (by rw [hk]; rfl), hshape.eq_rightParen]

end

/-- The canonical text of a tree has the tokens that the tree was derived from, with keywords in
lower case. -/
theorem Derives.lexes_canonical {ts : List Token} {x : Node} (h : Derives ts x)
    (hts : ∀ t ∈ ts, next? t.text = some (t.kind, t.text.length)) {r : Text} (hr : Separates r)
    {vs : List Token} (hvs : Lexes r vs) :
    Lexes (x.print ++ r) (ts.map Token.canonical ++ vs) := by
  induction h generalizing r vs with
  | @leaf t x hx =>
    have halone := hts t List.mem_cons_self
    have hlead := leads_of_alone (Token.canonical_alone halone) hr
    rw [Token.canonical_kind] at hlead
    rw [Token.print_leaf hx halone]
    exact .canonical rfl hlead hvs
  | @paren l q ts x hl hq _ ih =>
    have hclose : Lexes (')' :: r) (q.canonical :: vs) := .rightParen (hts q (by simp)) hq hvs
    have hsep : Separates (')' :: r) := .inr (.inl rfl)
    have hinner := ih (fun t ht => hts t (by simp [ht])) hsep hclose
    have hall := Lexes.leftParen (hts l List.mem_cons_self) hl hinner
    rw [Node.print]
    simpa using hall
  | @unary t o ts x ht _ ih =>
    have halone := hts t List.mem_cons_self
    have hkind := TokenKind.eq_of_unary? ht
    have hword : word? t.kind = some o.word := hkind ▸ word?_unary o
    have hinner := ih (fun u hu => hts u (List.mem_cons_of_mem t hu)) hr hvs
    rw [Node.print]
    split
    · rw [List.append_assoc]
      exact .word halone hword hinner
    · rename_i hspaced
      -- what is not set apart from its operand is a sign, which is a token in front of every text
      have hsign : Node.isWord o.word = false := by
        unfold Node.isSpaced at hspaced
        simp only [Bool.or_eq_true, not_or, Bool.not_eq_true] at hspaced
        exact hspaced.1.1
      rw [List.append_assoc]
      exact .canonical (Token.canonical_text halone hword) (hkind ▸ leads_sign hsign _) hinner
  | @binary t o ts us x y ht _ _ ihx ihy =>
    have hy := ihy (fun u hu => hts u (by simp [hu])) hr hvs
    have hright := Lexes.word (hts t (by simp)) (ht ▸ rfl : word? t.kind = some o.word) hy
    have hsep : Separates (' ' :: (o.word ++ ' ' :: (y.print ++ r))) := .inl rfl
    have hall := ihx (fun u hu => hts u (by simp [hu])) hsep (.gap (.inl (.inl rfl)) hright)
    rw [Node.print]
    simpa using hall

/-- The canonical text of a tree has tokens that the parser does not tell from those that the tree
was derived from. -/
lemma Derives.lexes_print {ts : List Token} {x : Node} (h : Derives ts x)
    (hts : ∀ t ∈ ts, next? t.text = some (t.kind, t.text.length)) {r : Text} (hr : Separates r) :
    ∃ us, List.Forall₂ Alike ts us ∧ ∀ vs, Lexes r vs → Lexes (x.print ++ r) (us ++ vs) := by
  refine ⟨ts.map Token.canonical, ?_, fun vs hvs => h.lexes_canonical hts hr hvs⟩
  exact List.forall₂_map_right_iff.mpr (List.forall₂_same.mpr fun t _ => .canonical t)

/-- The tokens of a text stand for themselves. -/
lemma Lexes.alone {s : Text} {ts : List Token} (h : Lexes s ts) :
    ∀ t ∈ ts, next? t.text = some (t.kind, t.text.length) := by
  induction h with
  | nil => simp
  | gap _ _ ih => exact ih
  | token ht _ ih =>
    intro u hu
    rcases List.mem_cons.mp hu with rfl | hu
    · exact ht.alone
    · exact ih u hu

lemma Lexeme.Shape.last_not_blank {k : TokenKind} {w : Text} (h : Shape k w) :
    ∀ c ∈ w.getLast?, isBlank c = false := by
  intro c hc
  cases h with
  | plain hl hr hw => exact not_blank_of_isTokenChar (hw c (List.mem_of_getLast? hc))
  | leftParen | rightParen | character =>
    obtain rfl := Option.some.inj hc
    rfl
  | string hw =>
    rw [← List.cons_append, Option.mem_def, List.getLast?_concat] at hc
    obtain rfl := Option.some.inj hc
    rfl
  | bitString hbase hw =>
    rw [← List.cons_append, ← List.cons_append, Option.mem_def, List.getLast?_concat] at hc
    obtain rfl := Option.some.inj hc
    rfl

/-- No blank stands at an end of a canonical text. -/
lemma Derives.print_ends {ts : List Token} {x : Node} (h : Derives ts x)
    (hts : ∀ t ∈ ts, next? t.text = some (t.kind, t.text.length)) :
    x.print ≠ [] ∧ (∀ c ∈ x.print.head?, isBlank c = false) ∧
      ∀ c ∈ x.print.getLast?, isBlank c = false := by
  induction h with
  | @leaf t x ht =>
    have hleads := leads_of_alone (b := []) (hts t List.mem_cons_self) trivial
    obtain ⟨-, rfl⟩ | ⟨kind, -, rfl⟩ | ⟨value, -, rfl⟩ := Token.leaf?_cases ht
    · exact ⟨hleads.ne_nil, hleads.shape.head_not_blank, hleads.shape.last_not_blank⟩
    · exact ⟨hleads.ne_nil, hleads.shape.head_not_blank, hleads.shape.last_not_blank⟩
    · cases value <;> decide
  | paren =>
    rw [Node.print]
    refine ⟨by simp, ?_, ?_⟩
    · intro c hc
      obtain rfl := Option.some.inj hc
      rfl
    · intro c hc
      rw [Option.mem_def, List.getLast?_concat] at hc
      obtain rfl := Option.some.inj hc
      rfl
  | @unary t o ts x ht _ ih =>
    obtain ⟨hne, -, hlast⟩ := ih fun u hu => hts u (List.mem_cons_of_mem t hu)
    have hword : o.word ≠ [] ∧ ∀ c ∈ o.word.head?, isBlank c = false := by cases o <;> decide
    rw [Node.print]
    split
    all_goals
      refine ⟨by simp [hword.1], ?_, ?_⟩
      · rw [List.head?_append_of_ne_nil _ hword.1]
        exact hword.2
      · rw [List.getLast?_append_of_ne_nil _ (by simp [hne])]
        first | exact hlast | (rw [List.getLast?_cons_of_ne_nil hne]; exact hlast)
  | @binary t o ts us x y ht _ _ ihx ihy =>
    obtain ⟨hxne, hhead, -⟩ := ihx fun u hu => hts u (by simp [hu])
    obtain ⟨hyne, -, hlast⟩ := ihy fun u hu => hts u (by simp [hu])
    rw [Node.print]
    refine ⟨by simp, ?_, ?_⟩
    · rw [List.append_assoc, List.head?_append_of_ne_nil _ hxne]
      exact hhead
    · rw [List.getLast?_append_of_ne_nil _ (by simp), List.getLast?_cons_of_ne_nil hyne]
      exact hlast

/-- What a text is read as, by the scan of what stands between the blanks at its ends. -/
lemma parse_of_ne_nil {s : Text} (hs : trim s ≠ []) :
    parse s = match (State.before []).run (scan (trim s)).1, (scan (trim s)).2 with
      | .error t, _ => .error (.unexpected t)
      | .ok _, some e => .error (.invalid e)
      | .ok q, none => match q.finish? with
        | some x => .ok x
        | none => .error .unexpectedEnd := by
  unfold parse
  split
  · rename_i hnil
    exact absurd hnil hs
  · rename_i c r hcr
    exact hcr ▸ rfl

/-- A text is read as the tree of the tokens that the scan finds. -/
lemma parse_eq_ok_scan {s : Text} {x : Node} :
    parse s = .ok x ↔ (scan (trim s)).2 = none ∧ Parses (scan (trim s)).1 x := by
  by_cases hs : trim s = []
  · simp [parse, hs, scan, scanFrom, Parses, State.run, State.finish?]
  · rw [parse_of_ne_nil hs, Parses]
    cases hrun : (State.before []).run (scan (trim s)).1 with
    | error t => simp
    | ok q =>
      cases herror : (scan (trim s)).2 with
      | some e => simp
      | none =>
        cases hfinish : q.finish? with
        | none => simp [hfinish]
        | some y => simp [hfinish]

/-- A text is read as the tree of its tokens. -/
lemma parse_eq_ok {s : Text} {x : Node} :
    parse s = .ok x ↔ ∃ ts, Lexes (trim s) ts ∧ Parses ts x := by
  rw [parse_eq_ok_scan]
  constructor
  · rintro ⟨herror, hparses⟩
    exact ⟨_, lexes_of_scanFrom (Prod.ext rfl herror), hparses⟩
  · rintro ⟨ts, hlexes, hparses⟩
    obtain ⟨us, hscan, hus⟩ := hlexes.scanFrom 0 1
    rw [scan, hscan]
    exact ⟨rfl, hparses.alike (Alike.of_lexemes hus.symm)⟩

/-- The canonical text of what was read is read as the same tree. -/
theorem parse_print {s : Text} {x : Node} (h : parse s = .ok x) : parse x.print = .ok x := by
  obtain ⟨ts, hlexes, hparses⟩ := parse_eq_ok.mp h
  obtain ⟨us, halike, hprint⟩ := hparses.derives.lexes_print hlexes.alone (r := []) trivial
  obtain ⟨-, hhead, hlast⟩ := hparses.derives.print_ends hlexes.alone
  have hback := hprint [] .nil
  rw [List.append_nil, List.append_nil] at hback
  refine parse_eq_ok.mpr ⟨us, ?_, hparses.alike halike⟩
  rwa [trim_eq_self hhead hlast]

/-- The canonical text of what was read has the tokens of the text, with keywords in lower case, and
the names of the tree are the tokens that are names, in their order. -/
theorem scan_print_of_parse {s : Text} {x : Node} (h : parse s = .ok x) :
    (scan (trim s)).2 = none ∧ (scan x.print).2 = none ∧
      (scan x.print).1.map Token.lexeme =
        (scan (trim s)).1.map (fun t => t.canonical.lexeme) ∧
      x.names = ((scan (trim s)).1.filter fun t => t.kind = .name).map (·.text) := by
  obtain ⟨herror, hparses⟩ := parse_eq_ok_scan.mp h
  have hlexes : Lexes (trim s) (scan (trim s)).1 := lexes_of_scanFrom (Prod.ext rfl herror)
  have hback := hparses.derives.lexes_canonical hlexes.alone (r := []) trivial .nil
  rw [List.append_nil, List.append_nil] at hback
  obtain ⟨us, hscan, hus⟩ := hback.scanFrom 0 1
  have hprint : scan x.print = (us, none) := hscan
  refine ⟨herror, by rw [hprint], ?_, hparses.derives.names_eq⟩
  rw [hprint, hus, List.map_map]
  rfl

theorem scan_print_of_parse_signs :
    ∃ x, parse " NOT(A.b or TRUE)=- -1 ".toList = .ok x ∧
      x.print = "not (A.b or true) = - -1".toList ∧ x.names = ["A.b".toList] ∧
      (scan x.print).1.map Token.lexeme =
        (scan (trim " NOT(A.b or TRUE)=- -1 ".toList)).1.map fun t => t.canonical.lexeme := by
  have h : parse " NOT(A.b or TRUE)=- -1 ".toList = .ok (.ofBinary .comparison ['=']
      (.ofUnary UnaryOperator.not.word (.paren
        (.ofBinary .logical BinaryOperator.or.word (.name "A.b".toList) (.ofBool true))))
      (.ofUnary ['-'] (.ofUnary ['-'] (.ofInt 1)))) := by decide +kernel
  exact ⟨_, h, by decide +kernel, by decide +kernel, (scan_print_of_parse h).2.2.1⟩

end TimedReq.Vhdl
