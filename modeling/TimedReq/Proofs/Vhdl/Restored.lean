import TimedReq.Proofs.Vhdl.Condition

/-!
# Conditions are restored

The text of a condition and its canonical text are read alike among other expressions: both begin
with a bracket or none does, and if there is no blank in the canonical text there is none in the
other.
-/

namespace TimedReq.Vhdl

open Text Lexeme

/-- Whether the text of an expression begins with a bracket. -/
def Node.opens : Node → Bool
  | paren _ => true
  | binary _ _ lhs _ => lhs.opens
  | _ => false

lemma Token.not_opens_of_leaf? {t : Token} {x : Node} (h : t.leaf? = some x) :
    t.kind ≠ .leftParen ∧ x.opens = false := by
  obtain ⟨hk, rfl⟩ | ⟨kind, hk, rfl⟩ | ⟨value, hk, rfl⟩ := Token.leaf?_cases h
  · exact ⟨by simp [hk], rfl⟩
  · have hparen : ∀ k ∈ TokenKind.literals, k ≠ .leftParen := by decide
    exact ⟨hparen _ (LiteralKind.mem_literals hk), rfl⟩
  · exact ⟨by simp [hk], rfl⟩

/-- An expression begins with a bracket if its first token is one. -/
lemma Derives.opens_iff {t : Token} {ts : List Token} {x : Node} (h : Derives (t :: ts) x) :
    x.opens = true ↔ t.kind = .leftParen := by
  generalize hall : t :: ts = us at h
  induction h generalizing t ts with
  | leaf ht =>
    obtain ⟨rfl, -⟩ := List.cons.inj hall
    obtain ⟨hk, hx⟩ := Token.not_opens_of_leaf? ht
    simp [hk, hx]
  | paren hl =>
    obtain ⟨rfl, -⟩ := List.cons.inj hall
    simp [hl, Node.opens]
  | unary ht =>
    obtain ⟨rfl, -⟩ := List.cons.inj hall
    have hk : t.kind ≠ .leftParen := by
      intro hk
      rw [hk] at ht
      simp [TokenKind.unary?] at ht
    simp [hk, Node.opens]
  | binary ht hx _ ihx =>
    obtain ⟨u, vs, rfl⟩ := List.exists_cons_of_ne_nil hx.ne_nil
    obtain ⟨rfl, -⟩ := List.cons.inj hall
    exact ihx rfl

/-- A token begins with an opening bracket just if it is one. -/
lemma Lexeme.Leads.head?_eq {k : TokenKind} {a b : Text} (h : Leads k a b) :
    a.head? = some '(' ↔ k = .leftParen := by
  constructor
  · intro hhead
    obtain ⟨v, rfl⟩ : ∃ v, a = '(' :: v := by
      cases a with
      | nil => simp at hhead
      | cons c v => exact ⟨v, by rw [Option.some.inj hhead]⟩
    have hnext := h.next?
    exact (Prod.mk.inj (Option.some.inj hnext)).1.symm
  · rintro rfl
    have hshape := h.shape
    cases hshape with
    | plain hl => exact absurd rfl hl
    | leftParen => rfl

/-- The text of a condition begins with a bracket if the condition does. -/
lemma head_eq_opens {w : Text} {p : Node} (hread : Embedding.vhdl.read w = some p)
    (hw : trim w = w) : (w.head? == some '(') = p.opens := by
  obtain ⟨ts, hlexes, hparses, hne, hhead⟩ := exists_tokens hread hw
  obtain ⟨c, s, rfl⟩ := List.exists_cons_of_ne_nil hne
  obtain ⟨t, b, us, hcut, ht, rfl, -⟩ := hlexes.token_inv (hhead c rfl)
  have hfirst : (c :: s).head? = t.text.head? := by
    rw [hcut, List.head?_append_of_ne_nil _ ht.ne_nil]
  rw [hfirst, Bool.eq_iff_iff, beq_iff_eq, ht.head?_eq, hparses.derives.opens_iff]

/-- The canonical text of a condition is read as the condition. -/
lemma read_print {w : Text} {p : Node} (hread : Embedding.vhdl.read w = some p) :
    Embedding.vhdl.read (Embedding.vhdl.print p) = some p ∧
      trim (Embedding.vhdl.print p) = Embedding.vhdl.print p := by
  obtain ⟨hparse, hcondition⟩ := read_eq_some.mp hread
  obtain ⟨ts, hlexes, hparses⟩ := parse_eq_ok.mp hparse
  obtain ⟨-, hhead, hlast⟩ := hparses.derives.print_ends hlexes.alone
  exact ⟨read_eq_some.mpr ⟨parse_print hparse, hcondition⟩, trim_eq_self hhead hlast⟩

/-- A condition in brackets is written as a group. -/
lemma splitGroup?_paren {w : Text} {q : Node} (hread : Embedding.vhdl.read w = some (.paren q))
    (hw : trim w = w) : ∃ inner, splitGroup? w = some (inner, []) := by
  obtain ⟨ts, hlexes, hparses, hne, hhead⟩ := exists_tokens hread hw
  have hderives := hparses.derives
  generalize hp : Node.paren q = p at hderives
  cases hderives with
  | leaf ht =>
    have hopens := (Token.not_opens_of_leaf? ht).2
    rw [← hp] at hopens
    exact absurd hopens (by simp [Node.opens])
  | paren hl hr h =>
    obtain ⟨u, v, r, rfl, hu, hv, hr⟩ := Written.bracket_inv hl hr hlexes.written
    obtain rfl : u = [] := by
      cases u with
      | nil => rfl
      | cons c u =>
        have hblank := hhead c rfl
        rw [hu.of_cons.1] at hblank
        exact absurd hblank (by simp)
    have hend : trimEnd r = r := trimEnd_eq_of_trim (a := '(' :: v) (by simp [isBlank]) rfl hw
    rw [trimEnd_of_allBlank hr.allBlank] at hend
    refine ⟨v, ?_⟩
    rw [List.nil_append, splitGroup?_bracket (h.neutral hv) rfl, ← hend]
  | unary | binary => simp at hp

/-- A condition without blanks in its canonical text is written without blanks. -/
lemma tight_of_print {w : Text} {p : Node} (hread : Embedding.vhdl.read w = some p)
    (hw : trim w = w) (hparen : ∀ q, p ≠ .paren q)
    (htight : (Embedding.vhdl.print p).any isBlank = false) : w.any isBlank = false := by
  have hspace : ∀ a b : Text, (a ++ ' ' :: b).any isBlank = true := by
    intro a b
    simp [isBlank]
  have hcondition := (read_eq_some.mp hread).2
  cases p with
  | name => simp [Node.isCondition] at hcondition
  | paren q => exact absurd rfl (hparen q)
  | unary operator x =>
    obtain rfl : operator = UnaryOperator.not.word := by simpa [Node.isCondition] using hcondition
    have hprint : Embedding.vhdl.print (.unary UnaryOperator.not.word x) =
        UnaryOperator.not.word ++ ' ' :: x.print := rfl
    rw [hprint, hspace] at htight
    exact absurd htight (by simp)
  | binary sort operator x y =>
    have hprint : Embedding.vhdl.print (.binary sort operator x y) =
        x.print ++ ' ' :: (operator ++ ' ' :: y.print) := by
      simp [Embedding.vhdl, Node.print]
    rw [hprint, hspace] at htight
    exact absurd htight (by simp)
  | literal kind text =>
    obtain rfl : kind = .boolean := by simpa [Node.isCondition] using hcondition
    obtain ⟨ts, hlexes, hparses, -, -⟩ := exists_tokens hread hw
    have hderives := hparses.derives
    generalize hp : Node.literal .boolean text = p at hderives
    cases hderives with
    | @leaf t x ht =>
      subst hp
      obtain ⟨value, hk⟩ : ∃ value, t.kind = .boolean value := by
        obtain ⟨-, hx⟩ | ⟨kind, hk, hx⟩ | ⟨value, hk, -⟩ := Token.leaf?_cases ht
        · simp at hx
        · obtain ⟨rfl, -⟩ := Node.literal.inj hx
          simp [LiteralKind.tokenKind?] at hk
        · exact ⟨value, hk⟩
      obtain ⟨u, r, rfl, hu, hlead, hr⟩ := hlexes.written.cons_inv
      have hshape := hlead.shape
      have hend : trim t.text = t.text := trim_eq_self hshape.head_not_blank hshape.last_not_blank
      rw [trim_append_left hu.allBlank, trim_append_right hr.allBlank, hend] at hw
      rw [← hw]
      rw [hk] at hshape
      cases hshape with
      | plain _ _ hchars =>
        simp only [List.any_eq_false, Bool.not_eq_true]
        exact fun c hc => not_blank_of_isTokenChar (hchars c hc)
    | paren | unary | binary => simp at hp

/-- Conditions are restored if none of their names looks like an operator. -/
theorem restores : Embedding.vhdl.Restores fun p => ∀ x ∈ p.names, x ∉ operatorNames := by
  intro w p hread hw hnames hgroup
  have hparen : ∀ q, p ≠ .paren q := by
    rintro q rfl
    obtain ⟨inner, hsplit⟩ := splitGroup?_paren hread hw
    exact hgroup inner hsplit
  obtain ⟨hprint, htrim⟩ := read_print hread
  exact
    { text := predicateText hread hw hparen hnames
      print := predicateText hprint htrim hparen hnames
      tight := tight_of_print hread hw hparen
      head := (head_eq_opens hread hw).trans (head_eq_opens hprint htrim).symm }

end TimedReq.Vhdl
