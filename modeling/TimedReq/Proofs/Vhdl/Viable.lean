import TimedReq.Proofs.Vhdl.Recognised

/-!
# Where errors are reported

The grammar of expressions speaks of the kinds of tokens and of the levels of operators only. The
parser goes on as long as the kinds of what it has read begin a phrase of the grammar: whatever has
been begun, an operand and the missing brackets finish it. So an error is reported at the first
token, or at the character that starts none, behind which no phrase is left.
-/

namespace TimedReq.Vhdl

open Text Lexeme

/-- Whether the tokens of a kind are operands by themselves. -/
def TokenKind.isOperand : TokenKind → Bool
  | name | integer | real | character | string | bitString | boolean _ => true
  | _ => false

/-- The expressions of the grammar as sequences of kinds of tokens, with the levels of the operators
at the left and at the right edge outside brackets. Where an operator comes to stand next to an edge,
the operators at that edge keep their operands against it. -/
inductive Phrase : List TokenKind → List Nat → List Nat → Prop
  | operand {k : TokenKind} (hk : k.isOperand = true) : Phrase [k] [] []
  | paren {ks : List TokenKind} {ls rs : List Nat} (h : Phrase ks ls rs) :
    Phrase (.leftParen :: (ks ++ [.rightParen])) [] []
  | unary {k : TokenKind} {o : UnaryOperator} {ks : List TokenKind} {ls rs : List Nat}
    (hk : k.unary? = some o) (h : Phrase ks ls rs) (hleft : ∀ n ∈ ls, TakesRight o.level n) :
    Phrase (k :: ks) [] (o.level :: rs)
  | binary (o : BinaryOperator) {ks ms : List TokenKind} {ls rs ls' rs' : List Nat}
    (hx : Phrase ks ls rs) (hy : Phrase ms ls' rs') (hright : ∀ n ∈ rs, TakesLeft n o.level)
    (hleft : ∀ n ∈ ls', TakesRight o.level n) :
    Phrase (ks ++ .binary o :: ms) (o.level :: ls) (o.level :: rs')

/-- The grammar has the sequence of kinds as an expression. -/
def Accepted (ks : List TokenKind) : Prop := ∃ ls rs, Phrase ks ls rs

/-- The sequence of kinds begins an expression of the grammar. -/
def Viable (ks : List TokenKind) : Prop := ∃ more, Accepted (ks ++ more)

lemma Token.leaf?_phrase {t : Token} {x : Node} (hx : t.leaf? = some x) :
    Phrase [t.kind] x.leftLevels x.rightLevels := by
  obtain ⟨hk, rfl⟩ | ⟨kind, hk, rfl⟩ | ⟨value, hk, rfl⟩ := Token.leaf?_cases hx
  · exact .operand (by rw [hk]; rfl)
  · have hoperand : ∀ k ∈ TokenKind.literals, k.isOperand = true := by decide
    exact .operand (hoperand _ (LiteralKind.mem_literals hk))
  · exact .operand (by rw [hk]; rfl)

lemma Token.leaf?_of_isOperand {t : Token} (hk : t.kind.isOperand = true) :
    ∃ x, t.leaf? = some x := by
  unfold Token.leaf?
  cases hkind : t.kind with
  | boolean value => cases value <;> exact ⟨_, rfl⟩
  | name | integer | real | character | string | bitString => exact ⟨_, rfl⟩
  | binary | abs | not | leftParen | rightParen => simp [TokenKind.isOperand, hkind] at hk

/-- The kinds of the tokens of a well-formed tree are a phrase. -/
lemma Derives.phrase {ts : List Token} {x : Node} (h : Derives ts x) (hx : x.WellFormed) :
    Phrase (ts.map (·.kind)) x.leftLevels x.rightLevels := by
  induction h with
  | leaf ht => exact Token.leaf?_phrase ht
  | @paren l r ts x hl hr _ ih =>
    have hall := (ih hx.of_paren).paren
    rw [List.map_cons, List.map_append, List.map_singleton, hl, hr]
    exact hall
  | unary ht _ ih =>
    obtain ⟨hinner, hleft⟩ := hx.of_unary
    rw [List.map_cons, Node.leftLevels_unary, Node.rightLevels_unary]
    exact .unary ht (ih hinner) hleft
  | @binary t o ts us x y ht _ _ ihx ihy =>
    obtain ⟨hlhs, hrhs, hright, hleft⟩ := hx.of_binary
    rw [List.map_append, List.map_cons, ht, Node.leftLevels_binary, Node.rightLevels_binary]
    exact .binary o (ihx hlhs) (ihy hrhs) hright hleft

/-- Tokens whose kinds are a phrase are those of a well-formed tree, whatever their characters. -/
lemma Phrase.exists_derives {ks : List TokenKind} {ls rs : List Nat} (h : Phrase ks ls rs)
    {ts : List Token} (hks : ts.map (·.kind) = ks) (hts : ∀ t ∈ ts, Alone t.kind t.text) :
    ∃ x, Derives ts x ∧ x.WellFormed ∧ x.leftLevels = ls ∧ x.rightLevels = rs := by
  induction h generalizing ts with
  | operand hk =>
    obtain ⟨t, us, rfl, rfl, hus⟩ := List.map_eq_cons_iff.mp hks
    obtain rfl := List.map_eq_nil_iff.mp hus
    obtain ⟨x, hx⟩ := Token.leaf?_of_isOperand hk
    exact ⟨x, .leaf hx, Token.leaf?_spec (hts t List.mem_cons_self) hx⟩
  | paren _ ih =>
    obtain ⟨l, us, rfl, hl, hus⟩ := List.map_eq_cons_iff.mp hks
    obtain ⟨vs, ws, rfl, hvs, hws⟩ := List.map_eq_append_iff.mp hus
    obtain ⟨r, ws, rfl, hr, hnil⟩ := List.map_eq_cons_iff.mp hws
    obtain rfl := List.map_eq_nil_iff.mp hnil
    obtain ⟨x, hderives, hx, -, -⟩ := ih hvs fun t ht => hts t (by simp [ht])
    exact ⟨.paren x, .paren hl hr hderives, .paren hx, rfl, rfl⟩
  | @unary k o ks ls rs hk _ hleft ih =>
    obtain ⟨t, us, rfl, rfl, hus⟩ := List.map_eq_cons_iff.mp hks
    obtain ⟨x, hderives, hx, rfl, rfl⟩ := ih hus fun u hu => hts u (List.mem_cons_of_mem t hu)
    exact ⟨_, .unary hk hderives, .unary (Precedence.lookup_unary o) hx hleft,
      Node.leftLevels_unary x _, Node.rightLevels_unary o x⟩
  | binary o _ _ hright hleft ihx ihy =>
    obtain ⟨us, ws, rfl, hus, hws⟩ := List.map_eq_append_iff.mp hks
    obtain ⟨t, vs, rfl, ht, hvs⟩ := List.map_eq_cons_iff.mp hws
    obtain ⟨x, hxderives, hx, rfl, rfl⟩ := ihx hus fun u hu => hts u (by simp [hu])
    obtain ⟨y, hyderives, hy, rfl, rfl⟩ := ihy hvs fun u hu => hts u (by simp [hu])
    exact ⟨_, .binary ht hxderives hyderives,
      .binary (Precedence.lookup_binary o) hx hy hright hleft,
      Node.leftLevels_binary o x y, Node.rightLevels_binary o x y⟩

/-- The grammar accepts the kinds of tokens just if the parser reads the tokens to their end. -/
lemma accepted_iff_parses {ts : List Token} (hts : ∀ t ∈ ts, Alone t.kind t.text) :
    Accepted (ts.map (·.kind)) ↔ ∃ x, Parses ts x := by
  constructor
  · rintro ⟨ls, rs, h⟩
    obtain ⟨x, hderives, hx, -, -⟩ := h.exists_derives rfl hts
    exact ⟨x, hx.parses hderives⟩
  · rintro ⟨x, h⟩
    exact ⟨_, _, h.derives.phrase (h.wellFormed hts)⟩

/-- Every kind has a token. -/
lemma TokenKind.exists_token (k : TokenKind) : ∃ t : Token, t.kind = k ∧ Alone t.kind t.text := by
  suffices ∃ w, next? w = some (k, w.length) by
    obtain ⟨w, hw⟩ := this
    exact ⟨⟨k, w, 0, 0⟩, rfl, hw⟩
  cases hword : word? k with
  | some v => exact ⟨v, next?_word? hword⟩
  | none =>
    cases k with
    | name => exact ⟨['a'], by decide⟩
    | integer => exact ⟨['0'], by decide⟩
    | real => exact ⟨['0', '.', '0'], by decide⟩
    | character => exact ⟨['\'', '0', '\''], by decide⟩
    | string => exact ⟨['"', '"'], by decide⟩
    | bitString => exact ⟨['x', '"', '0', '"'], by decide⟩
    | leftParen => exact ⟨['('], rfl⟩
    | rightParen => exact ⟨[')'], rfl⟩
    | boolean value => cases value <;> simp [word?] at hword
    | binary | abs | not => simp [word?] at hword

lemma TokenKind.exists_tokens (ks : List TokenKind) :
    ∃ ts : List Token, ts.map (·.kind) = ks ∧ ∀ t ∈ ts, Alone t.kind t.text := by
  induction ks with
  | nil => exact ⟨[], rfl, by simp⟩
  | cons k ks ih =>
    obtain ⟨t, rfl, ht⟩ := k.exists_token
    obtain ⟨ts, rfl, hts⟩ := ih
    exact ⟨t :: ts, rfl, List.forall_mem_cons.mpr ⟨ht, hts⟩⟩

/-- Level 0 closes all operators down to an opened bracket. -/
lemma close_zero (frames : List Frame) (x : Node) :
    ∃ rest y, close 0 frames x = some (rest, y) ∧
      (rest = [] ∨ ∃ outer, rest = .paren :: outer ∧ outer.length < frames.length) := by
  induction frames generalizing x with
  | nil => exact ⟨[], x, rfl, .inl rfl⟩
  | cons frame frames ih =>
    -- an operator is closed, since its level is above 0
    have hclosed : ∀ y, close 0 (frame :: frames) x = close 0 frames y →
        ∃ rest z, close 0 (frame :: frames) x = some (rest, z) ∧ (rest = [] ∨
          ∃ outer, rest = .paren :: outer ∧ outer.length < (frame :: frames).length) := by
      intro y hy
      obtain ⟨rest, z, hclose, hrest⟩ := ih y
      refine ⟨rest, z, hy.trans hclose, hrest.imp_right ?_⟩
      rintro ⟨outer, rfl, hlen⟩
      exact ⟨outer, rfl, Nat.lt_succ_of_lt hlen⟩
    cases frame with
    | paren => exact ⟨_, x, rfl, .inr ⟨frames, rfl, Nat.lt_succ_self _⟩⟩
    | unary o =>
      refine hclosed (.unary o.word x) ?_
      rw [close, (Contest.ofLevels_eq_left o.level_bounds).mpr (.inl o.level_bounds.1)]
    | binary lhs o =>
      refine hclosed (.binary o.sort o.word lhs x) ?_
      rw [close, (Contest.ofLevels_eq_left o.level_bounds).mpr (.inl o.level_bounds.1)]

/-- Behind an operand closing brackets finish what has been begun. -/
lemma State.exists_finish_behind (frames : List Frame) (x : Node) :
    ∃ ts q y, (∀ t ∈ ts, Alone t.kind t.text) ∧ (State.behind frames x).run ts = .ok q ∧
      q.finish? = some y := by
  induction hn : frames.length using Nat.strongRecOn generalizing frames x with
  | ind n ih =>
    obtain ⟨rest, y, hclose, rfl | ⟨outer, rfl, hlen⟩⟩ := close_zero frames x
    · refine ⟨[], _, y, by simp, rfl, ?_⟩
      simp only [State.finish?, hclose]
    · obtain ⟨ts, q, z, hts, hrun, hfinish⟩ := ih outer.length (hn ▸ hlen) outer (.paren y) rfl
      refine ⟨⟨.rightParen, [')'], 0, 0⟩ :: ts, q, z, ?_, ?_, hfinish⟩
      · exact List.forall_mem_cons.mpr ⟨rfl, hts⟩
      · rw [State.run, State.step]
        simp only [hclose]
        exact hrun

/-- What has been begun can be finished. -/
lemma State.exists_finish (q : State) :
    ∃ ts p x, (∀ t ∈ ts, Alone t.kind t.text) ∧ q.run ts = .ok p ∧ p.finish? = some x := by
  cases q with
  | behind frames x => exact State.exists_finish_behind frames x
  | before frames =>
    obtain ⟨ts, p, x, hts, hrun, hfinish⟩ := State.exists_finish_behind frames (.name ['a'])
    refine ⟨⟨.name, ['a'], 0, 0⟩ :: ts, p, x, ?_, hrun, hfinish⟩
    exact List.forall_mem_cons.mpr ⟨by decide, hts⟩

/-- The kinds of tokens begin an expression just if the parser goes on behind the tokens. -/
lemma viable_iff_run {ts : List Token} (hts : ∀ t ∈ ts, Alone t.kind t.text) :
    Viable (ts.map (·.kind)) ↔ ∃ q, (State.before []).run ts = .ok q := by
  constructor
  · rintro ⟨more, haccepted⟩
    obtain ⟨us, rfl, hus⟩ := TokenKind.exists_tokens more
    rw [← List.map_append] at haccepted
    have hall : ∀ t ∈ ts ++ us, Alone t.kind t.text :=
      List.forall_mem_append.mpr ⟨hts, hus⟩
    obtain ⟨x, q, hrun, -⟩ := (accepted_iff_parses hall).mp haccepted
    obtain ⟨p, hp, -⟩ := State.run_append hrun
    exact ⟨p, hp⟩
  · rintro ⟨q, hrun⟩
    obtain ⟨us, p, x, hus, hmore, hfinish⟩ := q.exists_finish
    have hall : ∀ t ∈ ts ++ us, Alone t.kind t.text :=
      List.forall_mem_append.mpr ⟨hts, hus⟩
    refine ⟨us.map (·.kind), ?_⟩
    rw [← List.map_append]
    exact (accepted_iff_parses hall).mpr ⟨x, p, (State.run_trans hrun).trans hmore, hfinish⟩

/-- The parser stops at the first token behind which it cannot go on. -/
lemma State.run_eq_error_iff {q : State} {ts : List Token} {t : Token} :
    q.run ts = .error t ↔ ∃ us vs, ts = us ++ t :: vs ∧ (∃ p, q.run us = .ok p) ∧
      ¬∃ p, q.run (us ++ [t]) = .ok p := by
  constructor
  · intro h
    induction ts generalizing q with
    | nil => simp [State.run] at h
    | cons u ts ih =>
      rw [State.run] at h
      cases hstep : q.step u with
      | none =>
        rw [hstep] at h
        obtain rfl := Except.error.inj h
        refine ⟨[], ts, rfl, ⟨q, rfl⟩, ?_⟩
        simp [State.run, hstep]
      | some p =>
        rw [hstep] at h
        obtain ⟨us, vs, rfl, hgoes, hstops⟩ := ih h
        refine ⟨u :: us, vs, rfl, ?_, ?_⟩
        · rw [State.run, hstep]
          exact hgoes
        · rw [List.cons_append, State.run, hstep]
          exact hstops
  · rintro ⟨us, vs, rfl, ⟨p, hp⟩, hstops⟩
    rw [State.run_trans hp, State.run]
    rw [State.run_trans hp, State.run] at hstops
    cases hstep : p.step t with
    | none => rfl
    | some p' =>
      rw [hstep] at hstops
      exact absurd ⟨p', rfl⟩ hstops

/-- The parser stops at the first token behind which no expression is left. -/
lemma run_eq_error_iff_viable {ts : List Token} (hts : ∀ t ∈ ts, Alone t.kind t.text)
    {t : Token} : (State.before []).run ts = .error t ↔
      ∃ us vs, ts = us ++ t :: vs ∧ Viable (us.map (·.kind)) ∧
        ¬Viable ((us ++ [t]).map (·.kind)) := by
  rw [State.run_eq_error_iff]
  refine exists_congr fun us => exists_congr fun vs => and_congr_right ?_
  rintro rfl
  rw [viable_iff_run fun u hu => hts u (by simp [hu]), viable_iff_run]
  intro u hu
  refine hts u ?_
  rcases List.mem_append.mp hu with hu | hu
  · simp [hu]
  · simp [List.mem_singleton.mp hu]

end TimedReq.Vhdl
