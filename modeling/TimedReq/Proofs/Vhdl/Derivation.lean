import TimedReq.Proofs.Vhdl.Scanning

/-!
# What the parser builds

A derivation is a tree with its tokens, whatever the operators bind. The parser's frames and its
operand hold derivations of the tokens read so far, so what it returns is derived from the tokens
of the text.
-/

namespace TimedReq.Vhdl

open Text

/-- The kind of the token that is a literal of the kind. Booleans have a kind for each value. -/
def LiteralKind.tokenKind? : LiteralKind → Option TokenKind
  | boolean => none
  | integer => some .integer
  | real => some .real
  | character => some .character
  | string => some .string
  | bitString => some .bitString

/-- The kinds of tokens that are literals of a kind. -/
def TokenKind.literals : List TokenKind := [integer, real, character, string, bitString]

lemma LiteralKind.mem_literals {kind : LiteralKind} {k : TokenKind}
    (h : kind.tokenKind? = some k) : k ∈ TokenKind.literals := by
  cases kind with
  | boolean => simp [tokenKind?] at h
  | integer | real | character | string | bitString =>
    obtain rfl := Option.some.inj h
    decide

/-- The tokens that are operands by themselves are names, literals and truth values. -/
lemma Token.leaf?_cases {t : Token} {x : Node} (h : t.leaf? = some x) :
    t.kind = .name ∧ x = .name t.text ∨
      (∃ kind : LiteralKind, kind.tokenKind? = some t.kind ∧ x = .literal kind t.text) ∨
      ∃ value, t.kind = .boolean value ∧ x = .ofBool value := by
  unfold Token.leaf? at h
  cases hk : t.kind with
  | name =>
    rw [hk] at h
    exact .inl ⟨rfl, (Option.some.inj h).symm⟩
  | integer | real | character | string | bitString =>
    rw [hk] at h
    exact .inr (.inl ⟨_, rfl, (Option.some.inj h).symm⟩)
  | boolean value =>
    refine .inr (.inr ⟨value, rfl, ?_⟩)
    rw [hk] at h
    cases value <;> exact (Option.some.inj h).symm
  | binary | abs | not | leftParen | rightParen => simp [hk] at h

/-- The tokens of an expression, whatever its operators bind. -/
inductive Derives : List Token → Node → Prop
  | leaf {t : Token} {x : Node} (ht : t.leaf? = some x) : Derives [t] x
  | paren {l r : Token} {ts : List Token} {x : Node} (hl : l.kind = .leftParen)
    (hr : r.kind = .rightParen) (h : Derives ts x) : Derives (l :: (ts ++ [r])) (.paren x)
  | unary {t : Token} {o : UnaryOperator} {ts : List Token} {x : Node}
    (ht : t.kind.unary? = some o) (h : Derives ts x) : Derives (t :: ts) (.unary o.word x)
  | binary {t : Token} {o : BinaryOperator} {ts us : List Token} {x y : Node}
    (ht : t.kind = .binary o) (hx : Derives ts x) (hy : Derives us y) :
    Derives (ts ++ t :: us) (.binary o.sort o.word x y)

/-- The names of an expression are its tokens that are names, in their order. -/
lemma Derives.names_eq {ts : List Token} {x : Node} (h : Derives ts x) :
    x.names = (ts.filter fun t => t.kind = .name).map (·.text) := by
  induction h with
  | @leaf t x ht =>
    obtain ⟨hk, rfl⟩ | ⟨kind, hk, rfl⟩ | ⟨value, hk, rfl⟩ := Token.leaf?_cases ht
    · simp [Node.names, hk]
    · have hname : ∀ k ∈ TokenKind.literals, k ≠ .name := by decide
      simp [Node.names, hname _ (LiteralKind.mem_literals hk)]
    · simp only [Node.ofBool, Node.names]
      simp [hk]
  | paren hl hr _ ih => simp [Node.names, hl, hr, ih]
  | @unary t o ts x ht _ ih =>
    have hname : t.kind ≠ .name := by
      intro hk
      rw [hk] at ht
      simp [TokenKind.unary?] at ht
    simp [Node.names, hname, ih]
  | binary ht _ _ ihx ihy => simp [Node.names, ht, ihx, ihy]

/-- The tokens that frames stand for. -/
inductive Pending : List Frame → List Token → Prop
  | nil : Pending [] []
  | paren {t : Token} {frames : List Frame} {ts : List Token} (ht : t.kind = .leftParen)
    (h : Pending frames ts) : Pending (.paren :: frames) (ts ++ [t])
  | unary {t : Token} {o : UnaryOperator} {frames : List Frame} {ts : List Token}
    (ht : t.kind.unary? = some o) (h : Pending frames ts) : Pending (.unary o :: frames) (ts ++ [t])
  | binary {t : Token} {o : BinaryOperator} {frames : List Frame} {ts us : List Token} {x : Node}
    (ht : t.kind = .binary o) (h : Pending frames ts) (hx : Derives us x) :
    Pending (.binary x o :: frames) (ts ++ (us ++ [t]))

/-- The tokens that a state stands for. -/
inductive Reaches : State → List Token → Prop
  | before {frames : List Frame} {ts : List Token} (h : Pending frames ts) :
    Reaches (.before frames) ts
  | behind {frames : List Frame} {ts us : List Token} {x : Node} (h : Pending frames ts)
    (hx : Derives us x) : Reaches (.behind frames x) (ts ++ us)

/-- Closing operators keeps the tokens. -/
lemma Pending.close {next : Nat} {frames rest : List Frame} {ts us : List Token} {x y : Node}
    (h : Pending frames ts) (hx : Derives us x) (hclose : close next frames x = some (rest, y)) :
    ∃ vs ws, ts ++ us = vs ++ ws ∧ Pending rest vs ∧ Derives ws y := by
  induction h generalizing us x with
  | nil =>
    obtain ⟨rfl, rfl⟩ := Prod.mk.inj (Option.some.inj hclose)
    exact ⟨[], us, rfl, .nil, hx⟩
  | paren ht h =>
    obtain ⟨rfl, rfl⟩ := Prod.mk.inj (Option.some.inj hclose)
    exact ⟨_, us, rfl, .paren ht h, hx⟩
  | unary ht h ih =>
    rw [Vhdl.close] at hclose
    split at hclose
    · obtain ⟨vs, ws, heq, hvs, hws⟩ := ih (.unary ht hx) hclose
      exact ⟨vs, ws, by rw [← heq, List.append_assoc]; rfl, hvs, hws⟩
    · obtain ⟨rfl, rfl⟩ := Prod.mk.inj (Option.some.inj hclose)
      exact ⟨_, us, rfl, .unary ht h, hx⟩
    · simp at hclose
  | binary ht h hlhs ih =>
    rw [Vhdl.close] at hclose
    split at hclose
    · obtain ⟨vs, ws, heq, hvs, hws⟩ := ih (.binary ht hlhs hx) hclose
      exact ⟨vs, ws, by rw [← heq]; simp, hvs, hws⟩
    · obtain ⟨rfl, rfl⟩ := Prod.mk.inj (Option.some.inj hclose)
      exact ⟨_, us, rfl, .binary ht h hlhs, hx⟩
    · simp at hclose

/-- One more token is one more in the state after it. -/
lemma Reaches.step {q q' : State} {ts : List Token} {t : Token} (h : Reaches q ts)
    (hstep : q.step t = some q') : Reaches q' (ts ++ [t]) := by
  cases h with
  | before h =>
    rw [State.step] at hstep
    split at hstep
    · rename_i x hx
      obtain rfl := Option.some.inj hstep
      exact .behind h (.leaf hx)
    · split at hstep
      · rename_i hparen
        obtain rfl := Option.some.inj hstep
        exact .before (.paren hparen h)
      · obtain ⟨o, ho, rfl⟩ := Option.map_eq_some_iff.mp hstep
        exact .before (.unary ho h)
  | behind h hx =>
    rw [State.step] at hstep
    split at hstep
    · rename_i o ho
      obtain ⟨⟨rest, y⟩, hclose, rfl⟩ := Option.map_eq_some_iff.mp hstep
      obtain ⟨vs, ws, heq, hvs, hws⟩ := h.close hx hclose
      rw [heq, List.append_assoc]
      exact .before (.binary ho hvs hws)
    · rename_i hparen
      split at hstep
      · rename_i rest y hclose
        obtain rfl := Option.some.inj hstep
        obtain ⟨vs, ws, heq, hvs, hws⟩ := h.close hx hclose
        cases hvs with
        | paren hl hrest =>
          rw [heq, List.append_assoc, List.append_assoc]
          exact .behind hrest (.paren hl hparen hws)
      · simp at hstep
    · simp at hstep

lemma Reaches.run {q q' : State} {ts us : List Token} (h : Reaches q ts)
    (hrun : q.run us = .ok q') : Reaches q' (ts ++ us) := by
  induction us generalizing q ts with
  | nil =>
    obtain rfl := Except.ok.inj hrun
    rwa [List.append_nil]
  | cons t us ih =>
    rw [State.run] at hrun
    split at hrun
    · rename_i p hp
      have hall := ih (h.step hp) hrun
      rwa [List.append_assoc] at hall
    · simp at hrun

lemma Reaches.finish {q : State} {ts : List Token} {x : Node} (h : Reaches q ts)
    (hfinish : q.finish? = some x) : Derives ts x := by
  cases h with
  | before h => simp [State.finish?] at hfinish
  | behind h hx =>
    unfold State.finish? at hfinish
    simp only at hfinish
    split at hfinish
    · rename_i y hclose
      obtain rfl := Option.some.inj hfinish
      obtain ⟨vs, ws, heq, hvs, hws⟩ := h.close hx hclose
      cases hvs
      rwa [heq]
    · simp at hfinish

/-- The tokens are read to their end as an expression. -/
def Parses (ts : List Token) (x : Node) : Prop :=
  ∃ q, (State.before []).run ts = .ok q ∧ q.finish? = some x

/-- What the parser builds is derived from the tokens. -/
theorem Parses.derives {ts : List Token} {x : Node} (h : Parses ts x) : Derives ts x := by
  obtain ⟨q, hrun, hfinish⟩ := h
  exact ((Reaches.before .nil).run hrun).finish hfinish

lemma State.step_alike (q : State) {t u : Token} (h : Alike t u) : q.step t = q.step u := by
  cases q with
  | before frames =>
    rw [State.step, State.step, h.leaf, h.kind]
  | behind frames x =>
    rw [State.step, State.step, h.kind]

lemma State.run_alike {q q' : State} {ts us : List Token} (h : List.Forall₂ Alike ts us)
    (hrun : q.run ts = .ok q') : q.run us = .ok q' := by
  induction h generalizing q with
  | nil => exact hrun
  | cons hhead _ ih =>
    rw [State.run] at hrun ⊢
    rw [← q.step_alike hhead]
    split at hrun
    · rename_i p hp
      exact ih hrun
    · simp at hrun

lemma Parses.alike {ts us : List Token} {x : Node} (h : Parses ts x)
    (hall : List.Forall₂ Alike ts us) : Parses us x := by
  obtain ⟨q, hrun, hfinish⟩ := h
  exact ⟨q, State.run_alike hall hrun, hfinish⟩

lemma State.run_append {q q' : State} {ts us : List Token} (h : q.run (ts ++ us) = .ok q') :
    ∃ p, q.run ts = .ok p ∧ p.run us = .ok q' := by
  induction ts generalizing q with
  | nil => exact ⟨q, rfl, h⟩
  | cons t ts ih =>
    rw [List.cons_append, State.run] at h
    rw [State.run]
    split at h
    · exact ih h
    · simp at h

lemma State.run_cons {q q' : State} {t : Token} {ts : List Token} (h : q.run (t :: ts) = .ok q') :
    ∃ p, q.step t = some p ∧ p.run ts = .ok q' := by
  rw [State.run] at h
  split at h
  · rename_i p hp
    exact ⟨p, hp, h⟩
  · simp at h

/-- Behind an operand the parser takes no name. -/
lemma State.step_behind_name {frames : List Frame} {x : Node} {t : Token} (ht : t.kind = .name) :
    (State.behind frames x).step t = none := by
  rw [State.step, ht]

/-- Behind a closing bracket the parser stands behind an operand. -/
lemma State.step_rightParen {q q' : State} {t : Token} (ht : t.kind = .rightParen)
    (h : q.step t = some q') : ∃ frames x, q' = .behind frames x := by
  cases q with
  | before frames =>
    rw [State.step, Token.leaf?, ht] at h
    simp [TokenKind.unary?] at h
  | behind frames x =>
    rw [State.step, ht] at h
    simp only at h
    split at h
    · obtain rfl := Option.some.inj h
      exact ⟨_, _, rfl⟩
    · simp at h

/-- Behind a minus stands something that does not begin with `>`, so that no arrow comes about. -/
def ArrowLess : List Token → Prop
  | [] => True
  | t :: ts =>
    (t.kind = .binary .minus →
      ∃ u us, ts = u :: us ∧ u.kind ≠ .binary .gt ∧ u.kind ≠ .binary .ge) ∧ ArrowLess ts

lemma State.step_minus {q q' : State} {t : Token} (ht : t.kind = .binary .minus)
    (h : q.step t = some q') : ∃ frames, q' = .before frames := by
  cases q with
  | before frames =>
    rw [State.step, Token.leaf?, ht] at h
    simp only [TokenKind.unary?, reduceCtorEq, if_false, Option.map_some] at h
    exact ⟨_, (Option.some.inj h).symm⟩
  | behind frames x =>
    rw [State.step, ht] at h
    obtain ⟨⟨rest, y⟩, -, heq⟩ := Option.map_eq_some_iff.mp h
    exact ⟨_, heq.symm⟩

/-- In front of an operand the parser takes no comparison. -/
lemma State.step_before_gt {frames : List Frame} {t : Token}
    (ht : t.kind = .binary .gt ∨ t.kind = .binary .ge) : (State.before frames).step t = none := by
  rw [State.step, Token.leaf?]
  rcases ht with ht | ht <;> rw [ht] <;> rfl

lemma State.run_arrowLess {q q' : State} {ts : List Token} {x : Node} (h : q.run ts = .ok q')
    (hfinish : q'.finish? = some x) : ArrowLess ts := by
  induction ts generalizing q with
  | nil => trivial
  | cons t ts ih =>
    obtain ⟨p, hp, hrun⟩ := State.run_cons h
    refine ⟨?_, ih hrun⟩
    intro ht
    obtain ⟨frames, rfl⟩ := State.step_minus ht hp
    cases ts with
    | nil =>
      obtain rfl := Except.ok.inj hrun
      simp [State.finish?] at hfinish
    | cons u us =>
      obtain ⟨p, hu, -⟩ := State.run_cons hrun
      refine ⟨u, us, rfl, ?_, ?_⟩
      · intro hk
        rw [State.step_before_gt (.inl hk)] at hu
        simp at hu
      · intro hk
        rw [State.step_before_gt (.inr hk)] at hu
        simp at hu

/-- A finished expression ends behind an operand. -/
lemma State.exists_behind {q : State} {x : Node} (h : q.finish? = some x) :
    ∃ frames y, q = .behind frames y := by
  cases q with
  | before frames => simp [State.finish?] at h
  | behind frames y => exact ⟨frames, y, rfl⟩

end TimedReq.Vhdl
