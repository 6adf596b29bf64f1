import TimedReq.Proofs.Vhdl.Precedence

/-!
# All trees that respect the levels of operators are read

From the tokens of such a tree the parser builds the tree, in whatever frames it begins: behind the
tokens, closing leads to where closing from the tree itself would lead.
-/

namespace TimedReq.Vhdl

open Text Lexeme

lemma Token.leaf?_of_literal {kind : LiteralKind} {k : TokenKind} (hk : kind.tokenKind? = some k)
    (x : Text) : Token.leaf? ⟨k, x, 0, 0⟩ = some (.literal kind x) := by
  cases kind with
  | boolean => simp [LiteralKind.tokenKind?] at hk
  | integer | real | character | string | bitString =>
    obtain rfl := Option.some.inj hk
    rfl

/-- A well-formed tree has tokens. -/
lemma Node.WellFormed.exists_tokens {x : Node} (h : x.WellFormed) :
    ∃ ts, Derives ts x ∧ ∀ t ∈ ts, Alone t.kind t.text := by
  induction h with
  | @name x hx hword =>
    exact ⟨[⟨.name, x, 0, 0⟩], .leaf rfl, by simpa using alone_name.mpr ⟨hx, hword⟩⟩
  | @literal kind x hx =>
    cases hk : kind.tokenKind? with
    | some k =>
      exact ⟨[⟨k, x, 0, 0⟩], .leaf (Token.leaf?_of_literal hk x),
        by simpa using (LiteralKind.alone_iff hk).mpr hx⟩
    | none =>
      obtain rfl : kind = .boolean := by cases kind <;> simp [LiteralKind.tokenKind?] at hk ⊢
      rcases hx with rfl | rfl
      · exact ⟨[⟨.boolean true, "true".toList, 0, 0⟩], .leaf rfl, by decide⟩
      · exact ⟨[⟨.boolean false, "false".toList, 0, 0⟩], .leaf rfl, by decide⟩
  | @paren x _ ih =>
    obtain ⟨ts, hts, halone⟩ := ih
    have hbrackets : Alone .leftParen ['('] ∧ Alone .rightParen [')'] := ⟨rfl, rfl⟩
    refine ⟨⟨.leftParen, ['('], 0, 0⟩ :: (ts ++ [⟨.rightParen, [')'], 0, 0⟩]), .paren rfl rfl hts, ?_⟩
    simp only [List.mem_cons, List.mem_append, List.not_mem_nil, or_false]
    rintro t (rfl | ht | rfl)
    · exact hbrackets.1
    · exact halone t ht
    · exact hbrackets.2
  | unary hn _ _ ih =>
    obtain ⟨o, rfl, -⟩ := Precedence.exists_unary hn
    obtain ⟨ts, hts, halone⟩ := ih
    have hkind : o.kind.unary? = some o := by cases o <;> rfl
    refine ⟨⟨o.kind, o.word, 0, 0⟩ :: ts, .unary hkind hts, ?_⟩
    exact List.forall_mem_cons.mpr ⟨next?_unary o, halone⟩
  | binary hn _ _ _ _ ihx ihy =>
    obtain ⟨o, rfl, rfl, -⟩ := Precedence.exists_binary hn
    obtain ⟨ts, hts, hxalone⟩ := ihx
    obtain ⟨us, hus, hyalone⟩ := ihy
    refine ⟨ts ++ ⟨.binary o, o.word, 0, 0⟩ :: us, .binary rfl hts hus, ?_⟩
    simp only [List.mem_cons, List.mem_append]
    rintro t (ht | rfl | ht)
    · exact hxalone t ht
    · exact next?_binary o
    · exact hyalone t ht

/-- Behind the tokens of a tree, closing operators in front of one to which the tree leaves no
operand leads to where it leads from the tree. -/
def Represents (q : State) (frames : List Frame) (x : Node) : Prop :=
  ∃ rest y, q = .behind rest y ∧ ∀ next, (∀ k ∈ x.rightLevels, TakesLeft k next) →
    close next rest y = close next frames x

lemma State.run_trans {q p : State} {ts us : List Token} (h : q.run ts = .ok p) :
    q.run (ts ++ us) = p.run us := by
  induction ts generalizing q with
  | nil =>
    obtain rfl := Except.ok.inj h
    rfl
  | cons t ts ih =>
    obtain ⟨p', hp', hrun⟩ := State.run_cons h
    rw [List.cons_append, State.run, hp']
    exact ih hrun

lemma State.step_leftParen (frames : List Frame) {t : Token} (ht : t.kind = .leftParen) :
    (State.before frames).step t = some (.before (.paren :: frames)) := by
  rw [State.step, Token.leaf?, ht]
  rfl

lemma State.step_unary (frames : List Frame) {t : Token} {o : UnaryOperator}
    (ht : t.kind.unary? = some o) :
    (State.before frames).step t = some (.before (.unary o :: frames)) := by
  rw [State.step, leaf?_of_unary ht]
  simp only
  rw [if_neg (by rw [TokenKind.eq_of_unary? ht]; cases o <;> simp [UnaryOperator.kind]), ht]
  rfl

lemma close_of_takesRight {frames : List Frame} {x : Node} {next : Nat}
    (h : Admits frames next) : close next frames x = some (frames, x) := by
  cases frames with
  | nil => rfl
  | cons frame frames =>
    cases frame with
    | paren => rfl
    | unary o =>
      rw [close, (Contest.ofLevels_eq_right o.level_bounds).mpr h]
    | binary lhs o =>
      rw [close, (Contest.ofLevels_eq_right o.level_bounds).mpr h]

/-- The parser builds a well-formed tree from its tokens, in frames that the tree fits. -/
theorem Node.WellFormed.exists_run {ts : List Token} {x : Node} (hx : x.WellFormed)
    (h : Derives ts x) (frames : List Frame) (hfits : ∀ k ∈ x.leftLevels, Admits frames k) :
    ∃ q, (State.before frames).run ts = .ok q ∧ Represents q frames x := by
  induction h generalizing frames with
  | @leaf t x ht =>
    refine ⟨.behind frames x, ?_, frames, x, rfl, fun _ _ => rfl⟩
    rw [State.run, State.step, ht]
    rfl
  | @paren l r ts x hl hr _ ih =>
    have hinner := hx.of_paren
    obtain ⟨q, hrun, rest, y, rfl, hclose⟩ := ih hinner (.paren :: frames) (fun _ _ => trivial)
    have hzero : ∀ k ∈ x.rightLevels, TakesLeft k 0 :=
      fun k hk => .inl (hinner.rightLevels_pos k hk)
    refine ⟨.behind frames (.paren x), ?_, frames, .paren x, rfl, fun _ _ => rfl⟩
    rw [State.run, State.step_leftParen frames hl]
    simp only
    rw [State.run_trans hrun, State.run, State.step, hr]
    simp only
    rw [hclose 0 hzero]
    rfl
  | @unary t o ts x ht _ ih =>
    obtain ⟨hinner, hleft⟩ := hx.of_unary
    obtain ⟨q, hrun, rest, y, rfl, hclose⟩ := ih hinner (.unary o :: frames) hleft
    refine ⟨_, ?_, rest, y, rfl, ?_⟩
    · rw [State.run, State.step_unary frames ht]
      exact hrun
    · intro next hright
      rw [Node.rightLevels_unary, List.forall_mem_cons] at hright
      rw [hclose next hright.2, close, (Contest.ofLevels_eq_left o.level_bounds).mpr hright.1]
  | @binary t o ts us x z ht _ _ ihx ihz =>
    obtain ⟨hlhs, hrhs, hright, hleft⟩ := hx.of_binary
    rw [Node.leftLevels_binary, List.forall_mem_cons] at hfits
    obtain ⟨q, hrun, rest, y, rfl, hclose⟩ := ihx hlhs frames hfits.2
    obtain ⟨q', hrun', rest', y', rfl, hclose'⟩ :=
      ihz hrhs (.binary x o :: frames) hleft
    refine ⟨_, ?_, rest', y', rfl, ?_⟩
    · rw [State.run_trans hrun, State.run, State.step, ht]
      simp only
      rw [hclose o.level hright, close_of_takesRight hfits.1]
      exact hrun'
    · intro next hnext
      rw [Node.rightLevels_binary, List.forall_mem_cons] at hnext
      rw [hclose' next hnext.2, close, (Contest.ofLevels_eq_left o.level_bounds).mpr hnext.1]

/-- The parser builds a well-formed tree from its tokens. -/
lemma Node.WellFormed.parses {ts : List Token} {x : Node} (hx : x.WellFormed)
    (h : Derives ts x) : Parses ts x := by
  obtain ⟨q, hrun, rest, y, rfl, hclose⟩ := hx.exists_run h [] (fun _ _ => trivial)
  have hzero : ∀ k ∈ x.rightLevels, TakesLeft k 0 := fun k hk => .inl (hx.rightLevels_pos k hk)
  refine ⟨_, hrun, ?_⟩
  unfold State.finish?
  simp only
  rw [hclose 0 hzero]
  rfl

/-- A text is read as the tree that respects the levels of operators and has the tokens of the
text. -/
theorem parse_eq_ok_iff {s : Text} {x : Node} :
    parse s = .ok x ↔ x.WellFormed ∧ ∃ ts, Lexes (trim s) ts ∧ Derives ts x := by
  rw [parse_eq_ok]
  constructor
  · rintro ⟨ts, hlexes, hparses⟩
    exact ⟨hparses.wellFormed hlexes.alone, ts, hlexes, hparses.derives⟩
  · rintro ⟨hx, ts, hlexes, hderives⟩
    exact ⟨ts, hlexes, hx.parses hderives⟩

/-- The trees that are read are those that respect the levels of operators, and each of them is
read from its canonical text. -/
theorem wellFormed_iff_exists_parse (x : Node) :
    (x.WellFormed ↔ ∃ s, parse s = .ok x) ∧ (x.WellFormed ↔ parse x.print = .ok x) := by
  have hprint : x.WellFormed → parse x.print = .ok x := by
    intro hx
    obtain ⟨ts, hderives, halone⟩ := hx.exists_tokens
    obtain ⟨us, halike, hlexes⟩ := hderives.lexes_print halone (r := []) trivial
    obtain ⟨-, hhead, hlast⟩ := hderives.print_ends halone
    have hback := hlexes [] .nil
    rw [List.append_nil, List.append_nil] at hback
    refine parse_eq_ok.mpr ⟨us, ?_, (hx.parses hderives).alike halike⟩
    rwa [trim_eq_self hhead hlast]
  have hparse : ∀ s, parse s = .ok x → x.WellFormed := fun s h => (parse_eq_ok_iff.mp h).1
  exact ⟨⟨fun h => ⟨x.print, hprint h⟩, fun ⟨s, h⟩ => hparse s h⟩, hprint, hparse x.print⟩

/-- A product in a sum in a comparison is read, and a comparison in a comparison is not, on neither
side. -/
theorem wellFormed_iff_exists_parse_comparisons :
    let a := Node.name ['a']
    let b := Node.name ['b']
    let c := Node.name ['c']
    let product := Node.binary .arithmetic ['*'] b c
    let sum := Node.binary .arithmetic ['+'] a product
    let equation := Node.binary .comparison ['='] sum (.literal .integer ['1'])
    parse "a + b * c = 1".toList = .ok equation ∧
      (¬∃ s, parse s = .ok (.binary .comparison ['='] (.binary .comparison ['='] a b) c)) ∧
      ¬∃ s, parse s = .ok (.binary .comparison ['='] a (.binary .comparison ['='] b c)) := by
  intro a b c product sum equation
  have hname : ∀ {x}, Alone .name x → (Node.name x).WellFormed := fun h =>
    .name (alone_name.mp h).1 (alone_name.mp h).2
  have hone : (Node.literal .integer ['1']).WellFormed :=
    .literal ((LiteralKind.alone_iff (k := .integer) rfl).mp (by decide))
  have hproduct : product.WellFormed :=
    .binary (n := 4) rfl (hname (by decide)) (hname (by decide)) (by decide) (by decide)
  have hsum : sum.WellFormed :=
    .binary (n := 3) rfl (hname (by decide)) hproduct (by decide) (by decide)
  have hequation : equation.WellFormed :=
    .binary (n := 2) rfl hsum hone (by decide) (by decide)
  refine ⟨(wellFormed_iff_exists_parse equation).2.mp hequation, fun h => ?_, fun h => ?_⟩
  · have hleft := ((wellFormed_iff_exists_parse _).1.mpr h).of_binary (o := .eq)
    exact absurd (hleft.2.2.1 2 (by decide)) (by decide)
  · have hright := ((wellFormed_iff_exists_parse _).1.mpr h).of_binary (o := .eq)
    exact absurd (hright.2.2.2 2 (by decide)) (by decide)

end TimedReq.Vhdl
