import TimedReq.Proofs.Vhdl.Printing
import TimedReq.Proofs.Vhdl.WellFormed

/-!
# What the parser builds respects the levels of operators

A pending operator is closed just if it takes the operand from the one that follows. So the frames
hold well-formed trees that may become operands of one another, and so does what is returned.
-/

namespace TimedReq.Vhdl

open Text Lexeme

/-- A single token that is an operand by itself is a well-formed tree without operators. -/
lemma Token.leaf?_spec {t : Token} {x : Node} (ht : Alone t.kind t.text) (hx : t.leaf? = some x) :
    x.WellFormed ∧ x.leftLevels = [] ∧ x.rightLevels = [] := by
  obtain ⟨hk, rfl⟩ | ⟨kind, hk, rfl⟩ | ⟨value, -, rfl⟩ := Token.leaf?_cases hx
  · obtain ⟨hname, hword⟩ := alone_name.mp (hk ▸ ht)
    exact ⟨.name hname hword, rfl, rfl⟩
  · exact ⟨.literal ((LiteralKind.alone_iff hk).mp ht), rfl, rfl⟩
  · exact ⟨.ofBool value, rfl, rfl⟩

/-- The innermost frame leaves its operand to an operator of the level. -/
def Admits : List Frame → Nat → Prop
  | .unary o :: _, k => TakesRight o.level k
  | .binary _ o :: _, k => TakesRight o.level k
  | _, _ => True

/-- The tree may become the operand of the innermost frame. -/
structure Fits (frames : List Frame) (x : Node) : Prop where
  wellFormed : x.WellFormed
  admits : ∀ k ∈ x.leftLevels, Admits frames k

/-- The left operands in the frames are well-formed, and each operation that is begun may become
the operand of the frame below it. -/
inductive Sound : List Frame → Prop
  | nil : Sound []
  | paren {frames : List Frame} (h : Sound frames) : Sound (.paren :: frames)
  | unary (o : UnaryOperator) {frames : List Frame} (h : Sound frames) : Sound (.unary o :: frames)
  | binary (o : BinaryOperator) {lhs : Node} {frames : List Frame} (h : Sound frames)
    (hfits : Fits frames lhs) (hadmits : Admits frames o.level)
    (hright : ∀ k ∈ lhs.rightLevels, TakesLeft k o.level) : Sound (.binary lhs o :: frames)

/-- What closing operators keeps: the frames that are left, and an operand in which all operators
at the right edge take their operands from an operator of the level. -/
structure ReadyFor (next : Nat) (frames : List Frame) (x : Node) : Prop where
  sound : Sound frames
  fits : Fits frames x
  takesLeft : ∀ k ∈ x.rightLevels, TakesLeft k next

/-- An operation in front of an operand is closed. -/
lemma ReadyFor.unary {next : Nat} {o : UnaryOperator} {frames : List Frame} {x : Node}
    (h : ReadyFor next (.unary o :: frames) x) (ho : TakesLeft o.level next) :
    ReadyFor next frames (.unary o.word x) := by
  obtain ⟨hsound, ⟨hx, hadmits⟩, hright⟩ := h
  cases hsound with
  | unary _ hframes =>
    refine ⟨hframes, ⟨.unary (Precedence.lookup_unary o) hx hadmits, by simp⟩, ?_⟩
    simpa using ⟨ho, hright⟩

/-- An operation with two operands is closed. -/
lemma ReadyFor.binary {next : Nat} {o : BinaryOperator} {frames : List Frame} {lhs x : Node}
    (h : ReadyFor next (.binary lhs o :: frames) x) (ho : TakesLeft o.level next) :
    ReadyFor next frames (.binary o.sort o.word lhs x) := by
  obtain ⟨hsound, ⟨hx, hadmits⟩, hright⟩ := h
  cases hsound with
  | binary _ hframes hfits ho' hlhs =>
    have hlookup := Precedence.lookup_binary o
    refine ⟨hframes, ⟨.binary hlookup hfits.wellFormed hx hlhs hadmits, ?_⟩, ?_⟩
    · simpa using ⟨ho', hfits.admits⟩
    · simpa using ⟨ho, hright⟩

/-- Closing operators keeps the invariant, and the frame that is left admits the operator. -/
lemma ReadyFor.close {next : Nat} {frames rest : List Frame} {x y : Node} (h : ReadyFor next frames x)
    (hclose : close next frames x = some (rest, y)) : ReadyFor next rest y ∧ Admits rest next := by
  induction frames generalizing x with
  | nil =>
    obtain ⟨rfl, rfl⟩ := Prod.mk.inj (Option.some.inj hclose)
    exact ⟨h, trivial⟩
  | cons frame frames ih =>
    cases frame with
    | paren =>
      obtain ⟨rfl, rfl⟩ := Prod.mk.inj (Option.some.inj hclose)
      exact ⟨h, trivial⟩
    | unary o =>
      rw [Vhdl.close] at hclose
      split at hclose
      · rename_i hcontest
        exact ih (h.unary ((Contest.ofLevels_eq_left o.level_bounds).mp hcontest)) hclose
      · rename_i hcontest
        obtain ⟨rfl, rfl⟩ := Prod.mk.inj (Option.some.inj hclose)
        exact ⟨h, (Contest.ofLevels_eq_right o.level_bounds).mp hcontest⟩
      · simp at hclose
    | binary lhs o =>
      rw [Vhdl.close] at hclose
      split at hclose
      · rename_i hcontest
        exact ih (h.binary ((Contest.ofLevels_eq_left o.level_bounds).mp hcontest)) hclose
      · rename_i hcontest
        obtain ⟨rfl, rfl⟩ := Prod.mk.inj (Option.some.inj hclose)
        exact ⟨h, (Contest.ofLevels_eq_right o.level_bounds).mp hcontest⟩
      · simp at hclose

/-- The invariant of the parser: an operand that was read last has no operator at an edge. -/
inductive State.Sound : State → Prop
  | before {frames : List Frame} (h : Vhdl.Sound frames) : State.Sound (.before frames)
  | behind {frames : List Frame} {x : Node} (h : Vhdl.Sound frames) (hx : x.WellFormed)
    (hleft : x.leftLevels = []) (hright : x.rightLevels = []) : State.Sound (.behind frames x)

lemma State.Sound.readyFor {frames : List Frame} {x : Node} (h : State.Sound (.behind frames x))
    (next : Nat) : ReadyFor next frames x := by
  cases h with
  | behind h hx hleft hright => exact ⟨h, ⟨hx, by simp [hleft]⟩, by simp [hright]⟩

/-- Each token keeps the invariant. -/
lemma State.Sound.step {q q' : State} {t : Token} (h : q.Sound) (ht : Alone t.kind t.text)
    (hstep : q.step t = some q') : q'.Sound := by
  cases q with
  | before frames =>
    cases h with
    | before hframes =>
      rw [State.step] at hstep
      split at hstep
      · rename_i x hx
        obtain rfl := Option.some.inj hstep
        obtain ⟨hwell, hleft, hright⟩ := Token.leaf?_spec ht hx
        exact .behind hframes hwell hleft hright
      · split at hstep
        · obtain rfl := Option.some.inj hstep
          exact .before (.paren hframes)
        · obtain ⟨o, -, rfl⟩ := Option.map_eq_some_iff.mp hstep
          exact .before (.unary o hframes)
  | behind frames x =>
    rw [State.step] at hstep
    split at hstep
    · rename_i o ho
      obtain ⟨⟨rest, y⟩, hclose, rfl⟩ := Option.map_eq_some_iff.mp hstep
      obtain ⟨hready, hadmits⟩ := (h.readyFor o.level).close hclose
      exact .before (.binary o hready.sound hready.fits hadmits hready.takesLeft)
    · split at hstep
      · rename_i rest y hclose
        obtain rfl := Option.some.inj hstep
        obtain ⟨⟨hsound, hfits, -⟩, -⟩ := (h.readyFor 0).close hclose
        cases hsound with
        | paren hrest => exact .behind hrest (.paren hfits.wellFormed) rfl rfl
      · simp at hstep
    · simp at hstep

/-- A run over tokens keeps the invariant. -/
lemma State.Sound.run {q q' : State} {ts : List Token} (h : q.Sound)
    (hts : ∀ t ∈ ts, Alone t.kind t.text) (hrun : q.run ts = .ok q') : q'.Sound := by
  induction ts generalizing q with
  | nil =>
    obtain rfl := Except.ok.inj hrun
    exact h
  | cons t ts ih =>
    obtain ⟨p, hp, hrest⟩ := State.run_cons hrun
    exact ih (h.step (hts t List.mem_cons_self) hp)
      (fun u hu => hts u (List.mem_cons_of_mem t hu)) hrest

/-- What the parser builds respects the levels of operators. -/
theorem Parses.wellFormed {ts : List Token} {x : Node} (h : Parses ts x)
    (hts : ∀ t ∈ ts, Alone t.kind t.text) : x.WellFormed := by
  obtain ⟨q, hrun, hfinish⟩ := h
  have hsound := (State.Sound.before .nil).run hts hrun
  obtain ⟨frames, y, rfl⟩ := State.exists_behind hfinish
  unfold State.finish? at hfinish
  simp only at hfinish
  split at hfinish
  · rename_i z hclose
    obtain rfl := Option.some.inj hfinish
    exact ((hsound.readyFor 0).close hclose).1.fits.wellFormed
  · simp at hfinish

end TimedReq.Vhdl
