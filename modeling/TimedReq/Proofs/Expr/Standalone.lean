import TimedReq.Proofs.Bound.Statement
import TimedReq.Proofs.Expr.Cases

/-!
# Forms with readers of their own

A bounded expression alone is read up to the last character of the text, whereas among other
expressions its statements end at the first closing brace behind them. No readable statement has a
closing brace in it, so both find the same statements, and the reader of expressions gives a bounded
expression or a quantified path just if the reader of that form gives it.
-/

namespace TimedReq

open Text

variable {α : Type} {L : Embedding α} {s : Text}

/-- Statements that make up the text to its last character have no closing brace in them. -/
lemma Statement.listRule_eq_ok {sts : List Statement} : listRule s = .ok sts ↔
    ∃ x y t z, s = x ++ '_' :: (y ++ '{' :: (t ++ '}' :: z)) ∧ AllBlank x ∧ AllBlank y ∧ AllBlank z ∧
      '}' ∉ t ∧ parseAll (pieces (· == ',') (trimEnd t)) = .ok sts := by
  constructor
  · intro h
    obtain ⟨x, z, hx, hz, hs⟩ := exists_trim s
    have h' := h
    unfold listRule at h'
    split at h'
    · rename_i rest htrim
      split at h'
      · rename_i hlast
        obtain ⟨front, rfl⟩ := List.getLast?_eq_some_iff.mp hlast
        obtain ⟨y, v, hy, hv, hfront⟩ := exists_trim front
        rw [List.dropLast_concat] at h'
        split at h'
        · rename_i inner hinner
          rw [hinner] at hfront
          have hwhole : s = x ++ '_' :: (y ++ '{' :: ((inner ++ v) ++ '}' :: z)) := by
            rw [hs, htrim, hfront]
            simp
          rw [hwhole, listRule_padded hx hy hz] at h
          have hplain := isPlain_of_parseAll_trimEnd h
          exact ⟨x, y, inner ++ v, z, hwhole, hx, hy, hz, fun hmem => (hplain _ hmem).2.2.2.2.2 rfl, h⟩
        · exact absurd h' (Reading.malformed_ne_ok sts)
      · exact absurd h' (Reading.malformed_ne_ok sts)
    · exact absurd h' (Reading.malformed_ne_ok sts)
  · rintro ⟨x, y, t, z, rfl, hx, hy, hz, -, h⟩
    rwa [listRule_padded hx hy hz]

/-- How a bounded expression that makes up the whole text is read. -/
lemma BoundedExpr.rule_eq_ok {body : Text → Reading (Expr α)} {b : BoundedExpr α} :
    BoundedExpr.rule body s = .ok b ↔ ∃ t inner x y sts rest, trim s = '{' :: t ∧
      splitGroup? ('{' :: t) = some (inner, x ++ '_' :: (y ++ '{' :: (sts ++ '}' :: rest))) ∧
      AllBlank x ∧ AllBlank y ∧ AllBlank rest ∧ '}' ∉ sts ∧ body inner = .ok b.body ∧
      Statement.parseAll (pieces (· == ',') (trimEnd sts)) = .ok (b.first :: b.more) := by
  have hparts : ∀ {inner after : Text}, splitGroup? (trim s) = some (inner, after) →
      (trim s).head? = some '{' →
      BoundedExpr.rule body s = ofParts (body inner) (Statement.listRule after) := by
    intro inner after hcut hhead
    unfold BoundedExpr.rule
    rw [if_pos hhead, hcut]
    rfl
  constructor
  · intro h
    have h' := h
    unfold BoundedExpr.rule at h'
    simp only at h'
    split at h'
    · rename_i hhead
      obtain ⟨t, ht⟩ := List.head?_eq_some_iff.mp hhead
      split at h'
      · rename_i inner after hcut
        rw [hparts hcut hhead, ofParts_eq_ok, Statement.listRule_eq_ok] at h
        obtain ⟨hbody, x, y, sts, rest, rfl, hx, hy, hrest, hsts, hparse⟩ := h
        rw [ht] at hcut
        exact ⟨t, inner, x, y, sts, rest, ht, hcut, hx, hy, hrest, hsts, hbody, hparse⟩
      · exact absurd h' (Reading.malformed_ne_ok b)
    · exact absurd h' (Reading.malformed_ne_ok b)
  · rintro ⟨t, inner, x, y, sts, rest, ht, hcut, hx, hy, hrest, hsts, hbody, hparse⟩
    rw [hparts (ht ▸ hcut) (by rw [ht]; rfl), ofParts_eq_ok, Statement.listRule_eq_ok]
    exact ⟨hbody, x, y, sts, rest, rfl, hx, hy, hrest, hsts, hparse⟩

section

variable {one two three : Text → Reading (Expr α)}

/-- The rule of expressions gives a bounded expression just if it makes up the whole text. -/
lemma Expr.rule_eq_ok_ofBounded {b : BoundedExpr α} :
    Expr.rule L one two three s = .ok (ofBounded b) ↔ BoundedExpr.rule three s = .ok b := by
  rw [TimedReq.rule_eq_ok, BoundedExpr.rule_eq_ok]
  constructor
  · intro h
    generalize ht : trim s = t at h
    cases h with
    | bounded hcut hx hy hsts hbody hparse hrest =>
      exact ⟨_, _, _, _, _, _, rfl, hcut, hx, hy, allBlank_of_trim_eq_nil hrest, hsts, hbody, hparse⟩
  · rintro ⟨t, inner, x, y, sts, rest, ht, hcut, hx, hy, hrest, hsts, hbody, hparse⟩
    rw [ht]
    exact .bounded hcut hx hy hsts hbody hparse (trim_of_allBlank hrest)

/-- The rule of expressions gives a quantified path just if the rule of these does. -/
lemma Expr.rule_eq_ok_ofBranch {q : BranchExpr α} :
    Expr.rule L one two three s = .ok (ofBranch q) ↔ BranchExpr.rule three s = .ok q := by
  rw [TimedReq.rule_eq_ok, BranchExpr.rule_eq_ok]
  constructor
  · intro h
    generalize trim s = t at h
    obtain ⟨b, ⟨m, body⟩ | ⟨u, lhs, rhs⟩⟩ := q
    · cases h with
      | along hbranch hmodality hbody =>
        exact ⟨_, _, _, hbranch, PathExpr.rule_eq_ok.mpr (.inl ⟨_, _, _, hmodality, hbody, rfl⟩), rfl⟩
    · cases h with
      | «until» hbranch hmodality hcut hlhs hrhs =>
        exact ⟨_, _, _, hbranch, PathExpr.rule_eq_ok.mpr
          (.inr ⟨hmodality, _, _, _, _, _, hcut, hlhs, hrhs, rfl⟩), rfl⟩
  · rintro ⟨b, rest, path, hleading, hpath, rfl⟩
    obtain ⟨m, right, body, hm, hbody, rfl⟩ | ⟨hm, left, u, right, lhs, rhs, hcut, hl, hr, rfl⟩ :=
      PathExpr.rule_eq_ok.mp hpath
    · exact .along hleading hm hbody
    · exact .until hleading hm hcut hl hr

end

/-- An operand of a quantified path is read. -/
lemma BranchExpr.exists_operand {operand : Text → Reading (Expr α)} {q : BranchExpr α}
    (h : BranchExpr.rule operand s = .ok q) : ∃ t x, operand t = .ok x := by
  obtain ⟨b, rest, path, -, hpath, rfl⟩ := BranchExpr.rule_eq_ok.mp h
  obtain ⟨m, right, body, -, hbody, -⟩ | ⟨-, left, u, right, lhs, rhs, -, hl, -, -⟩ :=
    PathExpr.rule_eq_ok.mp hpath
  · exact ⟨right, body, hbody⟩
  · exact ⟨left, lhs, hl⟩

/-- What is read is read by the rule with one level and more. -/
lemma Expr.readLevels_eq_ok {n : Nat} {e : Expr α} : readLevels L n s = .ok e ↔
    0 < n ∧ Expr.rule L (readLevels L (n - 1)) (readLevels L (n - 2)) (readLevels L (n - 3)) s =
      .ok e := by
  cases n with
  | zero =>
    rw [readLevels]
    simp [Reading.malformed_ne_ok]
  | succ n =>
    rw [readLevels]
    exact (and_iff_right n.succ_pos).symm

/-- The readers of bounded expressions and of quantified paths agree with the reader of expressions,
which needs two levels more for the former and one more for the latter. -/
theorem Expr.read_alone_iff (m : Int) (s : Text) :
    (∀ b, BoundedExpr.read L m s = .ok b ↔ Expr.read L (m + 2) s = .ok (ofBounded b)) ∧
      ∀ q, BranchExpr.read L m s = .ok q ↔ Expr.read L (m + 1) s = .ok (ofBranch q) := by
  have htwo : levels (m + 2) - 3 = levels m - 1 ∧ (0 < levels m - 1 → 0 < levels (m + 2)) := by
    unfold levels
    omega
  have hone : levels (m + 1) - 3 = levels m - 2 ∧ (0 < levels m - 2 → 0 < levels (m + 1)) := by
    unfold levels
    omega
  constructor
  · intro b
    rw [Expr.read, readLevels_eq_ok, rule_eq_ok_ofBounded, htwo.1]
    refine ⟨fun h => ⟨htwo.2 ?_, h⟩, And.right⟩
    obtain ⟨-, inner, -, -, -, -, -, -, -, -, -, -, hbody, -⟩ := BoundedExpr.rule_eq_ok.mp h
    exact (readLevels_eq_ok.mp hbody).1
  · intro q
    rw [Expr.read, readLevels_eq_ok, rule_eq_ok_ofBranch, hone.1]
    refine ⟨fun h => ⟨hone.2 ?_, h⟩, And.right⟩
    obtain ⟨t, x, hoperand⟩ := BranchExpr.exists_operand h
    exact (readLevels_eq_ok.mp hoperand).1

/-- Blanks around the underscore and two statements: one bound below, nothing is read any more. -/
theorem Expr.read_alone_iff_quantified :
    let text := "\x7bA G a = '1'\x7d _ \x7bt < 5 ns, E >= 2 mJ\x7d".toList
    let q : BranchExpr Vhdl.Node := ⟨.all, .along .globally
      (predicate (.ofBinary .comparison ['='] (.name ['a']) (.ofBit ['1'])))⟩
    let b : BoundedExpr Vhdl.Node :=
      ⟨ofBranch q, ⟨.lt, ⟨5, ⟨.time, .nano⟩⟩⟩, [⟨.ge, ⟨2, ⟨.energy, .milli⟩⟩⟩]⟩
    BoundedExpr.read .vhdl 4 text = .ok b ∧ Expr.read .vhdl 6 text = .ok (ofBounded b) ∧
      BoundedExpr.read .vhdl 3 text ≠ .ok b ∧ Expr.read .vhdl 5 text ≠ .ok (ofBounded b) ∧
      BranchExpr.read .vhdl 2 "A G a = '1'".toList = .ok q ∧
      Expr.read .vhdl 3 "A G a = '1'".toList = .ok (ofBranch q) := by
  intro text q b
  have hread : BoundedExpr.read .vhdl 4 text = .ok b := by decide +kernel
  have hless : BoundedExpr.read .vhdl 3 text ≠ .ok b := by decide +kernel
  have hbranch : BranchExpr.read .vhdl 2 "A G a = '1'".toList = .ok q := by decide +kernel
  exact ⟨hread, ((read_alone_iff 4 text).1 b).mp hread, hless,
    fun h => hless (((read_alone_iff 3 text).1 b).mpr h), hbranch,
    ((read_alone_iff 2 _).2 q).mp hbranch⟩

end TimedReq
