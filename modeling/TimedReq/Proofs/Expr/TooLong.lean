import TimedReq.Proofs.Expr.RowReading

/-!
# Amounts that are too long

A bound whose amount has more digits than are read is not malformed: the statement and the bounded
expression in which it stands are refused for the number of digits, whatever else is in them.
-/

namespace TimedReq

open Text

/-- A bound whose amount has too many digits is refused for them. -/
lemma Bound.parse_of_long {w : Text} (hw : ∀ c ∈ w, isAsciiDigit c = true)
    (hlong : Number.digitLimit < w.length) (u : PhysicalUnit) :
    parse (' ' :: (w ++ ' ' :: u.token)) = .error (.tooLong w.length) := by
  have hne : w ≠ [] := by
    rintro rfl
    simp at hlong
  have hspace : AllBlank [' '] := .cons rfl .nil
  have hwords : words (' ' :: (w ++ ' ' :: u.token)) = [w, u.token] := by
    have hpair := words_pair hspace (fun c hc => Number.not_blank_of_isAsciiDigit (hw c hc)) hne
      hspace (by simp) (fun c hc => (u.token_spec.2 c hc).2) u.token_spec.1 .nil
    rwa [List.append_nil] at hpair
  rw [parse_of_words hwords hw, Number.ofDigitsWithin, Number.length_digitValues hw,
    if_neg (by omega)]
  rfl

namespace Statement

/-- A statement that bounds a time by an amount. -/
def ofAmount (w : Text) (u : PhysicalUnit) : Text :=
  't' :: ' ' :: '<' :: ' ' :: (w ++ ' ' :: u.token)

section

variable {w : Text} (hw : ∀ c ∈ w, isAsciiDigit c = true) (u : PhysicalUnit)

include hw in
lemma mem_ofAmount {c : Char} (hc : c ∈ ofAmount w u) : isBoundChar c = true ∨ c = '<' := by
  simp only [ofAmount, List.mem_cons, List.mem_append] at hc
  rcases hc with rfl | rfl | rfl | rfl | hc | rfl | hc
  · exact .inl rfl
  · exact .inl rfl
  · exact .inr rfl
  · exact .inl rfl
  · exact .inl (by rw [isBoundChar, hw c hc, Bool.true_or, Bool.true_or])
  · exact .inl rfl
  · exact .inl (by rw [isBoundChar, (u.token_spec.2 c hc).1, Bool.or_true, Bool.true_or])

lemma trim_ofAmount : trim (ofAmount w u) = ofAmount w u := by
  obtain ⟨token, last, hlast, hblank⟩ := u.exists_token_eq_append
  refine trim_of_ends rfl hblank
    (t := 't' :: ' ' :: '<' :: ' ' :: (w ++ ' ' :: token)) ?_
  simp [hlast]

include hw

/-- A statement is refused with its bound. -/
lemma parse_of_long (hlong : Number.digitLimit < w.length) :
    parse (ofAmount w u) = .error (.tooLong w.length) := by
  have hbound := Bound.parse_of_long hw hlong u
  have hright := not_mem_alphabet_of_bound (t := ' ' :: (w ++ ' ' :: u.token)) (by
    rw [hbound]
    simp [Reading.malformed])
  have hleft : ∀ c ∈ ['t', ' '], c ∉ Comparison.alphabet := by decide
  have hsplit : splitOn Comparison.lt.symbol (ofAmount w u) =
      [['t', ' '], ' ' :: (w ++ ' ' :: u.token)] := splitOn_comparison .lt hleft hright
  have hown : parseAt .lt (ofAmount w u) = .error (.tooLong w.length) := by
    unfold parseAt
    rw [hsplit]
    simp only [hbound]
    rfl
  unfold parse
  rw [trim_ofAmount, Comparison.all, parseWith, hown]
  rfl

lemma parseAll_of_long (hlong : Number.digitLimit < w.length) :
    parseAll (pieces (· == ',') (trimEnd (ofAmount w u))) = .error (.tooLong w.length) := by
  have hcomma : ∀ c ∈ ofAmount w u, (c == ',') = false := by
    intro c hc
    rw [beq_eq_false_iff_ne]
    rintro rfl
    exact (mem_ofAmount hw u hc).elim (fun h => absurd h (by decide)) fun h => absurd h (by decide)
  rw [trimEnd_of_trim_eq (trim_ofAmount u), pieces_of_forall hcomma, parseAll,
    parse_of_long hw u hlong]

end

end Statement

variable {α : Type} {L : Embedding α} {m : Int}

/-- A bounded expression is refused with its statement. -/
lemma Expr.read_of_long {v w : Text} {e : Expr α} (hv : Neutral v)
    (hbody : readLevels L (levels m - 3) v = .ok e) (hm : 0 ≤ m)
    (hw : ∀ c ∈ w, isAsciiDigit c = true) (hlong : Number.digitLimit < w.length)
    (u : PhysicalUnit) :
    read L m ('{' :: (v ++ '}' :: '_' :: '{' :: (Statement.ofAmount w u ++ ['}']))) =
      .error (.tooLong w.length) := by
  obtain ⟨k, hk⟩ : ∃ k, levels m = k + 1 := ⟨m.toNat, by unfold levels; omega⟩
  have hthree : readLevels L (k - 2) v = .ok e := by
    rw [← hbody, hk]
    rfl
  have hbrace : '}' ∉ Statement.ofAmount w u := fun hmem =>
    (Statement.mem_ofAmount hw u hmem).elim (fun h => absurd h (by decide)) fun h =>
      absurd h (by decide)
  have hgroup := splitGroup?_bracket hv (o := '{') rfl
    ('_' :: '{' :: (Statement.ofAmount w u ++ ['}']))
  have hwhole : BoundedExpr.rule (readLevels L (k - 2))
      ('{' :: (v ++ '}' :: '_' :: '{' :: (Statement.ofAmount w u ++ ['}']))) =
        .error (.tooLong w.length) := by
    rw [BoundedExpr.rule_eq_ofParts hgroup, hthree, Statement.parseAll_of_long hw u hlong]
    rfl
  have hsplit : BoundedExpr.split?
      ('{' :: (v ++ '}' :: '_' :: '{' :: (Statement.ofAmount w u ++ ['}']))) =
        some ('{' :: (v ++ '}' :: '_' :: '{' :: (Statement.ofAmount w u ++ ['}'])), trim []) :=
    BoundedExpr.split?_eq (x := []) (y := []) hgroup .nil .nil hbrace
  unfold read
  rw [hk, readLevels, rule, trim_braces]
  simp only
  unfold boundedRule
  rw [hsplit]
  simp only
  rw [hwhole]
  rfl

end TimedReq
