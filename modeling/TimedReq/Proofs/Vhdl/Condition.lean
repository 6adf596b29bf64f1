import TimedReq.Proofs.Expr.Predicate
import TimedReq.Proofs.Vhdl.Written

/-!
# Conditions among other expressions

No arrow is found in the text of a condition, and a text that goes on behind a condition or behind
a group with an operator of expressions is no condition.
-/

namespace TimedReq.Vhdl

open Text Lexeme

lemma arrowFree_of_last {w : Text} (hlast : w.getLast? ≠ some '-') (harrow : '-' ∈ w → '>' ∉ w)
    (ns : List (Option Int)) : ArrowFree w ns := by
  induction w generalizing ns with
  | nil => trivial
  | cons c w ih =>
    cases ns with
    | nil => trivial
    | cons d ns =>
      rcases w with _ | ⟨b, w⟩
      · refine ⟨?_, trivial⟩
        rintro rfl
        exact absurd rfl hlast
      · refine ⟨?_, ih ?_ ?_ ns⟩
        · rintro rfl -
          refine ⟨b, w, rfl, ?_⟩
          rintro rfl
          exact harrow List.mem_cons_self (by simp)
        · rwa [List.getLast?_cons_cons] at hlast
        · intro hmem hgt
          exact harrow (List.mem_cons_of_mem c hmem) (List.mem_cons_of_mem c hgt)

/-- No arrow begins in a token other than the minus. -/
lemma Lexeme.Shape.arrowFree {k : TokenKind} {w : Text} (h : Shape k w) (hne : w ≠ ['-'])
    (d : Int) : ArrowFree w (nestingFrom false d w) := by
  cases h with
  | plain _ _ _ hlast harrow => exact arrowFree_of_last (fun h => hne (hlast h)) harrow _
  | leftParen | rightParen => exact ArrowFree.of_ne (by simp) _
  | character c => exact ArrowFree.of_depth (by simp [nestingFrom_character]) _
  | @string w hw =>
    refine ArrowFree.of_depth ?_ _
    rw [nestingFrom_quoted d hw]
    simp
  | @bitString base w hbase hw =>
    rw [nestingFrom_bitString hbase hw]
    refine ⟨?_, ArrowFree.of_depth ?_ _⟩
    · rintro rfl
      exact absurd hbase (by decide)
    · simp

/-- A token that begins with `>` is a comparison. -/
lemma Lexeme.Leads.eq_comparison {k : TokenKind} {w b : Text} (h : Leads k ('>' :: w) b) :
    k = .binary .gt ∨ k = .binary .ge := by
  have halone := h.alone
  by_cases hw : w.head? = some '='
  · obtain ⟨t, rfl⟩ : ∃ t, w = '=' :: t := by
      rcases w with _ | ⟨c, t⟩
      · simp at hw
      · obtain rfl := Option.some.inj hw
        exact ⟨t, rfl⟩
    exact .inr (Prod.mk.inj (Option.some.inj halone)).1.symm
  · rw [next?_shortSymbol (c := '=') (o := .gt) (by decide) hw] at halone
    exact .inl (Prod.mk.inj (Option.some.inj halone)).1.symm

/-- Behind a minus a text of tokens goes on, but not so that it becomes an arrow. -/
lemma Written.exists_cons {s : Text} {u : Token} {ts : List Token} (hs : Written s (u :: ts))
    (hgt : u.kind ≠ .binary .gt) (hge : u.kind ≠ .binary .ge) :
    ∃ b r, s = b :: r ∧ b ≠ '>' := by
  obtain ⟨g, r, rfl, hg, hlead, -⟩ := hs.cons_inv
  rcases g with _ | ⟨c, g⟩
  · obtain ⟨c, w, hw, -⟩ := hlead.exists_cons
    refine ⟨c, w ++ r, by rw [hw]; rfl, ?_⟩
    rintro rfl
    rw [hw] at hlead
    rcases hlead.eq_comparison with hk | hk
    · exact hgt hk
    · exact hge hk
  · refine ⟨c, _, rfl, ?_⟩
    rintro rfl
    exact absurd (hg.allBlank.of_cons.1) (by decide)

/-- No arrow is found in a text of tokens that make none. -/
lemma Written.arrowFree {w : Text} {ts : List Token} (h : Written w ts) (hts : ArrowLess ts)
    (d : Int) : ArrowFree w (nestingFrom false d w) := by
  induction h generalizing d with
  | nil => trivial
  | @gap c s ts hc _ ih =>
    have hblank := isBlank_of_isGap hc
    rw [nestingFrom_plain d s (isPlain_of_isBlank hblank)]
    refine ⟨?_, ih hts d⟩
    rintro rfl
    exact absurd hblank (by decide)
  | @token t s ts ht hs ih =>
    have hlead := leads_of_alone (b := []) ht trivial
    by_cases hminus : t.text = ['-']
    · have hkind : t.kind = .binary .minus := by
        have halone := hlead.alone
        rw [hminus] at halone
        exact (Prod.mk.inj (Option.some.inj halone)).1.symm
      obtain ⟨u, us, rfl, hgt, hge⟩ := hts.1 hkind
      rw [hminus, List.singleton_append, nestingFrom_plain d s (by decide)]
      exact ⟨fun _ _ => hs.exists_cons hgt hge, ih hts.2 d⟩
    · obtain ⟨δ, hδ⟩ := hlead.shape.closed
      rw [hδ d s]
      exact ArrowFree.append (hlead.shape.arrowFree hminus d) (length_nestingFrom _ _ _)
        (ih hts.2 (d + δ))

/-- Unquoted characters of tokens: a closing bracket is a token by itself. -/
lemma Lexeme.Shape.rightParen_inv {k : TokenKind} {x y : Text} (h : Shape k (x ++ ')' :: y))
    {d e : Int} (hx : (nestingFrom false d (x ++ ')' :: y))[x.length]? = some (some e)) :
    x = [] ∧ y = [] ∧ k = .rightParen := by
  generalize hw : x ++ ')' :: y = w at h hx
  cases h with
  | plain _ _ hchars =>
    subst hw
    exact absurd (hchars ')' (by simp)) (by decide)
  | leftParen =>
    rcases x with _ | ⟨c, x⟩
    · simp at hw
    · simp at hw
  | rightParen =>
    rcases x with _ | ⟨c, x⟩
    · exact ⟨rfl, (List.cons.inj hw).2, rfl⟩
    · simp at hw
  | character c =>
    have hmem := List.mem_of_getElem? hx
    simp [nestingFrom_character] at hmem
  | @string w hw' =>
    have hmem := List.mem_of_getElem? hx
    rw [nestingFrom_quoted d hw'] at hmem
    simp at hmem
  | @bitString base w hbase hw' =>
    rcases x with _ | ⟨c, x⟩
    · obtain ⟨rfl, -⟩ := List.cons.inj hw
      exact absurd hbase (by decide)
    · rw [nestingFrom_bitString hbase hw', List.length_cons, List.getElem?_cons_succ] at hx
      have hmem := List.mem_of_getElem? hx
      simp at hmem

/-- An unquoted closing bracket is a token of the text. -/
lemma Lexes.rightParen_inv {x r : Text} {ts : List Token} (h : Lexes (x ++ ')' :: r) ts)
    {d e : Int} (hx : (nestingFrom false d (x ++ ')' :: r))[x.length]? = some (some e)) :
    ∃ us t vs, ts = us ++ t :: vs ∧ t.kind = .rightParen ∧ Lexes r vs := by
  generalize hs : x ++ ')' :: r = s at h hx
  induction h generalizing x d with
  | nil => simp at hs
  | @gap c s ts hc _ ih =>
    rw [nestingFrom_plain d s (isPlain_of_isBlank (isBlank_of_isGap hc))] at hx
    rcases x with _ | ⟨b, x⟩
    · obtain ⟨rfl, -⟩ := List.cons.inj hs
      exact absurd (isBlank_of_isGap hc) (by decide)
    · obtain ⟨rfl, rfl⟩ := List.cons.inj hs
      rw [List.length_cons, List.getElem?_cons_succ] at hx
      exact ih rfl hx
  | @token t b ts ht hb ih =>
    obtain ⟨δ, hδ⟩ := ht.shape.closed
    have hbehind : ∀ y, x = t.text ++ y → y ++ ')' :: r = b →
        ∃ us u vs, t :: ts = us ++ u :: vs ∧ u.kind = .rightParen ∧ Lexes r vs := by
      rintro y rfl hb'
      rw [hδ d b, List.getElem?_append_right (by simp [length_nestingFrom]), List.length_append,
        length_nestingFrom, Nat.add_sub_cancel_left] at hx
      obtain ⟨us, u, vs, rfl, hu, hvs⟩ := ih hb' hx
      exact ⟨t :: us, u, vs, rfl, hu, hvs⟩
    rcases List.append_eq_append_iff.mp hs with ⟨y, hty, hcut⟩ | ⟨y, hxy, hcut⟩
    · rcases y with _ | ⟨c, y⟩
      · exact hbehind [] (by rw [hty, List.append_nil, List.append_nil]) hcut
      · obtain ⟨rfl, rfl⟩ := List.cons.inj hcut
        have hlt : x.length < (nestingFrom false d t.text).length := by
          rw [length_nestingFrom, hty, List.length_append, List.length_cons]
          omega
        rw [hδ d b, List.getElem?_append_left hlt, hty] at hx
        have hshape := ht.shape
        rw [hty] at hshape
        obtain ⟨-, rfl, hk⟩ := hshape.rightParen_inv hx
        exact ⟨[], t, ts, rfl, hk, hb⟩
    · exact hbehind y hxy hcut.symm

lemma read_eq_some {s : Text} {x : Node} :
    Embedding.vhdl.read s = some x ↔ parse s = .ok x ∧ x.isCondition = true := by
  have htrim : parse (trim s) = parse s := by
    unfold parse
    rw [trim_trim]
  have hcondition : parseCondition (trim s) = .ok x ↔ parse s = .ok x ∧ x.isCondition = true := by
    unfold parseCondition
    rw [htrim]
    cases parse s with
    | error e => simp [bind, Except.bind]
    | ok y =>
      simp only [bind, Except.bind, Except.ok.injEq]
      split
      · rename_i hy
        simp only [pure, Except.pure, Except.ok.injEq]
        constructor
        · rintro rfl
          exact ⟨rfl, hy⟩
        · exact And.left
      · rename_i hy
        simp only [throw, throwThe, MonadExceptOf.throw, reduceCtorEq, false_iff, not_and]
        rintro rfl
        exact hy
  rw [← hcondition]
  unfold Embedding.read
  split
  · rename_i hnil
    rw [hnil]
    simp [parseCondition, parse, trim, trimEnd, trimStart, bind, Except.bind]
  · rename_i c t hs
    rw [hs]
    simp only [Embedding.vhdl]
    cases parseCondition (c :: t) <;> simp [Except.toOption]

/-- Behind an operand no operator of expressions is read. -/
lemma not_run_operator {frames : List Frame} {x : Node} {c : Char} {r : Text} {ts : List Token}
    (h : Lexes (c :: r) ts) (hc : c ∈ operatorChars) (hr : r = [] ∨ startsBlank r = true)
    (q : State) : (State.behind frames x).run ts ≠ .ok q := by
  have hnext : ∀ c ∈ operatorChars, c = '^' ∨ next? [c] = some (.name, 1) := by decide
  have hblank := not_blank_of_mem_operatorChars hc
  rcases hnext c hc with rfl | hname
  · exact absurd h (not_lexes hblank (next?_eq_none (by decide) _))
  · have hsep : Separates r := by
      rcases hr with rfl | hr
      · trivial
      · cases r with
        | nil => trivial
        | cons d r => exact .inl hr
    obtain ⟨t, b, us, hcut, ht, rfl, -⟩ := h.token_inv hblank
    have hlead := leads_of_alone (a := [c]) hname hsep
    obtain ⟨hkind, -, -⟩ := ht.unique (v := [c]) hcut.symm hlead.next?
    intro hrun
    obtain ⟨p, hp, -⟩ := State.run_cons hrun
    rw [State.step_behind_name hkind] at hp
    simp at hp

lemma Written.ne_nil {w : Text} {t : Token} {ts : List Token} (h : Written w (t :: ts)) :
    w ≠ [] := by
  obtain ⟨u, s, rfl, -, hlead, -⟩ := h.cons_inv
  simp [hlead.ne_nil]

/-- A trimmed text that is read has tokens that are parsed. -/
lemma exists_tokens {w : Text} {p : Node} (hread : Embedding.vhdl.read w = some p)
    (hw : trim w = w) :
    ∃ ts, Lexes w ts ∧ Parses ts p ∧ w ≠ [] ∧ ∀ c ∈ w.head?, isBlank c = false := by
  obtain ⟨ts, hlexes, hparses⟩ := parse_eq_ok.mp (read_eq_some.mp hread).1
  rw [hw] at hlexes
  refine ⟨ts, hlexes, hparses, ?_, ?_⟩
  · obtain ⟨t, ts, rfl⟩ := List.exists_cons_of_ne_nil hparses.derives.ne_nil
    exact hlexes.written.ne_nil
  · intro c hc
    rcases w with _ | ⟨d, w⟩
    · simp at hc
    · obtain rfl := Option.some.inj hc
      exact not_blank_of_trim_eq_cons hw

/-- If a text that separators continue is read, what follows it is read behind an operand. -/
lemma exists_run_behind {w r : Text} {ts us : List Token} {p x : Node} (hlexes : Lexes w ts)
    (hparses : Parses ts p) (hr : Separates r) (hall : Lexes (w ++ r) us) (hx : Parses us x) :
    ∃ ws frames y q, Lexes r ws ∧ (State.behind frames y).run ws = .ok q := by
  obtain ⟨vs, ws, rfl, halike, hrest⟩ := hlexes.append_inv hr hall
  obtain ⟨q, hrun, hfinish⟩ := hparses.alike halike
  obtain ⟨q', hrun', hfinish'⟩ := hx
  obtain ⟨q₁, hvs, hws⟩ := State.run_append hrun'
  obtain rfl := Except.ok.inj (hrun.symm.trans hvs)
  obtain ⟨frames, y, rfl⟩ := State.exists_behind hfinish
  exact ⟨ws, frames, y, q', hrest, hws⟩

/-- A condition does not go on with an operator of expressions that stands between blanks or at the
end. -/
lemma read_operator {w u r : Text} {c : Char} {p : Node} (hread : Embedding.vhdl.read w = some p)
    (hw : trim w = w) (hu : AllBlank u) (hne : u ≠ []) (hc : c ∈ operatorChars)
    (hr : r = [] ∨ startsBlank r = true) : Embedding.vhdl.read (w ++ (u ++ c :: r)) = none := by
  obtain ⟨ts, hlexes, hparses, hwne, hhead⟩ := exists_tokens hread hw
  rw [Option.eq_none_iff_forall_ne_some]
  intro x hx
  obtain ⟨us, hall, hx⟩ := parse_eq_ok.mp (read_eq_some.mp hx).1
  have hsep : Separates (u ++ c :: trimEnd r) := by
    cases u with
    | nil => exact absurd rfl hne
    | cons d u => exact .inl hu.of_cons.1
  rw [← List.append_assoc, trim_append_cons (by rwa [List.head?_append_of_ne_nil _ hwne])
    (not_blank_of_mem_operatorChars hc), List.append_assoc] at hall
  obtain ⟨ws, frames, y, q, hrest, hws⟩ := exists_run_behind hlexes hparses hsep hall hx
  refine not_run_operator (hrest.allBlank_inv hu) hc ?_ q hws
  rcases hr with rfl | hr
  · exact .inl rfl
  · rw [← hr]
    exact startsBlank_trimEnd r

/-- A condition does not go on with an arrow. -/
lemma read_arrow {w u r : Text} {p : Node} (hread : Embedding.vhdl.read w = some p)
    (hw : trim w = w) (hu : AllBlank u) :
    Embedding.vhdl.read (w ++ (u ++ '-' :: '>' :: r)) = none := by
  obtain ⟨ts, hlexes, hparses, hwne, hhead⟩ := exists_tokens hread hw
  rw [Option.eq_none_iff_forall_ne_some]
  intro x hx
  obtain ⟨us, hall, hx⟩ := parse_eq_ok.mp (read_eq_some.mp hx).1
  have hsep : Separates (u ++ '-' :: '>' :: trimEnd r) := by
    cases u with
    | nil => exact .inr (.inr ⟨rfl, rfl⟩)
    | cons d u => exact .inl hu.of_cons.1
  have hcut : w ++ (u ++ '-' :: '>' :: r) = (w ++ (u ++ ['-'])) ++ '>' :: r := by simp
  rw [hcut, trim_append_cons (by rwa [List.head?_append_of_ne_nil _ hwne]) rfl] at hall
  have hcut' : (w ++ (u ++ ['-'])) ++ '>' :: trimEnd r = w ++ (u ++ '-' :: '>' :: trimEnd r) := by
    simp
  rw [hcut'] at hall
  obtain ⟨ws, frames, y, q, hrest, hws⟩ := exists_run_behind hlexes hparses hsep hall hx
  -- the minus is a token, and the one behind it begins with `>`
  obtain ⟨t, b, us, hminus, ht, rfl, hb⟩ := (hrest.allBlank_inv hu).token_inv rfl
  have hsign : Leads (.binary .minus) ['-'] ('>' :: trimEnd r) := .symbol _ (fun _ => rfl) rfl
  obtain ⟨hkind, -, rfl⟩ := ht.unique (v := ['-']) hminus.symm hsign.next?
  obtain ⟨t', b', us, hgt, ht', rfl, -⟩ := hb.token_inv rfl
  obtain ⟨c, v, hc, -⟩ := ht'.exists_cons
  rw [hc] at hgt
  obtain ⟨rfl, -⟩ := List.cons.inj hgt
  rw [hc] at ht'
  obtain ⟨q₁, hq₁, hrun⟩ := State.run_cons hws
  obtain ⟨frames', rfl⟩ := State.step_minus hkind hq₁
  obtain ⟨q₂, hq₂, -⟩ := State.run_cons hrun
  rw [State.step_before_gt ht'.eq_comparison] at hq₂
  simp at hq₂

/-- A text in brackets does not go on with an operator of expressions that stands between
blanks. -/
lemma read_group_operator {w u r : Text} {c : Char} (hw : Neutral w) (hu : AllBlank u)
    (hc : c ∈ operatorChars) (hr : startsBlank r = true) :
    Embedding.vhdl.read ('(' :: (w ++ ')' :: (u ++ c :: r))) = none := by
  rw [Option.eq_none_iff_forall_ne_some]
  intro x hx
  obtain ⟨us, hall, q, hrun, -⟩ := parse_eq_ok.mp (read_eq_some.mp hx).1
  have hcut : '(' :: (w ++ ')' :: (u ++ c :: r)) = ('(' :: (w ++ ')' :: u)) ++ c :: r := by simp
  have hcut' : ('(' :: (w ++ ')' :: u)) ++ c :: trimEnd r =
      ('(' :: w) ++ ')' :: (u ++ c :: trimEnd r) := by simp
  rw [hcut, trim_append_cons (by simp [isBlank]) (not_blank_of_mem_operatorChars hc), hcut'] at hall
  have hunquoted : (nestingFrom false 0 ('(' :: w ++ ')' :: (u ++ c :: trimEnd r)))[
      ('(' :: w).length]? = some (some 0) := by
    rw [List.cons_append, hw.nestingFrom_bracket (.inl rfl) (.inl rfl), List.length_cons,
      List.getElem?_cons_succ, List.getElem?_append_right (by simp [length_nestingFrom]),
      length_nestingFrom, Nat.sub_self]
    rfl
  obtain ⟨vs, t, ws, rfl, ht, hrest⟩ := hall.rightParen_inv hunquoted
  obtain ⟨q₁, -, hws⟩ := State.run_append hrun
  obtain ⟨q₂, hq₂, hws⟩ := State.run_cons hws
  obtain ⟨frames, y, rfl⟩ := State.step_rightParen ht hq₂
  refine not_run_operator (hrest.allBlank_inv hu) hc ?_ q hws
  rw [← hr]
  exact startsBlank_trimEnd r

lemma ArrowLess.append_inv {ts us : List Token} (h : ArrowLess (ts ++ us)) : ArrowLess us := by
  induction ts with
  | nil => exact h
  | cons t ts ih => exact ih h.2

lemma Parses.arrowLess {ts : List Token} {x : Node} (h : Parses ts x) : ArrowLess ts := by
  obtain ⟨q, hrun, hfinish⟩ := h
  exact State.run_arrowLess hrun hfinish

/-- The text of an operator between operands does not begin like an operator of expressions, unless
it is a minus. -/
lemma head_of_binary {o : BinaryOperator} {c : Char} {w : Text}
    (h : (c :: w).map Char.toLower = o.word) :
    c ∉ ['^', 'V', 'U', 'W'] ∧ (c = '-' → o = .minus ∧ w = []) := by
  constructor
  · intro hc
    simp only [List.mem_cons, List.not_mem_nil, or_false] at hc
    rcases hc with rfl | rfl | rfl | rfl
    all_goals cases o <;> exact absurd (List.cons.inj h).1 (by decide)
  · rintro rfl
    cases o
    case minus => exact ⟨rfl, List.map_eq_nil_iff.mp (List.cons.inj h).2⟩
    all_goals exact absurd (List.cons.inj h).1 (by decide)

/-- Behind blanks the text begins like no operator of expressions that stands between operands. -/
def GoesOn (x : Text) : Prop :=
  ∃ g c s, x = g ++ c :: s ∧ AllBlank g ∧ isBlank c = false ∧ c ∉ ['^', 'V', 'U', 'W'] ∧
    (c = '-' → ∃ b r, s = b :: r ∧ b ≠ '>')

/-- A text that an operator between operands begins does not begin like one of expressions. -/
lemma Written.goesOn {x : Text} {t : Token} {ts : List Token} {o : BinaryOperator}
    (h : Written x (t :: ts)) (harrow : ArrowLess (t :: ts)) (ho : t.kind = .binary o) :
    GoesOn x := by
  obtain ⟨g, s, rfl, hg, hlead, hs⟩ := h.cons_inv
  obtain ⟨c, w, hw, hblank⟩ := hlead.exists_cons
  have hword := hlead.word o.word (by rw [ho]; rfl)
  rw [hw] at hword
  obtain ⟨hc, hminus⟩ := head_of_binary hword
  refine ⟨g, c, w ++ s, by rw [hw]; rfl, hg.allBlank, hblank, hc, fun hcm => ?_⟩
  obtain ⟨rfl, rfl⟩ := hminus hcm
  obtain ⟨u, us, rfl, hgt, hge⟩ := harrow.1 ho
  exact hs.exists_cons hgt hge

/-- It is not taken for a connective and what follows it. -/
lemma GoesOn.leading?_eq_none {x : Text} (h : GoesOn x) (r : Text) :
    trim (x ++ r) ≠ [] ∧ Connective.leading? (trim (x ++ r)) = none := by
  obtain ⟨g, c, s, rfl, hg, hblank, hc, hminus⟩ := h
  have hcut : g ++ c :: s ++ r = g ++ ([] ++ c :: (s ++ r)) := by simp
  rw [hcut, trim_append_left hg, trim_append_cons (by simp) hblank, List.nil_append]
  refine ⟨by simp, ?_⟩
  unfold Connective.leading?
  split
  · rename_i hcons
    obtain ⟨rfl, htail⟩ := List.cons.inj hcons
    obtain ⟨b, y, rfl, hb⟩ := hminus rfl
    obtain ⟨v, -, hv⟩ := exists_trimEnd (b :: y ++ r)
    rw [htail] at hv
    exact absurd (List.cons.inj hv).1 hb
  · rename_i hcons
    obtain ⟨rfl, -⟩ := List.cons.inj hcons
    exact absurd hc (by decide)
  · rename_i hcons
    obtain ⟨rfl, -⟩ := List.cons.inj hcons
    exact absurd hc (by decide)
  · rfl

/-- The bracket in front of a condition that is not in brackets as a whole is closed before the end
of the text. -/
lemma exists_bracket {w : Text} {p : Node} (hread : Embedding.vhdl.read w = some p)
    (hw : trim w = w) (hparen : ∀ q, p ≠ .paren q) (hbracket : w.head? = some '(') :
    ∃ inner after, w = '(' :: (inner ++ ')' :: after) ∧ Neutral inner ∧ GoesOn after := by
  obtain ⟨ts, hlexes, hparses, -, hhead⟩ := exists_tokens hread hw
  obtain ⟨s, rfl⟩ := List.head?_eq_some_iff.mp hbracket
  obtain ⟨t, b, us, hcut, ht, rfl, hb⟩ := hlexes.token_inv rfl
  have hkind : t.kind = .leftParen := by
    have hnext := ht.next?
    rw [← hcut] at hnext
    exact (Prod.mk.inj (Option.some.inj hnext)).1.symm
  obtain ⟨is, y, r, rest, rfl, hy, hr, hparens, hrest⟩ := hparses.derives.bracket hkind
  obtain ⟨u, inner, after, heq, hu, hinner, hafter⟩ := Written.bracket_inv hkind hr hlexes.written
  obtain rfl : u = [] := by
    rcases u with _ | ⟨d, u⟩
    · rfl
    · obtain ⟨rfl, -⟩ := List.cons.inj heq
      exact absurd hu.of_cons.1 (by decide)
  refine ⟨inner, after, heq, hy.neutral hinner, ?_⟩
  rcases rest with _ | ⟨t', rest⟩
  · exact absurd (hparens rfl) (hparen y)
  · obtain ⟨o, ho⟩ := hrest t' rest rfl
    exact hafter.goesOn hparses.arrowLess.2.append_inv.2 ho

/-- The text of a condition that is not in brackets as a whole is left to its language, if none of
its names looks like an operator. -/
theorem predicateText {w : Text} {p : Node} (hread : Embedding.vhdl.read w = some p)
    (hw : trim w = w) (hparen : ∀ q, p ≠ .paren q) (hnames : ∀ x ∈ p.names, x ∉ operatorNames) :
    PredicateText Embedding.vhdl p w := by
  obtain ⟨ts, hlexes, hparses, hne, hhead⟩ := exists_tokens hread hw
  have hwritten := hlexes.written
  have hderives := hparses.derives
  have hfree : ∀ t ∈ ts, t.kind = .name → t.text ∉ operatorNames := by
    intro t ht hk
    exact hnames _ (hderives.mem_names t ht hk)
  obtain ⟨c, s, rfl⟩ := List.exists_cons_of_ne_nil hne
  have hblank := hhead c rfl
  obtain ⟨t, b, us, hcut, ht, rfl, hb⟩ := hlexes.token_inv hblank
  obtain ⟨c', v, hc', -⟩ := ht.exists_cons
  obtain ⟨rfl, hs⟩ : c = c' ∧ s = v ++ b := by
    rw [hc'] at hcut
    exact List.cons.inj hcut
  refine
    { trim_eq := hw
      read_eq := hread
      neutral := hderives.neutral hwritten
      arrowFree := fun d => hwritten.arrowFree hparses.arrowLess d
      tokenFree := fun symbol? hsymbol d => hwritten.tokenFree hsymbol hfree true d
      head := ⟨c, s, rfl, ?_, ?_, ?_⟩
      bracket := ?_
      read_operator := fun hu hune hc hr => read_operator hread hw hu hune hc (.inr hr)
      read_arrow := fun hu => read_arrow hread hw hu }
  · rintro rfl
    exact absurd hlexes (not_lexes rfl (next?_eq_none (by decide) _))
  · rintro rfl
    exact absurd hlexes (not_lexes rfl (next?_eq_none (by decide) _))
  · intro hc
    rcases v with _ | ⟨e, v⟩
    · rw [hc'] at ht
      obtain ⟨hk, hmem⟩ := ht.eq_name hc
      exact absurd hmem (by rw [← hc']; exact hfree t List.mem_cons_self hk)
    · have hshape := ht.shape
      rw [hc'] at hshape
      exact ⟨e, v ++ b, hs, hshape.second_not_blank hc⟩
  · intro hc
    obtain ⟨inner, after, heq, hinner, hafter⟩ := exists_bracket hread hw hparen hc
    exact ⟨inner, after, heq, hinner, hafter.leading?_eq_none⟩

/-- Conditions keep groups apart. -/
theorem keepsGroups : Embedding.vhdl.KeepsGroups :=
  ⟨fun hw hu hc hr => read_group_operator hw hu hc hr⟩

end TimedReq.Vhdl
