import Mathlib.Order.Bounds.Basic
import TimedReq.Proofs.Text.Steady

/-!
# Slices of texts

A text is cut at an operator outside brackets or at the bracket that closes the one in front, and
its pieces are read as texts of their own. They have the nesting that they have in the whole: no
literal reaches over a cut, and the depth at the cut is known. The bracket in front is closed where
for the first time as many brackets have been closed as opened.
-/

namespace TimedReq.Text

/-! ### Cuts at operators -/

/-- Two texts make up a text with an operator between them, and read alone they have the nesting
that they have there. -/
structure Rescanned (s left operator right : Text) : Prop where
  text : s = left ++ operator ++ right
  nesting_left : nesting left = (nesting s).take left.length
  nesting_right : nesting right = (nesting s).drop (left.length + operator.length)

/-- Where a text is cut at depth 0, the depths behind the cut begin anew. -/
lemma nesting_of_depth {a b : Text} {c : Char} (hc : IsPlain c)
    (h : (nesting (a ++ c :: b))[a.length]? = some (some 0)) :
    nesting (a ++ c :: b) = nesting a ++ some 0 :: nesting b := by
  obtain ⟨hopening, hclosing⟩ := hc.not_bracket
  have hdepths : nesting (a ++ c :: b) =
      nesting a ++ some (balance (marked a)) :: depths (balance (marked a)) (marked b) := by
    rw [nesting_eq_depths, marked_of_depth h, depths_append_balance, depths_cons, depthAt,
      if_neg hclosing, balance_other hopening hclosing, Int.zero_add, Int.add_zero,
      ← nesting_eq_depths]
  have hlength : (nesting a).length = a.length := length_nestingFrom false 0 a
  have hzero : balance (marked a) = 0 := by
    rw [hdepths, ← hlength, List.getElem?_append_right (Nat.le_refl _), Nat.sub_self] at h
    exact Option.some.inj (Option.some.inj h)
  rw [hdepths, hzero, ← nesting_eq_depths]

lemma Rescanned.of_nesting {s l operator r : Text} (ns : List (Option Int))
    (htext : s = l ++ operator ++ r) (hlength : ns.length = operator.length)
    (h : nesting s = nesting l ++ ns ++ nesting r) : Rescanned s l operator r := by
  have hleft : (nesting l).length = l.length := length_nestingFrom false 0 l
  refine ⟨htext, ?_, ?_⟩
  · rw [h, List.append_assoc, List.take_left' hleft]
  · rw [h, List.drop_left']
    rw [List.length_append, hleft, hlength]

variable {β : Type} {symbol? : Char → Option β}

lemma rescanned_of_splitToken? (hsymbol : ∀ c, (symbol? c).isSome → IsPlain c) {s l r : Text}
    {x : β} (h : splitToken? symbol? s = some (l, x, r)) :
    ∃ c, symbol? c = some x ∧ Rescanned s l [c] r := by
  obtain ⟨c, rfl, hc, -, -⟩ := eq_of_cutAtToken h
  have hplain := hsymbol c (by rw [hc]; rfl)
  have hnesting := nesting_of_depth hplain (depth_of_cutAtToken h)
  refine ⟨c, hc, .of_nesting [some 0] (by simp) rfl ?_⟩
  rw [hnesting, List.append_assoc, List.singleton_append]

lemma rescanned_of_splitArrow? {s l r : Text} (h : splitArrow? s = some (l, r)) :
    Rescanned s l Connective.implies.symbol r := by
  obtain rfl := eq_of_cutAtArrow h
  have hnesting := nesting_of_depth (by decide) (depth_of_cutAtArrow h)
  have hbehind : nesting ('>' :: r) = some 0 :: nesting r := nestingFrom_plain 0 r (by decide)
  refine .of_nesting [some 0, some 0] (by simp [Connective.symbol]) rfl ?_
  rw [hnesting, hbehind, List.append_assoc]
  rfl

/-! ### The bracket that closes the one in front -/

lemma balance_nil : balance [] = 0 := rfl

lemma balance_eq_zero {ms : List Mark} : balance ms = 0 ↔ openings ms = closings ms := by
  unfold balance
  omega

/-- A character at a positive depth takes it to 0 if it is a closing bracket of depth 0. -/
lemma isClosing_and_depthAt_iff {d : Int} (hd : 0 < d) (m : Mark) :
    IsClosing m.1 ∧ depthAt d m = some 0 ↔ d + balance [m] = 0 := by
  obtain ⟨c, _ | _⟩ := m
  · by_cases hc : IsClosing c
    · rw [depthAt, if_pos hc, balance_closing hc, Option.some.injEq]
      simp only [hc, true_and]
      omega
    · have hkept : d + balance [(c, false)] ≠ 0 := by
        by_cases ho : IsOpening c
        · rw [balance_opening ho]
          omega
        · rw [balance_other ho hc]
          omega
      exact ⟨fun h => absurd h.1 hc, fun h => absurd h hkept⟩
  · rw [balance_quoted, depthAt]
    simp only [reduceCtorEq, and_false, false_iff]
    omega

lemma balance_singleton_ge (m : Mark) : -1 ≤ balance [m] := by
  have hone : closings [m] ≤ 1 := List.countP_le_length
  unfold balance
  omega

/-- From depth `d`, the depth is 0 for the first time behind the next `n + 1` characters. -/
def FirstReturn (d : Int) (ms : List Mark) (n : Nat) : Prop :=
  d + balance (ms.take (n + 1)) = 0 ∧ ∀ k ≤ n, d + balance (ms.take k) ≠ 0

lemma balance_take_cons (d : Int) (m : Mark) (ms : List Mark) (n : Nat) :
    d + balance ((m :: ms).take (n + 1)) = d + balance [m] + balance (ms.take n) := by
  rw [List.take_succ_cons, balance_cons, Int.add_assoc]

lemma firstReturn_of_eq_zero {d : Int} (hd : 0 < d) {m : Mark} (hzero : d + balance [m] = 0)
    {ms : List Mark} {n : Nat} : FirstReturn d (m :: ms) n ↔ n = 0 := by
  have hone : d + balance ((m :: ms).take 1) = 0 := hzero
  constructor
  · rintro ⟨-, hfirst⟩
    by_contra hn
    exact hfirst 1 (Nat.one_le_iff_ne_zero.mpr hn) hone
  · rintro rfl
    refine ⟨hone, fun k hk => ?_⟩
    obtain rfl := Nat.le_zero.mp hk
    rw [List.take_zero, balance_nil]
    omega

lemma firstReturn_cons {d : Int} (hd : 0 < d) {m : Mark} (hzero : d + balance [m] ≠ 0)
    {ms : List Mark} {n : Nat} :
    FirstReturn d (m :: ms) n ↔ ∃ k, n = k + 1 ∧ FirstReturn (d + balance [m]) ms k := by
  constructor
  · rintro ⟨hlast, hfirst⟩
    cases n with
    | zero => exact absurd hlast hzero
    | succ n =>
      refine ⟨n, rfl, ?_, fun k hk => ?_⟩
      · rw [← balance_take_cons]
        exact hlast
      · rw [← balance_take_cons]
        exact hfirst (k + 1) (Nat.succ_le_succ hk)
  · rintro ⟨n, rfl, hlast, hfirst⟩
    refine ⟨by rw [balance_take_cons, hlast], ?_⟩
    rintro (_ | k) hk
    · rw [List.take_zero, balance_nil]
      omega
    · rw [balance_take_cons]
      exact hfirst k (Nat.le_of_succ_le_succ hk)

lemma cutAtCloser_of_closing {close c : Char} {n : Option Int} (h : IsClosing c ∧ n = some 0)
    (s : Text) (ds : List (Option Int)) :
    cutAtCloser close (c :: s) (n :: ds) = if c = close then some ([], s) else none := by
  rw [cutAtCloser]
  exact if_pos h

/-- From a positive depth, the text is cut where the depth is 0 for the first time, if the bracket
there is the one that is looked for. -/
lemma cutAtCloser_eq_some_iff {close : Char} {d : Int} (hd : 0 < d) {ms : List Mark}
    {inner after : Text} :
    cutAtCloser close (ms.map Prod.fst) (depths d ms) = some (inner, after) ↔
      ms.map Prod.fst = inner ++ close :: after ∧ FirstReturn d ms inner.length := by
  induction ms generalizing d inner with
  | nil => simp [cutAtCloser, depths]
  | cons m ms ih =>
    have hcloses := isClosing_and_depthAt_iff hd m
    rw [depths_cons, List.map_cons]
    by_cases hzero : d + balance [m] = 0
    · rw [cutAtCloser_of_closing (hcloses.mpr hzero), firstReturn_of_eq_zero hd hzero,
        List.length_eq_zero_iff]
      constructor
      · intro h
        split at h
        · rename_i hclose
          obtain ⟨rfl, rfl⟩ := Prod.mk.inj (Option.some.inj h)
          exact ⟨by rw [hclose]; rfl, rfl⟩
        · simp at h
      · rintro ⟨htext, rfl⟩
        obtain ⟨hclose, hafter⟩ := List.cons.inj htext
        rw [if_pos hclose, hafter]
    · have hstep : 0 < d + balance [m] := by
        have hge := balance_singleton_ge m
        omega
      rw [cutAtCloser_cons fun h => hzero (hcloses.mp h), Option.map_eq_some_iff,
        firstReturn_cons hd hzero]
      constructor
      · rintro ⟨⟨i, a⟩, hcut, heq⟩
        obtain ⟨rfl, rfl⟩ := Prod.mk.inj heq
        obtain ⟨htext, hreturn⟩ := (ih hstep).mp hcut
        exact ⟨by rw [htext, List.cons_append], i.length, rfl, hreturn⟩
      · rintro ⟨htext, k, hlength, hreturn⟩
        obtain ⟨x, i, rfl⟩ := List.exists_cons_of_length_eq_add_one hlength
        obtain rfl : i.length = k := by simpa using hlength
        obtain ⟨rfl, htail⟩ := List.cons.inj htext
        exact ⟨(i, after), (ih hstep).mpr ⟨htail, hreturn⟩, rfl⟩

lemma isLeast_iff_firstReturn {o : Char} {ms : List Mark} (ho : IsOpening o) {n : Nat} :
    IsLeast {n | 0 < n ∧ openings (((o, false) :: ms).take (n + 1)) =
      closings (((o, false) :: ms).take (n + 1))} (n + 1) ↔ FirstReturn 1 ms n := by
  have heven : ∀ k, openings (((o, false) :: ms).take (k + 1)) =
      closings (((o, false) :: ms).take (k + 1)) ↔ 1 + balance (ms.take k) = 0 := by
    intro k
    rw [← balance_eq_zero, List.take_succ_cons, balance_cons, balance_opening ho]
  constructor
  · rintro ⟨⟨-, hlast⟩, hleast⟩
    refine ⟨(heven _).mp hlast, fun k hk hzero => ?_⟩
    rcases Nat.eq_zero_or_pos k with rfl | hpos
    · simp [balance_nil] at hzero
    · have hle := hleast ⟨hpos, (heven k).mpr hzero⟩
      omega
  · rintro ⟨hlast, hfirst⟩
    refine ⟨⟨Nat.succ_pos n, (heven _).mpr hlast⟩, ?_⟩
    rintro k ⟨-, hk⟩
    by_contra hless
    exact hfirst k (by omega) ((heven k).mp hk)

lemma splitGroup?_cons_eq_some_iff {o c : Char} (hclose : closer? o = some c) {s inner after : Text} :
    splitGroup? (o :: s) = some (inner, after) ↔
      s = inner ++ c :: after ∧ FirstReturn 1 (marked s) inner.length := by
  have hiff : cutAtCloser c ((marked s).map Prod.fst) (depths 1 (marked s)) = some (inner, after) ↔
      _ := cutAtCloser_eq_some_iff Int.zero_lt_one
  rw [map_fst_marked] at hiff
  rw [splitGroup?, hclose, Option.bind_some, nesting_opening (isBracket_of_closer? hclose).1,
    List.tail_cons]
  exact hiff

lemma depthAt_sub (d k : Int) (m : Mark) : depthAt (d - k) m = (depthAt d m).map (· - k) := by
  obtain ⟨c, _ | _⟩ := m
  · by_cases hc : IsClosing c
    · rw [depthAt, depthAt, if_pos hc, if_pos hc, Option.map_some]
      exact congrArg some (by omega)
    · rw [depthAt, depthAt, if_neg hc, if_neg hc, Option.map_some]
  · rfl

lemma depths_sub (d k : Int) (ms : List Mark) :
    depths (d - k) ms = (depths d ms).map (Option.map (· - k)) := by
  induction ms generalizing d with
  | nil => rfl
  | cons m ms ih =>
    have hbehind : d - k + balance [m] = d + balance [m] - k := by omega
    rw [depths_cons, depths_cons, List.map_cons, depthAt_sub, hbehind, ih]

/-- The nesting of a text with the bracket in front that is closed behind `inner`. -/
lemma nesting_of_splitGroup? {o c : Char} (hclose : closer? o = some c) {inner after : Text}
    (h : splitGroup? (o :: (inner ++ c :: after)) = some (inner, after)) :
    nesting (o :: (inner ++ c :: after)) =
      some 0 :: (depths 1 (marked inner) ++ some 0 :: nesting after) := by
  obtain ⟨ho, hc⟩ := isBracket_of_closer? hclose
  obtain ⟨-, hlast, -⟩ := (splitGroup?_cons_eq_some_iff hclose).mp h
  obtain ⟨close, hclose', hmarked⟩ := marked_of_splitGroup? h
  obtain rfl : c = close := Option.some.inj (hclose.symm.trans hclose')
  rw [marked_cons ho.not_quote] at hmarked
  have hmarked := (List.cons.inj hmarked).2
  have hlength : (marked inner).length = inner.length := by
    rw [← List.length_map Prod.fst, map_fst_marked]
  -- at the closing bracket the depth is back at 0, so the brackets of `inner` are even
  have heven : balance (marked inner) = 0 := by
    rw [hmarked, ← hlength, List.take_length_add_append, balance_append] at hlast
    have hone : balance [(c, false)] = -1 := balance_closing hc
    rw [List.take_succ_cons, List.take_zero, hone] at hlast
    omega
  rw [nesting_opening ho, hmarked, depths_append_balance, heven, depths_cons, depthAt,
    if_pos hc, balance_closing hc, nesting_eq_depths after]
  rfl

/-- The bracket in front of a text is closed by its own kind behind `inner`, where for the first time
as many brackets have been closed as opened. Read alone, the text up to there and the text behind it
have the nesting that they have in the whole, and what stands in the brackets has it without the
depth that they add. -/
structure ClosedBehind (s inner after : Text) : Prop where
  text : ∃ o c, closer? o = some c ∧ s = o :: (inner ++ c :: after)
  isLeast : IsLeast {n | 0 < n ∧ openings ((marked s).take (n + 1)) =
    closings ((marked s).take (n + 1))} (inner.length + 1)
  nesting_group : nesting (s.take (inner.length + 2)) = (nesting s).take (inner.length + 2)
  nesting_inner : nesting inner =
    (((nesting s).drop 1).take inner.length).map (Option.map (· - 1))
  nesting_after : nesting after = (nesting s).drop (inner.length + 2)

lemma closedBehind_of_splitGroup? {s inner after : Text}
    (h : splitGroup? s = some (inner, after)) : ClosedBehind s inner after := by
  cases s with
  | nil => simp [splitGroup?] at h
  | cons o s =>
    obtain ⟨c, hclose, -⟩ := eq_of_splitGroup? h
    obtain ⟨rfl, hreturn⟩ := (splitGroup?_cons_eq_some_iff hclose).mp h
    have ho := (isBracket_of_closer? hclose).1
    have hnesting := nesting_of_splitGroup? hclose h
    have hshort : splitGroup? (o :: (inner ++ [c])) = some (inner, []) :=
      splitGroup?_congr hclose h (by simp)
    have hgroup := nesting_of_splitGroup? hclose hshort
    have hlength : (depths 1 (marked inner)).length = inner.length := by
      rw [← length_nestingFrom false 1 inner, nestingFrom_eq_depths, marked_eq_zip]
    refine ⟨⟨o, c, hclose, rfl⟩, ?_, ?_, ?_, ?_⟩
    · rw [marked_cons ho.not_quote]
      exact (isLeast_iff_firstReturn ho).mpr hreturn
    · rw [List.take_succ_cons, List.take_length_add_append, List.take_succ_cons, List.take_zero,
        hgroup, hnesting, List.take_succ_cons, ← hlength, List.take_length_add_append,
        List.take_succ_cons, List.take_zero]
      rfl
    · rw [hnesting, List.drop_succ_cons, List.drop_zero, List.take_left' hlength, nesting_eq_depths]
      exact depths_sub 1 1 (marked inner)
    · rw [hnesting, List.drop_succ_cons, ← hlength, List.drop_length_add_append,
        List.drop_succ_cons, List.drop_zero]

lemma splitGroup?_eq_some_iff {s inner after : Text} :
    splitGroup? s = some (inner, after) ↔ ClosedBehind s inner after := by
  refine ⟨closedBehind_of_splitGroup?, ?_⟩
  rintro ⟨⟨o, c, hclose, rfl⟩, hleast, -, -, -⟩
  have ho := (isBracket_of_closer? hclose).1
  rw [marked_cons ho.not_quote] at hleast
  exact (splitGroup?_cons_eq_some_iff hclose).mpr ⟨rfl, (isLeast_iff_firstReturn ho).mp hleast⟩

/-- Every character of a text has its nesting. Where a text is cut at an operator, and where the
bracket in front is closed, the pieces have the nesting that they have in the text. -/
theorem nesting_slices (s : Text) :
    (nesting s).length = s.length ∧
      (∀ l c r, splitToken? Connective.ofChar? s = some (l, c, r) → Rescanned s l c.symbol r) ∧
      (∀ l u r, splitToken? Until.ofChar? s = some (l, u, r) → Rescanned s l [u.symbol] r) ∧
      (∀ l r, splitArrow? s = some (l, r) → Rescanned s l Connective.implies.symbol r) ∧
      ∀ inner after, splitGroup? s = some (inner, after) ↔ ClosedBehind s inner after := by
  refine ⟨length_nestingFrom false 0 s, ?_, ?_, fun l r => rescanned_of_splitArrow?,
    fun inner after => splitGroup?_eq_some_iff⟩
  · intro l c r h
    obtain ⟨x, hx, hcut⟩ := rescanned_of_splitToken?
      (fun x hx => isPlain_of_mem_operatorChars (Connective.mem_operatorChars hx)) h
    rw [Connective.symbol_of_ofChar? hx]
    exact hcut
  · intro l u r h
    obtain ⟨x, hx, hcut⟩ := rescanned_of_splitToken?
      (fun x hx => isPlain_of_mem_operatorChars (Until.mem_operatorChars hx)) h
    rw [← Until.symbol_of_ofChar? hx]
    exact hcut

/-- The operators of a text behind a bracket that holds a quoted bracket. -/
theorem nesting_slices_literal :
    (splitToken? Connective.ofChar? "(p = ')') U q -> r ^ s".toList =
        some ("(p = ')') U q -> r ".toList, .and, " s".toList) ∧
      splitToken? Until.ofChar? "(p = ')') U q -> r ^ s".toList =
        some ("(p = ')') ".toList, .strong, " q -> r ^ s".toList) ∧
      splitArrow? "(p = ')') U q -> r ^ s".toList =
        some ("(p = ')') U q ".toList, " r ^ s".toList) ∧
      splitGroup? "(p = ')') U q -> r ^ s".toList =
        some ("p = ')'".toList, " U q -> r ^ s".toList)) ∧
      Rescanned "(p = ')') U q -> r ^ s".toList "(p = ')') U q -> r ".toList
        Connective.and.symbol " s".toList ∧
      Rescanned "(p = ')') U q -> r ^ s".toList "(p = ')') ".toList
        [Until.strong.symbol] " q -> r ^ s".toList ∧
      Rescanned "(p = ')') U q -> r ^ s".toList "(p = ')') U q ".toList
        Connective.implies.symbol " r ^ s".toList ∧
      ClosedBehind "(p = ')') U q -> r ^ s".toList "p = ')'".toList " U q -> r ^ s".toList := by
  have hand : splitToken? Connective.ofChar? "(p = ')') U q -> r ^ s".toList =
      some ("(p = ')') U q -> r ".toList, .and, " s".toList) := by decide +kernel
  have huntil : splitToken? Until.ofChar? "(p = ')') U q -> r ^ s".toList =
      some ("(p = ')') ".toList, .strong, " q -> r ^ s".toList) := by decide +kernel
  have harrow : splitArrow? "(p = ')') U q -> r ^ s".toList =
      some ("(p = ')') U q ".toList, " r ^ s".toList) := by decide +kernel
  have hgroup : splitGroup? "(p = ')') U q -> r ^ s".toList =
      some ("p = ')'".toList, " U q -> r ^ s".toList) := by decide +kernel
  obtain ⟨-, hands, huntils, harrows, hgroups⟩ := nesting_slices "(p = ')') U q -> r ^ s".toList
  exact ⟨⟨hand, huntil, harrow, hgroup⟩, hands _ _ _ hand, huntils _ _ _ huntil,
    harrows _ _ harrow, (hgroups _ _).mp hgroup⟩

end TimedReq.Text
