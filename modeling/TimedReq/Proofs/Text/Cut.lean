import TimedReq.Proofs.Text.Nesting

/-!
# Cutting texts at operators

What a cut says about the text that it was made in, and which pieces of text a search for an
operator passes over. A piece is passed over whatever stands behind it, so that the conditions on
a longer text are those on its pieces.
-/

namespace TimedReq.Text

variable {β : Type} {symbol? : Char → Option β}

lemma eq_of_cutAtCloser {close : Char} {s : Text} {ds : List (Option Int)} {inner after : Text}
    (h : cutAtCloser close s ds = some (inner, after)) : s = inner ++ close :: after := by
  fun_induction cutAtCloser close s ds generalizing inner with
  | case1 s d ds hd =>
    obtain ⟨rfl, rfl⟩ := Prod.mk.inj (Option.some.inj h)
    rfl
  | case2 => simp at h
  | case3 c s d ds hd ih =>
    obtain ⟨⟨i, a⟩, hi, heq⟩ := Option.map_eq_some_iff.mp h
    obtain ⟨rfl, rfl⟩ := Prod.mk.inj heq
    rw [ih hi, List.cons_append]
  | case4 => simp at h

lemma eq_of_cutAtArrow {s : Text} {ds : List (Option Int)} {l r : Text}
    (h : cutAtArrow s ds = some (l, r)) : s = l ++ '-' :: '>' :: r := by
  fun_induction cutAtArrow s ds generalizing l with
  | case1 ds after =>
    obtain ⟨rfl, rfl⟩ := Prod.mk.inj (Option.some.inj h)
    rfl
  | case2 d ds c s hd ih =>
    obtain ⟨⟨i, a⟩, hi, heq⟩ := Option.map_eq_some_iff.mp h
    obtain ⟨rfl, rfl⟩ := Prod.mk.inj heq
    rw [ih hi, List.cons_append]
  | case3 => simp at h

lemma eq_of_cutAtToken {a : Bool} {s : Text} {ds : List (Option Int)} {l r : Text} {x : β}
    (h : cutAtToken symbol? a s ds = some (l, x, r)) :
    ∃ c, s = l ++ c :: r ∧ symbol? c = some x ∧ endsBlank a l = true ∧ startsBlank r = true := by
  fun_induction cutAtToken symbol? a s ds generalizing l with
  | case1 a c b s d ds y hy hd =>
    obtain ⟨rfl, hxr⟩ := Prod.mk.inj (Option.some.inj h)
    obtain ⟨rfl, rfl⟩ := Prod.mk.inj hxr
    exact ⟨c, rfl, hy, hd.1, hd.2.2⟩
  | case2 a c b s d ds y hy hd ih =>
    obtain ⟨⟨i, z, q⟩, hi, heq⟩ := Option.map_eq_some_iff.mp h
    obtain ⟨rfl, hxr⟩ := Prod.mk.inj heq
    obtain ⟨rfl, rfl⟩ := Prod.mk.inj hxr
    obtain ⟨e, he, hrest⟩ := ih hi
    exact ⟨e, by rw [he, List.cons_append], hrest⟩
  | case3 a c b s d ds hy ih =>
    obtain ⟨⟨i, z, q⟩, hi, heq⟩ := Option.map_eq_some_iff.mp h
    obtain ⟨rfl, hxr⟩ := Prod.mk.inj heq
    obtain ⟨rfl, rfl⟩ := Prod.mk.inj hxr
    obtain ⟨e, he, hrest⟩ := ih hi
    exact ⟨e, by rw [he, List.cons_append], hrest⟩
  | case4 => simp at h

/-- No character of the text is a free-standing symbol at depth 0, whatever follows the text. -/
def TokenFree (symbol? : Char → Option β) : Bool → Text → List (Option Int) → Prop
  | a, c :: s, d :: ds =>
    ((symbol? c).isSome → d = some 0 → a = true → ∃ b t, s = b :: t ∧ isBlank b = false) ∧
      TokenFree symbol? (isBlank c) s ds
  | _, _, _ => True

lemma cutAtToken_cons {a : Bool} {c : Char} {s : Text} {d : Option Int} {ds : List (Option Int)}
    (h : (symbol? c).isSome → d = some 0 → a = true → startsBlank s = false) :
    cutAtToken symbol? a (c :: s) (d :: ds) =
      (cutAtToken symbol? (isBlank c) s ds).map fun (l, x, r) => (c :: l, x, r) := by
  cases s with
  | nil => rfl
  | cons b s =>
    rw [cutAtToken]
    split
    · rename_i x hx
      rw [if_neg]
      rintro ⟨ha, hd, hb⟩
      have hfree := h (by rw [hx]; rfl) hd ha
      rw [startsBlank, hb] at hfree
      exact absurd hfree (by simp)
    · rfl

lemma cutAtToken_append {a : Bool} {w : Text} {ns : List (Option Int)}
    (h : TokenFree symbol? a w ns) (hn : ns.length = w.length) (s : Text)
    (ds : List (Option Int)) :
    cutAtToken symbol? a (w ++ s) (ns ++ ds) =
      (cutAtToken symbol? (endsBlank a w) s ds).map fun (l, x, r) => (w ++ l, x, r) := by
  induction w generalizing a ns with
  | nil =>
    obtain rfl := List.length_eq_zero_iff.mp hn
    exact (congrFun Option.map_id _).symm
  | cons c w ih =>
    obtain ⟨d, ns, rfl⟩ := List.exists_cons_of_length_eq_add_one hn
    obtain ⟨hc, hw⟩ := h
    rw [List.cons_append, List.cons_append, cutAtToken_cons, ih hw (by simpa using hn),
      Option.map_map]
    · rfl
    · intro hx hd ha
      obtain ⟨b, t, rfl, hb⟩ := hc hx hd ha
      exact hb

lemma TokenFree.append {a : Bool} {v w : Text} {ms ns : List (Option Int)}
    (hv : TokenFree symbol? a v ms) (hm : ms.length = v.length)
    (hw : TokenFree symbol? (endsBlank a v) w ns) : TokenFree symbol? a (v ++ w) (ms ++ ns) := by
  induction v generalizing a ms with
  | nil =>
    obtain rfl := List.length_eq_zero_iff.mp hm
    exact hw
  | cons c v ih =>
    obtain ⟨d, ms, rfl⟩ := List.exists_cons_of_length_eq_add_one hm
    obtain ⟨hc, hv⟩ := hv
    refine ⟨?_, ih hv (by simpa using hm) hw⟩
    intro hx hd ha
    obtain ⟨b, t, rfl, hb⟩ := hc hx hd ha
    exact ⟨b, t ++ w, rfl, hb⟩

lemma TokenFree.of_symbols {w : Text} (hw : ∀ c ∈ w, symbol? c = none) (a : Bool)
    (ns : List (Option Int)) : TokenFree symbol? a w ns := by
  induction w generalizing a ns with
  | nil => trivial
  | cons c w ih =>
    cases ns with
    | nil => trivial
    | cons d ns =>
      refine ⟨?_, ih (fun x hx => hw x (List.mem_cons_of_mem c hx)) _ _⟩
      intro hx
      rw [hw c List.mem_cons_self] at hx
      exact absurd hx (by simp)

lemma TokenFree.of_depth {ns : List (Option Int)} (hn : ∀ k, some k ∈ ns → 1 ≤ k) (a : Bool)
    (w : Text) : TokenFree symbol? a w ns := by
  induction w generalizing a ns with
  | nil => trivial
  | cons c w ih =>
    cases ns with
    | nil => trivial
    | cons d ns =>
      refine ⟨?_, ih (fun k hk => hn k (List.mem_cons_of_mem d hk)) _⟩
      rintro - rfl
      have h0 := hn 0 List.mem_cons_self
      omega

lemma TokenFree.mono {w : Text} {ns : List (Option Int)} (h : TokenFree symbol? true w ns)
    (a : Bool) : TokenFree symbol? a w ns := by
  cases w with
  | nil => trivial
  | cons c w =>
    cases ns with
    | nil => trivial
    | cons d ns => exact ⟨fun hx hd _ => h.1 hx hd rfl, h.2⟩

/-- No arrow at depth 0 begins in the text, whatever follows it. -/
def ArrowFree : Text → List (Option Int) → Prop
  | c :: s, d :: ds => (c = '-' → d = some 0 → ∃ b t, s = b :: t ∧ b ≠ '>') ∧ ArrowFree s ds
  | _, _ => True

lemma cutAtArrow_cons {c : Char} {s : Text} {d : Option Int} {ds : List (Option Int)}
    (h : c = '-' → d = some 0 → s.head? ≠ some '>') :
    cutAtArrow (c :: s) (d :: ds) = (cutAtArrow s ds).map fun (l, r) => (c :: l, r) := by
  rw [cutAtArrow]
  rintro after rfl rfl rfl
  exact h rfl rfl rfl

lemma cutAtArrow_append {w : Text} {ns : List (Option Int)} (h : ArrowFree w ns)
    (hn : ns.length = w.length) (s : Text) (ds : List (Option Int)) :
    cutAtArrow (w ++ s) (ns ++ ds) = (cutAtArrow s ds).map fun (l, r) => (w ++ l, r) := by
  induction w generalizing ns with
  | nil =>
    obtain rfl := List.length_eq_zero_iff.mp hn
    simp
  | cons c w ih =>
    obtain ⟨d, ns, rfl⟩ := List.exists_cons_of_length_eq_add_one hn
    obtain ⟨hc, hw⟩ := h
    rw [List.cons_append, List.cons_append, cutAtArrow_cons, ih hw (by simpa using hn),
      Option.map_map]
    · rfl
    · intro hx hd
      obtain ⟨b, t, rfl, hb⟩ := hc hx hd
      simpa using hb

lemma ArrowFree.append {v w : Text} {ms ns : List (Option Int)} (hv : ArrowFree v ms)
    (hm : ms.length = v.length) (hw : ArrowFree w ns) : ArrowFree (v ++ w) (ms ++ ns) := by
  induction v generalizing ms with
  | nil =>
    obtain rfl := List.length_eq_zero_iff.mp hm
    exact hw
  | cons c v ih =>
    obtain ⟨d, ms, rfl⟩ := List.exists_cons_of_length_eq_add_one hm
    obtain ⟨hc, hv⟩ := hv
    refine ⟨?_, ih hv (by simpa using hm)⟩
    intro hx hd
    obtain ⟨b, t, rfl, hb⟩ := hc hx hd
    exact ⟨b, t ++ w, rfl, hb⟩

lemma ArrowFree.of_ne {w : Text} (hw : ∀ c ∈ w, c ≠ '-') (ns : List (Option Int)) :
    ArrowFree w ns := by
  induction w generalizing ns with
  | nil => trivial
  | cons c w ih =>
    cases ns with
    | nil => trivial
    | cons d ns =>
      refine ⟨?_, ih (fun x hx => hw x (List.mem_cons_of_mem c hx)) _⟩
      intro hc
      exact absurd hc (hw c List.mem_cons_self)

lemma ArrowFree.of_depth {ns : List (Option Int)} (hn : ∀ k, some k ∈ ns → 1 ≤ k) (w : Text) :
    ArrowFree w ns := by
  induction w generalizing ns with
  | nil => trivial
  | cons c w ih =>
    cases ns with
    | nil => trivial
    | cons d ns =>
      refine ⟨?_, ih fun k hk => hn k (List.mem_cons_of_mem d hk)⟩
      rintro - rfl
      have h0 := hn 0 List.mem_cons_self
      omega

lemma cutAtCloser_cons {close c : Char} {n : Option Int} (h : ¬(IsClosing c ∧ n = some 0))
    (s : Text) (ds : List (Option Int)) :
    cutAtCloser close (c :: s) (n :: ds) =
      (cutAtCloser close s ds).map fun (inner, after) => (c :: inner, after) := by
  rw [cutAtCloser]
  exact if_neg h

lemma cutAtCloser_append {close : Char} {ns : List (Option Int)} (hn : ∀ k, some k ∈ ns → 1 ≤ k)
    {w : Text} (hlen : ns.length = w.length) (s : Text) (ds : List (Option Int)) :
    cutAtCloser close (w ++ s) (ns ++ ds) =
      (cutAtCloser close s ds).map fun (inner, after) => (w ++ inner, after) := by
  induction w generalizing ns with
  | nil =>
    obtain rfl := List.length_eq_zero_iff.mp hlen
    simp
  | cons c w ih =>
    obtain ⟨d, ns, rfl⟩ := List.exists_cons_of_length_eq_add_one hlen
    have hd : ¬(IsClosing c ∧ d = some 0) := by
      rintro ⟨-, rfl⟩
      have h0 := hn 0 List.mem_cons_self
      omega
    rw [List.cons_append, List.cons_append, cutAtCloser_cons hd,
      ih (fun k hk => hn k (List.mem_cons_of_mem d hk)) (by simpa using hlen), Option.map_map]
    rfl

/-- A neutral text in brackets is taken out of them. -/
lemma splitGroup?_bracket {w : Text} (hw : Neutral w) {o c : Char} (hoc : closer? o = some c)
    (s : Text) : splitGroup? (o :: (w ++ c :: s)) = some (w, s) := by
  have hbracket := isBracket_of_closer? hoc
  have hdeep : ∀ k, some k ∈ nestingFrom false (0 + 1) w → 1 ≤ k := by
    intro k hk
    have hle := hw.le_depth _ k hk
    omega
  have hcut : cutAtCloser c (c :: s) (some 0 :: nestingFrom false 0 s) = some ([], s) := by
    rw [cutAtCloser, if_pos ⟨hbracket.2, rfl⟩, if_pos rfl]
  rw [splitGroup?, hoc, Option.bind_some, nesting,
    hw.nestingFrom_bracket hbracket.1 hbracket.2, List.tail_cons,
    cutAtCloser_append hdeep (length_nestingFrom _ _ _), hcut]
  simp

lemma eq_of_splitGroup? {c : Char} {s inner after : Text}
    (h : splitGroup? (c :: s) = some (inner, after)) :
    ∃ close, closer? c = some close ∧ s = inner ++ close :: after := by
  unfold splitGroup? at h
  obtain ⟨close, hclose, hcut⟩ := Option.bind_eq_some_iff.mp h
  exact ⟨close, hclose, eq_of_cutAtCloser hcut⟩

lemma cutAtCloser_cons_eq_some {close c : Char} {n : Option Int} {t inner after : Text}
    {ds : List (Option Int)} (hn : ¬(IsClosing c ∧ n = some 0))
    (h : cutAtCloser close (c :: t) (n :: ds) = some (inner, after)) :
    ∃ i, inner = c :: i ∧ cutAtCloser close t ds = some (i, after) := by
  rw [cutAtCloser_cons hn] at h
  obtain ⟨⟨i, a⟩, hi, heq⟩ := Option.map_eq_some_iff.mp h
  obtain ⟨rfl, rfl⟩ := Prod.mk.inj heq
  exact ⟨i, rfl, hi⟩

/-- The search for the closing bracket finds it behind `inner` if `after` follows it. -/
def ClosesAfter (close : Char) (q : Bool) (d : Int) (inner after : Text) : Prop :=
  cutAtCloser close (inner ++ close :: after) (nestingFrom q d (inner ++ close :: after)) =
    some (inner, after)

/-- A closing bracket is the one looked for, or the search goes on behind it. -/
lemma ClosesAfter.closing {close c : Char} {d : Int} {t inner after after' : Text}
    (hc : IsClosing c)
    (h : cutAtCloser close (c :: t) (some (d - 1) :: nestingFrom false (d - 1) t) =
      some (inner, after))
    (ih : ∀ {i : Text}, cutAtCloser close t (nestingFrom false (d - 1) t) = some (i, after) →
      ClosesAfter close false (d - 1) i after') :
    ClosesAfter close false d inner after' := by
  unfold ClosesAfter
  by_cases hd : d - 1 = 0
  · rw [cutAtCloser, if_pos ⟨hc, congrArg some hd⟩] at h
    split at h
    · rename_i heq
      obtain ⟨rfl, -⟩ := Prod.mk.inj (Option.some.inj h)
      subst heq
      rw [List.nil_append, nestingFrom_closing _ _ hc, cutAtCloser,
        if_pos ⟨hc, congrArg some hd⟩, if_pos rfl]
    · simp at h
  · have hn : ¬(IsClosing c ∧ some (d - 1) = some 0) := by
      rintro ⟨-, h0⟩
      exact hd (Option.some.inj h0)
    obtain ⟨i, rfl, hi⟩ := cutAtCloser_cons_eq_some hn h
    rw [List.cons_append, nestingFrom_closing _ _ hc, cutAtCloser_cons hn, ih hi]
    rfl

/-- A single quote that opens no literal opens none if the text behind the bracket is exchanged for
one that does not begin with a single quote. -/
lemma no_literal_exchange {close c : Char} {i after after' : Text}
    (h : ∀ e r, c = '\'' → i ++ close :: after = e :: '\'' :: r → False)
    (hafter : after'.head? ≠ some '\'') :
    ∀ e r, c = '\'' → i ++ close :: after' = e :: '\'' :: r → False := by
  intro e r hquote heq
  rcases i with _ | ⟨x, _ | ⟨y, i⟩⟩
  · obtain ⟨-, rfl⟩ := List.cons.inj heq
    exact hafter rfl
  · obtain ⟨rfl, hrest⟩ := List.cons.inj heq
    obtain ⟨rfl, -⟩ := List.cons.inj hrest
    exact h x _ hquote rfl
  · obtain ⟨rfl, hrest⟩ := List.cons.inj heq
    obtain ⟨rfl, -⟩ := List.cons.inj hrest
    exact h x _ hquote rfl

/-- A bracket is closed at the same place if the text behind it is exchanged. A single quote may
not come to stand there, since it could complete a literal with the bracket in it. -/
lemma cutAtCloser_congr {close : Char} {q : Bool} {d : Int} {s inner after after' : Text}
    (h : cutAtCloser close s (nestingFrom q d s) = some (inner, after))
    (hafter : after'.head? ≠ some '\'') : ClosesAfter close q d inner after' := by
  fun_induction nestingFrom q d s generalizing inner with
  | case1 => simp [cutAtCloser] at h
  | case2 d c s ih =>
    obtain ⟨i, rfl, hi⟩ := cutAtCloser_cons_eq_some (by simp) h
    rw [ClosesAfter, List.cons_append, nestingFrom_string, cutAtCloser_cons (by simp), ih hi]
    rfl
  | case3 q d s hq ih =>
    obtain rfl : q = false := by simpa using hq
    obtain ⟨i, rfl, hi⟩ := cutAtCloser_cons_eq_some (by simp) h
    rw [ClosesAfter, List.cons_append, nestingFrom_stringStart, cutAtCloser_cons (by simp), ih hi]
    rfl
  | case4 q d hq e rest hne ih =>
    obtain rfl : q = false := by simpa using hq
    obtain ⟨i1, rfl, h1⟩ := cutAtCloser_cons_eq_some (by simp) h
    obtain ⟨i2, rfl, h2⟩ := cutAtCloser_cons_eq_some (by simp) h1
    obtain ⟨i3, rfl, h3⟩ := cutAtCloser_cons_eq_some (by simp) h2
    rw [ClosesAfter, List.cons_append, List.cons_append, List.cons_append, nestingFrom_character,
      cutAtCloser_cons (by simp), cutAtCloser_cons (by simp), cutAtCloser_cons (by simp), ih h3]
    rfl
  | case5 q d hq s hne ih =>
    obtain rfl : q = false := by simpa using hq
    obtain ⟨i, rfl, hi⟩ := cutAtCloser_cons_eq_some (by simp [IsClosing]) h
    rw [ClosesAfter, List.cons_append, nestingFrom_opening _ _ (.inl rfl),
      cutAtCloser_cons (by simp [IsClosing]), ih hi]
    rfl
  | case6 q d hq s hne ih =>
    obtain rfl : q = false := by simpa using hq
    obtain ⟨i, rfl, hi⟩ := cutAtCloser_cons_eq_some (by simp [IsClosing]) h
    rw [ClosesAfter, List.cons_append, nestingFrom_opening _ _ (.inr rfl),
      cutAtCloser_cons (by simp [IsClosing]), ih hi]
    rfl
  | case7 q d hq s hne ih =>
    obtain rfl : q = false := by simpa using hq
    exact .closing (.inl rfl) h ih
  | case8 q d hq s hne ih =>
    obtain rfl : q = false := by simpa using hq
    exact .closing (.inr rfl) h ih
  | case9 q d c hq hne s hlit h1 h2 h3 h4 ih =>
    obtain rfl : q = false := by simpa using hq
    have hc : ¬IsClosing c := by
      rintro (rfl | rfl)
      · exact h3 rfl
      · exact h4 rfl
    have ho : ¬IsOpening c := by
      rintro (rfl | rfl)
      · exact h1 rfl
      · exact h2 rfl
    obtain ⟨i, rfl, hi⟩ := cutAtCloser_cons_eq_some (fun h => hc h.1) h
    rw [eq_of_cutAtCloser hi] at hlit
    rw [ClosesAfter, List.cons_append,
      nestingFrom_other d hne ho hc (no_literal_exchange hlit hafter),
      cutAtCloser_cons (fun h => hc h.1), ih hi]
    rfl

lemma splitGroup?_congr {c close : Char} {s inner after after' : Text} (hclose : closer? c = some close)
    (h : splitGroup? (c :: s) = some (inner, after)) (hafter : after'.head? ≠ some '\'') :
    splitGroup? (c :: (inner ++ close :: after')) = some (inner, after') := by
  rw [splitGroup?, hclose, Option.bind_some, nesting,
    nestingFrom_opening 0 _ (isBracket_of_closer? hclose).1, List.tail_cons] at h ⊢
  exact cutAtCloser_congr h hafter

end TimedReq.Text
