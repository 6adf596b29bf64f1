import TimedReq.Proofs.Text.Cut

/-!
# Characters in literals

Which characters of a text stand in quoted literals does not depend on the depth of brackets. A
piece that is cut out at characters outside literals, or trimmed, has the literals that it has in
the whole text.
-/

namespace TimedReq.Text

/-- A character that begins no literal leaves the text outside literals. -/
lemma exists_nestingFrom_other (d : Int) {c : Char} {s : Text} (hq : c ≠ '"')
    (hs : ∀ e r, c = '\'' → s = e :: '\'' :: r → False) :
    ∃ k d', nestingFrom false d (c :: s) = some k :: nestingFrom false d' s := by
  by_cases ho : IsOpening c
  · exact ⟨d, d + 1, nestingFrom_opening d s ho⟩
  · by_cases hc : IsClosing c
    · exact ⟨d - 1, d - 1, nestingFrom_closing d s hc⟩
    · exact ⟨d, d, nestingFrom_other d hq ho hc hs⟩

/-- Induction along the literals of a text: the brackets in it do not matter. -/
@[elab_as_elim]
lemma quoting_induction {motive : Bool → Text → Prop} (nil : ∀ q, motive q [])
    (string : ∀ c s, motive (c != '"') s → motive true (c :: s))
    (stringStart : ∀ s, motive true s → motive false ('"' :: s))
    (character : ∀ e s, motive false s → motive false ('\'' :: e :: '\'' :: s))
    (other : ∀ c s, c ≠ '"' → (∀ e r, c = '\'' → s = e :: '\'' :: r → False) → motive false s →
      motive false (c :: s)) (q : Bool) (s : Text) : motive q s := by
  have hall : ∀ d : Int, motive q s := by
    intro d
    fun_induction nestingFrom q d s with
    | case1 q => exact nil q
    | case2 d c s ih => exact string c s ih
    | case3 q d s hq ih =>
      obtain rfl : q = false := by simpa using hq
      exact stringStart s ih
    | case4 q d hq e s hne ih =>
      obtain rfl : q = false := by simpa using hq
      exact character e s ih
    | case5 q d hq s hne ih | case6 q d hq s hne ih | case7 q d hq s hne ih
    | case8 q d hq s hne ih =>
      obtain rfl : q = false := by simpa using hq
      exact other _ s hne (by simp) ih
    | case9 q d c hq hne s hlit _ _ _ _ ih =>
      obtain rfl : q = false := by simpa using hq
      exact other c s hne hlit ih
  exact hall 0

lemma isNone_nestingFrom (q : Bool) (d d' : Int) (s : Text) :
    (nestingFrom q d s).map Option.isNone = (nestingFrom q d' s).map Option.isNone := by
  induction q, s using quoting_induction generalizing d d' with
  | nil => rfl
  | string c s ih => rw [nestingFrom_string, nestingFrom_string, List.map_cons, List.map_cons, ih]
  | stringStart s ih =>
    rw [nestingFrom_stringStart, nestingFrom_stringStart, List.map_cons, List.map_cons, ih]
  | character e s ih =>
    rw [nestingFrom_character, nestingFrom_character]
    simp only [List.map_cons]
    rw [ih]
  | other c s hq hs ih =>
    obtain ⟨k, j, h⟩ := exists_nestingFrom_other d hq hs
    obtain ⟨k', j', h'⟩ := exists_nestingFrom_other d' hq hs
    rw [h, h', List.map_cons, List.map_cons, ih j j']
    rfl

/-- Whether the characters of a text stand in literals, if it begins in a string literal or not. -/
def quotes (inString : Bool) (s : Text) : List Bool := (nestingFrom inString 0 s).map Option.isNone

lemma length_quotes (q : Bool) (s : Text) : (quotes q s).length = s.length := by
  rw [quotes, List.length_map, length_nestingFrom]

lemma quotes_string (c : Char) (s : Text) :
    quotes true (c :: s) = true :: quotes (c != '"') s := by
  rw [quotes, nestingFrom_string]
  rfl

lemma quotes_stringStart (s : Text) : quotes false ('"' :: s) = true :: quotes true s := rfl

lemma quotes_character (e : Char) (s : Text) :
    quotes false ('\'' :: e :: '\'' :: s) = true :: true :: true :: quotes false s := rfl

lemma quotes_other {c : Char} {s : Text} (hq : c ≠ '"')
    (hs : ∀ e r, c = '\'' → s = e :: '\'' :: r → False) :
    quotes false (c :: s) = false :: quotes false s := by
  obtain ⟨k, d, h⟩ := exists_nestingFrom_other 0 hq hs
  rw [quotes, h, List.map_cons, isNone_nestingFrom false d 0]
  rfl

/-- Behind a character outside literals the text goes on outside literals. -/
lemma quotes_of_head {q : Bool} {c : Char} {s : Text}
    (h : (quotes q (c :: s)).head? = some false) : quotes q (c :: s) = false :: quotes false s := by
  cases q with
  | true =>
    rw [quotes_string] at h
    simp at h
  | false =>
    by_cases hq : c = '"'
    · subst hq
      simp [quotes_stringStart] at h
    · refine quotes_other hq ?_
      rintro e r rfl rfl
      simp [quotes_character] at h

/-- The literals of a text are those of its pieces, unless a character literal that begins in the
first piece ends in the second. -/
lemma quotes_append (q : Bool) (s t : Text) :
    (∃ q', quotes q (s ++ t) = quotes q s ++ quotes q' t) ∨
      (quotes q (s ++ t))[s.length]? = some true ∧
        ∃ u r, t = u ++ '\'' :: r ∧ u.length ≤ 1 := by
  -- with one more character in front, the cut is one place further on
  have hcons : ∀ {qs ps : List Bool} {n : Nat} (b : Bool),
      ((∃ q', qs = ps ++ quotes q' t) ∨
        qs[n]? = some true ∧ ∃ u r, t = u ++ '\'' :: r ∧ u.length ≤ 1) →
      (∃ q', b :: qs = b :: ps ++ quotes q' t) ∨
        (b :: qs)[n + 1]? = some true ∧ ∃ u r, t = u ++ '\'' :: r ∧ u.length ≤ 1 := by
    intro qs ps n b h
    refine h.imp ?_ id
    rintro ⟨q', rfl⟩
    exact ⟨q', rfl⟩
  induction q, s using quoting_induction with
  | nil q => exact .inl ⟨q, rfl⟩
  | string c s ih =>
    rw [List.cons_append, quotes_string, quotes_string]
    exact hcons true ih
  | stringStart s ih =>
    rw [List.cons_append, quotes_stringStart, quotes_stringStart]
    exact hcons true ih
  | character e s ih =>
    rw [List.cons_append, List.cons_append, List.cons_append, quotes_character, quotes_character]
    exact hcons true (hcons true (hcons true ih))
  | other c s hq hs ih =>
    rw [List.cons_append, quotes_other hq hs]
    by_cases hlit : ∀ e r, c = '\'' → s ++ t = e :: '\'' :: r → False
    · rw [quotes_other hq hlit]
      exact hcons false ih
    · -- the literal that begins at `c` ends behind `s`
      push Not at hlit
      obtain ⟨e, r, rfl, heq, -⟩ := hlit
      right
      rw [heq, quotes_character]
      rcases s with _ | ⟨x, _ | ⟨y, s⟩⟩
      · exact ⟨rfl, [e], r, heq, Nat.le_refl 1⟩
      · obtain ⟨-, rfl⟩ := List.cons.inj heq
        exact ⟨rfl, [], r, rfl, Nat.zero_le 1⟩
      · obtain ⟨-, hrest⟩ := List.cons.inj heq
        obtain ⟨rfl, -⟩ := List.cons.inj hrest
        exact (hs x s rfl rfl).elim

/-! ### Marks -/

/-- A character of a text and whether it stands in a quoted literal. -/
abbrev Mark := Char × Bool

/-- The characters of a text with the mark whether they stand in a quoted literal. -/
def marked (s : Text) : List Mark := s.zip ((nesting s).map Option.isNone)

lemma marked_eq_zip (s : Text) : marked s = s.zip (quotes false s) := rfl

lemma marked_other {c : Char} {s : Text} (hq : c ≠ '"')
    (hs : ∀ e r, c = '\'' → s = e :: '\'' :: r → False) :
    marked (c :: s) = (c, false) :: marked s := by
  rw [marked_eq_zip, quotes_other hq hs]
  rfl

lemma marked_cons {c : Char} (hq : c ≠ '"' ∧ c ≠ '\'') (s : Text) :
    marked (c :: s) = (c, false) :: marked s :=
  marked_other hq.1 fun _ _ heq => absurd heq hq.2

lemma marked_plain {c : Char} (hc : IsPlain c) (s : Text) :
    marked (c :: s) = (c, false) :: marked s :=
  marked_cons ⟨hc.1, hc.2.1⟩ s

lemma map_fst_marked (s : Text) : (marked s).map Prod.fst = s := by
  rw [marked_eq_zip, List.map_fst_zip (Nat.le_of_eq (length_quotes false s).symm)]

lemma map_snd_marked (s : Text) : (marked s).map Prod.snd = quotes false s := by
  rw [marked_eq_zip, List.map_snd_zip (Nat.le_of_eq (length_quotes false s))]

/-- Behind a closed text the marks are those of the text alone. -/
lemma marked_append {δ : Int} {s : Text} (hs : Closed δ s) (t : Text) :
    marked (s ++ t) = marked s ++ marked t := by
  have hquotes : quotes false (s ++ t) = quotes false s ++ quotes false t := by
    unfold quotes
    rw [hs 0 t, List.map_append, isNone_nestingFrom false (0 + δ) 0 t]
  rw [marked_eq_zip, hquotes, List.zip_append (length_quotes false s).symm]
  rfl

/-- A text in brackets. -/
lemma marked_bracket {δ : Int} {o c : Char} (ho : IsOpening o) (hc : IsClosing c) {s : Text}
    (hs : Closed δ s) :
    marked (o :: (s ++ [c])) = (o, false) :: (marked s ++ [(c, false)]) := by
  have hone : marked [o] = [(o, false)] ∧ marked [c] = [(c, false)] := by
    constructor
    · rcases ho with rfl | rfl <;> rfl
    · rcases hc with rfl | rfl <;> rfl
  have hcut : o :: (s ++ [c]) = [o] ++ (s ++ [c]) := rfl
  rw [hcut, marked_append (Closed.opening ho), marked_append hs, hone.1, hone.2]
  rfl

/-- The pieces around a character outside literals have the marks that they have in the text. -/
lemma marked_cut {a b : Text} {c : Char}
    (h : (quotes false (a ++ c :: b))[a.length]? = some false) :
    marked (a ++ c :: b) = marked a ++ (c, false) :: marked b := by
  obtain ⟨q, hq⟩ | ⟨htrue, -⟩ := quotes_append false a (c :: b)
  · have hhead : (quotes q (c :: b)).head? = some false := by
      rwa [hq, List.getElem?_append_right (Nat.le_of_eq (length_quotes false a)),
        length_quotes, Nat.sub_self, ← List.head?_eq_getElem?] at h
    rw [marked_eq_zip, hq, List.zip_append (length_quotes false a).symm, quotes_of_head hhead]
    rfl
  · rw [h] at htrue
    simp at htrue

/-- The marks of a trimmed text are those of the text, without blanks at the ends. -/
lemma exists_marked_trim (s : Text) : ∃ u v : List Mark, (∀ m ∈ u, isBlank m.1 = true) ∧
    (∀ m ∈ v, isBlank m.1 = true) ∧ marked s = u ++ (marked (trim s) ++ v) := by
  obtain ⟨u, v, hu, hv, heq⟩ := exists_trim s
  have hmem : ∀ {w : Text} {qs : List Bool}, AllBlank w → ∀ m ∈ w.zip qs, isBlank m.1 = true :=
    fun hw m hm => hw m.1 (List.of_mem_zip hm).1
  obtain ⟨q, hq⟩ | ⟨-, w, r, rfl, -⟩ := quotes_append false (trim s) v
  · refine ⟨marked u, v.zip (quotes q v), hmem hu, hmem hv, ?_⟩
    have hbehind : marked (trim s ++ v) = marked (trim s) ++ v.zip (quotes q v) := by
      rw [marked_eq_zip, hq, List.zip_append (length_quotes false _).symm]
      rfl
    rw [← hbehind, ← marked_append (Neutral.allBlank hu).closed, ← List.append_assoc, ← heq]
  · exact absurd (hv '\'' (by simp)) (by decide)

/-- A text that is trimmed keeps its marks. -/
lemma marked_trim (s : Text) : marked (trim s) <:+: marked s := by
  obtain ⟨u, v, -, -, heq⟩ := exists_marked_trim s
  exact ⟨u, v, by rw [heq, List.append_assoc]⟩

/-! ### Pieces of a text -/

lemma depth_of_cutAtCloser {close : Char} {s : Text} {ds : List (Option Int)} {inner after : Text}
    (h : cutAtCloser close s ds = some (inner, after)) : ds[inner.length]? = some (some 0) := by
  fun_induction cutAtCloser close s ds generalizing inner with
  | case1 s d ds hd =>
    obtain ⟨rfl, rfl⟩ := Prod.mk.inj (Option.some.inj h)
    rw [hd.2]
    rfl
  | case2 => simp at h
  | case3 c s d ds hd ih =>
    obtain ⟨⟨i, a⟩, hi, heq⟩ := Option.map_eq_some_iff.mp h
    obtain ⟨rfl, rfl⟩ := Prod.mk.inj heq
    exact ih hi
  | case4 => simp at h

lemma depth_of_cutAtArrow {s : Text} {ds : List (Option Int)} {l r : Text}
    (h : cutAtArrow s ds = some (l, r)) : ds[l.length]? = some (some 0) := by
  fun_induction cutAtArrow s ds generalizing l with
  | case1 ds after =>
    obtain ⟨rfl, rfl⟩ := Prod.mk.inj (Option.some.inj h)
    rfl
  | case2 d ds c s hd ih =>
    obtain ⟨⟨i, a⟩, hi, heq⟩ := Option.map_eq_some_iff.mp h
    obtain ⟨rfl, rfl⟩ := Prod.mk.inj heq
    exact ih hi
  | case3 => simp at h

variable {β : Type} {symbol? : Char → Option β}

lemma depth_of_cutAtToken {a : Bool} {s : Text} {ds : List (Option Int)} {l r : Text} {x : β}
    (h : cutAtToken symbol? a s ds = some (l, x, r)) : ds[l.length]? = some (some 0) := by
  fun_induction cutAtToken symbol? a s ds generalizing l with
  | case1 a c b s d ds y hy hd =>
    obtain ⟨rfl, -⟩ := Prod.mk.inj (Option.some.inj h)
    rw [hd.2.1]
    rfl
  | case2 a c b s d ds y hy hd ih =>
    obtain ⟨⟨i, z, q⟩, hi, heq⟩ := Option.map_eq_some_iff.mp h
    obtain ⟨rfl, hxr⟩ := Prod.mk.inj heq
    obtain ⟨rfl, rfl⟩ := Prod.mk.inj hxr
    exact ih hi
  | case3 a c b s d ds hy ih =>
    obtain ⟨⟨i, z, q⟩, hi, heq⟩ := Option.map_eq_some_iff.mp h
    obtain ⟨rfl, hxr⟩ := Prod.mk.inj heq
    obtain ⟨rfl, rfl⟩ := Prod.mk.inj hxr
    exact ih hi
  | case4 => simp at h

/-- Where the depth of a character is known, it stands outside literals. -/
lemma marked_of_depth {a b : Text} {c : Char} {k : Int}
    (h : (nesting (a ++ c :: b))[a.length]? = some (some k)) :
    marked (a ++ c :: b) = marked a ++ (c, false) :: marked b := by
  refine marked_cut ?_
  unfold nesting at h
  rw [quotes, List.getElem?_map, h]
  rfl

lemma marked_of_splitToken? {s l r : Text} {x : β} (h : splitToken? symbol? s = some (l, x, r)) :
    ∃ c, marked s = marked l ++ (c, false) :: marked r := by
  obtain ⟨c, rfl, -, -, -⟩ := eq_of_cutAtToken h
  exact ⟨c, marked_of_depth (depth_of_cutAtToken h)⟩

lemma marked_of_splitArrow? {s l r : Text} (h : splitArrow? s = some (l, r)) :
    marked s = marked l ++ ('-', false) :: ('>', false) :: marked r := by
  obtain rfl := eq_of_cutAtArrow h
  rw [marked_of_depth (depth_of_cutAtArrow h), marked_cons (by decide)]

lemma marked_of_splitGroup? {c : Char} {s inner after : Text}
    (h : splitGroup? (c :: s) = some (inner, after)) :
    ∃ close, closer? c = some close ∧
      marked (c :: s) = (c, false) :: (marked inner ++ (close, false) :: marked after) := by
  obtain ⟨close, hclose, rfl⟩ := eq_of_splitGroup? h
  refine ⟨close, hclose, ?_⟩
  have hopening := (isBracket_of_closer? hclose).1
  rw [splitGroup?, hclose, Option.bind_some, nesting, nestingFrom_opening 0 _ hopening,
    List.tail_cons] at h
  have hdepth := depth_of_cutAtCloser h
  have hquotes : (quotes false (inner ++ close :: after))[inner.length]? = some false := by
    rw [quotes, isNone_nestingFrom false 0 (0 + 1), List.getElem?_map, hdepth]
    rfl
  rw [marked_cons hopening.not_quote, marked_cut hquotes]

end TimedReq.Text
