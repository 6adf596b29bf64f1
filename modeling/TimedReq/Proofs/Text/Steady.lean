import TimedReq.Proofs.Expr.Operator
import TimedReq.Proofs.Text.Quoting
import TimedReq.Proofs.Text.Reflow

/-!
# Where texts are cut

Texts are cut at operators, arrows and closing brackets of some depth. The depths are found from the
marks of the characters, and the place of the cut does not depend on how long the runs of blanks in
front of it are.
-/

namespace TimedReq.Text

/-- A blank outside quoted literals. -/
def isSpacing (m : Mark) : Bool := !m.2 && isBlank m.1

lemma isBlank_of_isSpacing {m : Mark} (h : isSpacing m = true) : isBlank m.1 = true := by
  unfold isSpacing at h
  exact (Bool.and_eq_true_iff.mp h).2

/-! ### Depths -/

instance (c : Char) : Decidable (IsOpening c) := inferInstanceAs (Decidable (c = '(' ∨ c = '{'))

instance (c : Char) : Decidable (IsClosing c) := inferInstanceAs (Decidable (c = ')' ∨ c = '}'))

/-- The depths of marked characters; those in literals have none. -/
def depths (d : Int) : List Mark → List (Option Int)
  | [] => []
  | (_, true) :: ms => none :: depths d ms
  | (c, false) :: ms =>
    if IsOpening c then some d :: depths (d + 1) ms
    else if IsClosing c then some (d - 1) :: depths (d - 1) ms
    else some d :: depths d ms

/-- The depths of a text are found from its marks alone. -/
lemma nestingFrom_eq_depths (q : Bool) (d : Int) (s : Text) :
    nestingFrom q d s = depths d (s.zip (quotes q s)) := by
  induction q, s using quoting_induction generalizing d with
  | nil => rfl
  | string c s ih =>
    rw [nestingFrom_string, quotes_string, List.zip_cons_cons, depths, ih]
  | stringStart s ih =>
    rw [nestingFrom_stringStart, quotes_stringStart, List.zip_cons_cons, depths, ih]
  | character e s ih =>
    rw [nestingFrom_character, quotes_character]
    simp only [List.zip_cons_cons, depths]
    rw [ih]
  | other c s hq hs ih =>
    rw [quotes_other hq hs, List.zip_cons_cons, depths]
    by_cases ho : IsOpening c
    · rw [if_pos ho, nestingFrom_opening d s ho, ih]
    · by_cases hc : IsClosing c
      · rw [if_neg ho, if_pos hc, nestingFrom_closing d s hc, ih]
      · rw [if_neg ho, if_neg hc, nestingFrom_other d hq ho hc hs, ih]

lemma nesting_eq_depths (s : Text) : nesting s = depths 0 (marked s) :=
  nestingFrom_eq_depths false 0 s

lemma nesting_opening {o : Char} (ho : IsOpening o) (s : Text) :
    nesting (o :: s) = some 0 :: depths 1 (marked s) := by
  rw [nesting, nestingFrom_opening 0 s ho, nestingFrom_eq_depths]
  rfl

/-- Blanks have the depth of their surroundings. -/
lemma depths_append {u : List Mark} (hu : ∀ m ∈ u, isSpacing m = true) (d : Int) (ms : List Mark) :
    depths d (u ++ ms) = List.replicate u.length (some d) ++ depths d ms := by
  induction u with
  | nil => rfl
  | cons m u ih =>
    obtain ⟨c, q⟩ := m
    have hm := hu (c, q) List.mem_cons_self
    obtain ⟨hq, hc⟩ : q = false ∧ isBlank c = true := by simpa [isSpacing] using hm
    subst hq
    have hno := (isPlain_of_isBlank hc).not_bracket
    rw [List.cons_append, depths, if_neg hno.1, if_neg hno.2,
      ih fun m hm => hu m (List.mem_cons_of_mem _ hm)]
    rfl

/-! ### Opened and closed brackets -/

/-- The number of brackets outside literals that open. -/
def openings (ms : List Mark) : Nat := ms.countP fun m => !m.2 && decide (IsOpening m.1)

/-- The number of brackets outside literals that close. -/
def closings (ms : List Mark) : Nat := ms.countP fun m => !m.2 && decide (IsClosing m.1)

/-- By how much the depth behind marked characters is greater than the depth before them. -/
def balance (ms : List Mark) : Int := openings ms - closings ms

lemma balance_append (u v : List Mark) : balance (u ++ v) = balance u + balance v := by
  unfold balance openings closings
  rw [List.countP_append, List.countP_append]
  omega

lemma balance_cons (m : Mark) (ms : List Mark) : balance (m :: ms) = balance [m] + balance ms :=
  balance_append [m] ms

lemma IsOpening.not_isClosing {c : Char} (h : IsOpening c) : ¬IsClosing c := by
  rcases h with rfl | rfl <;> decide

lemma balance_quoted (c : Char) : balance [(c, true)] = 0 := rfl

lemma balance_opening {c : Char} (h : IsOpening c) : balance [(c, false)] = 1 := by
  simp [balance, openings, closings, h, h.not_isClosing]

lemma balance_closing {c : Char} (h : IsClosing c) : balance [(c, false)] = -1 := by
  have ho : ¬IsOpening c := fun ho => ho.not_isClosing h
  simp [balance, openings, closings, h, ho]

lemma balance_other {c : Char} (ho : ¬IsOpening c) (hc : ¬IsClosing c) :
    balance [(c, false)] = 0 := by
  simp [balance, openings, closings, ho, hc]

/-- The depth of a character that stands at depth `d`. -/
def depthAt (d : Int) : Mark → Option Int
  | (_, true) => none
  | (c, false) => some (if IsClosing c then d - 1 else d)

/-- Behind a character the depths go on as its bracket tells. -/
lemma depths_cons (d : Int) (m : Mark) (ms : List Mark) :
    depths d (m :: ms) = depthAt d m :: depths (d + balance [m]) ms := by
  obtain ⟨c, _ | _⟩ := m
  · by_cases ho : IsOpening c
    · rw [depths, if_pos ho, depthAt, if_neg ho.not_isClosing, balance_opening ho]
    · by_cases hc : IsClosing c
      · rw [depths, if_neg ho, if_pos hc, depthAt, if_pos hc, balance_closing hc, Int.sub_eq_add_neg]
      · rw [depths, if_neg ho, if_neg hc, depthAt, if_neg hc, balance_other ho hc, Int.add_zero]
  · rw [balance_quoted, Int.add_zero]
    rfl

lemma depths_append_balance (d : Int) (u ms : List Mark) :
    depths d (u ++ ms) = depths d u ++ depths (d + balance u) ms := by
  induction u generalizing d with
  | nil => exact congrArg (depths · ms) (Int.add_zero d).symm
  | cons m u ih =>
    rw [List.cons_append, depths_cons, depths_cons, ih, balance_cons m u, Int.add_assoc,
      List.cons_append]

/-! ### Cuts -/

/-- Cuts in front of the first place at which `stop` holds; it is told of a blank before the place,
of the depth there, and of what follows. -/
def cutFirst (stop : Bool → Option Int → Text → Bool) (a : Bool) :
    Text → List (Option Int) → Option (Text × Text)
  | c :: s, d :: ds =>
    if stop a d (c :: s) then some ([], c :: s)
    else (cutFirst stop (isBlank c) s ds).map fun (l, r) => (c :: l, r)
  | _, _ => none

/-- Blanks make no difference to where a text is cut, which is never in a literal. -/
structure Steady (stop : Bool → Option Int → Text → Bool) : Prop where
  quoted : ∀ a s, stop a none s = false
  blank : ∀ a d {c : Char} s, isBlank c = true → stop a d (c :: s) = false
  congr : ∀ a d {s t : Text}, Reflowed isBlank s t → stop a d s = stop a d t

section

variable {stop : Bool → Option Int → Text → Bool}

lemma Steady.cutFirst_append (hstop : Steady stop) {u : Text} (hu : AllBlank u) (hne : u ≠ [])
    {ds : List (Option Int)} (hlen : ds.length = u.length) (a : Bool) (s : Text)
    (es : List (Option Int)) : cutFirst stop a (u ++ s) (ds ++ es) =
      (cutFirst stop true s es).map fun (l, r) => (u ++ l, r) := by
  induction u generalizing a ds with
  | nil => exact absurd rfl hne
  | cons c u ih =>
    obtain ⟨d, ds, rfl⟩ := List.exists_cons_of_length_eq_add_one hlen
    have hblank := hstop.blank a d (u ++ s) hu.of_cons.1
    rw [List.cons_append, List.cons_append, cutFirst, if_neg (by simp [hblank]), hu.of_cons.1]
    rcases u with _ | ⟨b, u⟩
    · obtain rfl : ds = [] := List.length_eq_zero_iff.mp (by simpa using hlen)
      rfl
    · rw [ih hu.of_cons.2 (by simp) (by simpa using hlen), Option.map_map]
      rfl

/-- What `cutFirst` finds in marked characters, it finds in respaced ones. -/
lemma Steady.cutFirst_respaced (hstop : Steady stop) {ms ns : List Mark}
    (h : Reflowed isSpacing ms ns) {d : Int} {a : Bool} {l r : Text}
    (hcut : cutFirst stop a (ms.map Prod.fst) (depths d ms) = some (l, r)) :
    ∃ ml nl c mr nr, ms = ml ++ (c, false) :: mr ∧ ns = nl ++ (c, false) :: nr ∧
      Reflowed isSpacing ml nl ∧ Reflowed isSpacing mr nr ∧ l = ml.map Prod.fst ∧
      r = c :: mr.map Prod.fst ∧ cutFirst stop a (ns.map Prod.fst) (depths d ns) =
        some (nl.map Prod.fst, c :: nr.map Prod.fst) := by
  have hblank : ∀ {u : List Mark}, (∀ m ∈ u, isSpacing m = true) → AllBlank (u.map Prod.fst) := by
    intro u hu c hc
    obtain ⟨m, hm, rfl⟩ := List.mem_map.mp hc
    exact isBlank_of_isSpacing (hu m hm)
  induction h generalizing d a l with
  | nil => simp [cutFirst] at hcut
  | @kept m ms ns hm h ih =>
    have hquoted : m.2 = true → depthAt d m = none := by
      obtain ⟨c, _ | _⟩ := m
      · exact fun hq => absurd hq (by simp)
      · exact fun _ => rfl
    have hflow : Reflowed isBlank (m.1 :: ms.map Prod.fst) (m.1 :: ns.map Prod.fst) :=
      (Reflowed.refl isBlank [m.1]).append (h.map fun _ => isBlank_of_isSpacing)
    rw [depths_cons, List.map_cons, cutFirst] at hcut ⊢
    rw [← hstop.congr a (depthAt d m) hflow]
    split at hcut
    · rename_i hhere
      obtain ⟨rfl, rfl⟩ := Prod.mk.inj (Option.some.inj hcut)
      have hunquoted : m = (m.1, false) := by
        refine Prod.ext rfl (Bool.eq_false_iff.mpr fun hq => ?_)
        rw [hquoted hq, hstop.quoted] at hhere
        exact absurd hhere (by simp)
      rw [if_pos hhere]
      exact ⟨[], [], m.1, ms, ns, by rw [← hunquoted]; rfl, by rw [← hunquoted]; rfl, .nil, h, rfl,
        rfl, rfl⟩
    · rename_i hhere
      obtain ⟨⟨l, r'⟩, hrest, heq⟩ := Option.map_eq_some_iff.mp hcut
      obtain ⟨rfl, rfl⟩ := Prod.mk.inj heq
      obtain ⟨ml, nl, c, mr, nr, rfl, rfl, hl, hr, rfl, hr', hcut'⟩ := ih hrest
      rw [if_neg hhere, hcut']
      exact ⟨m :: ml, m :: nl, c, mr, nr, rfl, rfl, .kept hm hl, hr, rfl, hr', rfl⟩
  | @run u v ms ns hu hv hune hvne h ih =>
    rw [List.map_append, depths_append hu, hstop.cutFirst_append (hblank hu) (by simpa using hune)
      (by simp)] at hcut
    obtain ⟨⟨l, r'⟩, hrest, heq⟩ := Option.map_eq_some_iff.mp hcut
    obtain ⟨rfl, rfl⟩ := Prod.mk.inj heq
    obtain ⟨ml, nl, c, mr, nr, rfl, rfl, hl, hr, rfl, hr', hcut'⟩ := ih hrest
    refine ⟨u ++ ml, v ++ nl, c, mr, nr, by simp, by simp, .run hu hv hune hvne hl, hr, by simp,
      hr', ?_⟩
    rw [List.map_append, depths_append hv, hstop.cutFirst_append (hblank hv) (by simpa using hvne)
      (by simp), hcut']
    simp

end

/-- At a free-standing symbol. -/
def atToken {β : Type} (symbol? : Char → Option β) (a : Bool) (d : Option Int) (s : Text) : Bool :=
  match s with
  | c :: s => (symbol? c).isSome && a && d == some 0 && startsBlank s
  | [] => false

/-- At an arrow outside brackets. -/
def atArrow (_ : Bool) (d : Option Int) (s : Text) : Bool :=
  d == some 0 && s.head? == some '-' && s.tail.head? == some '>'

/-- At a closing bracket of depth 0. -/
def atCloser (_ : Bool) (d : Option Int) (s : Text) : Bool :=
  d == some 0 && (s.head? == some ')' || s.head? == some '}')

section

variable {β : Type} {symbol? : Char → Option β}

lemma Reflowed.head?_eq {s t : Text} (h : Reflowed isBlank s t) {c : Char}
    (hc : isBlank c = false) : (s.head? == some c) = (t.head? == some c) := by
  have hhead : ∀ {s t : Text}, Reflowed isBlank s t → s.head? = some c → t.head? = some c := by
    intro s t h hs
    obtain ⟨s, rfl⟩ := List.head?_eq_some_iff.mp hs
    obtain ⟨t, rfl, -⟩ := h.cons_inv hc
    rfl
  exact Bool.eq_iff_iff.mpr ⟨fun hs => beq_iff_eq.mpr (hhead h (beq_iff_eq.mp hs)),
    fun ht => beq_iff_eq.mpr (hhead h.symm (beq_iff_eq.mp ht))⟩

lemma steady_atToken (hsymbol : ∀ c, (symbol? c).isSome → isBlank c = false) :
    Steady (atToken symbol?) where
  quoted := by
    rintro a (_ | ⟨c, s⟩)
    · rfl
    · simp [atToken]
  blank := by
    intro a d c s hc
    have hnone : symbol? c = none := by
      by_contra hne
      rw [hsymbol c (Option.isSome_iff_ne_none.mpr hne)] at hc
      exact absurd hc (by simp)
    simp [atToken, hnone]
  congr := by
    intro a d s t h
    cases h with
    | nil => rfl
    | kept _ h => rw [atToken, atToken, h.startsBlank]
    | @run u v s t hu hv hune hvne _ =>
      have hnone : ∀ {u s : Text}, (∀ c ∈ u, isBlank c = true) → u ≠ [] →
          atToken symbol? a d (u ++ s) = false := by
        intro u s hu hne
        obtain ⟨c, u, rfl⟩ := List.exists_cons_of_ne_nil hne
        have hc := hu c List.mem_cons_self
        by_contra hat
        have hsome : (symbol? c).isSome = true := by
          simp only [List.cons_append, atToken, Bool.not_eq_false, Bool.and_eq_true] at hat
          exact hat.1.1.1
        rw [hsymbol c hsome] at hc
        exact absurd hc (by simp)
      rw [hnone hu hune, hnone hv hvne]

lemma steady_atArrow : Steady atArrow where
  quoted _ _ := rfl
  blank := by
    intro a d c s hc
    have hne : c ≠ '-' := by
      rintro rfl
      exact absurd hc (by decide)
    simp [atArrow, hne]
  congr := by
    intro a d s t h
    unfold atArrow
    rw [h.head?_eq (c := '-') (by decide)]
    by_cases ht : t.head? = some '-'
    · obtain ⟨t, rfl⟩ := List.head?_eq_some_iff.mp ht
      obtain ⟨s, rfl, hs⟩ := h.symm.cons_inv (by decide)
      rw [List.tail_cons, List.tail_cons, hs.head?_eq (by decide)]
    · simp [beq_false_of_ne ht]

lemma steady_atCloser : Steady atCloser where
  quoted _ _ := rfl
  blank := by
    intro a d c s hc
    have hne : c ≠ ')' ∧ c ≠ '}' := by
      constructor <;> rintro rfl <;> exact absurd hc (by decide)
    simp [atCloser, hne]
  congr := by
    intro a d s t h
    unfold atCloser
    rw [h.head?_eq (c := ')') (by decide), h.head?_eq (c := '}') (by decide)]

lemma cutAtToken_eq_cutFirst (a : Bool) (s : Text) (ds : List (Option Int)) :
    cutAtToken symbol? a s ds = (cutFirst (atToken symbol?) a s ds).bind fun (l, r) =>
      match r with
      | c :: r => (symbol? c).map fun x => (l, x, r)
      | [] => none := by
  induction s generalizing a ds with
  | nil => rfl
  | cons c s ih =>
    cases ds with
    | nil => cases s <;> rfl
    | cons d ds =>
      rw [cutFirst]
      by_cases hat : atToken symbol? a d (c :: s) = true
      · obtain ⟨⟨⟨hx, ha⟩, hd⟩, hb⟩ : ((((symbol? c).isSome ∧ a = true) ∧ d = some 0) ∧
            startsBlank s = true) := by simpa [atToken] using hat
        obtain ⟨x, hx⟩ := Option.isSome_iff_exists.mp hx
        have hne : s ≠ [] := by
          rintro rfl
          simp [startsBlank] at hb
        obtain ⟨b, s, rfl⟩ := List.exists_cons_of_ne_nil hne
        rw [if_pos hat, cutAtToken, hx]
        simp only
        rw [if_pos ⟨ha, hd, hb⟩]
        simp [hx]
      · rw [if_neg hat, cutAtToken_cons, ih]
        · cases cutFirst (atToken symbol?) (isBlank c) s ds with
          | none => rfl
          | some p =>
            obtain ⟨l, _ | ⟨e, r⟩⟩ := p
            · rfl
            · simp only [Option.map_some, Option.bind_some, Option.map_map]
              rfl
        · intro hx hd ha
          by_contra hb
          exact hat (by simpa [atToken, hx, hd, ha] using hb)

lemma cutAtArrow_eq_cutFirst (a : Bool) (s : Text) (ds : List (Option Int)) :
    cutAtArrow s ds = (cutFirst atArrow a s ds).map fun (l, r) => (l, r.tail.tail) := by
  induction s generalizing a ds with
  | nil => rfl
  | cons c s ih =>
    cases ds with
    | nil => rfl
    | cons d ds =>
      rw [cutFirst]
      by_cases hat : atArrow a d (c :: s) = true
      · obtain ⟨⟨rfl, rfl⟩, hgt⟩ : (d = some 0 ∧ c = '-') ∧ s.head? = some '>' := by
          simpa [atArrow] using hat
        obtain ⟨s, rfl⟩ := List.head?_eq_some_iff.mp hgt
        rw [if_pos hat]
        rfl
      · rw [if_neg hat, cutAtArrow_cons, ih (isBlank c), Option.map_map, Option.map_map]
        · rfl
        · rintro rfl rfl hgt
          exact hat (by simp [atArrow, hgt])

lemma cutAtCloser_eq_cutFirst (close : Char) (a : Bool) (s : Text) (ds : List (Option Int)) :
    cutAtCloser close s ds = (cutFirst atCloser a s ds).bind fun (l, r) =>
      if r.head? = some close then some (l, r.tail) else none := by
  induction s generalizing a ds with
  | nil => rfl
  | cons c s ih =>
    cases ds with
    | nil => rfl
    | cons d ds =>
      rw [cutFirst]
      by_cases hat : atCloser a d (c :: s) = true
      · obtain ⟨rfl, hc⟩ : d = some 0 ∧ (c = ')' ∨ c = '}') := by simpa [atCloser] using hat
        rw [if_pos hat, cutAtCloser, if_pos ⟨hc, rfl⟩]
        simp
      · rw [if_neg hat, cutAtCloser_cons, ih (isBlank c)]
        · cases cutFirst atCloser (isBlank c) s ds with
          | none => rfl
          | some p =>
            simp only [Option.map_some, Option.bind_some]
            split <;> rfl
        · rintro ⟨hc, rfl⟩
          exact hat (by simpa [atCloser, IsClosing] using hc)

end

end TimedReq.Text
