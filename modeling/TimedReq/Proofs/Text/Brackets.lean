import TimedReq.Proofs.Text.Quoting

/-!
# Brackets closed by their own kind

The depth of a character counts brackets of both kinds alike, so a text may close its brackets with
round and curly ones crossed. The brackets of a text outside literals are properly nested if each is
closed by its own kind, which a stack of the brackets still to come decides.
-/

namespace TimedReq.Text

/-! ### Words of brackets -/

/-- Words of brackets in which every bracket is closed by its own kind. -/
inductive Nested : List Char → Prop
  | nil : Nested []
  | bracket {o c : Char} {v w : List Char} (h : closer? o = some c) (hv : Nested v) (hw : Nested w) :
    Nested (o :: (v ++ c :: w))

/-- Whether a word closes the brackets that are still open, of which the closing ones are given from
the innermost, and its own. -/
def closes : List Char → List Char → Bool
  | pending, [] => pending.isEmpty
  | pending, c :: w =>
    match closer? c with
    | some d => closes (d :: pending) w
    | none =>
      match pending with
      | d :: pending => c == d && closes pending w
      | [] => false

lemma closes_opening {o c : Char} (h : closer? o = some c) (pending w : List Char) :
    closes pending (o :: w) = closes (c :: pending) w := by
  rw [closes.eq_def]
  simp only [h]

lemma closes_closing {o c : Char} (h : closer? o = some c) (pending w : List Char) :
    closes (c :: pending) (c :: w) = closes pending w := by
  have hnone : closer? c = none := by
    rcases (isBracket_of_closer? h).2 with rfl | rfl <;> rfl
  rw [closes.eq_def]
  simp [hnone]

namespace Nested

variable {v w : List Char}

lemma append (hv : Nested v) (hw : Nested w) : Nested (v ++ w) := by
  induction hv with
  | nil => exact hw
  | bracket h hv _ _ ih =>
    rw [List.cons_append, List.append_assoc, List.cons_append]
    exact .bracket h hv ih

/-- A nested word leaves the open brackets as they are. -/
lemma closes_append (hv : Nested v) (pending w : List Char) :
    closes pending (v ++ w) = closes pending w := by
  induction hv generalizing pending w with
  | nil => rfl
  | @bracket o c x y h _ _ ihx ihy =>
    have hcut : o :: (x ++ c :: y) ++ w = o :: (x ++ c :: (y ++ w)) := by simp
    rw [hcut, closes_opening h, ihx, closes_closing h, ihy]

end Nested

/-- The word consists of nested words with the pending brackets between them. -/
def Closing : List Char → List Char → Prop
  | [], w => Nested w
  | d :: pending, w => ∃ v r, w = v ++ d :: r ∧ Nested v ∧ Closing pending r

lemma Closing.bracket {pending v w : List Char} {o c : Char} (h : closer? o = some c)
    (hv : Nested v) (hw : Closing pending w) : Closing pending (o :: (v ++ c :: w)) := by
  cases pending with
  | nil => exact Nested.bracket h hv hw
  | cons d pending =>
    obtain ⟨x, r, rfl, hx, hr⟩ := hw
    exact ⟨o :: (v ++ c :: x), r, by simp, .bracket h hv hx, hr⟩

lemma closing_of_closes {pending w : List Char} (h : closes pending w = true) :
    Closing pending w := by
  fun_induction closes pending w with
  | case1 pending =>
    obtain rfl := List.isEmpty_iff.mp h
    exact .nil
  | case2 pending c w d hd ih =>
    obtain ⟨v, r, rfl, hv, hr⟩ := ih h
    exact hr.bracket hd hv
  | case3 c w d pending hc ih =>
    rw [Bool.and_eq_true, beq_iff_eq] at h
    obtain ⟨rfl, h⟩ := h
    exact ⟨[], w, rfl, .nil, ih h⟩
  | case4 => simp at h

/-- A word is nested just if it closes its brackets on a stack. -/
theorem nested_iff_closes (w : List Char) : Nested w ↔ closes [] w = true := by
  constructor
  · intro h
    have hall := h.closes_append [] []
    rw [List.append_nil] at hall
    rw [hall]
    rfl
  · exact closing_of_closes

instance (w : List Char) : Decidable (Nested w) := decidable_of_iff _ (nested_iff_closes w).symm

example : ¬Nested ['(', '{', ')', '}'] := by decide

/-! ### Brackets of texts -/

/-- Whether the character is a bracket. -/
def isBracket (c : Char) : Bool := c ∈ ['(', ')', '{', '}']

/-- The brackets of a text outside quoted literals. -/
def brackets (s : Text) : List Char :=
  ((marked s).filter fun m => isBracket m.1 && !m.2).map Prod.fst

lemma brackets_append {δ : Int} {s : Text} (hs : Closed δ s) (t : Text) :
    brackets (s ++ t) = brackets s ++ brackets t := by
  unfold brackets
  rw [marked_append hs, List.filter_append, List.map_append]

/-- Characters of literals and characters that are no brackets do not count. -/
lemma brackets_eq_nil {s : Text} (h : ∀ c, (c, false) ∈ marked s → isBracket c = false) :
    brackets s = [] := by
  unfold brackets
  rw [List.map_eq_nil_iff, List.filter_eq_nil_iff]
  rintro ⟨c, q⟩ hm
  cases q with
  | true => simp
  | false => simp [h c hm]

/-- The text closes its brackets, each by its own kind. -/
structure Bracketed (s : Text) : Prop where
  neutral : Neutral s
  nested : Nested (brackets s)

namespace Bracketed

variable {s t : Text}

lemma of_brackets_eq_nil (hs : Neutral s) (h : brackets s = []) : Bracketed s :=
  ⟨hs, by rw [h]; exact .nil⟩

lemma append (hs : Bracketed s) (ht : Bracketed t) : Bracketed (s ++ t) := by
  refine ⟨hs.neutral.append ht.neutral, ?_⟩
  rw [brackets_append hs.neutral.closed]
  exact hs.nested.append ht.nested

lemma plain (hs : ∀ c ∈ s, IsPlain c) : Bracketed s := by
  refine of_brackets_eq_nil (Neutral.plain hs) (brackets_eq_nil fun c hc => ?_)
  obtain ⟨-, -, h1, h2, h3, h4⟩ := hs c (List.of_mem_zip hc).1
  simp [isBracket, h1, h2, h3, h4]

lemma allBlank (hs : AllBlank s) : Bracketed s :=
  plain fun c hc => isPlain_of_isBlank (hs c hc)

/-- A text of literals. -/
lemma quoted (hs : Neutral s) (h : ∀ n ∈ nesting s, n = none) : Bracketed s := by
  refine of_brackets_eq_nil hs (brackets_eq_nil fun c hc => ?_)
  obtain ⟨n, hn, hfalse⟩ := List.mem_map.mp (List.of_mem_zip hc).2
  rw [h n hn] at hfalse
  simp at hfalse

lemma character (c : Char) : Bracketed ['\'', c, '\''] :=
  quoted (Neutral.character c) (by simp [nesting, nestingFrom_character])

lemma string (hs : ∀ c ∈ s, c ≠ '"') : Bracketed ('"' :: (s ++ ['"'])) := by
  refine quoted (Neutral.string hs) ?_
  rw [nesting, nestingFrom_quoted 0 hs]
  simp

/-- A text in brackets of one kind. -/
lemma bracket {o c : Char} (h : closer? o = some c) (hs : Bracketed s) :
    Bracketed (o :: (s ++ [c])) := by
  obtain ⟨ho, hc⟩ := isBracket_of_closer? h
  refine ⟨hs.neutral.bracket ho hc, ?_⟩
  have hkept : isBracket o = true ∧ isBracket c = true := by
    constructor
    · rcases ho with rfl | rfl <;> rfl
    · rcases hc with rfl | rfl <;> rfl
  have heq : brackets (o :: (s ++ [c])) = o :: (brackets s ++ [c]) := by
    unfold brackets
    rw [marked_bracket ho hc hs.neutral.closed]
    simp [hkept]
  rw [heq]
  exact .bracket h hs.nested .nil

end Bracketed

end TimedReq.Text
