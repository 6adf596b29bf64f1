import TimedReq.Proofs.Text.Trim
import TimedReq.Text.Nesting

/-!
# Nesting of texts put together

A text is closed if every literal that begins in it also ends in it, so that the characters behind
it are nested as they would be alone, at another depth. A neutral text moreover closes its own
brackets and no others.
-/

namespace TimedReq.Text

lemma length_nestingFrom (q : Bool) (d : Int) (s : Text) :
    (nestingFrom q d s).length = s.length := by
  fun_induction nestingFrom q d s <;> simp_all

@[simp] lemma nestingFrom_nil (q : Bool) (d : Int) : nestingFrom q d [] = [] := rfl

lemma nestingFrom_string (d : Int) (c : Char) (s : Text) :
    nestingFrom true d (c :: s) = none :: nestingFrom (c != '"') d s := by
  rw [nestingFrom.eq_def]
  simp only [if_true]

lemma nestingFrom_stringStart (d : Int) (s : Text) :
    nestingFrom false d ('"' :: s) = none :: nestingFrom true d s := rfl

lemma nestingFrom_character (d : Int) (c : Char) (s : Text) :
    nestingFrom false d ('\'' :: c :: '\'' :: s) =
      none :: none :: none :: nestingFrom false d s := rfl

/-- The brackets that open. -/
def IsOpening (c : Char) : Prop := c = '(' ∨ c = '{'

/-- The brackets that close. -/
def IsClosing (c : Char) : Prop := c = ')' ∨ c = '}'

lemma IsOpening.not_quote {c : Char} (h : IsOpening c) : c ≠ '"' ∧ c ≠ '\'' := by
  rcases h with rfl | rfl <;> decide

lemma closer?_eq_some {o c : Char} :
    closer? o = some c ↔ o = '(' ∧ c = ')' ∨ o = '{' ∧ c = '}' := by
  unfold closer?
  split <;> simp_all [eq_comm]

/-- What has a partner opens, and the partner closes. -/
lemma isBracket_of_closer? {o c : Char} (h : closer? o = some c) : IsOpening o ∧ IsClosing c := by
  obtain ⟨rfl, rfl⟩ | ⟨rfl, rfl⟩ := closer?_eq_some.mp h
  · exact ⟨.inl rfl, .inl rfl⟩
  · exact ⟨.inr rfl, .inr rfl⟩

/-- The characters that are neither brackets nor quotes. -/
def IsPlain (c : Char) : Prop :=
  c ≠ '"' ∧ c ≠ '\'' ∧ c ≠ '(' ∧ c ≠ '{' ∧ c ≠ ')' ∧ c ≠ '}'

instance (c : Char) : Decidable (IsPlain c) := by
  unfold IsPlain
  infer_instance

lemma nestingFrom_opening (d : Int) {c : Char} (s : Text) (hc : IsOpening c) :
    nestingFrom false d (c :: s) = some d :: nestingFrom false (d + 1) s := by
  rcases hc with rfl | rfl <;> rfl

lemma nestingFrom_closing (d : Int) {c : Char} (s : Text) (hc : IsClosing c) :
    nestingFrom false d (c :: s) = some (d - 1) :: nestingFrom false (d - 1) s := by
  rcases hc with rfl | rfl <;> rfl

/-- A single quote opens no literal unless another one follows the next character. -/
lemma nestingFrom_other (d : Int) {c : Char} {s : Text} (hq : c ≠ '"') (ho : ¬IsOpening c)
    (hc : ¬IsClosing c) (hs : ∀ e r, c = '\'' → s = e :: '\'' :: r → False) :
    nestingFrom false d (c :: s) = some d :: nestingFrom false d s := by
  rw [nestingFrom.eq_def]
  simp only [Bool.false_eq_true, if_false, if_neg hq]
  split
  · exact (hs _ _ rfl rfl).elim
  · exact absurd (.inl rfl) ho
  · exact absurd (.inr rfl) ho
  · exact absurd (.inl rfl) hc
  · exact absurd (.inr rfl) hc
  · rfl

lemma IsPlain.not_bracket {c : Char} (hc : IsPlain c) : ¬IsOpening c ∧ ¬IsClosing c := by
  obtain ⟨-, -, h1, h2, h3, h4⟩ := hc
  exact ⟨not_or.mpr ⟨h1, h2⟩, not_or.mpr ⟨h3, h4⟩⟩

lemma nestingFrom_plain (d : Int) {c : Char} (s : Text) (hc : IsPlain c) :
    nestingFrom false d (c :: s) = some d :: nestingFrom false d s := by
  obtain ⟨hopening, hclosing⟩ := hc.not_bracket
  exact nestingFrom_other d hc.1 hopening hclosing fun e r h => absurd h hc.2.1

lemma isPlain_of_isBlank {c : Char} (h : isBlank c = true) : IsPlain c := by
  refine ⟨?_, ?_, ?_, ?_, ?_, ?_⟩ <;> rintro rfl <;> simp [isBlank] at h

/-- Every literal that begins in the text ends in it; behind the text the depth is greater by
`δ`. -/
def Closed (δ : Int) (w : Text) : Prop :=
  ∀ d s, nestingFrom false d (w ++ s) = nestingFrom false d w ++ nestingFrom false (d + δ) s

lemma Closed.nil : Closed 0 [] := by
  intro d s
  simp

lemma Closed.append {a b : Int} {v w : Text} (hv : Closed a v) (hw : Closed b w) :
    Closed (a + b) (v ++ w) := by
  intro d s
  rw [List.append_assoc, hv, hw, hv d w, List.append_assoc, Int.add_assoc]

lemma Closed.opening {c : Char} (hc : IsOpening c) : Closed 1 [c] := by
  intro d s
  rw [List.singleton_append, nestingFrom_opening d s hc, nestingFrom_opening d [] hc]
  rfl

lemma Closed.closing {c : Char} (hc : IsClosing c) : Closed (-1) [c] := by
  intro d s
  rw [List.singleton_append, nestingFrom_closing d s hc, nestingFrom_closing d [] hc]
  rfl

lemma Closed.plain {w : Text} (hw : ∀ c ∈ w, IsPlain c) : Closed 0 w := by
  induction w with
  | nil => exact Closed.nil
  | cons c w ih =>
    intro d s
    have hc := hw c List.mem_cons_self
    have hih := ih (fun x hx => hw x (List.mem_cons_of_mem c hx)) d s
    rw [List.cons_append, nestingFrom_plain d _ hc, nestingFrom_plain d _ hc, hih, List.cons_append]

lemma Closed.character (c : Char) : Closed 0 ['\'', c, '\''] := by
  intro d s
  rw [Int.add_zero]
  rfl

lemma nestingFrom_inString (d : Int) {w : Text} (hw : ∀ c ∈ w, c ≠ '"') (s : Text) :
    nestingFrom true d (w ++ '"' :: s) =
      List.replicate (w.length + 1) none ++ nestingFrom false d s := by
  induction w with
  | nil => rfl
  | cons c w ih =>
    have hih := ih fun x hx => hw x (List.mem_cons_of_mem c hx)
    have hc : (c != '"') = true := by simpa using hw c List.mem_cons_self
    rw [List.cons_append, nestingFrom_string, hc, hih]
    rfl

lemma nestingFrom_quoted (d : Int) {w : Text} (hw : ∀ c ∈ w, c ≠ '"') (s : Text) :
    nestingFrom false d ('"' :: (w ++ '"' :: s)) =
      List.replicate (w.length + 2) none ++ nestingFrom false d s := by
  rw [nestingFrom_stringStart, nestingFrom_inString d hw]
  rfl

lemma Closed.string {w : Text} (hw : ∀ c ∈ w, c ≠ '"') : Closed 0 ('"' :: (w ++ ['"'])) := by
  intro d s
  rw [List.cons_append, List.append_assoc, List.singleton_append, nestingFrom_quoted d hw,
    nestingFrom_quoted d hw, Int.add_zero]
  simp

/-- The text closes its brackets and no others: no character of it lies below the depth before
it. -/
structure Neutral (w : Text) : Prop where
  closed : Closed 0 w
  le_depth : ∀ d k, some k ∈ nestingFrom false d w → d ≤ k

lemma Neutral.nestingFrom_append {w : Text} (hw : Neutral w) (d : Int) (s : Text) :
    nestingFrom false d (w ++ s) = nestingFrom false d w ++ nestingFrom false d s := by
  have h := hw.closed d s
  rwa [Int.add_zero] at h

lemma Neutral.nil : Neutral [] := by
  refine ⟨Closed.nil, ?_⟩
  intro d k hk
  simp at hk

lemma Neutral.append {v w : Text} (hv : Neutral v) (hw : Neutral w) : Neutral (v ++ w) := by
  refine ⟨hv.closed.append hw.closed, ?_⟩
  intro d k hk
  rw [hv.nestingFrom_append] at hk
  rcases List.mem_append.mp hk with h | h
  · exact hv.le_depth d k h
  · exact hw.le_depth d k h

lemma Neutral.plain {w : Text} (hw : ∀ c ∈ w, IsPlain c) : Neutral w := by
  refine ⟨Closed.plain hw, ?_⟩
  intro d k hk
  induction w with
  | nil => simp at hk
  | cons c w ih =>
    rw [nestingFrom_plain d w (hw c List.mem_cons_self)] at hk
    rcases List.mem_cons.mp hk with h | h
    · have hkd := Option.some.inj h
      omega
    · exact ih (fun x hx => hw x (List.mem_cons_of_mem c hx)) h

lemma Neutral.singleton {c : Char} (hc : IsPlain c) : Neutral [c] := Neutral.plain fun x hx => by
  obtain rfl := List.mem_singleton.mp hx
  exact hc

lemma Neutral.allBlank {w : Text} (hw : AllBlank w) : Neutral w :=
  Neutral.plain fun c hc => isPlain_of_isBlank (hw c hc)

lemma Neutral.character (c : Char) : Neutral ['\'', c, '\''] := by
  refine ⟨Closed.character c, ?_⟩
  intro d k hk
  simp [nestingFrom_character] at hk

lemma Neutral.string {w : Text} (hw : ∀ c ∈ w, c ≠ '"') : Neutral ('"' :: (w ++ ['"'])) := by
  refine ⟨Closed.string hw, ?_⟩
  intro d k hk
  rw [nestingFrom_quoted d hw] at hk
  simp at hk

/-- The nesting of a bracketed text, with what follows it. -/
lemma Neutral.nestingFrom_bracket {w : Text} (hw : Neutral w) {o c : Char} (ho : IsOpening o)
    (hc : IsClosing c) (d : Int) (s : Text) :
    nestingFrom false d (o :: (w ++ c :: s)) =
      some d :: (nestingFrom false (d + 1) w ++ some d :: nestingFrom false d s) := by
  rw [nestingFrom_opening d _ ho, hw.nestingFrom_append, nestingFrom_closing _ _ hc,
    Int.add_sub_cancel]

lemma Neutral.bracket {w : Text} (hw : Neutral w) {o c : Char} (ho : IsOpening o)
    (hc : IsClosing c) : Neutral (o :: (w ++ [c])) := by
  refine ⟨?_, ?_⟩
  · intro d s
    rw [List.cons_append, List.append_assoc, List.singleton_append,
      hw.nestingFrom_bracket ho hc, hw.nestingFrom_bracket ho hc, Int.add_zero]
    simp
  · intro d k hk
    rw [hw.nestingFrom_bracket ho hc] at hk
    rcases List.mem_cons.mp hk with h | h
    · have hkd := Option.some.inj h
      omega
    · rcases List.mem_append.mp h with h | h
      · have hkd := hw.le_depth (d + 1) k h
        omega
      · simp only [nestingFrom_nil, List.mem_singleton, Option.some.injEq] at h
        omega

end TimedReq.Text
