import TimedReq.Proofs.Text.Pieces
import TimedReq.Proofs.Text.Quoting

/-!
# Sections of a text

A section is what stands in the braces behind an underscore and a closing brace, up to the next
closing brace. Every piece of a text with the marks of the text has only sections that the text
has.
-/

namespace TimedReq.Text

/-- The text begins with an underscore and the section `t`. -/
def Opens (s t : Text) : Prop :=
  ∃ x y rest, AllBlank x ∧ AllBlank y ∧ '}' ∉ t ∧ s = x ++ '_' :: (y ++ '{' :: (t ++ '}' :: rest))

lemma Opens.append {s t : Text} (h : Opens s t) (r : Text) : Opens (s ++ r) t := by
  obtain ⟨x, y, rest, hx, hy, ht, rfl⟩ := h
  exact ⟨x, y, rest ++ r, hx, hy, ht, by simp⟩

lemma Opens.head {s t : Text} (h : Opens s t) : (trimStart s).head? = some '_' := by
  obtain ⟨x, y, rest, hx, -, -, rfl⟩ := h
  rw [trimStart_append hx, trimStart_of_not_blank _ rfl]
  rfl

/-- A text begins with one section only. -/
lemma Opens.unique {x y t r t' : Text} (hx : AllBlank x) (hy : AllBlank y) (ht : '}' ∉ t)
    (h : Opens (x ++ '_' :: (y ++ '{' :: (t ++ '}' :: r))) t') : t' = t := by
  obtain ⟨x', y', r', hx', hy', ht', heq⟩ := h
  have hbar := congrArg trimStart heq
  rw [trimStart_append hx, trimStart_append hx', trimStart_of_not_blank _ rfl,
    trimStart_of_not_blank _ rfl] at hbar
  have hbrace := congrArg trimStart (List.cons.inj hbar).2
  rw [trimStart_append hy, trimStart_append hy', trimStart_of_not_blank _ rfl,
    trimStart_of_not_blank _ rfl] at hbrace
  exact (eq_of_append_cons ht ht' (List.cons.inj hbrace).2).1.symm

/-- Behind closing braces outside literals only good sections begin. -/
def GoodSections (good : Text → Prop) : List Mark → Prop
  | [] => True
  | m :: ms => (m = ('}', false) → ∀ t, Opens (ms.map Prod.fst) t → good t) ∧ GoodSections good ms

namespace GoodSections

variable {good : Text → Prop} {l ms r : List Mark}

lemma right_of_append (h : GoodSections good (l ++ ms)) : GoodSections good ms := by
  induction l with
  | nil => exact h
  | cons m l ih => exact ih h.2

lemma left_of_append (h : GoodSections good (ms ++ r)) : GoodSections good ms := by
  induction ms with
  | nil => trivial
  | cons m ms ih =>
    refine ⟨fun hm t ht => h.1 hm t ?_, ih h.2⟩
    have hmore := ht.append (r.map Prod.fst)
    rwa [← List.map_append] at hmore

lemma of_infix (h : GoodSections good r) (hms : ms <:+: r) : GoodSections good ms := by
  obtain ⟨u, v, rfl⟩ := hms
  exact h.left_of_append.right_of_append

/-- Pieces without closing braces have no sections behind them. -/
lemma append (hl : ('}', false) ∉ l) (hr : GoodSections good r) : GoodSections good (l ++ r) := by
  induction l with
  | nil => exact hr
  | cons m l ih =>
    refine ⟨fun hm => ?_, ih fun h => hl (List.mem_cons_of_mem m h)⟩
    rw [hm] at hl
    exact absurd List.mem_cons_self hl

end GoodSections

/-- The text closes its brackets, and what begins behind its closing braces is good, whatever
follows the text but an underscore. -/
structure Sectioned (good : Text → Prop) (s : Text) : Prop where
  neutral : Neutral s
  sections : ∀ r : List Mark, (trimStart (r.map Prod.fst)).head? ≠ some '_' →
    GoodSections good r → GoodSections good (marked s ++ r)

namespace Sectioned

variable {good : Text → Prop} {s t u v w : Text}

lemma goodSections (h : Sectioned good s) : GoodSections good (marked s) := by
  have hall := h.sections [] (by decide) trivial
  rwa [List.append_nil] at hall

lemma unbraced (hs : Neutral s) (hbrace : ('}', false) ∉ marked s) : Sectioned good s :=
  ⟨hs, fun _ _ hr => .append hbrace hr⟩

lemma brace_not_mem_plain (hw : ∀ c ∈ w, IsPlain c) : ('}', false) ∉ marked w := fun hmem =>
  (hw '}' (List.of_mem_zip hmem).1).2.2.2.2.2 rfl

lemma padded (hu : AllBlank u) (h : Sectioned good s) (hv : AllBlank v) :
    Sectioned good (u ++ s ++ v) := by
  have hplain : ∀ {w : Text}, AllBlank w → ('}', false) ∉ marked w := fun hw =>
    brace_not_mem_plain fun c hc => isPlain_of_isBlank (hw c hc)
  refine ⟨((Neutral.allBlank hu).append h.neutral).append (Neutral.allBlank hv), ?_⟩
  intro r hhead hr
  rw [List.append_assoc, marked_append (Neutral.allBlank hu).closed,
    marked_append h.neutral.closed, List.append_assoc, List.append_assoc]
  refine .append (hplain hu) (h.sections _ ?_ (.append (hplain hv) hr))
  rwa [List.map_append, map_fst_marked, trimStart_append hv]

/-- Characters that are no brackets, in front of a text. -/
lemma plain (hw : ∀ c ∈ w, IsPlain c) (h : Sectioned good s) : Sectioned good (w ++ s) := by
  refine ⟨(Neutral.plain hw).append h.neutral, ?_⟩
  intro r hhead hr
  rw [marked_append (Neutral.plain hw).closed, List.append_assoc]
  exact .append (brace_not_mem_plain hw) (h.sections r hhead hr)

/-- A symbol between texts. -/
lemma between {c : Char} (hw : ∀ x ∈ c :: w, IsPlain x) (hblank : isBlank c = false)
    (hbar : c ≠ '_') (hs : Sectioned good s) (ht : Sectioned good t) :
    Sectioned good (s ++ (c :: w ++ t)) := by
  have htail := ht.plain hw
  refine ⟨hs.neutral.append htail.neutral, ?_⟩
  intro r hhead hr
  rw [marked_append hs.neutral.closed, List.append_assoc]
  refine hs.sections _ ?_ (htail.sections r hhead hr)
  rw [List.map_append, map_fst_marked, List.cons_append, List.cons_append,
    trimStart_of_not_blank _ hblank]
  simpa using hbar

lemma group (h : Sectioned good s) : Sectioned good ('(' :: (s ++ [')'])) := by
  refine ⟨h.neutral.bracket (.inl rfl) (.inl rfl), ?_⟩
  intro r hhead hr
  rw [marked_bracket (.inl rfl) (.inl rfl) h.neutral.closed, List.cons_append, List.append_assoc]
  refine ⟨by simp, h.sections _ ?_ ⟨by simp, hr⟩⟩
  rw [List.singleton_append, List.map_cons, trimStart_of_not_blank _ rfl]
  simp

/-- A text in braces with a section. -/
lemma bounded {x y b : Text} (h : Sectioned good s) (hx : AllBlank x) (hy : AllBlank y)
    (hb : ∀ c ∈ b, IsPlain c) (hgood : good b) :
    Sectioned good ('{' :: (s ++ '}' :: (x ++ '_' :: (y ++ '{' :: (b ++ ['}']))))) := by
  have hbody := h.neutral.bracket (o := '{') (c := '}') (.inr rfl) (.inr rfl)
  have hsection := (Neutral.plain hb).bracket (o := '{') (c := '}') (.inr rfl) (.inr rfl)
  have hbetween : ∀ c ∈ x ++ '_' :: y, IsPlain c := by
    intro c hc
    rcases List.mem_append.mp hc with hc | hc
    · exact isPlain_of_isBlank (hx c hc)
    · rcases List.mem_cons.mp hc with rfl | hc
      · decide
      · exact isPlain_of_isBlank (hy c hc)
  have hcut : '{' :: (s ++ '}' :: (x ++ '_' :: (y ++ '{' :: (b ++ ['}'])))) =
      '{' :: (s ++ ['}']) ++ (x ++ '_' :: y ++ '{' :: (b ++ ['}'])) := by simp
  rw [hcut]
  refine ⟨hbody.append ((Neutral.plain hbetween).append hsection), ?_⟩
  intro r hhead hr
  rw [marked_append hbody.closed, marked_append (Neutral.plain hbetween).closed,
    marked_bracket (.inr rfl) (.inr rfl) h.neutral.closed,
    marked_bracket (.inr rfl) (.inr rfl) (Neutral.plain hb).closed, List.cons_append, List.cons_append,
    List.append_assoc, List.append_assoc]
  refine ⟨by simp, h.sections _ ?_ ⟨?_, ?_⟩⟩
  · rw [List.singleton_append, List.map_cons, trimStart_of_not_blank _ rfl]
    simp
  · intro _ t ht
    have hbrace : '}' ∉ b := fun hc => (hb '}' hc).2.2.2.2.2 rfl
    have htext : ((marked (x ++ '_' :: y) ++ ('{', false) :: (marked b ++ [('}', false)])) ++ r).map
        Prod.fst = x ++ '_' :: (y ++ '{' :: (b ++ '}' :: r.map Prod.fst)) := by
      simp [map_fst_marked]
    have ht' : Opens (((marked (x ++ '_' :: y) ++ ('{', false) :: (marked b ++ [('}', false)])) ++ r).map
        Prod.fst) t := by simpa using ht
    rw [htext] at ht'
    rwa [ht'.unique hx hy hbrace]
  · have hclose : GoodSections good (('}', false) :: r) :=
      ⟨fun _ t ht => absurd ht.head hhead, hr⟩
    have hopen : ('}', false) ∉ ('{', false) :: marked b := by
      simp [brace_not_mem_plain hb]
    have hall := GoodSections.append (brace_not_mem_plain hbetween) (.append hopen hclose)
    simpa using hall

end Sectioned

end TimedReq.Text
