import Mathlib.Data.List.Forall2
import TimedReq.Proofs.Text.Respaced

/-!
# Exchanging blanks

To brackets and literals all blanks are alike. The blanks of a text outside literals may be written
as spaces one by one, and the runs of them may be exchanged for given ones.
-/

namespace TimedReq.Text

/-! ### Blanks are alike -/

/-- Texts of one length that differ in blanks only. -/
def Matching (s t : Text) : Prop :=
  List.Forall₂ (fun c d => c = d ∨ isBlank c = true ∧ isBlank d = true) s t

namespace Matching

variable {s t l r : Text} {c : Char}

lemma refl (s : Text) : Matching s s := List.forall₂_same.mpr fun _ _ => .inl rfl

lemma symm (h : Matching s t) : Matching t s :=
  (List.Forall₂.flip h).imp fun _ _ hcd => hcd.imp Eq.symm And.symm

lemma cons_inv (h : Matching (c :: s) t) (hc : isBlank c = false) :
    ∃ t', t = c :: t' ∧ Matching s t' := by
  obtain ⟨d, t', hcd, hst, rfl⟩ := List.forall₂_cons_left_iff.mp h
  obtain rfl | ⟨hblank, -⟩ := hcd
  · exact ⟨t', rfl, hst⟩
  · rw [hc] at hblank
    exact absurd hblank (by simp)

lemma append_inv (h : Matching (l ++ r) t) :
    ∃ l' r', t = l' ++ r' ∧ Matching l l' ∧ Matching r r' := by
  induction l generalizing t with
  | nil => exact ⟨[], t, rfl, .nil, h⟩
  | cons c l ih =>
    obtain ⟨d, t', hcd, hst, rfl⟩ := List.forall₂_cons_left_iff.mp h
    obtain ⟨l', r', rfl, hl, hr⟩ := ih hst
    exact ⟨d :: l', r', rfl, .cons hcd hl, hr⟩

lemma append {s' t' : Text} (h : Matching s t) (h' : Matching s' t') :
    Matching (s ++ s') (t ++ t') := List.rel_append h h'

lemma allBlank (h : Matching s t) (hs : AllBlank s) : AllBlank t := by
  induction h with
  | nil => exact .nil
  | @cons c d s t hcd _ ih =>
    refine .cons ?_ (ih hs.of_cons.2)
    obtain rfl | ⟨-, hd⟩ := hcd
    · exact hs.of_cons.1
    · exact hd

lemma startsBlank_eq (h : Matching s t) : startsBlank s = startsBlank t := by
  cases h with
  | nil => rfl
  | cons hcd _ =>
    obtain rfl | ⟨hc, hd⟩ := hcd
    · rfl
    · exact hc.trans hd.symm

/-- What is matched without blanks is the same. -/
lemma eq_of_not_blank (h : Matching s t) (hs : ∀ c ∈ s, isBlank c = false) : t = s := by
  induction s generalizing t with
  | nil => exact List.forall₂_nil_left_iff.mp h
  | cons c s ih =>
    obtain ⟨t', rfl, hst⟩ := h.cons_inv (hs c List.mem_cons_self)
    rw [ih hst fun d hd => hs d (List.mem_cons_of_mem c hd)]

/-- Brackets and literals are the same whatever the blanks are, even those in literals. -/
lemma nestingFrom_eq (h : Matching s t) (q : Bool) (d : Int) :
    nestingFrom q d s = nestingFrom q d t := by
  have hsame : ∀ {c d x : Char}, (c = d ∨ isBlank c = true ∧ isBlank d = true) → isBlank x = false →
      (c = x ↔ d = x) := by
    rintro c d x (rfl | ⟨hc, hd⟩) hx
    · rfl
    · constructor <;> rintro rfl <;> simp_all
  induction q, s using quoting_induction generalizing t d with
  | nil => rw [List.forall₂_nil_left_iff.mp h]
  | string c s ih =>
    obtain ⟨e, t, hce, hst, rfl⟩ := List.forall₂_cons_left_iff.mp h
    have hquote : (c != '"') = (e != '"') := by
      rw [Bool.eq_iff_iff, bne_iff_ne, bne_iff_ne]
      exact not_congr (hsame hce rfl)
    rw [nestingFrom_string, nestingFrom_string, ih hst, hquote]
  | stringStart s ih =>
    obtain ⟨t, rfl, hst⟩ := h.cons_inv rfl
    rw [nestingFrom_stringStart, nestingFrom_stringStart, ih hst]
  | character e s ih =>
    obtain ⟨t, rfl, hst⟩ := h.cons_inv rfl
    obtain ⟨e', t, -, hrest, rfl⟩ := List.forall₂_cons_left_iff.mp hst
    obtain ⟨t, rfl, hlast⟩ := cons_inv hrest rfl
    rw [nestingFrom_character, nestingFrom_character, ih hlast]
  | other c s hq hs ih =>
    obtain ⟨e, t, hce, hst, rfl⟩ := List.forall₂_cons_left_iff.mp h
    obtain rfl | ⟨hc, he⟩ := hce
    · have ht : ∀ x r, c = '\'' → t = x :: '\'' :: r → False := by
        rintro x r rfl rfl
        obtain ⟨y, s', -, hrest, rfl⟩ := List.forall₂_cons_left_iff.mp (symm hst)
        obtain ⟨s', rfl, -⟩ := cons_inv hrest rfl
        exact hs y s' rfl rfl
      by_cases ho : IsOpening c
      · rw [nestingFrom_opening d s ho, nestingFrom_opening d t ho, ih hst]
      · by_cases hcl : IsClosing c
        · rw [nestingFrom_closing d s hcl, nestingFrom_closing d t hcl, ih hst]
        · rw [nestingFrom_other d hq ho hcl hs, nestingFrom_other d hq ho hcl ht, ih hst]
    · rw [nestingFrom_plain d s (isPlain_of_isBlank hc),
        nestingFrom_plain d t (isPlain_of_isBlank he), ih hst]

lemma neutral (h : Matching s t) (hs : Neutral s) : Neutral t := by
  refine ⟨fun d r => ?_, fun d k hk => ?_⟩
  · rw [← (h.append (refl r)).nestingFrom_eq, hs.closed d r, h.nestingFrom_eq]
  · rw [← h.nestingFrom_eq] at hk
    exact hs.le_depth d k hk

end Matching

/-! ### Spaces for blanks -/

/-- A blank outside literals becomes a space. -/
def toSpace (m : Mark) : Mark := if isSpacing m then (' ', false) else m

/-- The text with a space for every blank outside literals. -/
def spaced (s : Text) : Text := (marked s).map fun m => (toSpace m).1

section

variable {s t : Text}

lemma matching_spaced (s : Text) : Matching s (spaced s) := by
  have hmarks : List.Forall₂ (fun c d => c = d ∨ isBlank c = true ∧ isBlank d = true)
      ((marked s).map Prod.fst) (spaced s) := by
    unfold spaced
    rw [List.forall₂_map_left_iff, List.forall₂_map_right_iff, List.forall₂_same]
    intro m _
    unfold toSpace
    split
    · exact .inr ⟨isBlank_of_isSpacing ‹_›, rfl⟩
    · exact .inl rfl
  rwa [map_fst_marked] at hmarks

lemma snd_toSpace (m : Mark) : (toSpace m).2 = m.2 := by
  unfold toSpace
  split
  · rename_i h
    unfold isSpacing at h
    simpa using (Bool.and_eq_true_iff.mp h).1
  · rfl

lemma isBlank_toSpace (m : Mark) : isBlank (toSpace m).1 = isBlank m.1 := by
  unfold toSpace
  split
  · exact (isBlank_of_isSpacing ‹_›).symm
  · rfl

lemma marked_spaced (s : Text) : marked (spaced s) = (marked s).map toSpace := by
  have hquotes : quotes false (spaced s) = (marked s).map fun m => (toSpace m).2 := by
    simp only [snd_toSpace]
    rw [quotes, ← (matching_spaced s).nestingFrom_eq, marked, List.map_snd_zip]
    · rfl
    · exact Nat.le_of_eq (by rw [List.length_map, nesting, length_nestingFrom])
  rw [marked_eq_zip, hquotes, spaced, List.zip_map']

/-- Spaces are blanks like the others. -/
lemma respaced_spaced (s : Text) : Respaced s (spaced s) := by
  unfold Respaced
  rw [marked_spaced]
  induction marked s with
  | nil => exact .nil
  | cons m ms ih =>
    rw [List.map_cons]
    by_cases hm : isSpacing m = true
    · have hspace : toSpace m = (' ', false) := if_pos hm
      rw [hspace]
      exact .run (u := [m]) (v := [(' ', false)]) (by simpa using hm) (by simp [isSpacing, isBlank])
        (by simp) (by simp) ih
    · have hkept : toSpace m = m := if_neg hm
      rw [hkept]
      exact .kept (Bool.eq_false_iff.mpr hm) ih

lemma Respaced.spaced (h : Respaced s t) : Respaced (spaced s) (spaced t) := by
  unfold Respaced
  rw [marked_spaced, marked_spaced]
  refine Reflowed.map (fun m hm => ?_) h
  rw [toSpace, if_pos hm]
  rfl

lemma trim_spaced (s : Text) : trim (spaced s) = spaced (trim s) := by
  have hblank : (fun m : Mark => isBlank m.1) ∘ toSpace = fun m => isBlank m.1 :=
    funext fun m => isBlank_toSpace m
  have hmarks : marked (trim (spaced s)) = marked (spaced (trim s)) := by
    rw [marked_spaced, marked_trim_eq, marked_trim_eq, marked_spaced, List.dropWhile_map, hblank,
      ← List.map_reverse, List.dropWhile_map, hblank, ← List.map_reverse]
  rw [← map_fst_marked (trim (spaced s)), hmarks, map_fst_marked]

lemma spaced_append {δ : Int} (hs : Closed δ s) (t : Text) :
    spaced (s ++ t) = spaced s ++ spaced t := by
  rw [spaced, marked_append hs, List.map_append]
  rfl

lemma exists_spaced_cons {c : Char} (hc : isBlank c = false) (s : Text) :
    ∃ t, spaced (c :: s) = c :: t ∧ Matching s t := (matching_spaced (c :: s)).cons_inv hc

end

/-! ### Given gaps for runs of blanks -/

/-- Exchanges runs of blanks outside literals, the next one for `gaps k`. Inside a run the rest of
the run is left out. -/
def exchange (gaps : Nat → Text) (k : Nat) (inRun : Bool) : List Mark → List Mark
  | [] => []
  | m :: ms =>
    if isSpacing m then
      if inRun then exchange gaps k true ms
      else (gaps k).map (·, false) ++ exchange gaps (k + 1) true ms
    else m :: exchange gaps k false ms

/-- The trimmed text with given gaps in place of its runs of blanks outside literals. -/
def respaced (gaps : Nat → Text) (s : Text) : Text :=
  (exchange gaps 0 false (marked (trim s))).map Prod.fst

section

variable {gaps : Nat → Text}

lemma isSpacing_of_mem_gap {g : Text} (hg : AllBlank g) :
    ∀ m ∈ g.map (·, false), isSpacing m = true := by
  intro m hm
  obtain ⟨c, hc, rfl⟩ := List.mem_map.mp hm
  simp [isSpacing, hg c hc]

/-- Characters that stand between the marked ones are new gaps. -/
lemma mem_exchange {k : Nat} {inRun : Bool} {ms : List Mark} {m : Mark}
    (h : m ∈ exchange gaps k inRun ms) : m ∈ ms ∧ isSpacing m = false ∨ ∃ j, m.1 ∈ gaps j := by
  fun_induction exchange gaps k inRun ms with
  | case1 => simp at h
  | case2 k x ms hx ih => exact (ih h).imp_left (And.imp_left (List.mem_cons_of_mem x))
  | case3 k inRun x ms hx hrun ih =>
    rcases List.mem_append.mp h with h | h
    · obtain ⟨c, hc, rfl⟩ := List.mem_map.mp h
      exact .inr ⟨k, hc⟩
    · exact (ih h).imp_left (And.imp_left (List.mem_cons_of_mem x))
  | case4 k inRun x ms hx ih =>
    rcases List.mem_cons.mp h with rfl | h
    · exact .inl ⟨List.mem_cons_self, Bool.eq_false_iff.mpr hx⟩
    · exact (ih h).imp_left (And.imp_left (List.mem_cons_of_mem x))

/-- Runs are exchanged for runs. Inside a run, the first part of it and of the gap are given. -/
lemma reflowed_exchange (hgaps : ∀ k, gaps k ≠ [] ∧ AllBlank (gaps k)) (ms : List Mark) (k : Nat) :
    Reflowed isSpacing ms (exchange gaps k false ms) ∧
      ∀ u v : List Mark, (∀ m ∈ u, isSpacing m = true) → (∀ m ∈ v, isSpacing m = true) → u ≠ [] →
        v ≠ [] → Reflowed isSpacing (u ++ ms) (v ++ exchange gaps k true ms) := by
  induction ms generalizing k with
  | nil => exact ⟨.nil, fun u v hu hv hune hvne => .run hu hv hune hvne .nil⟩
  | cons m ms ih =>
    rw [exchange, exchange]
    by_cases hm : isSpacing m = true
    · simp only [if_pos hm, Bool.false_eq_true, if_false, if_true]
      constructor
      · exact (ih (k + 1)).2 [m] _ (by simpa using hm) (isSpacing_of_mem_gap (hgaps k).2) (by simp)
          (by simpa using (hgaps k).1)
      · intro u v hu hv _ hvne
        have hum : ∀ x ∈ u ++ [m], isSpacing x = true := by
          simpa [or_imp, forall_and, hm] using hu
        have hall := (ih k).2 (u ++ [m]) v hum hv (by simp) hvne
        simpa using hall
    · simp only [if_neg hm]
      have hkept := Reflowed.kept (Bool.eq_false_iff.mpr hm) (ih k).1
      exact ⟨hkept, fun u v hu hv hune hvne => .run hu hv hune hvne hkept⟩

lemma exchange_quoted (k : Nat) (inRun : Bool) (c : Char) (ms : List Mark) :
    exchange gaps k inRun ((c, true) :: ms) = (c, true) :: exchange gaps k false ms := by
  rw [exchange, if_neg (by simp [isSpacing])]

/-- Without quotes outside literals, no literal comes about when runs are exchanged. -/
lemma quotes_exchange (hgaps : ∀ k, AllBlank (gaps k)) {q : Bool} {s : Text}
    (hs : ('\'', false) ∉ s.zip (quotes q s)) (k : Nat) (inRun : Bool) :
    quotes q ((exchange gaps k inRun (s.zip (quotes q s))).map Prod.fst) =
      (exchange gaps k inRun (s.zip (quotes q s))).map Prod.snd := by
  induction q, s using quoting_induction generalizing k inRun with
  | nil => rfl
  | string c s ih =>
    rw [quotes_string, List.zip_cons_cons] at hs ⊢
    rw [exchange_quoted, List.map_cons, List.map_cons, quotes_string,
      ih fun h => hs (List.mem_cons_of_mem _ h)]
  | stringStart s ih =>
    rw [quotes_stringStart, List.zip_cons_cons] at hs ⊢
    rw [exchange_quoted, List.map_cons, List.map_cons, quotes_stringStart,
      ih fun h => hs (List.mem_cons_of_mem _ h)]
  | character e s ih =>
    rw [quotes_character, List.zip_cons_cons, List.zip_cons_cons, List.zip_cons_cons] at hs ⊢
    rw [exchange_quoted, exchange_quoted, exchange_quoted]
    simp only [List.map_cons]
    rw [quotes_character, ih fun h => hs (by simp [h])]
  | other c s hq hlit ih =>
    rw [quotes_other hq hlit, List.zip_cons_cons, List.mem_cons, not_or] at hs
    rw [quotes_other hq hlit, List.zip_cons_cons, exchange]
    have hrest := ih hs.2
    by_cases hc : isSpacing (c, false) = true
    · rw [if_pos hc]
      cases inRun with
      | true => exact hrest k true
      | false =>
        simp only [Bool.false_eq_true, if_false, ← marked_allBlank (hgaps k)]
        rw [List.map_append, List.map_append, map_fst_marked, map_snd_marked, ← hrest (k + 1) true,
          ← map_snd_marked, marked_append (Neutral.allBlank (hgaps k)).closed, List.map_append,
          map_snd_marked, map_snd_marked]
    · rw [if_neg hc, List.map_cons, List.map_cons, quotes_other hq, hrest k false]
      rintro e r rfl -
      exact hs.1 rfl

lemma marked_respaced (hgaps : ∀ k, AllBlank (gaps k)) {s : Text}
    (hs : Within (· ≠ ('\'', false)) s) :
    marked (respaced gaps s) = exchange gaps 0 false (marked (trim s)) := by
  have hquotes := quotes_exchange hgaps (q := false) (s := trim s)
    (fun hmem => hs.trim _ hmem rfl) 0 false
  rw [marked_eq_zip, respaced, marked_eq_zip, hquotes, List.zip_map', List.map_id']

/-- Texts without quotes outside literals are respaced by given gaps. -/
theorem respaced_respaced (hgaps : ∀ k, gaps k ≠ [] ∧ AllBlank (gaps k)) {s : Text}
    (hs : Within (· ≠ ('\'', false)) s) : Respaced (trim s) (respaced gaps s) := by
  rw [Respaced, marked_respaced (fun k => (hgaps k).2) hs]
  exact (reflowed_exchange hgaps (marked (trim s)) 0).1

end

end TimedReq.Text
