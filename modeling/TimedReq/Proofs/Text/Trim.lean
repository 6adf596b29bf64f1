import Mathlib.Tactic.Common
import TimedReq.Text.Basic

/-!
# Blanks at the ends of texts

Every text is its trimmed text between two runs of blanks, and trimming sees nothing of blanks that
are put at its ends.
-/

namespace TimedReq.Text

/-- What holds of all characters of a text is decided along the text, not along the alphabet. -/
instance decidableForallMem (s : Text) (p : Char → Prop) [DecidablePred p] :
    Decidable (∀ c ∈ s, p c) :=
  List.decidableBAll p s

instance decidableForallMemOption (o : Option Char) (p : Char → Prop) [DecidablePred p] :
    Decidable (∀ c ∈ o, p c) :=
  Option.decidableForallMem o

/-- Only blanks stand in the text. -/
def AllBlank (s : Text) : Prop := ∀ c ∈ s, isBlank c = true

instance (s : Text) : Decidable (AllBlank s) := decidableForallMem s _

/-- Whether a text begins with a blank. -/
def startsBlank : Text → Bool
  | c :: _ => isBlank c
  | [] => false

/-- Whether the last character of a text is blank; `before` stands for the text before it. -/
def endsBlank (before : Bool) : Text → Bool
  | c :: s => endsBlank (isBlank c) s
  | [] => before

lemma AllBlank.nil : AllBlank [] := by
  intro c hc
  simp at hc

lemma AllBlank.cons {c : Char} {s : Text} (hc : isBlank c = true) (hs : AllBlank s) :
    AllBlank (c :: s) := by
  intro d hd
  rcases List.mem_cons.mp hd with rfl | hd
  · exact hc
  · exact hs d hd

lemma AllBlank.of_cons {c : Char} {s : Text} (h : AllBlank (c :: s)) :
    isBlank c = true ∧ AllBlank s :=
  ⟨h c List.mem_cons_self, fun d hd => h d (List.mem_cons_of_mem c hd)⟩

lemma endsBlank_append (a : Bool) (s t : Text) :
    endsBlank a (s ++ t) = endsBlank (endsBlank a s) t := by
  induction s generalizing a with
  | nil => rfl
  | cons c s ih => exact ih (isBlank c)

lemma endsBlank_eq_of_ne_nil {s : Text} (hs : s ≠ []) (a b : Bool) :
    endsBlank a s = endsBlank b s := by
  cases s with
  | nil => exact absurd rfl hs
  | cons c s => rfl

lemma startsBlank_append {s : Text} (hs : s ≠ []) (t : Text) :
    startsBlank (s ++ t) = startsBlank s := by
  cases s with
  | nil => exact absurd rfl hs
  | cons c s => rfl

lemma trimStart_of_not_blank {c : Char} (s : Text) (hc : isBlank c = false) :
    trimStart (c :: s) = c :: s := by
  unfold trimStart
  rw [List.dropWhile_cons_of_neg (by simp [hc])]

lemma trimStart_append {u : Text} (hu : AllBlank u) (s : Text) : trimStart (u ++ s) = trimStart s :=
  List.dropWhile_append_of_pos hu

/-- Two texts with blanks in front are the same from the first character that is no blank. -/
lemma eq_of_blank_append {u v s t : Text} {c d : Char} (hu : AllBlank u) (hv : AllBlank v)
    (hc : isBlank c = false) (hd : isBlank d = false) (h : u ++ c :: s = v ++ d :: t) :
    u = v ∧ c = d ∧ s = t := by
  have hstart := congrArg trimStart h
  rw [trimStart_append hu, trimStart_append hv, trimStart_of_not_blank _ hc,
    trimStart_of_not_blank _ hd] at hstart
  obtain ⟨rfl, rfl⟩ := List.cons.inj hstart
  exact ⟨List.append_cancel_right h, rfl, rfl⟩

lemma not_blank_of_trimStart_eq_cons {s t : Text} {c : Char} (h : trimStart s = c :: t) :
    isBlank c = false := by
  have hhead := List.head?_dropWhile_not isBlank s
  unfold trimStart at h
  rw [h] at hhead
  exact hhead

lemma exists_trimStart (s : Text) : ∃ u, AllBlank u ∧ s = u ++ trimStart s := by
  refine ⟨s.takeWhile isBlank, ?_, List.takeWhile_append_dropWhile.symm⟩
  intro c hc
  exact List.all_eq_true.mp List.all_takeWhile c hc

lemma AllBlank.append {u v : Text} (hu : AllBlank u) (hv : AllBlank v) : AllBlank (u ++ v) :=
  fun c hc => (List.mem_append.mp hc).elim (hu c) (hv c)

lemma AllBlank.reverse {u : Text} (hu : AllBlank u) : AllBlank u.reverse := by
  intro c hc
  exact hu c (List.mem_reverse.mp hc)

lemma trimEnd_append {v : Text} (hv : AllBlank v) (s : Text) : trimEnd (s ++ v) = trimEnd s := by
  unfold trimEnd
  rw [List.reverse_append, trimStart_append hv.reverse]

lemma exists_trimEnd (s : Text) : ∃ v, AllBlank v ∧ s = trimEnd s ++ v := by
  obtain ⟨u, hu, h⟩ := exists_trimStart s.reverse
  refine ⟨u.reverse, hu.reverse, ?_⟩
  unfold trimEnd
  rw [← List.reverse_append, ← h, List.reverse_reverse]

lemma trimEnd_of_not_blank (s : Text) {c : Char} (hc : isBlank c = false) :
    trimEnd (s ++ [c]) = s ++ [c] := by
  unfold trimEnd
  rw [List.reverse_append, List.reverse_singleton, List.singleton_append,
    trimStart_of_not_blank _ hc, List.reverse_cons, List.reverse_reverse]

/-- A text is its trimmed text with blanks around it. -/
lemma exists_trim (s : Text) : ∃ u v, AllBlank u ∧ AllBlank v ∧ s = u ++ trim s ++ v := by
  obtain ⟨u, hu, hs⟩ := exists_trimStart s
  obtain ⟨v, hv, ht⟩ := exists_trimEnd (trimStart s)
  refine ⟨u, v, hu, hv, ?_⟩
  unfold trim
  rw [List.append_assoc, ← ht, ← hs]

lemma trim_append_left {u : Text} (hu : AllBlank u) (s : Text) : trim (u ++ s) = trim s := by
  unfold trim
  rw [trimStart_append hu]

lemma trim_append_right {v : Text} (hv : AllBlank v) (s : Text) : trim (s ++ v) = trim s := by
  obtain ⟨u, hu, hs⟩ := exists_trimStart s
  rw [hs, List.append_assoc, trim_append_left hu, trim_append_left hu]
  rcases hd : trimStart s with _ | ⟨c, t⟩
  · have h := trim_append_left hv []
    rw [List.append_nil] at h
    exact h
  · have hc := not_blank_of_trimStart_eq_cons hd
    unfold trim
    rw [List.cons_append, trimStart_of_not_blank _ hc, trimStart_of_not_blank _ hc,
      ← List.cons_append, trimEnd_append hv]

lemma trim_pad {u v : Text} (hu : AllBlank u) (hv : AllBlank v) (s : Text) :
    trim (u ++ s ++ v) = trim s := by
  rw [trim_append_right hv, trim_append_left hu]

/-- A text that begins and ends with characters other than blanks is trimmed. -/
lemma trim_of_ends {c d : Char} {s t : Text} (hc : isBlank c = false) (hd : isBlank d = false)
    (h : c :: s = t ++ [d]) : trim (c :: s) = c :: s := by
  unfold trim
  rw [trimStart_of_not_blank _ hc, h, trimEnd_of_not_blank _ hd]

/-- Blanks around a text that begins and ends with other characters are trimmed away. -/
lemma trim_pad_of_ends {u v : Text} (hu : AllBlank u) (hv : AllBlank v) {c d : Char}
    (hc : isBlank c = false) (hd : isBlank d = false) (s : Text) :
    trim (u ++ (c :: (s ++ [d])) ++ v) = c :: (s ++ [d]) := by
  rw [trim_pad hu hv]
  exact trim_of_ends hc hd (t := c :: s) rfl

lemma trim_eq_self {w : Text} (hhead : ∀ c ∈ w.head?, isBlank c = false)
    (hlast : ∀ c ∈ w.getLast?, isBlank c = false) : trim w = w := by
  rcases w with _ | ⟨c, s⟩
  · rfl
  · have hne : c :: s ≠ [] := by simp
    exact trim_of_ends (hhead c rfl) (hlast _ (List.getLast?_eq_some_getLast hne))
      (List.dropLast_concat_getLast hne).symm

lemma trim_of_allBlank {u : Text} (hu : AllBlank u) : trim u = [] := by
  have h := trim_append_left hu []
  rw [List.append_nil] at h
  exact h

lemma allBlank_of_trim_eq_nil {s : Text} (h : trim s = []) : AllBlank s := by
  obtain ⟨u, v, hu, hv, hs⟩ := exists_trim s
  rw [hs, h, List.append_nil]
  exact hu.append hv

lemma not_blank_of_trimEnd_eq_append {s t : Text} {c : Char} (h : trimEnd s = t ++ [c]) :
    isBlank c = false := by
  unfold trimEnd at h
  have hrev := congrArg List.reverse h
  rw [List.reverse_reverse, List.reverse_append, List.reverse_singleton,
    List.singleton_append] at hrev
  exact not_blank_of_trimStart_eq_cons hrev

/-- What follows a character other than a blank is trimmed at its end only. -/
lemma trimEnd_append_cons (a : Text) {c : Char} (hc : isBlank c = false) (r : Text) :
    trimEnd (a ++ c :: r) = a ++ c :: trimEnd r := by
  obtain ⟨v, hv, hr⟩ := exists_trimEnd r
  have htrim : trimEnd (a ++ c :: trimEnd r) = a ++ c :: trimEnd r := by
    by_cases hnil : trimEnd r = []
    · rw [hnil]
      exact trimEnd_of_not_blank a hc
    · obtain ⟨t, d, ht⟩ : ∃ t d, trimEnd r = t ++ [d] :=
        ⟨_, _, (List.dropLast_concat_getLast hnil).symm⟩
      rw [ht, ← List.cons_append, ← List.append_assoc]
      exact trimEnd_of_not_blank _ (not_blank_of_trimEnd_eq_append ht)
  have hsplit : a ++ c :: r = (a ++ c :: trimEnd r) ++ v := by
    conv_lhs => rw [hr]
    simp
  rw [hsplit, trimEnd_append hv, htrim]

lemma trimEnd_append_of_ne (a : Text) {t : Text} (h : trimEnd t ≠ []) :
    trimEnd (a ++ t) = a ++ trimEnd t := by
  obtain ⟨v, hv, ht⟩ := exists_trimEnd t
  obtain ⟨r, d, hd⟩ : ∃ r d, trimEnd t = r ++ [d] :=
    ⟨_, _, (List.dropLast_concat_getLast h).symm⟩
  conv_lhs => rw [ht, ← List.append_assoc]
  rw [trimEnd_append hv, hd, ← List.append_assoc]
  exact trimEnd_of_not_blank (a ++ r) (not_blank_of_trimEnd_eq_append hd)

lemma allBlank_of_trimEnd_eq_nil {t : Text} (h : trimEnd t = []) : AllBlank t := by
  obtain ⟨v, hv, ht⟩ := exists_trimEnd t
  rw [ht, h]
  exact hv

lemma trimEnd_of_allBlank {t : Text} (h : AllBlank t) : trimEnd t = [] := by
  have heq := trimEnd_append h []
  rwa [List.nil_append] at heq

lemma trimEnd_cons {c : Char} (hc : isBlank c = false) (r : Text) :
    trimEnd (c :: r) = c :: trimEnd r := trimEnd_append_cons [] hc r

lemma trim_append_cons {a : Text} {c : Char} (ha : ∀ x ∈ a.head?, isBlank x = false)
    (hc : isBlank c = false) (r : Text) : trim (a ++ c :: r) = a ++ c :: trimEnd r := by
  have hstart : trimStart (a ++ c :: r) = a ++ c :: r := by
    cases a with
    | nil => exact trimStart_of_not_blank r hc
    | cons b a => exact trimStart_of_not_blank _ (ha b rfl)
  unfold trim
  rw [hstart, trimEnd_append_cons a hc]

lemma trimEnd_eq_of_trim {a : Text} {c : Char} {s : Text} (ha : ∀ x ∈ a.head?, isBlank x = false)
    (hc : isBlank c = false) (h : trim (a ++ c :: s) = a ++ c :: s) : trimEnd s = s := by
  rw [trim_append_cons ha hc] at h
  simpa using h

lemma startsBlank_trimEnd (r : Text) : trimEnd r = [] ∨ startsBlank (trimEnd r) = startsBlank r := by
  obtain ⟨v, -, hr⟩ := exists_trimEnd r
  by_cases hnil : trimEnd r = []
  · exact .inl hnil
  · refine .inr ?_
    conv_rhs => rw [hr]
    exact (startsBlank_append hnil v).symm

lemma trim_trim (s : Text) : trim (trim s) = trim s := by
  obtain ⟨u, v, hu, hv, hs⟩ := exists_trim s
  have h : trim s = trim (trim s) := by
    conv_lhs => rw [hs]
    rw [trim_append_right hv, trim_append_left hu]
  exact h.symm

lemma not_blank_of_trim_eq_cons {s t : Text} {c : Char} (h : trim s = c :: t) :
    isBlank c = false := by
  have hidem := trim_trim s
  rw [h] at hidem
  by_contra hb
  have hc : isBlank c = true := by simpa using hb
  have hlt : (trim (c :: t)).length ≤ t.length := by
    rw [show c :: t = [c] ++ t from rfl, trim_append_left (AllBlank.cons hc .nil)]
    obtain ⟨u, v, -, -, ht⟩ := exists_trim t
    have hlen := congrArg List.length ht
    simp only [List.length_append] at hlen
    omega
  rw [hidem, List.length_cons] at hlt
  omega

lemma not_blank_of_trim_eq_append {s t : Text} {c : Char} (h : trim s = t ++ [c]) :
    isBlank c = false := by
  have hidem := trim_trim s
  rw [h] at hidem
  by_contra hb
  have hc : isBlank c = true := by simpa using hb
  have hlt : (trim (t ++ [c])).length ≤ t.length := by
    rw [trim_append_right (AllBlank.cons hc .nil)]
    obtain ⟨u, v, -, -, ht⟩ := exists_trim t
    have hlen := congrArg List.length ht
    simp only [List.length_append] at hlen
    omega
  rw [hidem, List.length_append, List.length_singleton] at hlt
  omega

/-- What follows a trimmed text is trimmed at its end only. -/
lemma trimEnd_append_of_trim_eq {w : Text} (h : trim w = w) (hw : w ≠ []) (t : Text) :
    trimEnd (w ++ t) = w ++ trimEnd t := by
  obtain ⟨v, c, rfl⟩ : ∃ v c, w = v ++ [c] :=
    ⟨w.dropLast, w.getLast hw, (List.dropLast_concat_getLast hw).symm⟩
  rw [List.append_assoc, List.append_assoc]
  exact trimEnd_append_cons v (not_blank_of_trim_eq_append h) t

lemma trimEnd_of_trim_eq {w : Text} (h : trim w = w) : trimEnd w = w := by
  by_cases hw : w = []
  · rw [hw]
    exact trimEnd_of_allBlank .nil
  · have hend := trimEnd_append_of_trim_eq h hw []
    rwa [List.append_nil, trimEnd_of_allBlank .nil, List.append_nil] at hend

/-- A trimmed text does not end with a blank. -/
lemma endsBlank_of_trim_eq {s : Text} (h : trim s = s) (hs : s ≠ []) (a : Bool) :
    endsBlank a s = false := by
  obtain ⟨t, c, rfl⟩ : ∃ t c, s = t ++ [c] :=
    ⟨s.dropLast, s.getLast hs, (List.dropLast_concat_getLast hs).symm⟩
  rw [endsBlank_append]
  exact not_blank_of_trim_eq_append h

/-- What a text begins with that is not blank stays when something is put behind it and a blank. -/
lemma prefix_trim_append_blank {p s : Text} {b : Char} (hp : ∀ c ∈ p, isBlank c = false)
    (hs : ¬AllBlank s) (hb : isBlank b = true) (t : Text) :
    p <+: trim (s ++ b :: t) ↔ p <+: trim s := by
  obtain ⟨u, v, hu, hv, hcut⟩ := exists_trim s
  have hne : trim s ≠ [] := fun hnil => hs (allBlank_of_trim_eq_nil hnil)
  have htrim : trim (s ++ b :: t) = trim s ++ trimEnd (v ++ b :: t) := by
    obtain ⟨c, w, hw⟩ := List.exists_cons_of_ne_nil hne
    have hc := not_blank_of_trim_eq_cons hw
    conv_lhs => rw [hcut]
    rw [List.append_assoc, List.append_assoc, trim_append_left hu,
      ← trimEnd_append_of_trim_eq (trim_trim s) hne, hw, List.cons_append, trim,
      trimStart_of_not_blank _ hc]
  have hrest : trimEnd (v ++ b :: t) = [] ∨ startsBlank (trimEnd (v ++ b :: t)) = true := by
    have hstart : startsBlank (v ++ b :: t) = true := by
      cases v with
      | nil => exact hb
      | cons c v => exact hv.of_cons.1
    exact hstart ▸ startsBlank_trimEnd (v ++ b :: t)
  rw [htrim]
  constructor
  · intro h
    obtain hprefix | ⟨q, rfl⟩ := List.prefix_or_prefix_of_prefix h (List.prefix_append _ _)
    · exact hprefix
    · cases q with
      | nil => simp
      | cons c q =>
        -- the text would go on with a blank
        obtain ⟨r, hr⟩ := (List.prefix_append_right_inj _).mp h
        rw [← hr] at hrest
        have hblank : isBlank c = true := by simpa [startsBlank] using hrest
        simp [hp c (by simp)] at hblank
  · exact fun h => h.trans (List.prefix_append _ _)

end TimedReq.Text
