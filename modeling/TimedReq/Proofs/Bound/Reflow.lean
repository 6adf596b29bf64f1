import TimedReq.Proofs.Bound.Statement
import TimedReq.Proofs.Text.Reflow

/-!
# Statements with other blanks

How many blanks stand somewhere in a statement, and which, makes no difference to the statement.
-/

namespace TimedReq

open Text

/-- A separator without blanks splits texts of one flow alike. -/
lemma Text.Reflowed.splitOn {x : Char} {xs s t : Text} (hsep : ∀ c ∈ x :: xs, isBlank c = false)
    (h : Reflowed isBlank s t) :
    List.Forall₂ (Reflowed isBlank) (splitOn (x :: xs) s) (splitOn (x :: xs) t) := by
  have hbehind : ∀ {w s t : Text}, (∀ c ∈ w, isBlank c = false) → Reflowed isBlank (w ++ s) t →
      ∃ t', t = w ++ t' ∧ Reflowed isBlank s t' := by
    intro w s t hw h
    induction w generalizing t with
    | nil => exact ⟨t, rfl, h⟩
    | cons c w ih =>
      obtain ⟨t', rfl, h'⟩ := Reflowed.cons_inv h (hw c List.mem_cons_self)
      obtain ⟨t'', rfl, h''⟩ := ih (fun d hd => hw d (List.mem_cons_of_mem c hd)) h'
      exact ⟨t'', rfl, h''⟩
  have hfront : ∀ {s t : Text}, Reflowed isBlank s t → (x :: xs).isPrefixOf s = true →
      (x :: xs).isPrefixOf t = true := by
    intro s t h hs
    obtain ⟨r, rfl⟩ := List.isPrefixOf_iff_prefix.mp hs
    obtain ⟨r', rfl, -⟩ := hbehind hsep h
    exact List.isPrefixOf_iff_prefix.mpr (List.prefix_append _ _)
  have hne : ∀ {u : Text}, (∀ c ∈ u, isBlank c = true) → ∀ c ∈ u, c ≠ x := by
    rintro u hu c hc rfl
    have hblank := hsep c List.mem_cons_self
    rw [hu c hc] at hblank
    exact absurd hblank (by simp)
  induction hn : s.length using Nat.strongRecOn generalizing s t with
  | ind n ih =>
    cases h with
    | nil =>
      rw [Text.splitOn]
      exact .cons .nil .nil
    | @kept c s t hc h =>
      rw [List.length_cons] at hn
      by_cases hsplit : (x :: xs).isPrefixOf (c :: s) = true
      · obtain ⟨r, hr⟩ := List.isPrefixOf_iff_prefix.mp hsplit
        obtain ⟨r', hr', hrest⟩ := hbehind hsep (hr ▸ Reflowed.kept hc h)
        have hlen := congrArg List.length hr
        rw [List.length_append, List.length_cons, List.length_cons] at hlen
        rw [← hr, hr', List.cons_append, List.cons_append, splitOn_separator, splitOn_separator]
        exact .cons .nil (ih r.length (by omega) hrest rfl)
      · have hsplit' : (x :: xs).isPrefixOf (c :: t) = false := by
          by_contra hfront'
          exact hsplit (hfront (Reflowed.kept hc h).symm (by simpa using hfront'))
        have hrest := ih s.length (by omega) h rfl
        generalize hs : Text.splitOn (x :: xs) s = ws at hrest
        generalize ht : Text.splitOn (x :: xs) t = vs at hrest
        cases hrest with
        | nil => exact absurd hs (splitOn_ne_nil _ s)
        | cons hw hws =>
          rw [splitOn_cons (Bool.eq_false_iff.mpr hsplit) hs, splitOn_cons hsplit' ht]
          exact .cons (.kept hc hw) hws
    | @run u v s t hu hv hune hvne h =>
      have hlen := List.length_pos_iff.mpr hune
      rw [List.length_append] at hn
      have hrest := ih s.length (by omega) h rfl
      generalize hs : Text.splitOn (x :: xs) s = ws at hrest
      generalize ht : Text.splitOn (x :: xs) t = vs at hrest
      cases hrest with
      | nil => exact absurd hs (splitOn_ne_nil _ s)
      | cons hw hws =>
        rw [splitOn_append (hne hu) hs, splitOn_append (hne hv) ht]
        exact .cons (.run hu hv hune hvne hw) hws

namespace Statement

variable {s t : Text}

lemma parseAt_congr (h : Reflowed isBlank s t) (c : Comparison) : parseAt c s = parseAt c t := by
  have hsymbol : ∃ x xs, c.symbol = x :: xs ∧ ∀ d ∈ x :: xs, isBlank d = false := by
    cases c <;> exact ⟨_, _, rfl, by decide⟩
  obtain ⟨x, xs, hsym, hblank⟩ := hsymbol
  have hparts := h.splitOn hblank
  have htrim : ∀ {l l' : Text} {d : Char}, isBlank d = false → Reflowed isBlank l l' →
      trim l = [d] → trim l' = [d] := by
    intro l l' d hd hl heq
    have hcut := hl.trim
    rw [heq] at hcut
    obtain ⟨r, hr, hnil⟩ := hcut.cons_inv hd
    rw [hr, hnil.eq_nil]
  have hquantity : ∀ q : Quantity, isBlank q.symbol = false := by
    intro q
    cases q <;> rfl
  have hofParts : ∀ {l l' : Text}, Reflowed isBlank l l' → ∀ b : Bound,
      ofParts? l c.symbol b = ofParts? l' c.symbol b := by
    intro l l' hl b
    unfold ofParts?
    by_cases heq : trim l = [b.unit.quantity.symbol]
    · rw [if_pos heq, if_pos (htrim (hquantity _) hl heq)]
    · rw [if_neg heq, if_neg fun heq' => heq (htrim (hquantity _) hl.symm heq')]
  unfold parseAt
  rw [hsym] at hofParts ⊢
  generalize splitOn (x :: xs) s = ws at hparts
  generalize splitOn (x :: xs) t = vs at hparts
  cases hparts with
  | nil => rfl
  | cons hl hmore =>
    cases hmore with
    | nil => rfl
    | cons hr hmore =>
      cases hmore with
      | nil =>
        simp only
        unfold Bound.parse
        rw [hr.words_eq, funext (hofParts hl)]
      | cons => rfl

/-- Texts of one flow are read as one statement, or refused alike. -/
lemma parse_congr (h : Reflowed isBlank s t) : parse s = parse t := by
  have hwith : ∀ cs, parseWith (trim s) cs = parseWith (trim t) cs := by
    intro cs
    induction cs with
    | nil => rfl
    | cons c cs ih => rw [parseWith, parseWith, parseAt_congr h.trim c, ih]
  exact hwith Comparison.all

lemma parseAll_congr {ss ts : List Text} (h : List.Forall₂ (Reflowed isBlank) ss ts) :
    parseAll ss = parseAll ts := by
  induction h with
  | nil => rfl
  | cons hs _ ih => rw [parseAll, parseAll, parse_congr hs, ih]

/-- The statements between two braces. -/
lemma parseAll_pieces_congr (h : Reflowed isBlank s t) :
    parseAll (pieces (· == ',') (trimEnd s)) = parseAll (pieces (· == ',') (trimEnd t)) := by
  refine parseAll_congr (h.trimEnd.pieces ?_)
  intro c hc
  obtain rfl := beq_iff_eq.mp hc
  rfl

end Statement

end TimedReq
