import TimedReq.Proofs.Vhdl.Longest
import TimedReq.Proofs.Vhdl.OneLine

/-!
# Longest tokens

The tokens of a text are pieces of it one behind the other, with gaps only between them. Each is the
longest piece at its place that belongs to a class of tokens, and the scan stops only where no such
piece begins.
-/

namespace TimedReq.Vhdl

open Text Lexeme

/-- The token stands at its place in a text, on its line. It belongs to the classes that make up its
kind, and no longer piece at its place belongs to any class. -/
structure Token.Fits (s : Text) (t : Token) : Prop where
  nonempty : t.start < t.stop
  text : (s.take t.stop).drop t.start = t.text
  line : t.line = 1 + (s.take t.start).count '\n'
  kind : Pattern.IsToken t.kind t.text
  unique : ∀ p ∈ Pattern.all, t.text ∈ p.2 → t.kind = Pattern.retyped p.1 t.text
  longest : ∀ p ∈ Pattern.all, ∀ w ∈ p.2, w <+: s.drop t.start → w.length ≤ t.text.length

/-- Where a scan stops there is no gap, and no piece of the text from there on belongs to a class of
tokens. -/
structure LexError.Fits (s : Text) (e : LexError) : Prop where
  char : s[e.index]? = some e.char
  not_gap : ¬isGap e.char
  unmatched : ∀ p ∈ Pattern.all, ∀ w ∈ p.2, ¬w <+: s.drop e.index

/-- Tokens that make up a text before an index, together with the gaps between them. -/
structure Munched (s : Text) (ts : List Token) (stop : Nat) : Prop where
  fits : ∀ t ∈ ts, t.Fits s
  ordered : ts.Pairwise fun t u => t.stop ≤ u.start
  within : ∀ t ∈ ts, t.stop ≤ stop
  gap : ∀ i < stop, (∀ t ∈ ts, ¬(t.start ≤ i ∧ i < t.stop)) → ∃ c, s[i]? = some c ∧ isGap c

/-- The part of a text between two indices, made up from gaps and tokens. -/
inductive Tiled (s : Text) : Nat → List Token → Nat → Prop
  | nil {i : Nat} : Tiled s i [] i
  | gap {i j : Nat} {c : Char} {ts : List Token} (hi : s[i]? = some c) (hc : isGap c)
    (h : Tiled s (i + 1) ts j) : Tiled s i ts j
  | token {t : Token} {j : Nat} {ts : List Token} (ht : t.Fits s) (h : Tiled s t.stop ts j) :
    Tiled s t.start (t :: ts) j

variable {s : Text} {ts : List Token} {i j : Nat}

/-- All tokens stand between the indices. -/
lemma Tiled.bounds (h : Tiled s i ts j) : i ≤ j ∧ ∀ t ∈ ts, i ≤ t.start ∧ t.stop ≤ j := by
  induction h with
  | nil => simp
  | gap _ _ _ ih =>
    refine ⟨by omega, fun t ht => ?_⟩
    obtain ⟨hstart, hstop⟩ := ih.2 t ht
    omega
  | @token t j ts ht _ ih =>
    have hpos := ht.nonempty
    refine ⟨by omega, List.forall_mem_cons.mpr ⟨by omega, fun u hu => ?_⟩⟩
    obtain ⟨hstart, hstop⟩ := ih.2 u hu
    omega

lemma Tiled.fits (h : Tiled s i ts j) : ∀ t ∈ ts, t.Fits s := by
  induction h with
  | nil => simp
  | gap _ _ _ ih => exact ih
  | token ht _ ih => exact List.forall_mem_cons.mpr ⟨ht, ih⟩

lemma Tiled.ordered (h : Tiled s i ts j) : ts.Pairwise fun t u => t.stop ≤ u.start := by
  induction h with
  | nil => exact .nil
  | gap _ _ _ ih => exact ih
  | token _ h ih => exact .cons (fun u hu => (h.bounds.2 u hu).1) ih

lemma Tiled.isGap_of_not_mem (h : Tiled s i ts j) {n : Nat} (hi : i ≤ n) (hj : n < j)
    (hn : ∀ t ∈ ts, ¬(t.start ≤ n ∧ n < t.stop)) : ∃ c, s[n]? = some c ∧ isGap c := by
  induction h with
  | nil => omega
  | @gap i j c ts hget hc _ ih =>
    obtain rfl | hlt := Nat.eq_or_lt_of_le hi
    · exact ⟨c, hget, hc⟩
    · exact ih hlt hj hn
  | token _ _ ih =>
    obtain ⟨hhead, htail⟩ := List.forall_mem_cons.mp hn
    exact ih (by omega) hj htail

lemma Tiled.munched (h : Tiled s 0 ts j) : Munched s ts j :=
  ⟨h.fits, h.ordered, fun t ht => (h.bounds.2 t ht).2,
    fun _ hi hn => h.isGap_of_not_mem (Nat.zero_le _) hi hn⟩

/-- A token that is read behind some text stands there. -/
lemma Token.Fits.of_leads {k : TokenKind} {a b : Text} (h : Leads k a b) (front : Text) :
    Token.Fits (front ++ (a ++ b)) ⟨k, a, front.length, 1 + front.count '\n'⟩ := by
  have hnext := h.next?
  obtain ⟨v, r, hvr, hlen, hkind⟩ := Pattern.exists_isToken hnext
  obtain ⟨rfl, -⟩ := List.append_inj hvr hlen.symm
  refine ⟨?_, ?_, ?_, hkind, ?_, ?_⟩
  · have hpos := List.length_pos_iff.mpr h.ne_nil
    simp only [Token.stop]
    omega
  · simp [Token.stop, List.take_append]
  · simp
  · intro p hp hmem
    exact (Pattern.le_of_next? hnext hp hmem (List.prefix_append a b)).2 rfl
  · intro p hp w hw hprefix
    rw [List.drop_left] at hprefix
    exact (Pattern.le_of_next? hnext hp hw hprefix).1

/-- The index before which a scan finds tokens and gaps only. -/
def scanStop (s : Text) (r : List Token × Option LexError) : Nat :=
  (r.2.map LexError.index).getD s.length

/-- A scan behind some text goes on where that text ends. -/
lemma scanFrom_spec (rest front : Text) :
    Tiled (front ++ rest) front.length (scanFrom front.length (1 + front.count '\n') rest).1
      (scanStop (front ++ rest) (scanFrom front.length (1 + front.count '\n') rest)) ∧
      ∀ e, (scanFrom front.length (1 + front.count '\n') rest).2 = some e →
        e.Fits (front ++ rest) := by
  induction rest using scan_induction generalizing front with
  | nil =>
    rw [scanFrom]
    simp [scanStop, Tiled.nil]
  | gap c rest hc ih =>
    obtain ⟨htiled, herror⟩ := ih (front ++ [c])
    have hcount : 1 + (front ++ [c]).count '\n' = 1 + front.count '\n' + [c].count '\n' := by
      rw [List.count_append]
      omega
    have hassoc : front ++ [c] ++ rest = front ++ c :: rest := by simp
    rw [hcount, hassoc, List.length_append, List.length_singleton,
      ← scanFrom_gap _ _ rest hc] at htiled herror
    exact ⟨.gap (by simp) hc htiled, herror⟩
  | stuck c rest hc hnext =>
    rw [scanFrom_stuck _ _ hc hnext]
    refine ⟨.nil, ?_⟩
    intro e he
    obtain rfl := Option.some.inj he
    refine ⟨by simp, hc, ?_⟩
    intro p hp w hw
    rw [List.drop_left]
    exact Pattern.not_prefix_of_next? hnext hp hw
  | token k a b hleads ih =>
    obtain ⟨htiled, herror⟩ := ih (front ++ a)
    have hcount : 1 + (front ++ a).count '\n' = 1 + front.count '\n' := by
      rw [List.count_append, List.count_eq_zero_of_not_mem (newline_not_mem hleads.alone)]
      rfl
    rw [hcount, List.append_assoc, List.length_append] at htiled herror
    rw [scanFrom_token _ _ hleads]
    exact ⟨.token (.of_leads hleads front) htiled, herror⟩

end TimedReq.Vhdl
