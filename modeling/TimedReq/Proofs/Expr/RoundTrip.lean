import TimedReq.Expr.Parser
import TimedReq.Proofs.Expr.Accepted
import TimedReq.Proofs.Expr.Depth
import TimedReq.Proofs.Expr.Spacing
import TimedReq.Proofs.Vhdl.Condensed

/-!
# Reading canonical text

What becomes of the canonical text of a tree that was read. A connective set tight behind a bracket
gets blanks in the canonical text, and a negated condition may get some, so that the text is read
as another tree or not at all. In a text without such connectives the first cannot happen, and the
second happens just if a condition with blanks is negated. In any text nothing but layout is lost.
On trees that respect precedence the printer is exact, down to the depth that reading takes.
-/

namespace TimedReq

open Text

/-- No name in the tree looks like an operator. -/
def Expr.NamesApart (e : Expr Vhdl.Node) : Prop :=
  ∀ p ∈ e.predicates, ∀ x ∈ p.names, x ∉ operatorNames

instance (e : Expr Vhdl.Node) : Decidable e.NamesApart := by
  unfold Expr.NamesApart
  infer_instance

/-- It suffices that blanks are around each `^` and each `V`, wherever they stand. -/
lemma wellSpaced_of_apart {s : Text}
    (h : ∀ i < s.length, s[i]? = some '^' ∨ s[i]? = some 'V' →
      (s[i - 1]?.any isBlank && s[i + 1]?.any isBlank) = true) : WellSpaced s := by
  rintro before close blanks op after rfl hclose hblanks hop -
  have hlen : (before ++ close :: blanks).length = before.length + 1 + blanks.length := by
    simp only [List.length_append, List.length_cons]
    omega
  have hop' : (before ++ close :: (blanks ++ op :: after))[before.length + 1 + blanks.length]? =
      some op := by
    have heq : before ++ close :: (blanks ++ op :: after) =
        (before ++ close :: blanks) ++ op :: after := by simp
    rw [heq, ← hlen, List.getElem?_append_right (Nat.le_refl _), Nat.sub_self]
    rfl
  have hlt : before.length + 1 + blanks.length <
      (before ++ close :: (blanks ++ op :: after)).length := by
    simp only [List.length_append, List.length_cons]
    omega
  obtain ⟨hleft, hright⟩ := Bool.and_eq_true_iff.mp
    (h _ hlt (by rw [hop']; rcases hop with rfl | rfl <;> simp))
  constructor
  · rintro rfl
    have hindex : before.length + 1 + ([] : Text).length - 1 = before.length := by simp
    rw [hindex, List.getElem?_append_right (Nat.le_refl _), Nat.sub_self] at hleft
    rcases hclose with rfl | rfl <;> simp [isBlank] at hleft
  · have heq : before ++ close :: (blanks ++ op :: after) =
        (before ++ close :: (blanks ++ [op])) ++ after := by simp
    have hlen' : (before ++ close :: (blanks ++ [op])).length =
        before.length + 1 + blanks.length + 1 := by
      simp only [List.length_append, List.length_cons, List.length_nil]
      omega
    rw [heq, ← hlen', List.getElem?_append_right (Nat.le_refl _), Nat.sub_self] at hright
    cases after with
    | nil => simp at hright
    | cons c after => simpa [startsBlank] using hright

/-- The condition that a bit is set. -/
def Vhdl.Node.isSet (bit : Text) : Vhdl.Node := .ofBinary .comparison ['='] (.name bit) (.ofBit ['1'])

/-- A condition that its own canonical text gives back and that is not taken for anything else among
expressions. -/
structure Vhdl.Node.Clean (p : Vhdl.Node) : Prop where
  read_print : Embedding.vhdl.read p.print = some p
  not_paren : ∀ q, p ≠ .paren q
  names : ∀ x ∈ p.names, x ∉ operatorNames

namespace Expr

variable {m : Int} {s : Text} {e e' : Expr Vhdl.Node}

/-- A text with blanks around connectives and its canonical text spell rows that are read alike. -/
lemma exists_similar_rows (h : read .vhdl m s = .ok e) (hnames : e.NamesApart)
    (hspaced : WellSpaced s) : ∃ row, Row.Similar .vhdl true row (e.row .vhdl) ∧
      read .vhdl m s = .ofOption (Row.read (levels m) row) ∧
      read .vhdl m (e.print .vhdl) = .ofOption (Row.read (levels m) (e.row .vhdl)) := by
  obtain ⟨hlegible, row, hspells, hsimilar⟩ :=
    (takes_readLevels (levels m) h).spelledBy Vhdl.restores hnames
  have hrow : row.Spaced :=
    hspells.spaced (f := []) (r := []) (d := 0) (by simpa using hspaced) .nil (by simp)
  exact ⟨row, hrow.similar hsimilar, readsAs_readLevels Vhdl.keepsGroups _ hspells,
    readsAs_readLevels Vhdl.keepsGroups _ hlegible.spells⟩

/-- The canonical text of a tree that was read from a text with blanks around connectives is read as
that tree just if no condition with blanks is negated. -/
lemma read_print_iff_tight (h : read .vhdl m s = .ok e) (hnames : e.NamesApart)
    (hspaced : WellSpaced s) : read .vhdl m (e.print .vhdl) = .ok e ↔ e.Tight .vhdl := by
  obtain ⟨row, hsimilar, hs, hprint⟩ := exists_similar_rows h hnames hspaced
  rw [hs, Reading.ofOption_eq_ok] at h
  rw [hprint, Reading.ofOption_eq_ok]
  exact ⟨fun h' => (returns_read _ hsimilar h').1, fun htight => carries_read _ hsimilar htight h⟩

/-- The canonical text of a tight tree that was read from a text with blanks around connectives is
read as that tree. -/
theorem read_print_of_tight (h : read .vhdl m s = .ok e) (hnames : e.NamesApart)
    (hspaced : WellSpaced s) (htight : e.Tight .vhdl) :
    read .vhdl m (e.print .vhdl) = .ok e :=
  (read_print_iff_tight h hnames hspaced).mpr htight

theorem read_print_of_tight_group :
    read .vhdl 5 "!( a='1' ) ^ b = '1'".toList = .ok (negation (binary .and
        (group (predicate (.isSet ['a']))) (predicate (.isSet ['b'])))) ∧
      read .vhdl 5 "!(a = '1') ^ b = '1'".toList = .ok (negation (binary .and
        (group (predicate (.isSet ['a']))) (predicate (.isSet ['b'])))) := by
  have h : read .vhdl 5 "!( a='1' ) ^ b = '1'".toList = .ok (negation (binary .and
      (group (predicate (.isSet ['a']))) (predicate (.isSet ['b'])))) := by decide +kernel
  refine ⟨h, read_print_of_tight h (by decide) (wellSpaced_of_apart (by decide)) ?_⟩
  intro p hp
  simp [subexpressions] at hp

/-- If the canonical text of a tree that was read from a text with blanks around connectives is
read, it is read as that tree just if no condition with blanks is negated. -/
theorem eq_of_read_print_iff (h : read .vhdl m s = .ok e) (hnames : e.NamesApart)
    (hspaced : WellSpaced s) (h' : read .vhdl m (e.print .vhdl) = .ok e') :
    e' = e ↔ e.Tight .vhdl := by
  rw [← read_print_iff_tight h hnames hspaced, h']
  exact ⟨congrArg Except.ok, Except.ok.inj⟩

theorem eq_of_read_print_iff_arrow :
    ∃ e', read .vhdl 5 (print .vhdl (binary .and (binary .implies (predicate (.isSet ['q']))
        (negation (predicate (.isSet ['p'])))) (predicate (.isSet ['r'])))) = .ok e' ∧
      e' ≠ binary .and (binary .implies (predicate (.isSet ['q']))
        (negation (predicate (.isSet ['p'])))) (predicate (.isSet ['r'])) := by
  have h : read .vhdl 5 "q = '1' -> !p='1' ^ r = '1'".toList = .ok (binary .and
      (binary .implies (predicate (.isSet ['q'])) (negation (predicate (.isSet ['p']))))
      (predicate (.isSet ['r']))) := by decide +kernel
  have h' : read .vhdl 5 "q = '1' -> !p = '1' ^ r = '1'".toList = .ok (binary .implies
      (predicate (.isSet ['q'])) (negation (binary .and (predicate (.isSet ['p']))
      (predicate (.isSet ['r']))))) := by decide +kernel
  refine ⟨_, h', fun heq => ?_⟩
  have htight := (eq_of_read_print_iff h (by decide) (wellSpaced_of_apart (by decide)) h').mp heq
  exact absurd (htight (.isSet ['p']) (by simp [subexpressions])) (by decide)

/-- A connective set tight behind a bracket is found by the rule of the group, the same connective
between blanks by the rule that splits first: the tree changes. -/
theorem read_print_ne_of_tight_connective :
    ∃ e e', read .vhdl 20 "a = '1' -> (b = '1')^ c = '1'".toList = .ok e ∧
      read .vhdl 20 (e.print .vhdl) = .ok e' ∧ e' ≠ e :=
  ⟨binary .implies (predicate (.isSet ['a']))
      (binary .and (group (predicate (.isSet ['b']))) (predicate (.isSet ['c']))),
    binary .and (binary .implies (predicate (.isSet ['a'])) (group (predicate (.isSet ['b']))))
      (predicate (.isSet ['c'])),
    by decide +kernel, by decide +kernel, by decide⟩

/-- The canonical text of a tree that was read from a text with blanks around connectives is read
if no condition with blanks is negated. -/
theorem exists_read_print (h : read .vhdl m s = .ok e) (hnames : e.NamesApart)
    (hspaced : WellSpaced s) (htight : e.Tight .vhdl) :
    ∃ e', read .vhdl m (e.print .vhdl) = .ok e' :=
  ⟨e, (read_print_iff_tight h hnames hspaced).mpr htight⟩

theorem exists_read_print_until :
    ∃ e', read .vhdl 3 (print .vhdl (.until .all .weak (predicate (.isSet ['a']))
      (predicate (.isSet ['b'])))) = .ok e' := by
  have h : read .vhdl 3 "A a='1' W b='1'".toList = .ok (.until .all .weak
      (predicate (.isSet ['a'])) (predicate (.isSet ['b']))) := by decide +kernel
  refine exists_read_print h (by decide) (wellSpaced_of_apart (by decide)) ?_
  intro p hp
  simp [subexpressions] at hp

/-- The canonical text of a negation has the blanks of its condition, and with blanks it is no
negation of a condition. -/
theorem not_read_print_of_negation :
    ∃ e, read .vhdl 20 "!a='1'".toList = .ok e ∧ ∀ e', read .vhdl 20 (e.print .vhdl) ≠ .ok e' := by
  have h : read .vhdl 20 "!a = '1'".toList = .malformed := by decide +kernel
  refine ⟨negation (predicate (.isSet ['a'])), by decide +kernel, fun e' he' => ?_⟩
  have hprint : (negation (predicate (.isSet ['a']))).print .vhdl = "!a = '1'".toList := by decide
  rw [hprint, h] at he'
  exact absurd he' (Reading.malformed_ne_ok e')

/-- A text and the canonical text of the tree that it is read as differ in layout only. -/
theorem normal_eq_normal_print (h : read .vhdl m s = .ok e) : normal s = normal (e.print .vhdl) :=
  Takes.normal_print (takes_readLevels (levels m)) Vhdl.condenses h

theorem normal_eq_normal_print_bounded :
    ∃ e, read .vhdl 5 "\x7b Go = 'A'  AND x='0' \x7d _ \x7b t < 007 us \x7d".toList = .ok e ∧
      e.print .vhdl = "\x7bGo = 'A' and x = '0'\x7d_\x7bt < 7 us\x7d".toList ∧
      normal "\x7b Go = 'A'  AND x='0' \x7d _ \x7b t < 007 us \x7d".toList = normal (e.print .vhdl) := by
  have h : read .vhdl 5 "\x7b Go = 'A'  AND x='0' \x7d _ \x7b t < 007 us \x7d".toList = .ok (bounded
      (predicate (.ofBinary .logical Vhdl.BinaryOperator.and.word
        (.ofBinary .comparison ['='] (.name ['G', 'o']) (.ofBit ['A']))
        (.ofBinary .comparison ['='] (.name ['x']) (.ofBit ['0']))))
      ⟨.lt, ⟨7, ⟨.time, .micro⟩⟩⟩ []) := by decide +kernel
  exact ⟨_, h, by decide +kernel, normal_eq_normal_print h⟩

/-- The canonical text of a tree that respects precedence is read as the tree just with the depths
from its need on. -/
theorem WellFormed.read_print_iff (h : e.WellFormed .vhdl Vhdl.Node.Clean) (m : Int) :
    read .vhdl m (e.print .vhdl) = .ok e ↔ e.need ≤ m := by
  have hclean : ∀ p : Vhdl.Node, p.Clean → PredicateText .vhdl p (Embedding.vhdl.print p) :=
    fun p hp => Vhdl.predicateText hp.read_print (Vhdl.read_print hp.read_print).2 hp.not_paren
      hp.names
  refine (h.readLevels_print Vhdl.keepsGroups hclean (levels m)).trans ?_
  unfold levels
  omega

theorem WellFormed.read_print_iff_quantified :
    read .vhdl 4 "a = '1' -> A G b = '1'".toList = .ok (binary .implies (predicate (.isSet ['a']))
        (along .all .globally (predicate (.isSet ['b'])))) ∧
      read .vhdl 3 "a = '1' -> A G b = '1'".toList ≠ .ok (binary .implies (predicate (.isSet ['a']))
        (along .all .globally (predicate (.isSet ['b'])))) := by
  have hclean : ∀ {x : Text}, Embedding.vhdl.read (Vhdl.Node.isSet x).print = some (.isSet x) →
      x ∉ operatorNames → (Vhdl.Node.isSet x).Clean := fun hread hx =>
    ⟨hread, by simp [Vhdl.Node.isSet, Vhdl.Node.ofBinary],
      by simpa [Vhdl.Node.isSet, Vhdl.Node.ofBinary, Vhdl.Node.ofBit, Vhdl.Node.names] using hx⟩
  have ha : (Vhdl.Node.isSet ['a']).Clean := hclean (by decide +kernel) (by decide)
  have hb : (Vhdl.Node.isSet ['b']).Clean := hclean (by decide +kernel) (by decide)
  have hwellFormed : (binary .implies (predicate (.isSet ['a']))
      (along .all .globally (predicate (.isSet ['b'])))).WellFormed .vhdl Vhdl.Node.Clean :=
    ⟨ha, hb, by unfold Unbracketed; decide, fun _ => rfl⟩
  exact ⟨(hwellFormed.read_print_iff 4).mpr (by decide),
    fun h => absurd ((hwellFormed.read_print_iff 3).mp h) (by decide)⟩

end Expr

end TimedReq
