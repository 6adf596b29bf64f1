import TimedReq.Proofs.Document.Header
import TimedReq.Proofs.Expr.Cases
import TimedReq.Proofs.Vhdl.OneLine

/-!
# Reading printed specifications

A document knows nothing of quotes: its lines and comments are found before its requirements are
read. So a specification is read back just if each of its requirements is and stands on one line
without a comment, which holds of all requirements that come from documents.
-/

namespace TimedReq

open Text Blocks

variable {α : Type} {L : Embedding α} {m : Int}

/-! ## Reading blocks -/

/-- Blocks are read as requirements one by one. -/
lemma Document.readBlocks_eq_ok {i : Nat} {bs : List Text} {rs : List (Expr α)} :
    readBlocks L m i bs = .ok rs ↔ List.Forall₂ (fun b r => Expr.read L m b = .ok r) bs rs := by
  induction bs generalizing i rs with
  | nil => simp [readBlocks, eq_comm]
  | cons b bs ih =>
    simp only [List.forall₂_cons_left_iff, ← ih (i := i + 1)]
    rw [readBlocks]
    cases hb : Expr.read L m b with
    | ok e => cases readBlocks L m (i + 1) bs <;> simp [Functor.map, Except.map, eq_comm]
    | error f => cases f <;> simp

lemma Expr.trim_ne_nil_of_read {s : Text} {e : Expr α} (h : Expr.read L m s = .ok e) :
    trim s ≠ [] := by
  intro hnil
  rw [← Expr.read_trim, hnil] at h
  unfold Expr.read at h
  cases hn : Expr.levels m with
  | zero =>
    rw [hn, Expr.readLevels] at h
    exact absurd h (Reading.malformed_ne_ok e)
  | succ n =>
    rw [hn, Expr.readLevels, Expr.rule, trim_of_allBlank .nil] at h
    exact absurd h (Reading.malformed_ne_ok e)

/-! ## Requirements of documents -/

/-- The blocks of a document hold no comments. -/
lemma Document.tidy_of_split {d : Text} {c : Configuration} {body : List Text}
    (h : split d = .ok (c, body)) : ∀ b ∈ ofBody body, Tidy b := by
  have hbody : ∀ l ∈ body, Unbroken l := by
    intro l hl
    obtain ⟨header, hheader, -⟩ := split_eq_ok.mp h
    obtain ⟨x, hx, rfl⟩ := List.mem_map.mp (Header.subset_of_split? hheader hl)
    exact (unbroken_of_mem_lines hx).trim
  intro b hb
  rw [ofBody_eq fun l hl => (hbody l hl).newline_not_mem] at hb
  obtain ⟨run, hrun, rfl⟩ := List.mem_map.mp hb
  refine Tidy.join fun w hw => ?_
  obtain ⟨-, hw, l, hl, hinfix⟩ := exists_of_mem_contents ((mem_of_mem_runs hrun).2.2 w hw)
  exact ⟨(hbody l hl).mono hinfix.subset, hw⟩

namespace Specification

lemma parse_eq_ok {d : Text} {s : Specification α} :
    parse L m d = .ok s ↔ ∃ body, Document.split d = .ok (s.configuration, body) ∧
      List.Forall₂ (fun b r => Expr.read L m b = .ok r) (ofBody body) s.requirements := by
  obtain ⟨c, rs⟩ := s
  unfold parse
  cases Document.split d with
  | error f => simp
  | ok parts =>
    obtain ⟨c', body⟩ := parts
    simp only [← Document.readBlocks_eq_ok (i := 1)]
    cases hblocks : Document.readBlocks L m 1 (ofBody body) with
    | error e => simp [Functor.map, Except.map, hblocks]
    | ok es => simp [Functor.map, Except.map, hblocks]

/-- A requirement of a document is printed on one line. -/
lemma oneLine_of_parse (hL : L.OneLine) {d : Text} {s : Specification α}
    (h : parse L m d = .ok s) : ∀ r ∈ s.requirements, OneLine (r.print L) := by
  obtain ⟨body, hsplit, hread⟩ := parse_eq_ok.mp h
  have htidy := Document.tidy_of_split hsplit
  generalize ofBody body = bs, s.requirements = rs at hread htidy ⊢
  induction hread with
  | nil => simp
  | @cons b r bs rs hr _ ih =>
    obtain ⟨hb, hbs⟩ := List.forall_mem_cons.mp htidy
    exact List.forall_mem_cons.mpr
      ⟨(takes_readLevels (Expr.levels m) hr).oneLine_print hL hb, ih hbs⟩

end Specification

/-! ## Printed specifications -/

/-- Lines with an empty line between neighbours. Without lines there is an empty one. -/
def Blocks.spread : List Text → List Text
  | [] => [[]]
  | [w] => [w]
  | w :: v :: ws => w :: [] :: spread (v :: ws)

namespace Blocks

lemma spread_ne_nil (ws : List Text) : spread ws ≠ [] := by
  fun_cases spread ws <;> simp

lemma join_spread (ws : List Text) : join ['\n'] (spread ws) = join ['\n', '\n'] ws := by
  fun_induction spread ws with
  | case1 => rfl
  | case2 => rfl
  | case3 w v ws ih =>
    obtain ⟨x, xs, hx⟩ := List.exists_cons_of_ne_nil (spread_ne_nil (v :: ws))
    rw [hx] at ih ⊢
    rw [join_cons_cons, join_cons_cons, join_cons_cons, ih]
    rfl

lemma mem_spread {ws : List Text} {l : Text} (h : l ∈ spread ws) : l = [] ∨ l ∈ ws := by
  fun_induction spread ws with
  | case1 => exact .inl (List.mem_singleton.mp h)
  | case2 => exact .inr h
  | case3 w v ws ih =>
    simp only [List.mem_cons] at h ih ⊢
    rcases h with rfl | rfl | h
    · exact .inr (.inl rfl)
    · exact .inl rfl
    · exact (ih h).imp_right .inr

/-- What is left of lines that are spread are runs of one line each. -/
lemma runs_spread {ws : List Text} (hws : ∀ w ∈ ws, Uncommented w) :
    (runs (contents (spread ws))).map (join ['\n']) = (ws.map trim).filter (!·.isEmpty) := by
  have hone : ∀ {w : Text}, Uncommented w →
      (runs (contents [w])).map (join ['\n']) = [trim w].filter (!·.isEmpty) := by
    intro w hw
    rw [contents_of_uncommented hw]
    by_cases hnil : trim w = []
    · rw [hnil, runs_cons_nil, runs_nil]
      rfl
    · have hmem : [] ∉ [trim w] := fun hmem => hnil (List.mem_singleton.mp hmem).symm
      rw [runs_of_not_mem hmem (by simp), List.filter_cons_of_pos (by simpa using hnil)]
      rfl
  fun_induction spread ws with
  | case1 => exact hone (w := []) (by decide)
  | case2 w => exact hone (hws w List.mem_cons_self)
  | case3 w v ws ih =>
    obtain ⟨hw, hrest⟩ := List.forall_mem_cons.mp hws
    rw [contents_cons, contents_cons [], contents_of_allBlank .nil, List.singleton_append,
      runs_append_cons, List.map_append, hone hw, ih hrest, ← List.filter_append]
    rfl

end Blocks

/-- What a document is divided into in which lines stand below a header with an empty line in front
of each. -/
lemma Document.split_spread (c : Configuration) {ws : List Text} (hws : ∀ w ∈ ws, OneLine w) :
    ∃ body, split (c.print ++ '\n' :: '\n' :: join ['\n', '\n'] ws ++ ['\n']) = .ok (c, body) ∧
      ofBody body = (ws.map trim).filter (!·.isEmpty) := by
  have hc : Header.mark <+: trim c.print ∧ Unbroken c.print ∧ trim c.print = c.print := by
    obtain ⟨l⟩ := c
    cases l
    decide
  have hunbroken : ∀ l ∈ [c.print] ++ [] :: spread ws, Unbroken l := by
    intro l hl
    simp only [List.singleton_append, List.mem_cons] at hl
    rcases hl with rfl | rfl | hl
    · exact hc.2.1
    · decide
    · rcases mem_spread hl with rfl | hl
      · decide
      · exact (hws l hl).unbroken
  have hdivides : Header.Divides [c.print] ([] :: spread ws) :=
    ⟨by simp, by simpa using hc.1, by simp; decide, hunbroken⟩
  have hd : HasLines (c.print ++ '\n' :: '\n' :: join ['\n', '\n'] ws ++ ['\n'])
      ([c.print] ++ [] :: spread ws) := by
    obtain ⟨x, xs, hx⟩ := List.exists_cons_of_ne_nil (spread_ne_nil ws)
    refine ⟨['\n'], by decide, .inr ?_⟩
    rw [List.singleton_append, join_cons_cons, hx, join_cons_cons, ← hx, join_spread]
    rfl
  obtain ⟨body, hsplit, hblocks⟩ := hdivides.split_eq hd
  refine ⟨body, split_eq_ok.mpr ⟨_, hsplit, ?_⟩, ?_⟩
  · rw [List.map_singleton, hc.2.2]
    exact c.parse_print
  · rw [hblocks, contents_cons, contents_of_allBlank .nil, List.singleton_append, runs_cons_nil,
      runs_spread fun w hw => (hws w hw).uncommented]

namespace Specification

/-- A specification whose requirements are printed on one line each is read back if they are. -/
lemma parse_print_iff_of_oneLine {s : Specification α}
    (hs : ∀ r ∈ s.requirements, OneLine (r.print L)) :
    parse L m (s.print L) = .ok s ↔ ∀ r ∈ s.requirements, Expr.read L m (r.print L) = .ok r := by
  obtain ⟨body, hsplit, hblocks⟩ :=
    Document.split_spread s.configuration (List.forall_mem_map.mpr hs)
  have hparse : parse L m (s.print L) = .ok s ↔
      List.Forall₂ (fun b r => Expr.read L m b = .ok r)
        (((s.requirements.map (·.print L)).map trim).filter (!·.isEmpty)) s.requirements := by
    have hprint : Document.split (s.print L) = .ok (s.configuration, body) := hsplit
    rw [parse_eq_ok, hprint, ← hblocks]
    constructor
    · rintro ⟨body', heq, h⟩
      obtain ⟨-, rfl⟩ := Prod.mk.inj (Except.ok.inj heq)
      exact h
    · exact fun h => ⟨body, rfl, h⟩
  have hall : List.Forall₂ (fun b r => Expr.read L m b = .ok r)
        ((s.requirements.map (·.print L)).map trim) s.requirements ↔
      ∀ r ∈ s.requirements, Expr.read L m (r.print L) = .ok r := by
    simp only [List.forall₂_map_left_iff, List.forall₂_same, Expr.read_trim]
  rw [hparse]
  constructor
  · intro h
    -- no requirement is lost, so none is blank
    have hlength : _ = ((s.requirements.map (·.print L)).map trim).length :=
      h.length_eq.trans (by simp)
    rw [List.filter_eq_self.mpr (List.length_filter_eq_length_iff.mp hlength)] at h
    exact hall.mp h
  · intro h
    have hblank : ∀ b ∈ (s.requirements.map (·.print L)).map trim, (!b.isEmpty) = true := by
      simp only [List.forall_mem_map]
      intro r hr
      simpa using Expr.trim_ne_nil_of_read (h r hr)
    rw [List.filter_eq_self.mpr hblank]
    exact hall.mpr h

/-- A document whose requirements are read back is read back itself, and its requirements are
printed on one line each without comments. -/
theorem parse_print_of_parse {d : Text} {s : Specification Vhdl.Node}
    (h : parse .vhdl m d = .ok s) :
    (∀ r ∈ s.requirements, ¬commentMark <:+: r.print .vhdl ∧ Unbroken (r.print .vhdl)) ∧
      ((∀ r ∈ s.requirements, Expr.read .vhdl m (r.print .vhdl) = .ok r) →
        parse .vhdl m (s.print .vhdl) = .ok s) := by
  have hlines := oneLine_of_parse Vhdl.oneLine h
  refine ⟨fun r hr => ?_, (parse_print_iff_of_oneLine hlines).mpr⟩
  exact ⟨uncommented_iff.mp (hlines r hr).uncommented, (hlines r hr).unbroken⟩

theorem parse_print_of_parse_signs :
    let r : Expr Vhdl.Node := .predicate (.ofBinary .comparison ['='] (.name ['a'])
      (.ofUnary ['-'] (.ofUnary ['-'] (.name ['b']))))
    parse .vhdl 5 "// spec:language VHDL\n\na = -\n-b -- twice\n".toList = .ok ⟨⟨.vhdl⟩, [r]⟩ ∧
      r.print .vhdl = "a = - -b".toList ∧
      (¬commentMark <:+: r.print .vhdl ∧ Unbroken (r.print .vhdl)) ∧
      parse .vhdl 5 (print .vhdl ⟨⟨.vhdl⟩, [r]⟩) = .ok ⟨⟨.vhdl⟩, [r]⟩ := by
  intro r
  have h : parse .vhdl 5 "// spec:language VHDL\n\na = -\n-b -- twice\n".toList =
      .ok ⟨⟨.vhdl⟩, [r]⟩ := by decide +kernel
  obtain ⟨hlines, hback⟩ := parse_print_of_parse h
  exact ⟨h, by decide +kernel, hlines r List.mem_cons_self, hback (by decide +kernel)⟩

/-- A specification is read back just if each of its requirements is and is printed on one line
without comments. -/
theorem parse_print_iff {s : Specification Vhdl.Node} :
    parse .vhdl m (s.print .vhdl) = .ok s ↔ ∀ r ∈ s.requirements,
      Expr.read .vhdl m (r.print .vhdl) = .ok r ∧
        ¬commentMark <:+: r.print .vhdl ∧ Unbroken (r.print .vhdl) := by
  constructor
  · intro h r hr
    have hlines := oneLine_of_parse Vhdl.oneLine h
    exact ⟨(parse_print_iff_of_oneLine hlines).mp h r hr,
      uncommented_iff.mp (hlines r hr).uncommented, (hlines r hr).unbroken⟩
  · intro h
    have hlines : ∀ r ∈ s.requirements, OneLine (r.print .vhdl) := fun r hr =>
      ⟨(h r hr).2.2, uncommented_iff.mpr (h r hr).2.1⟩
    exact (parse_print_iff_of_oneLine hlines).mpr fun r hr => (h r hr).1

/-- Two hyphens in a string literal are part of a requirement, but begin a comment in a document. -/
theorem not_parse_print_of_quoted :
    ∃ r, Expr.read .vhdl Expr.defaultDepth "a = \"--\"".toList = .ok r ∧
      Expr.read .vhdl Expr.defaultDepth (r.print .vhdl) = .ok r ∧
      parse .vhdl Expr.defaultDepth (print .vhdl ⟨⟨.vhdl⟩, [r]⟩) ≠ .ok ⟨⟨.vhdl⟩, [r]⟩ :=
  ⟨.predicate (.ofBinary .comparison ['='] (.name ['a']) (.literal .string "\"--\"".toList)),
    by decide +kernel, by decide +kernel, by decide +kernel⟩

end Specification

end TimedReq
