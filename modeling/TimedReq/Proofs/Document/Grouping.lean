import TimedReq.Proofs.Document.Runs

/-!
# Blocks, line by line

What the blocks of lines are, told without the text that the lines make up: comments are taken from
each line, and what is left is grouped by the lines that are empty then. The blocks are the groups.
-/

namespace TimedReq.Blocks

open Text

/-- A line is cut in front of its first comment. Two hyphens side by side begin it, and none stand
side by side further left. -/
inductive IsCut : Text → Text → Prop
  | whole {l : Text} (h : Uncommented l) : IsCut l l
  | comment {w t : Text} (h : Uncommented (w ++ ['-'])) : IsCut (w ++ '-' :: '-' :: t) w

/-- What is left of lines without their comments: nothing of a line that is a comment, and the
trimmed part in front of the comment of any other. -/
inductive Stripped : List Text → List Text → Prop
  | nil : Stripped [] []
  | comment {l : Text} {ls ws : List Text} (hl : commentMark <+: trim l) (h : Stripped ls ws) :
    Stripped (l :: ls) ws
  | line {l w : Text} {ls ws : List Text} (hl : ¬commentMark <+: trim l) (hw : IsCut l w)
    (h : Stripped ls ws) : Stripped (l :: ls) (trim w :: ws)

/-- The groups of lines: each of them goes on up to the next empty line or to the end, and lines
between groups are empty. -/
inductive Grouped : List Text → List (List Text) → Prop
  | nil : Grouped [] []
  | blank {ls : List Text} {gs : List (List Text)} (h : Grouped ls gs) : Grouped ([] :: ls) gs
  | last {g : List Text} (hne : g ≠ []) (hg : [] ∉ g) : Grouped g [g]
  | group {g ls : List Text} {gs : List (List Text)} (hne : g ≠ []) (hg : [] ∉ g)
    (h : Grouped ls gs) : Grouped (g ++ [] :: ls) (g :: gs)

lemma Uncommented.of_not_mark {c : Char} {s : Text} (hs : Uncommented s)
    (h : ¬commentMark <+: c :: s) : Uncommented (c :: s) := by
  refine List.isChain_cons.mpr ⟨?_, hs⟩
  rintro d hd rfl rfl
  obtain ⟨t, rfl⟩ := List.head?_eq_some_iff.mp hd
  exact h ⟨t, rfl⟩

lemma isCut_before (l : Text) : IsCut l (before commentMark l) := by
  induction l with
  | nil => exact .whole List.isChain_nil
  | cons c s ih =>
    by_cases hmark : commentMark <+: c :: s
    · obtain ⟨t, ht⟩ := hmark
      rw [before_cons_of_mark ⟨t, ht⟩, ← ht]
      exact .comment (w := []) (List.isChain_singleton '-')
    · rw [before_cons hmark]
      generalize before commentMark s = w at ih
      cases ih with
      | whole h => exact .whole (h.of_not_mark hmark)
      | @comment w t h =>
        refine .comment (w := c :: w) (h.of_not_mark fun hprefix => hmark ?_)
        exact hprefix.trans ⟨'-' :: t, by simp⟩

lemma isCut_iff {l w : Text} : IsCut l w ↔ before commentMark l = w := by
  constructor
  · intro h
    cases h with
    | whole h => exact before_of_uncommented h
    | @comment w t h =>
      obtain ⟨hw, -, hmeet⟩ := List.isChain_append.mp h
      have hlast : w.getLast? ≠ some '-' := fun hlast => hmeet '-' hlast '-' rfl rfl rfl
      have hmark : commentMark <+: '-' :: '-' :: t := ⟨t, rfl⟩
      rw [before_append hw (.inl hlast), before_cons_of_mark hmark, List.append_nil]
  · rintro rfl
    exact isCut_before l

lemma stripped_iff {ls ws : List Text} : Stripped ls ws ↔ contents ls = ws := by
  constructor
  · intro h
    induction h with
    | nil => rfl
    | comment hl _ ih => rw [contents_cons, contents_of_isComment hl, ih, List.nil_append]
    | line hl hw _ ih =>
      rw [contents_cons, contents_of_not_isComment hl, ih, isCut_iff.mp hw, List.singleton_append]
  · rintro rfl
    induction ls with
    | nil => exact .nil
    | cons l ls ih =>
      rw [contents_cons]
      by_cases hl : IsComment l
      · rw [contents_of_isComment hl]
        exact .comment hl ih
      · rw [contents_of_not_isComment hl]
        exact .line hl (isCut_before l) ih

lemma grouped_iff {ls : List Text} {gs : List (List Text)} : Grouped ls gs ↔ runs ls = gs := by
  constructor
  · intro h
    induction h with
    | nil => exact runs_nil
    | blank _ ih => rw [runs_cons_nil, ih]
    | last hne hg => exact runs_of_not_mem hg hne
    | group hne hg _ ih => rw [runs_append_cons, runs_of_not_mem hg hne, ih, List.singleton_append]
  · rintro rfl
    induction ls using runs_induction with
    | run xs hxs =>
      by_cases hne : xs = []
      · rw [hne, runs_nil]
        exact .nil
      · rw [runs_of_not_mem hxs hne]
        exact .last hne hxs
    | cut xs ys hxs ih =>
      by_cases hne : xs = []
      · rw [hne, List.nil_append, runs_cons_nil]
        exact .blank ih
      · rw [runs_append_cons, runs_of_not_mem hxs hne]
        exact .group hne hxs ih

/-- The blocks of lines are the groups of what is left of them without comments, and where an empty
line stands, those of the lines above it are followed by those of the lines below it. -/
theorem ofLines_stripComments {ls : List Text} (hls : ∀ l ∈ ls, '\n' ∉ l) :
    (∀ bs, ofLines (stripComments ls) = bs ↔
      ∃ ws gs, Stripped ls ws ∧ Grouped ws gs ∧ bs = gs.map (join ['\n'])) ∧
    ∀ xs ys, ls = xs ++ [] :: ys →
      ofLines (stripComments ls) = ofLines (stripComments xs) ++ ofLines (stripComments ys) := by
  refine ⟨fun bs => ?_, ?_⟩
  · rw [← ofBody, ofBody_eq hls]
    constructor
    · rintro rfl
      exact ⟨contents ls, runs (contents ls), stripped_iff.mpr rfl, grouped_iff.mpr rfl, rfl⟩
    · rintro ⟨ws, gs, hws, hgs, rfl⟩
      rw [stripped_iff.mp hws, grouped_iff.mp hgs]
  · rintro xs ys rfl
    have hxs : ∀ l ∈ xs, '\n' ∉ l := fun l hl => hls l (List.mem_append_left _ hl)
    have hys : ∀ l ∈ ys, '\n' ∉ l :=
      fun l hl => hls l (List.mem_append_right _ (List.mem_cons_of_mem _ hl))
    have hcontents : contents (xs ++ [] :: ys) = contents xs ++ [] :: contents ys := by
      rw [contents_append, contents_cons [] ys, contents_of_allBlank .nil, List.singleton_append]
    rw [← ofBody, ← ofBody, ← ofBody, ofBody_eq hls, ofBody_eq hxs, ofBody_eq hys, hcontents,
      runs_append_cons, List.map_append]

/-- Lines of two blocks. A comment within the first does not end it, and however many empty lines
stand between the two, nothing is left of them. -/
theorem ofLines_stripComments_three :
    (∀ l ∈ [" a -- x".toList, "\t-- y".toList, "b---".toList, [], [' '], [], "c-d".toList],
        '\n' ∉ l) ∧
      ofLines (stripComments
          [" a -- x".toList, "\t-- y".toList, "b---".toList, [], [' '], [], "c-d".toList]) =
        ["a\nb".toList, "c-d".toList] ∧
      ofLines (stripComments [" a -- x".toList, "\t-- y".toList, "b---".toList]) ++
          ofLines (stripComments [[' '], [], "c-d".toList]) =
        ["a\nb".toList, "c-d".toList] := by
  have hls : ∀ l ∈ [" a -- x".toList, "\t-- y".toList, "b---".toList, [], [' '], [], "c-d".toList],
      '\n' ∉ l := by decide
  have hgroups : Grouped (["a".toList, "b".toList] ++ [] :: [] :: [] :: ["c-d".toList])
      [["a".toList, "b".toList], ["c-d".toList]] :=
    .group (by simp) (by decide) (.blank (.blank (.last (by simp) (by decide))))
  obtain ⟨hblocks, hcut⟩ := ofLines_stripComments hls
  have hall := (hblocks ["a\nb".toList, "c-d".toList]).mpr
    ⟨_, _, stripped_iff.mpr (by decide), hgroups, by decide⟩
  exact ⟨hls, hall, (hcut _ _ rfl).symm.trans hall⟩

end TimedReq.Blocks
