import TimedReq.Proofs.Document.Comment
import TimedReq.Proofs.Text.Pieces

/-!
# Blocks as runs of lines

The blocks of lines are the maximal runs of lines that are not blank. So blank lines count neither
at the ends nor beside each other, and a block is made up of what is left of lines.
-/

namespace TimedReq.Blocks

open Text

/-- The maximal runs of lines that are not empty. -/
def runs (ls : List Text) : List (List Text) :=
  (ls.splitOnP List.isEmpty).filter fun run => !run.isEmpty

/-- An empty line separates runs. -/
theorem runs_append_cons (xs ys : List Text) : runs (xs ++ [] :: ys) = runs xs ++ runs ys := by
  unfold runs
  rw [List.splitOnP_append_cons xs ys rfl, List.filter_append]

lemma runs_of_not_mem {xs : List Text} (h : [] ∉ xs) (hne : xs ≠ []) : runs xs = [xs] := by
  unfold runs
  rw [List.splitOnP_eq_singleton, List.filter_cons_of_pos (by simpa using hne), List.filter_nil]
  intro x hx
  rw [Bool.eq_false_iff]
  rintro hnil
  obtain rfl := List.isEmpty_iff.mp hnil
  exact h hx

lemma runs_nil : runs [] = [] := by
  simp [runs]

lemma runs_cons_nil (ys : List Text) : runs ([] :: ys) = runs ys := by
  have h := runs_append_cons [] ys
  rwa [runs_nil, List.nil_append, List.nil_append] at h

lemma runs_concat_nil (xs : List Text) : runs (xs ++ [[]]) = runs xs := by
  rw [runs_append_cons, runs_nil, List.append_nil]

lemma runs_append_replicate (xs : List Text) (k : Nat) :
    runs (xs ++ List.replicate k []) = runs xs := by
  induction k with
  | zero => rw [List.replicate_zero, List.append_nil]
  | succ k ih => rw [List.replicate_succ', ← List.append_assoc, runs_concat_nil, ih]

/-- Lines are a run, or a run, an empty line and lines. -/
lemma runs_induction {motive : List Text → Prop} (run : ∀ xs, [] ∉ xs → motive xs)
    (cut : ∀ xs ys, [] ∉ xs → motive ys → motive (xs ++ [] :: ys)) (ls : List Text) :
    motive ls := by
  induction hn : ls.length using Nat.strongRecOn generalizing ls with
  | ind n ih =>
    by_cases hnil : [] ∈ ls
    · obtain ⟨xs, ys, rfl, hxs⟩ := List.eq_append_cons_of_mem hnil
      rw [List.length_append, List.length_cons] at hn
      exact cut xs ys hxs (ih ys.length (by omega) ys rfl)
    · exact run ls hnil

/-- The lines of a run are lines, and none of them is empty. -/
lemma mem_of_mem_runs {ls run : List Text} (h : run ∈ runs ls) :
    run ≠ [] ∧ [] ∉ run ∧ ∀ l ∈ run, l ∈ ls := by
  have hone : ∀ {xs run : List Text}, [] ∉ xs → run ∈ runs xs → run ≠ [] ∧ run = xs := by
    intro xs run hxs hrun
    by_cases hne : xs = []
    · rw [hne, runs_nil] at hrun
      simp at hrun
    · rw [runs_of_not_mem hxs hne, List.mem_singleton] at hrun
      exact ⟨hrun ▸ hne, hrun⟩
  induction ls using runs_induction with
  | run xs hxs =>
    obtain ⟨hne, rfl⟩ := hone hxs h
    exact ⟨hne, hxs, fun l hl => hl⟩
  | cut xs ys hxs ih =>
    rw [runs_append_cons, List.mem_append] at h
    rcases h with h | h
    · obtain ⟨hne, rfl⟩ := hone hxs h
      exact ⟨hne, hxs, fun l hl => List.mem_append_left _ hl⟩
    · obtain ⟨hne, hrun, hmem⟩ := ih h
      exact ⟨hne, hrun, fun l hl => by simp [hmem l hl]⟩

/-! ## Blocks of a text -/

/-- The trimmed pieces of a text between blank lines, but for blank ones. -/
def ofText (s : Text) : List Text := ((splitOn ['\n', '\n'] s).map trim).filter (!·.isEmpty)

lemma ofLines_eq_ofText (ls : List Text) :
    ofLines ls = ofText (trim (join ['\n'] (ls.map trim))) := rfl

lemma ofText_nil : ofText [] = [] := by
  simp [ofText, splitOn, trim_of_allBlank .nil]

lemma ofText_separator (s : Text) : ofText ('\n' :: '\n' :: s) = ofText s := by
  have hcut := splitOn_separator '\n' ['\n'] s
  rw [List.singleton_append] at hcut
  unfold ofText
  rw [hcut]
  rfl

/-- Blanks in front of a text do not count for its blocks. -/
lemma ofText_cons {c : Char} (hc : isBlank c = true) (s : Text) : ofText (c :: s) = ofText s := by
  induction hn : s.length using Nat.strongRecOn generalizing c s with
  | ind n ih =>
    by_cases hprefix : ['\n', '\n'].isPrefixOf (c :: s) = true
    · obtain ⟨r, hr⟩ := List.isPrefixOf_iff_prefix.mp hprefix
      obtain ⟨rfl, rfl⟩ := List.cons.inj hr
      have hlen : r.length < n := by
        rw [← hn]
        simp
      exact (ofText_separator r).trans (ih r.length hlen (c := '\n') rfl r rfl).symm
    · obtain ⟨v, vs, hs⟩ : ∃ v vs, splitOn ['\n', '\n'] s = v :: vs := by
        refine List.exists_cons_of_ne_nil ?_
        fun_cases splitOn ['\n', '\n'] s <;> simp
      have hpad : trim (c :: v) = trim v := trim_append_left (u := [c]) (.cons hc .nil) v
      unfold ofText
      rw [splitOn_cons (Bool.eq_false_iff.mpr hprefix) hs, hs, List.map_cons, List.map_cons, hpad]

lemma ofText_append_left {u : Text} (hu : AllBlank u) (s : Text) : ofText (u ++ s) = ofText s := by
  induction u with
  | nil => rfl
  | cons c u ih => exact (ofText_cons hu.of_cons.1 (u ++ s)).trans (ih hu.of_cons.2)

lemma ofText_trimEnd (s : Text) : ofText (trimEnd s) = ofText (trim s) := by
  obtain ⟨u, v, hu, hv, hs⟩ := exists_trim s
  by_cases hnil : trim s = []
  · rw [hnil, trimEnd_of_allBlank (allBlank_of_trim_eq_nil hnil)]
  · have hlast : trimEnd (trim s) = trim s := trimEnd_of_trim_eq (trim_trim s)
    have hend : trimEnd s = u ++ trim s := by
      conv_lhs => rw [hs]
      rw [trimEnd_append hv, trimEnd_append_of_ne u (by rwa [hlast]), hlast]
    rw [hend, ofText_append_left hu]

/-- No separator stands in a run of lines, so the run is in one piece with what follows it up to the
next separator. -/
lemma splitOn_join {xs : List Text} (hne : xs ≠ []) (hnil : [] ∉ xs) (hxs : ∀ x ∈ xs, '\n' ∉ x)
    {s : Text} {vs : List Text} (hs : splitOn ['\n', '\n'] s = [] :: vs) :
    splitOn ['\n', '\n'] (join ['\n'] xs ++ s) = join ['\n'] xs :: vs := by
  have hfree : ∀ x ∈ xs, ∀ c ∈ x, c ≠ '\n' := by
    rintro x hx c hc rfl
    exact hxs x hx hc
  induction xs with
  | nil => exact absurd rfl hne
  | cons x xs ih =>
    have hx := hfree x List.mem_cons_self
    cases xs with
    | nil =>
      have hcut := splitOn_append hx hs
      rwa [List.append_nil] at hcut
    | cons y ys =>
      have hrest := ih (by simp) (fun h => hnil (List.mem_cons_of_mem x h))
        (fun z hz => hxs z (List.mem_cons_of_mem x hz))
        fun z hz => hfree z (List.mem_cons_of_mem x hz)
      obtain ⟨c, t, rfl⟩ := List.exists_cons_of_ne_nil (l := y) fun h => hnil (by simp [h])
      have hc : c ≠ '\n' := hfree (c :: t) (by simp) c List.mem_cons_self
      obtain ⟨r, hr⟩ : ∃ r, join ['\n'] ((c :: t) :: ys) = c :: r := by
        cases ys with
        | nil => exact ⟨t, rfl⟩
        | cons z zs => exact ⟨_, join_cons_cons ['\n'] (c :: t) z zs⟩
      have hno : ['\n', '\n'].isPrefixOf ('\n' :: (join ['\n'] ((c :: t) :: ys) ++ s)) = false := by
        rw [hr, List.cons_append, List.isPrefixOf_cons_cons, List.isPrefixOf_cons_cons,
          beq_false_of_ne hc.symm, Bool.false_and, Bool.and_false]
      have hcut := splitOn_append hx (splitOn_cons hno hrest)
      rw [join_cons_cons, List.append_assoc, List.append_assoc, List.singleton_append]
      exact hcut

/-- A run of trimmed lines is trimmed. -/
lemma trim_join {xs : List Text} (hne : xs ≠ []) (hnil : [] ∉ xs) (hxs : ∀ x ∈ xs, trim x = x) :
    join ['\n'] xs ≠ [] ∧ trim (join ['\n'] xs) = join ['\n'] xs := by
  have hends : ∀ x ∈ xs, x ≠ [] ∧ (∀ c ∈ x.head?, isBlank c = false) ∧
      ∀ c ∈ x.getLast?, isBlank c = false := by
    intro x hx
    have hx' : x ≠ [] := fun h => hnil (h ▸ hx)
    refine ⟨hx', ?_, ?_⟩
    · intro c hc
      obtain ⟨t, rfl⟩ := List.head?_eq_some_iff.mp hc
      exact not_blank_of_trim_eq_cons (hxs _ hx)
    · intro c hc
      obtain ⟨t, rfl⟩ := List.getLast?_eq_some_iff.mp hc
      exact not_blank_of_trim_eq_append (hxs _ hx)
  have hall : join ['\n'] xs ≠ [] ∧ (∀ c ∈ (join ['\n'] xs).head?, isBlank c = false) ∧
      ∀ c ∈ (join ['\n'] xs).getLast?, isBlank c = false := by
    clear hnil hxs
    induction xs with
    | nil => exact absurd rfl hne
    | cons x xs ih =>
      have hx := hends x List.mem_cons_self
      cases xs with
      | nil => exact hx
      | cons y ys =>
        obtain ⟨hrest, -, hlast⟩ := ih (by simp) fun z hz => hends z (List.mem_cons_of_mem x hz)
        rw [join_cons_cons]
        refine ⟨by simp [hx.1], ?_, ?_⟩
        · rw [List.head?_append_of_ne_nil _ hx.1]
          exact hx.2.1
        · rw [List.getLast?_append_of_ne_nil _ (by simp), List.getLast?_append_of_ne_nil _ hrest]
          exact hlast
  exact ⟨hall.1, trim_eq_self hall.2.1 hall.2.2⟩

/-- The first block of a text that begins with a run is this run. -/
lemma ofText_run {xs : List Text} (hne : xs ≠ []) (hnil : [] ∉ xs)
    (hxs : ∀ x ∈ xs, trim x = x ∧ '\n' ∉ x) {s : Text} {vs : List Text}
    (hs : splitOn ['\n', '\n'] s = [] :: vs) :
    ofText (join ['\n'] xs ++ s) = join ['\n'] xs :: (vs.map trim).filter (!·.isEmpty) := by
  obtain ⟨hjoin, htrim⟩ := trim_join hne hnil fun x hx => (hxs x hx).1
  unfold ofText
  rw [splitOn_join hne hnil (fun x hx => (hxs x hx).2) hs, List.map_cons, htrim,
    List.filter_cons_of_pos (by simpa using hjoin)]

lemma ofText_run_nil {xs : List Text} (hne : xs ≠ []) (hnil : [] ∉ xs)
    (hxs : ∀ x ∈ xs, trim x = x ∧ '\n' ∉ x) : ofText (join ['\n'] xs) = [join ['\n'] xs] := by
  have hcut : splitOn ['\n', '\n'] [] = [[]] := by rw [splitOn]
  have hall := ofText_run hne hnil hxs hcut
  rwa [List.append_nil] at hall

/-- Behind a run, an empty line begins a new block, if there is anything below it. -/
lemma ofText_run_cons {xs ys : List Text} (hne : xs ≠ []) (hnil : [] ∉ xs)
    (hxs : ∀ x ∈ xs, trim x = x ∧ '\n' ∉ x) :
    ofText (trim (join ['\n'] (xs ++ [] :: ys))) =
      join ['\n'] xs :: ofText (trim (join ['\n'] ys)) := by
  obtain ⟨hjoin, htrim⟩ := trim_join hne hnil fun x hx => (hxs x hx).1
  rw [← ofText_trimEnd, join_append hne (by simp), trimEnd_append_of_trim_eq htrim hjoin,
    ← ofText_trimEnd (join ['\n'] ys)]
  by_cases hrest : trimEnd (join ['\n'] ys) = []
  · have hblank : AllBlank (['\n'] ++ join ['\n'] ([] :: ys)) := by
      have hys := allBlank_of_trimEnd_eq_nil hrest
      cases ys with
      | nil => exact .cons rfl .nil
      | cons y ys => exact .cons rfl (.cons rfl hys)
    rw [trimEnd_of_allBlank hblank, List.append_nil, ofText_run_nil hne hnil hxs, hrest, ofText_nil]
  · have hlines : ['\n'] ++ join ['\n'] ([] :: ys) = ['\n', '\n'] ++ join ['\n'] ys := by
      cases ys with
      | nil => exact absurd (trimEnd_of_allBlank .nil) hrest
      | cons y ys => rfl
    have hcut := splitOn_separator '\n' ['\n'] (trimEnd (join ['\n'] ys))
    rw [hlines, trimEnd_append_of_ne ['\n', '\n'] hrest]
    exact ofText_run hne hnil hxs hcut

/-- The blocks of trimmed lines are their runs. -/
lemma ofText_join {ls : List Text} (hls : ∀ l ∈ ls, trim l = l ∧ '\n' ∉ l) :
    ofText (trim (join ['\n'] ls)) = (runs ls).map (join ['\n']) := by
  induction ls using runs_induction with
  | run xs hxs =>
    by_cases hne : xs = []
    · rw [hne, runs_nil, join, trim_of_allBlank .nil, ofText_nil]
      rfl
    · rw [(trim_join hne hxs fun x hx => (hls x hx).1).2, ofText_run_nil hne hxs hls,
        runs_of_not_mem hxs hne]
      rfl
  | cut xs ys hxs ih =>
    have hys := ih fun y hy => hls y (by simp [hy])
    rw [runs_append_cons, List.map_append, ← hys]
    by_cases hne : xs = []
    · subst hne
      rw [runs_nil, List.map_nil, List.nil_append, List.nil_append]
      cases ys with
      | nil => rfl
      | cons y ys => rw [join_cons_cons, List.nil_append, trim_append_left (.cons rfl .nil)]
    · rw [ofText_run_cons hne hxs fun x hx => hls x (by simp [hx]), runs_of_not_mem hxs hne]
      rfl

/-- The blocks of lines are the maximal runs of lines that are not blank. -/
theorem ofLines_eq {ls : List Text} (hls : ∀ l ∈ ls, '\n' ∉ l) :
    ofLines ls = (runs (ls.map trim)).map (join ['\n']) := by
  rw [ofLines_eq_ofText, ofText_join]
  intro t ht
  obtain ⟨l, hl, rfl⟩ := List.mem_map.mp ht
  obtain ⟨u, v, -, -, heq⟩ := exists_trim l
  refine ⟨trim_trim l, fun hmem => hls l hl ?_⟩
  rw [heq]
  simp [hmem]

/-- The blocks below a header are the runs of what is left of the lines. -/
theorem ofBody_eq {ls : List Text} (hls : ∀ l ∈ ls, '\n' ∉ l) :
    ofBody ls = (runs (contents ls)).map (join ['\n']) := by
  refine ofLines_eq fun w hw => ?_
  obtain ⟨l, hl, rfl⟩ := List.mem_map.mp hw
  exact fun hmem => hls l (List.mem_of_mem_filter hl) ((before_isPrefix l).subset hmem)

end TimedReq.Blocks
