import TimedReq.Proofs.Expr.RoundTrip
import TimedReq.Proofs.Expr.Sections

/-!
# Reading with more levels

What is read is also read with more levels, though perhaps as another tree, since a split that
failed may succeed. No tree becomes a predicate by that, so a negation is not refused, and a split
that still fails is malformed and no numeral in it is too long, so the next rule is tried as before.
-/

namespace TimedReq

open Text

variable {α : Type} {L : Embedding α}

/-- A tree is read, and it is no predicate unless `e` is one. -/
def Reading.Matches (r : Reading (Expr α)) (e : Expr α) : Prop :=
  ∃ e', r = .ok e' ∧ (e'.isPredicate = true → e.isPredicate = true)

/-- What the first reader reads the second reads as well. -/
def CoveredBy (f g : Text → Reading (Expr α)) : Prop :=
  ∀ {s : Text} {e : Expr α}, f s = .ok e → (g s).Matches e

lemma Reading.Matches.of_ok {r : Reading (Expr α)} {e : Expr α} (e' : Expr α) (h : r = .ok e')
    (he : e'.isPredicate = false) : r.Matches e :=
  ⟨e', h, fun hp => by simp [he] at hp⟩

/-- The beginning of a text alone chooses the rule, whatever the readers of its parts. -/
lemma rule_cases (L : Embedding α) (s : Text) :
    (∀ one two three, Expr.rule L one two three s = .malformed) ∨
    (∃ t, ∀ one two three, Expr.rule L one two three s = Expr.negationRule two t) ∨
    (∃ t, ∀ one two three, Expr.rule L one two three s = Expr.boundedRule three t) ∨
    (∃ t, ∀ one two three, Expr.rule L one two three s = Expr.groupRule L two three t) ∨
    (∀ one two three, Expr.rule L one two three s = Expr.ofBranch <$> BranchExpr.rule three (trim s)) ∨
    ∀ one two three, Expr.rule L one two three s =
      (Expr.logicalRule two (trim s)).orElse fun _ => Expr.implicationRule L one (trim s) := by
  unfold Expr.rule
  generalize trim s = t
  cases t with
  | nil => exact .inl fun _ _ _ => rfl
  | cons c t =>
    by_cases hneg : c = '!'
    · subst hneg
      exact .inr (.inl ⟨t, fun _ _ _ => rfl⟩)
    by_cases hbrace : c = '{'
    · subst hbrace
      exact .inr (.inr (.inl ⟨_, fun _ _ _ => rfl⟩))
    by_cases hgroup : c = '('
    · subst hgroup
      exact .inr (.inr (.inr (.inl ⟨_, fun _ _ _ => rfl⟩)))
    refine .inr (.inr (.inr (.inr ?_)))
    cases hbranch : (leadingSymbol? Branch.ofChar? (c :: t)).isSome with
    | true =>
      refine .inl fun one two three => ?_
      simp [hneg, hbrace, hgroup, hbranch]
    | false =>
      refine .inr fun one two three => ?_
      simp [hneg, hbrace, hgroup, hbranch]

namespace CoveredBy

variable {one two three one' two' three' : Text → Reading (Expr α)} {s : Text} {e : Expr α}

lemma negationRule (htwo : CoveredBy two two') (h : Expr.negationRule two s = .ok e) :
    (Expr.negationRule two' s).Matches e := by
  unfold Expr.negationRule at h
  obtain ⟨body, hbody, h⟩ := Reading.bind_eq_ok.mp h
  split at h
  · exact absurd h (Reading.malformed_ne_ok e)
  · rename_i hnot
    obtain ⟨body', hbody', hpredicate⟩ := htwo hbody
    refine .of_ok (.negation body') (Reading.bind_eq_ok.mpr ⟨body', hbody', ?_⟩) rfl
    rw [if_neg]
    · rfl
    · intro hboth
      rw [Bool.and_eq_true] at hnot hboth
      exact hnot ⟨hpredicate hboth.1, hboth.2⟩

lemma groupRule (htwo : CoveredBy two two') (hthree : CoveredBy three three')
    (h : Expr.groupRule L two three s = .ok e) : (Expr.groupRule L two' three' s).Matches e := by
  unfold Expr.groupRule at h ⊢
  split at h
  · obtain ⟨body, hbody, -⟩ := Reading.bind_eq_ok.mp h
    obtain ⟨body', hbody', -⟩ := htwo hbody
    exact .of_ok (.group body') (Reading.bind_eq_ok.mpr ⟨body', hbody', rfl⟩) rfl
  · split at h
    · rename_i c right _
      obtain ⟨lhs, hlhs, h⟩ := Reading.bind_eq_ok.mp h
      obtain ⟨rhs, hrhs, -⟩ := Reading.bind_eq_ok.mp h
      obtain ⟨lhs', hlhs', -⟩ := htwo hlhs
      obtain ⟨rhs', hrhs', -⟩ := hthree hrhs
      exact .of_ok (.binary c (.group lhs') rhs') (Reading.bind_eq_ok.mpr
        ⟨lhs', hlhs', Reading.bind_eq_ok.mpr ⟨rhs', hrhs', rfl⟩⟩) rfl
    · exact ⟨e, h, id⟩
  · exact absurd h (Reading.malformed_ne_ok e)

lemma boundedRule (hthree : CoveredBy three three') (h : Expr.boundedRule three s = .ok e) :
    (Expr.boundedRule three' s).Matches e := by
  unfold Expr.boundedRule at h ⊢
  split at h
  · rename_i whole remaining hsplit
    obtain ⟨inner, x, y, t, rest, -, -, -, -, -, -, hrule⟩ := eq_of_split? (α := α) hsplit
    simp only [hrule] at h ⊢
    obtain ⟨b, hb, h⟩ := Reading.bind_eq_ok.mp h
    obtain ⟨hbody, hsts⟩ := BoundedExpr.ofParts_eq_ok.mp hb
    obtain ⟨body', hbody', -⟩ := hthree hbody
    have hb' := BoundedExpr.ofParts_eq_ok (b := ⟨body', b.first, b.more⟩) |>.mpr ⟨hbody', hsts⟩
    split at h
    · rename_i hnil
      refine .of_ok (.bounded body' b.first b.more) (Reading.bind_eq_ok.mpr ⟨_, hb', ?_⟩) rfl
      rw [if_pos hnil]
      rfl
    · rename_i hne
      split at h
      · rename_i c right _
        obtain ⟨rhs, hrhs, -⟩ := Reading.bind_eq_ok.mp h
        obtain ⟨rhs', hrhs', -⟩ := hthree hrhs
        refine .of_ok (.binary c (.bounded body' b.first b.more) rhs')
          (Reading.bind_eq_ok.mpr ⟨_, hb', ?_⟩) rfl
        rw [if_neg hne]
        exact Reading.bind_eq_ok.mpr ⟨rhs', hrhs', rfl⟩
      · exact absurd h (Reading.malformed_ne_ok e)
  · exact absurd h (Reading.malformed_ne_ok e)

lemma pathRule (hthree : CoveredBy three three') {path : PathExpr α}
    (h : PathExpr.rule three s = .ok path) : ∃ path', PathExpr.rule three' s = .ok path' := by
  unfold PathExpr.rule at h ⊢
  simp only at h ⊢
  split at h
  · rename_i m rest _
    obtain ⟨body, hbody, -⟩ := Reading.bind_eq_ok.mp h
    obtain ⟨body', hbody', -⟩ := hthree hbody
    exact ⟨.along m body', Reading.bind_eq_ok.mpr ⟨body', hbody', rfl⟩⟩
  · split at h
    · rename_i left u right _
      obtain ⟨lhs, hlhs, h⟩ := Reading.bind_eq_ok.mp h
      obtain ⟨rhs, hrhs, -⟩ := Reading.bind_eq_ok.mp h
      obtain ⟨lhs', hlhs', -⟩ := hthree hlhs
      obtain ⟨rhs', hrhs', -⟩ := hthree hrhs
      exact ⟨.until u lhs' rhs', Reading.bind_eq_ok.mpr ⟨lhs', hlhs',
        Reading.bind_eq_ok.mpr ⟨rhs', hrhs', rfl⟩⟩⟩
    · exact absurd h (Reading.malformed_ne_ok path)

lemma branchRule (hthree : CoveredBy three three')
    (h : Expr.ofBranch <$> BranchExpr.rule three s = .ok e) :
    (Expr.ofBranch <$> BranchExpr.rule three' s).Matches e := by
  obtain ⟨x, hx, -⟩ := Reading.map_eq_ok.mp h
  unfold BranchExpr.rule at hx ⊢
  split at hx
  · rename_i b rest _
    obtain ⟨path, hpath, -⟩ := Reading.bind_eq_ok.mp hx
    obtain ⟨path', hpath'⟩ := hthree.pathRule hpath
    refine .of_ok (Expr.ofBranch ⟨b, path'⟩) (Reading.map_eq_ok.mpr
      ⟨_, Reading.bind_eq_ok.mpr ⟨path', hpath', rfl⟩, rfl⟩) ?_
    cases path' <;> rfl
  · exact absurd hx (Reading.malformed_ne_ok x)

lemma logicalRule (htwo : CoveredBy two two') (h : Expr.logicalRule two s = .ok e) :
    (Expr.logicalRule two' s).Matches e := by
  unfold Expr.logicalRule at h ⊢
  split at h
  · rename_i left c right _
    obtain ⟨lhs, hlhs, h⟩ := Reading.bind_eq_ok.mp h
    obtain ⟨rhs, hrhs, -⟩ := Reading.bind_eq_ok.mp h
    obtain ⟨lhs', hlhs', -⟩ := htwo hlhs
    obtain ⟨rhs', hrhs', -⟩ := htwo hrhs
    exact .of_ok (.binary c lhs' rhs') (Reading.bind_eq_ok.mpr ⟨lhs', hlhs',
      Reading.bind_eq_ok.mpr ⟨rhs', hrhs', rfl⟩⟩) rfl
  · exact absurd h (Reading.malformed_ne_ok e)

lemma implicationRule (hone : CoveredBy one one') (h : Expr.implicationRule L one s = .ok e) :
    (Expr.implicationRule L one' s).Matches e := by
  unfold Expr.implicationRule at h ⊢
  split at h
  · rename_i left right _
    split at h
    · exact absurd h (Reading.malformed_ne_ok e)
    · rename_i hne
      obtain ⟨lhs, hlhs, h⟩ := Reading.bind_eq_ok.mp h
      obtain ⟨rhs, hrhs, -⟩ := Reading.bind_eq_ok.mp h
      obtain ⟨lhs', hlhs', -⟩ := hone hlhs
      obtain ⟨rhs', hrhs', -⟩ := hone hrhs
      refine .of_ok (.binary .implies lhs' rhs') ?_ rfl
      rw [if_neg hne]
      exact Reading.bind_eq_ok.mpr ⟨lhs', hlhs', Reading.bind_eq_ok.mpr ⟨rhs', hrhs', rfl⟩⟩
  · exact ⟨e, h, id⟩

/-- A split that yields a tree for the second reader yields no predicate; one that does not leaves
the text to the next rule. -/
lemma orElse (hone : CoveredBy one one') (htwo : CoveredBy two two')
    (hshort : (Expr.logicalRule two' s).Short)
    (h : ((Expr.logicalRule two s).orElse fun _ => Expr.implicationRule L one s) = .ok e) :
    ((Expr.logicalRule two' s).orElse fun _ => Expr.implicationRule L one' s).Matches e := by
  obtain h | ⟨-, h⟩ := Reading.orElse_eq_ok.mp h
  · obtain ⟨e', he', hpredicate⟩ := htwo.logicalRule h
    exact ⟨e', Reading.orElse_eq_ok.mpr (.inl he'), hpredicate⟩
  · by_cases hex : ∃ e', Expr.logicalRule two' s = .ok e'
    · obtain ⟨e', he'⟩ := hex
      refine .of_ok e' (Reading.orElse_eq_ok.mpr (.inl he')) ?_
      unfold Expr.logicalRule at he'
      split at he'
      · obtain ⟨lhs, -, he'⟩ := Reading.bind_eq_ok.mp he'
        obtain ⟨rhs, -, he'⟩ := Reading.bind_eq_ok.mp he'
        obtain rfl := Except.ok.inj he'
        rfl
      · exact absurd he' (Reading.malformed_ne_ok e')
    · push Not at hex
      obtain ⟨e', he', hpredicate⟩ := hone.implicationRule h
      exact ⟨e', Reading.orElse_eq_ok.mpr (.inr ⟨hshort.eq_malformed hex, he'⟩), hpredicate⟩

lemma rule (hone : CoveredBy one one') (htwo : CoveredBy two two') (hthree : CoveredBy three three')
    (hshort : (Expr.logicalRule two' (trim s)).Short) (h : Expr.rule L one two three s = .ok e) :
    (Expr.rule L one' two' three' s).Matches e := by
  obtain hrule | ⟨t, hrule⟩ | ⟨t, hrule⟩ | ⟨t, hrule⟩ | hrule | hrule := rule_cases L s
  · rw [hrule] at h
    exact absurd h (Reading.malformed_ne_ok e)
  all_goals rw [hrule] at h ⊢
  · exact htwo.negationRule h
  · exact hthree.boundedRule h
  · exact htwo.groupRule hthree h
  · exact hthree.branchRule h
  · exact hone.orElse htwo hshort h

end CoveredBy

/-- With more levels all is read that is read. -/
theorem readLevels_coveredBy (hL : L.Unbraced) {m n : Nat} (h : m ≤ n) :
    CoveredBy (Expr.readLevels L m) (Expr.readLevels L n) := by
  induction m using Nat.strongRecOn generalizing n with
  | ind m ih =>
    intro s e he
    cases m with
    | zero =>
      rw [Expr.readLevels] at he
      exact absurd he (Reading.malformed_ne_ok e)
    | succ m =>
      obtain ⟨n, rfl⟩ : ∃ k, n = k + 1 := ⟨n - 1, by omega⟩
      have hsections := ((takes_readLevels (m + 1) he).sectioned hL).goodSections
      have hspares : Spares (Expr.readLevels L (n - 1)) := spares_readLevels (n - 1)
      have hshort := hspares.logicalRule (hsections.of_infix (marked_trim s))
      rw [Expr.readLevels] at he ⊢
      exact CoveredBy.rule (ih m (by omega) (by omega)) (ih (m - 1) (by omega) (by omega))
        (ih (m - 2) (by omega) (by omega)) hshort he

namespace Expr

variable {m m' : Int} {s : Text} {e : Expr Vhdl.Node}

/-- A text that is read is also read with every greater depth. -/
theorem exists_read_of_le (hm : m ≤ m') (h : read .vhdl m s = .ok e) :
    ∃ e', read .vhdl m' s = .ok e' := by
  have hlevels : levels m ≤ levels m' := by
    unfold levels
    omega
  obtain ⟨e', he', -⟩ := readLevels_coveredBy Vhdl.condenses.toUnbraced hlevels h
  exact ⟨e', he'⟩

theorem exists_read_of_le_arrow :
    ∃ e', read .vhdl 5 "p = '1' -> (q = '1') ^ r = '1'".toList = .ok e' := by
  have h : read .vhdl 4 "p = '1' -> (q = '1') ^ r = '1'".toList = .ok (binary .implies
      (predicate (.isSet ['p'])) (binary .and (group (predicate (.isSet ['q'])))
      (predicate (.isSet ['r'])))) := by decide +kernel
  exact exists_read_of_le (by decide) h

end Expr

end TimedReq
