import TimedReq.Proofs.Expr.Delimited
import TimedReq.Proofs.Expr.Sections

/-!
# Expressions in a wider language

A language may be widened without harm if the predicates of the wider one end where operators of
expressions begin: what was read is read as the same tree. A split that was refused before would
otherwise have to lay out predicates that the text does not lay out.
-/

namespace TimedReq

open Text

variable {α : Type} {L L' : Embedding α}

/-- What is read lays out predicates of the language. -/
lemma laid_of_readLevels {n : Nat} {s : Text} {e : Expr α} (h : Expr.readLevels L n s = .ok e) :
    ∃ ws, Lays L (.operand false) s ws := by
  induction n using Nat.strongRecOn generalizing s e with
  | ind n ih =>
    cases n with
    | zero =>
      rw [Expr.readLevels] at h
      exact absurd h (Reading.malformed_ne_ok e)
    | succ n =>
      rw [Expr.readLevels, rule_eq_ok] at h
      obtain ⟨ws, hws, -⟩ := h.laid (trim_trim s) (fun hp => Option.isSome_iff_exists.mpr ⟨_, hp⟩)
        (fun h => ih n (by omega) h) (fun h => ih (n - 1) (by omega) h)
        (fun h => ih (n - 2) (by omega) h)
      exact ⟨ws, hws.of_trim⟩

/-- The second language reads what the first does, and its predicates end where operators begin. -/
structure Loosens (L L' : Embedding α) : Prop where
  le : ∀ {w : Text} {p : α}, L.read w = some p → L'.read w = some p
  delimited : L'.Delimited
  unbraced : L.Unbraced
  unbraced' : L'.Unbraced

namespace Loosens

variable (hL : Loosens L L')

include hL

lemma isSome_read {w : Text} (h : (L.read w).isSome) : (L'.read w).isSome := by
  obtain ⟨p, hp⟩ := Option.isSome_iff_exists.mp h
  exact Option.isSome_iff_exists.mpr ⟨p, hL.le hp⟩

lemma laid {position : Position} {s : Text} {ws : List Text} (h : Lays L position s ws) :
    Lays L' position s ws :=
  h.change fun w hw => hL.isSome_read (h.read w hw)

/-- What is read in the one language is read in the other, provided for the narrower one that the
text lays out predicates of it. -/
structure Same (L : Embedding α) (f f' : Text → Reading (Expr α)) : Prop where
  wider : ∀ {s : Text} {e : Expr α}, f s = .ok e → f' s = .ok e
  narrower : ∀ {s : Text} {e : Expr α} {ws : List Text}, Lays L (.operand false) s ws →
    f' s = .ok e → f s = .ok e

section

variable {n : Nat} (hone : Same L (Expr.readLevels L n) (Expr.readLevels L' n))
  (htwo : Same L (Expr.readLevels L (n - 1)) (Expr.readLevels L' (n - 1)))
  (hthree : Same L (Expr.readLevels L (n - 2)) (Expr.readLevels L' (n - 2)))

include hone htwo hthree

lemma wider_succ {s : Text} {e : Expr α} (h : Expr.readLevels L (n + 1) s = .ok e) :
    Expr.readLevels L' (n + 1) s = .ok e := by
  have hsections := ((takes_readLevels (n + 1) h).sectioned hL.unbraced).goodSections
  have hspares : Spares (Expr.readLevels L' (n - 1)) := spares_readLevels (n - 1)
  have hshort := hspares.logicalRule (hsections.of_infix (marked_trim s))
  rw [Expr.readLevels, rule_eq_ok] at h ⊢
  obtain ⟨ws, hws, -⟩ := h.laid (trim_trim s) (fun hp => Option.isSome_iff_exists.mpr ⟨_, hp⟩)
    laid_of_readLevels laid_of_readLevels laid_of_readLevels
  refine h.mono hL.le hone.wider htwo.wider hthree.wider fun hunsplit => ?_
  -- a split that is read would lay out the same predicates
  refine hshort.eq_malformed fun x hx => ?_
  obtain ⟨left, c, right, lhs, rhs, hcut, hlhs, hrhs, rfl⟩ := Expr.logicalRule_eq_ok.mp hx
  obtain ⟨vs, hvs⟩ := laid_of_readLevels hlhs
  obtain ⟨vs', hvs'⟩ := laid_of_readLevels hrhs
  have hsplit := hvs.split hcut hvs'
  obtain rfl := (hL.laid hws).unique hL.delimited hsplit
  have hread := hws.read
  have hleft := htwo.narrower
    (hvs.change fun w hw => hread w (List.mem_append_left _ hw)) hlhs
  have hright := htwo.narrower
    (hvs'.change fun w hw => hread w (List.mem_append_right _ hw)) hrhs
  have hok := Expr.logicalRule_eq_ok.mpr ⟨left, c, right, lhs, rhs, hcut, hleft, hright, rfl⟩
  rw [hunsplit] at hok
  exact absurd hok (Reading.malformed_ne_ok _)

lemma narrower_succ {s : Text} {e : Expr α} {ws : List Text} (hws : Lays L (.operand false) s ws)
    (h : Expr.readLevels L' (n + 1) s = .ok e) : Expr.readLevels L (n + 1) s = .ok e := by
  have hsections := ((takes_readLevels (n + 1) h).sectioned hL.unbraced').goodSections
  have hspares : Spares (Expr.readLevels L (n - 1)) := spares_readLevels (n - 1)
  have hshort := hspares.logicalRule (hsections.of_infix (marked_trim s))
  rw [Expr.readLevels, rule_eq_ok] at h ⊢
  obtain ⟨vs, hvs, hparts⟩ := h.laid (trim_trim s)
    (fun hp => Option.isSome_iff_exists.mpr ⟨_, hp⟩) laid_of_readLevels laid_of_readLevels
    laid_of_readLevels
  obtain rfl := hvs.of_trim.unique hL.delimited (hL.laid hws)
  have hread := hws.read
  have hpart : ∀ {f f' : Text → Reading (Expr α)}, Same L f f' → ∀ {t : Text} {x : Expr α},
      PartOf L' vs (Reads f') t x → Reads f t x := by
    rintro f f' hf t x ⟨hx, us, hus, hsub⟩
    exact hf.narrower (hus.change fun w hw => hread w (hsub hw)) hx
  refine hparts.mono ?_ (hpart hone) (hpart htwo) (hpart hthree) fun hunsplit => ?_
  · rintro w p ⟨hp, hw⟩
    obtain ⟨q, hq⟩ := Option.isSome_iff_exists.mp (hread w hw)
    have hsame := (hL.le hq).symm.trans hp
    rwa [Embedding.Reads, ← hsame]
  · refine hshort.eq_malformed fun x hx => ?_
    obtain ⟨left, c, right, lhs, rhs, hcut, hlhs, hrhs, rfl⟩ := Expr.logicalRule_eq_ok.mp hx
    have hok := Expr.logicalRule_eq_ok.mpr
      ⟨left, c, right, lhs, rhs, hcut, htwo.wider hlhs, htwo.wider hrhs, rfl⟩
    rw [hunsplit] at hok
    exact absurd hok (Reading.malformed_ne_ok _)

end

/-- With any number of levels, what is read in the narrower language is read in the wider one as the
same tree, and back if the text lays out predicates of the narrower one. -/
theorem same (n : Nat) : Same L (Expr.readLevels L n) (Expr.readLevels L' n) := by
  induction n using Nat.strongRecOn with
  | ind n ih =>
    cases n with
    | zero =>
      have hnone : ∀ {M : Embedding α} {s : Text} {e : Expr α}, Expr.readLevels M 0 s ≠ .ok e := by
        intro M s e h
        rw [Expr.readLevels] at h
        exact Reading.malformed_ne_ok e h
      exact ⟨fun h => absurd h hnone, fun _ h => absurd h hnone⟩
    | succ n =>
      have hone := ih n (by omega)
      have htwo := ih (n - 1) (by omega)
      have hthree := ih (n - 2) (by omega)
      exact ⟨hL.wider_succ hone htwo hthree, hL.narrower_succ hone htwo hthree⟩

end Loosens

end TimedReq
