import TimedReq.Proofs.Expr.Loosened
import TimedReq.Proofs.Expr.Respaced
import TimedReq.Proofs.Vhdl.Condensed
import TimedReq.Proofs.Vhdl.Respaced

/-!
# Expressions over conditions with other gaps

Fewer blanks may stand between the tokens of a condition than around operators of expressions. So a
text whose blanks are exchanged is compared with the old one in two steps: what is read over
conditions is also read over conditions with any blanks between their tokens, and those are read like
conditions where the blanks have become gaps.
-/

namespace TimedReq

open Text

namespace Vhdl

/-- Conditions with any blanks between their tokens. -/
def loose : Embedding Node where
  parse s := Embedding.vhdl.read (spaced s)
  print := Node.print

lemma read_trim (s : Text) : Embedding.vhdl.read (trim s) = Embedding.vhdl.read s := by
  unfold Embedding.read
  rw [trim_trim]

lemma loose_read (s : Text) : loose.read s = Embedding.vhdl.read (spaced s) := by
  rw [← read_trim (spaced s), trim_spaced]
  unfold Embedding.read
  split
  · rename_i hnil
    rw [hnil]
    rfl
  · rename_i c t hs
    rw [hs]
    rfl

/-- Spaces are gaps. -/
lemma gappy_spaced (s : Text) : Within gappy (spaced s) := by
  intro m hm hspacing
  rw [marked_spaced] at hm
  obtain ⟨n, -, rfl⟩ := List.mem_map.mp hm
  unfold toSpace at hspacing ⊢
  split
  · exact .inl (.inl rfl)
  · rename_i hn
    rw [if_neg hn] at hspacing
    exact absurd hspacing hn

/-- Where gaps stand for the blanks, conditions are read as they are. -/
lemma agree_loose : Agree gappy loose.read Embedding.vhdl.read := by
  intro s t h ht
  rw [loose_read, read_eq_of_respaced h.spaced (gappy_spaced s) (gappy_spaced t)]
  exact (read_eq_of_respaced (respaced_spaced t) ht (gappy_spaced t)).symm

section

variable {w : Text} {p : Node}

lemma neutral_of_loose (hread : loose.read w = some p) (hw : trim w = w) : Neutral w := by
  rw [loose_read] at hread
  exact (matching_spaced w).symm.neutral
    (condenses.neutral hread (by rw [trim_spaced, hw]))

lemma head_of_read (hread : Embedding.vhdl.read w = some p) (hw : trim w = w) :
    ∀ c ∈ w.head?, c ≠ '!' ∧ c ≠ '{' := by
  obtain ⟨ts, hlexes, -, -, -⟩ := exists_tokens hread hw
  intro c hc
  obtain ⟨s, rfl⟩ := List.head?_eq_some_iff.mp hc
  constructor <;> rintro rfl
  all_goals exact absurd hlexes (not_lexes rfl (Lexeme.next?_eq_none (by decide) _))

/-- Operators of expressions are names by themselves, and names are no conditions. -/
lemma read_symbol : ∀ c ∈ operatorChars, Embedding.vhdl.read [c] = none := by decide +kernel

end

lemma GoesOn.not_operator {x : Text} (h : GoesOn x) :
    ∃ g c r, x = g ++ c :: r ∧ AllBlank g ∧ isBlank c = false ∧
      ∀ o ∈ operatorTexts, ∀ s, ¬o <+: c :: (r ++ s) := by
  obtain ⟨g, c, r, rfl, hg, hblank, hc, hminus⟩ := h
  refine ⟨g, c, r, rfl, hg, hblank, ?_⟩
  intro o ho s hlead
  obtain ⟨t, ht⟩ := hlead
  simp only [operatorTexts, List.mem_cons, List.not_mem_nil, or_false] at ho
  rcases ho with rfl | rfl | rfl | rfl | rfl
  · obtain ⟨rfl, hrest⟩ := List.cons.inj ht
    obtain ⟨b, r, rfl, hb⟩ := hminus rfl
    exact hb (List.cons.inj hrest).1.symm
  all_goals
    obtain ⟨rfl, -⟩ := List.cons.inj ht
    exact absurd hc (by decide)

lemma GoesOn.matching {x y : Text} (h : GoesOn x) (hxy : Matching x y) : GoesOn y := by
  obtain ⟨g, c, s, rfl, hg, hblank, hc, hminus⟩ := h
  obtain ⟨g', r, rfl, hgg, hr⟩ := hxy.append_inv
  obtain ⟨s', rfl, hss⟩ := hr.cons_inv hblank
  refine ⟨g', c, s', rfl, hgg.allBlank hg, hblank, hc, fun hcm => ?_⟩
  obtain ⟨b, r, rfl, hb⟩ := hminus hcm
  obtain ⟨b', r', hbb, -, rfl⟩ := List.forall₂_cons_left_iff.mp hss
  refine ⟨b', r', rfl, ?_⟩
  rintro rfl
  obtain rfl | ⟨-, hblank'⟩ := hbb
  · exact hb rfl
  · exact absurd hblank' (by decide)

/-- Conditions with any blanks end where operators of expressions begin. -/
theorem delimited_loose : loose.Delimited where
  neutral := neutral_of_loose
  head := by
    intro w p hread hw c hc
    rw [loose_read] at hread
    obtain ⟨s, rfl⟩ := List.head?_eq_some_iff.mp hc
    obtain ⟨t, ht, -⟩ := exists_spaced_cons (not_blank_of_trim_eq_cons hw) s
    exact head_of_read hread (by rw [trim_spaced, hw]) c (by rw [ht]; rfl)
  symbol := by
    intro c hc
    have hone : spaced [c] = [c] := (matching_spaced [c]).eq_of_not_blank fun d hd => by
      obtain rfl := List.mem_singleton.mp hd
      exact not_blank_of_mem_operatorChars hc
    rw [loose_read, hone]
    exact read_symbol c hc
  operator := by
    intro w u r c p hread hw hu hne hc hr
    have hclosed := (neutral_of_loose hread hw).closed
    obtain ⟨u', s, htext, huu, hs⟩ := (matching_spaced (u ++ c :: r)).append_inv
    obtain ⟨r', rfl, hrr⟩ := hs.cons_inv (not_blank_of_mem_operatorChars hc)
    rw [loose_read] at hread ⊢
    rw [spaced_append hclosed, htext]
    refine read_operator hread (by rw [trim_spaced, hw]) (huu.allBlank hu) ?_ hc ?_
    · rintro rfl
      exact hne (List.forall₂_nil_right_iff.mp huu)
    · rcases hr with rfl | hr
      · exact .inl (List.forall₂_nil_left_iff.mp hrr)
      · exact .inr (Matching.startsBlank_eq hrr ▸ hr)
  arrow := by
    intro w u r p hread hw hu
    have hclosed := (neutral_of_loose hread hw).closed
    obtain ⟨u', s, htext, huu, hs⟩ := (matching_spaced (u ++ '-' :: '>' :: r)).append_inv
    obtain ⟨s, rfl, hgt⟩ := hs.cons_inv rfl
    obtain ⟨r', rfl, -⟩ := Matching.cons_inv hgt rfl
    rw [loose_read] at hread ⊢
    rw [spaced_append hclosed, htext]
    exact read_arrow hread (by rw [trim_spaced, hw]) (huu.allBlank hu)
  bracket := by
    intro w p hread hw hgroup hhead
    rw [loose_read] at hread
    have htrim : trim (spaced w) = spaced w := by rw [trim_spaced, hw]
    have hparen : ∀ q, p ≠ .paren q := by
      rintro q rfl
      obtain ⟨inner, hwhole⟩ := splitGroup?_paren hread htrim
      have hrel := (respaced_spaced w).symm.splitGroup?
      rw [hwhole] at hrel
      obtain ⟨⟨inner', after⟩, hcut, -, hafter⟩ := exists_of_rel_some hrel
      obtain rfl : after = [] := by simpa using hafter.reflowed.eq_nil
      exact hgroup inner' hcut
    obtain ⟨s, rfl⟩ := List.head?_eq_some_iff.mp hhead
    obtain ⟨t, ht, hst⟩ := exists_spaced_cons (c := '(') rfl s
    obtain ⟨inner, after, heq, hinner, hafter⟩ :=
      exists_bracket hread htrim hparen (by rw [ht]; rfl)
    rw [ht] at heq
    obtain rfl := (List.cons.inj heq).2
    obtain ⟨inner', r, rfl, hii, hr⟩ := hst.symm.append_inv
    obtain ⟨after', rfl, haa⟩ := hr.cons_inv rfl
    obtain ⟨g, c, r, rfl, hg, hc, hno⟩ := (hafter.matching haa).not_operator
    exact ⟨inner', g, c, r, rfl, hii.neutral hinner, hg, hc, hno⟩

/-- Whatever conditions are read stays a condition. -/
theorem loosens : Loosens Embedding.vhdl loose where
  le := by
    intro w p hread
    rw [loose_read]
    exact read_respaced (respaced_spaced w) (gappy_spaced w) hread
  delimited := delimited_loose
  unbraced := condenses.toUnbraced
  unbraced' := by
    refine ⟨neutral_of_loose, ?_⟩
    intro w p hread hw c hc hmem
    rw [loose_read] at hread
    refine condenses.unbraced hread (by rw [trim_spaced, hw]) hc ?_
    rw [marked_spaced]
    have hkept : toSpace (c, false) = (c, false) := if_neg (by rcases hc with rfl | rfl <;> decide)
    exact List.mem_map.mpr ⟨_, hmem, hkept⟩

/-- A condition has no single quote outside literals, so none comes to enclose a gap. -/
lemma framed {w : Text} (hread : (Embedding.vhdl.read w).isSome) (hw : trim w = w) :
    Framed (· ≠ ('\'', false)) w := by
  obtain ⟨p, hp⟩ := Option.isSome_iff_exists.mp hread
  obtain ⟨ts, hlexes, hparses, -, -⟩ := exists_tokens hp hw
  exact ⟨hparses.derives.neutral hlexes.written, hlexes.written.unticked⟩

end Vhdl

namespace Expr

/-- Other gaps in place of the blanks outside literals, and any blanks at the ends, leave the tree
as it is. -/
theorem read_pad_respaced {m : Int} {s u v : Text} {gaps : Nat → Text} {e : Expr Vhdl.Node}
    (h : read .vhdl m s = .ok e) (hgaps : ∀ k, gaps k ≠ [] ∧ ∀ c ∈ gaps k, Vhdl.isGap c)
    (hu : AllBlank u) (hv : AllBlank v) :
    read .vhdl m (u ++ respaced gaps s ++ v) = .ok e := by
  have hblank : ∀ k, gaps k ≠ [] ∧ AllBlank (gaps k) := fun k =>
    ⟨(hgaps k).1, fun c hc => Vhdl.isBlank_of_isGap ((hgaps k).2 c hc)⟩
  have hticks : Within (· ≠ ('\'', false)) s := by
    obtain ⟨ws, hws⟩ := laid_of_readLevels h
    exact (hws.framed (by simp) Vhdl.framed).within
  have hgappy : Within Vhdl.gappy (respaced gaps s) := by
    intro x hx hspacing
    rw [marked_respaced (fun k => (hblank k).2) hticks] at hx
    obtain ⟨-, hkept⟩ | ⟨k, hk⟩ := mem_exchange hx
    · rw [hkept] at hspacing
      exact absurd hspacing (by simp)
    · exact (hgaps k).2 _ hk
  rw [← read_trim, trim_pad hu hv, read_trim]
  rw [← read_trim] at h
  have hloose := (Vhdl.loosens.same (levels m)).wider h
  rwa [Agree.readLevels Vhdl.agree_loose _ (respaced_respaced hblank hticks) hgappy] at hloose

/-- The blanks in a literal stay, those around it become tabs and line ends. -/
theorem read_pad_respaced_literal :
    read .vhdl 8 "E F  x = \"a  b\"".toList = .ok (along .any .future (predicate
        (.binary .comparison ['='] (.name ['x']) (.literal .string "\"a  b\"".toList)))) ∧
      read .vhdl 8 "\nE\tF\r\nx\r\n=\r\n\"a  b\" ".toList = .ok (along .any .future (predicate
        (.binary .comparison ['='] (.name ['x']) (.literal .string "\"a  b\"".toList)))) := by
  have h : read .vhdl 8 "E F  x = \"a  b\"".toList = .ok (along .any .future (predicate
      (.binary .comparison ['='] (.name ['x']) (.literal .string "\"a  b\"".toList)))) := by
    decide +kernel
  have htext : "\nE\tF\r\nx\r\n=\r\n\"a  b\" ".toList =
      ['\n'] ++ respaced (fun k => if k = 0 then ['\t'] else ['\r', '\n'])
        "E F  x = \"a  b\"".toList ++ [' '] := by
    decide +kernel
  rw [htext]
  refine ⟨h, read_pad_respaced h (fun k => ?_) (.cons rfl .nil) (.cons rfl .nil)⟩
  by_cases hk : k = 0 <;> simp [hk, Vhdl.isGap]

end Expr

end TimedReq
