import TimedReq.Proofs.Bound.Reflow
import TimedReq.Proofs.Expr.Cases
import TimedReq.Proofs.Text.Respaced

/-!
# Expressions with other blanks

If two languages read respaced predicates alike, respaced expressions are read alike: as the same
tree, or they are refused for the same reason.
-/

namespace TimedReq

open Text

variable {α : Type} {L L' : Embedding α} {good : Mark → Prop}

/-- The functions agree on respaced texts, of which the second is good. -/
def Agree {β : Type} (good : Mark → Prop) (f f' : Text → β) : Prop :=
  ∀ {s t : Text}, Respaced s t → Within good t → f s = f' t

lemma Connective.leading?_respaced {s t : Text} (h : Respaced s t) :
    Option.Rel (fun p q => p.1 = q.1 ∧ Respaced p.2 q.2) (leading? s) (leading? t) := by
  refine h.rel ?_
  rintro s t h ⟨c, r⟩ hs
  obtain rfl := Connective.eq_of_leading? hs
  cases c with
  | implies =>
    obtain ⟨t, rfl, hgt⟩ := h.cons_inv_of_plain (by decide) (by decide)
    obtain ⟨t, rfl, hrest⟩ := hgt.cons_inv_of_plain (by decide) (by decide)
    exact ⟨(.implies, t), rfl, rfl, hrest⟩
  | and | or =>
    obtain ⟨t, rfl, hrest⟩ := h.cons_inv_of_plain (by decide) (by decide)
    exact ⟨(_, t), rfl, rfl, hrest⟩

lemma Connective.within_of_leading? {c : Connective} {s r : Text} (h : Within good s)
    (hs : leading? s = some (c, r)) : Within good r := by
  obtain rfl := Connective.eq_of_leading? hs
  cases c with
  | implies => exact (h.of_cons (by decide)).of_cons (by decide)
  | and | or => exact h.of_cons (by decide)

section

variable {one two three one' two' three' : Text → Reading (Expr α)} {s t : Text}

lemma Text.Respaced.bare (h : Respaced s t) (hs : Bare s) : Bare t := by
  refine ⟨?_, ?_, ?_⟩
  · rintro rfl
    exact hs.ne_nil h.symm.reflowed.eq_nil
  · intro c hc
    have hhead : ∀ x ∈ ['!', '{', '('], c ≠ x := by
      rintro x hx rfl
      obtain ⟨t, rfl⟩ := List.head?_eq_some_iff.mp hc
      have hblank : ∀ x ∈ ['!', '{', '('], isBlank x = false := by decide
      obtain ⟨s, rfl, -⟩ := h.symm.reflowed.cons_inv (hblank c hx)
      obtain ⟨hneg, hbrace, hgroup⟩ := hs.head c rfl
      simp only [List.mem_cons, List.not_mem_nil, or_false] at hx
      rcases hx with rfl | rfl | rfl
      · exact hneg rfl
      · exact hbrace rfl
      · exact hgroup rfl
    exact ⟨hhead _ (by simp), hhead _ (by simp), hhead _ (by simp)⟩
  · have hrel := h.leadingSymbol? fun _ hc => Branch.mem_operatorChars hc
    rw [hs.leadingSymbol?] at hrel
    cases hcut : Text.leadingSymbol? Branch.ofChar? t with
    | none => rfl
    | some q =>
      rw [hcut] at hrel
      cases hrel

namespace Agree

lemma predicateRule (hL : Agree good L.read L'.read) :
    Agree good (Expr.predicateRule L) (Expr.predicateRule L') := by
  intro s t h ht
  unfold Expr.predicateRule
  rw [hL h ht]

lemma negationRule (htwo : Agree good two two') :
    Agree good (Expr.negationRule two) (Expr.negationRule two') := by
  intro s t h ht
  unfold Expr.negationRule
  simp only
  rw [htwo h.trim ht.trim, h.reflowed.trim.any_isBlank]

lemma logicalRule (htwo : Agree good two two') :
    Agree good (Expr.logicalRule two) (Expr.logicalRule two') := by
  intro s t h ht
  have hrel := h.splitToken? fun c hc =>
    not_blank_of_mem_operatorChars (Connective.mem_operatorChars hc)
  unfold Expr.logicalRule
  generalize hs : splitToken? Connective.ofChar? s = o at hrel
  generalize hcut : splitToken? Connective.ofChar? t = p at hrel
  cases hrel with
  | none => rfl
  | @some p q hpq =>
    obtain ⟨l, c, r⟩ := p
    obtain ⟨l', c', r'⟩ := q
    obtain ⟨hl, rfl, hr⟩ := hpq
    obtain ⟨x, hmarked⟩ := marked_of_splitToken? hcut
    simp only
    rw [htwo hl (ht.of_marked hmarked fun m hm => by simp [hm]),
      htwo hr (ht.of_marked hmarked fun m hm => by simp [hm])]

lemma implicationRule (hL : Agree good L.read L'.read) (hone : Agree good one one') :
    Agree good (Expr.implicationRule L one) (Expr.implicationRule L' one') := by
  intro s t h ht
  have hrel := h.splitArrow?
  unfold Expr.implicationRule
  generalize hs : splitArrow? s = o at hrel
  generalize hcut : splitArrow? t = p at hrel
  cases hrel with
  | none => exact predicateRule hL h ht
  | @some p q hpq =>
    obtain ⟨l, r⟩ := p
    obtain ⟨l', r'⟩ := q
    obtain ⟨hl, hr⟩ := hpq
    have hmarked := marked_of_splitArrow? hcut
    simp only
    rw [hone hl (ht.of_marked hmarked fun m hm => by simp [hm]),
      hone hr (ht.of_marked hmarked fun m hm => by simp [hm])]
    simp only [hl.trim_eq_nil, hr.trim_eq_nil]

lemma pathRule (hthree : Agree good three three') :
    Agree good (PathExpr.rule three) (PathExpr.rule three') := by
  intro s t h ht
  have hleading := h.trim.leadingSymbol? fun c hc =>
    Modality.mem_operatorChars hc
  have huntil := h.trim.splitToken? fun c hc =>
    not_blank_of_mem_operatorChars (Until.mem_operatorChars hc)
  replace ht := ht.trim
  unfold PathExpr.rule
  simp only
  generalize trim s = s at *
  generalize trim t = t at *
  generalize hs : leadingSymbol? Modality.ofChar? s = o at hleading
  generalize hcut : leadingSymbol? Modality.ofChar? t = p at hleading
  cases hleading with
  | @some p q hpq =>
    obtain ⟨m, r⟩ := p
    obtain ⟨m', r'⟩ := q
    obtain ⟨rfl, hr⟩ := hpq
    obtain ⟨c, rfl, hc, -⟩ := eq_of_leadingSymbol? hcut
    have hplain := isPlain_of_mem_operatorChars (Modality.mem_operatorChars (by rw [hc]; rfl))
    simp only
    rw [hthree hr (ht.of_cons ⟨hplain.1, hplain.2.1⟩)]
  | none =>
    simp only
    generalize hs : splitToken? Until.ofChar? s = o at huntil
    generalize hcut : splitToken? Until.ofChar? t = p at huntil
    cases huntil with
    | none => rfl
    | @some p q hpq =>
      obtain ⟨l, c, r⟩ := p
      obtain ⟨l', c', r'⟩ := q
      obtain ⟨hl, rfl, hr⟩ := hpq
      obtain ⟨x, hmarked⟩ := marked_of_splitToken? hcut
      simp only
      rw [hthree hl (ht.of_marked hmarked fun m hm => by simp [hm]),
        hthree hr (ht.of_marked hmarked fun m hm => by simp [hm])]

lemma branchRule (hthree : Agree good three three') :
    Agree good (BranchExpr.rule three) (BranchExpr.rule three') := by
  intro s t h ht
  have hleading := h.trim.leadingSymbol? fun c hc =>
    Branch.mem_operatorChars hc
  replace ht := ht.trim
  unfold BranchExpr.rule
  generalize trim t = t at *
  generalize leadingSymbol? Branch.ofChar? (trim s) = o at hleading
  generalize hcut : leadingSymbol? Branch.ofChar? t = p at hleading
  cases hleading with
  | none => rfl
  | @some p q hpq =>
    obtain ⟨b, r⟩ := p
    obtain ⟨b', r'⟩ := q
    obtain ⟨rfl, hr⟩ := hpq
    obtain ⟨c, rfl, hc, -⟩ := eq_of_leadingSymbol? hcut
    have hplain := isPlain_of_mem_operatorChars (Branch.mem_operatorChars (by rw [hc]; rfl))
    simp only
    rw [pathRule hthree hr (ht.of_cons ⟨hplain.1, hplain.2.1⟩)]

lemma groupRule (hL : Agree good L.read L'.read) (htwo : Agree good two two')
    (hthree : Agree good three three') :
    Agree good (Expr.groupRule L two three) (Expr.groupRule L' two' three') := by
  intro s t h ht
  have hrel := h.splitGroup?
  unfold Expr.groupRule
  generalize hs : splitGroup? s = o at hrel
  generalize hcut : splitGroup? t = p at hrel
  cases hrel with
  | none => rfl
  | @some p q hpq =>
    obtain ⟨inner, after⟩ := p
    obtain ⟨inner', after'⟩ := q
    obtain ⟨hinner, hafter⟩ := hpq
    have hgood : Within good inner' ∧ Within good after' := by
      rcases t with _ | ⟨o, t⟩
      · simp [splitGroup?] at hcut
      · obtain ⟨close, -, hmarked⟩ := marked_of_splitGroup? hcut
        exact ⟨ht.of_marked hmarked fun m hm => by simp [hm],
          ht.of_marked hmarked fun m hm => by simp [hm]⟩
    have hleading := Connective.leading?_respaced hafter.trim
    rcases after with _ | ⟨c, after⟩
    · obtain rfl := hafter.reflowed.eq_nil
      simp only
      rw [htwo hinner hgood.1]
    · rcases after' with _ | ⟨c', after'⟩
      · exact absurd hafter.symm.reflowed.eq_nil (by simp)
      · simp only
        generalize hs : Connective.leading? (trim (c :: after)) = o at hleading
        generalize hcut' : Connective.leading? (trim (c' :: after')) = p at hleading
        cases hleading with
        | none => exact predicateRule hL h ht
        | @some p q hpq =>
          obtain ⟨k, r⟩ := p
          obtain ⟨k', r'⟩ := q
          obtain ⟨rfl, hr⟩ := hpq
          simp only
          rw [htwo hinner hgood.1, hthree hr (Connective.within_of_leading? hgood.2.trim hcut')]

/-- The parts of a bounded expression in front of a text. -/
lemma split?_respaced (h : Respaced s t) {whole remaining : Text}
    (hs : BoundedExpr.split? s = some (whole, remaining)) :
    ∃ whole' remaining' inner inner' sts sts',
      BoundedExpr.split? t = some (whole', remaining') ∧ Respaced inner inner' ∧
      Reflowed isBlank sts sts' ∧ (Within good t → Within good inner') ∧
      (∀ body : Text → Reading (Expr α), BoundedExpr.rule body whole = BoundedExpr.ofParts
        (body inner) (Statement.parseAll (pieces (· == ',') (trimEnd sts)))) ∧
      (∀ body : Text → Reading (Expr α), BoundedExpr.rule body whole' = BoundedExpr.ofParts
        (body inner') (Statement.parseAll (pieces (· == ',') (trimEnd sts')))) ∧
      ∀ list, Statement.parseAll (pieces (· == ',') (trimEnd sts)) = .ok list →
        Respaced remaining remaining' ∧ (Within good t → Within good remaining') := by
  obtain ⟨inner, x, y, sts, rest, rfl, hgroup, hx, hy, hsts, rfl, hrule⟩ := eq_of_split? (α := α) hs
  have hplain : ∀ {u : Text}, AllBlank u → ∀ c ∈ u, IsPlain c := fun hu c hc =>
    isPlain_of_isBlank (hu c hc)
  have hrel := h.splitGroup?
  rw [hgroup] at hrel
  obtain ⟨⟨inner', after'⟩, hgroup', hinner, hafter⟩ := exists_of_rel_some hrel
  obtain ⟨t, rfl, -⟩ := h.cons_inv_of_plain (by decide) (by decide)
  obtain ⟨close, hclose, hmarked⟩ := marked_of_splitGroup? hgroup'
  -- the blanks, the underscore and the brace in front of the statements
  obtain ⟨x', b, rfl, hb, hx', hbmem⟩ := hafter.append_cons_inv (hplain hx) (by decide) (by decide)
  obtain ⟨y', d, rfl, hd, hy', hdmem⟩ := hb.append_cons_inv (hplain hy) (by decide) (by decide)
  obtain ⟨sts', rest', rfl, hflow, -⟩ := hd.reflowed.cut (by decide)
  have hsts' : '}' ∉ sts' := fun hmem => hsts (hflow.symm.mem (by decide) hmem)
  have hsplit' := BoundedExpr.split?_eq hgroup' (hx'.allBlank hx) (hy'.allBlank hy) hsts'
  refine ⟨_, _, inner, inner', sts, sts', hsplit', hinner, hflow, ?_, hrule, ?_, ?_⟩
  · exact fun ht => ht.of_marked hmarked fun m hm => by simp [hm]
  · exact fun body => BoundedExpr.rule_eq_ofParts hgroup' body
  · -- statements that are read hold no literal, so the rest begins outside literals
    intro list hlist
    obtain ⟨sts₂, rest₂, heq, hrest, hflow₂, hmem⟩ := hd.append_cons_inv
      (Statement.isPlain_of_parseAll_trimEnd hlist) (by decide) (by decide)
    have hsts₂ : '}' ∉ sts₂ := fun hmem => hsts (hflow₂.symm.mem (by decide) hmem)
    obtain ⟨rfl, rfl⟩ := eq_of_append_cons hsts' hsts₂ heq
    refine ⟨hrest.trim, fun ht => Within.trim fun m hm => ?_⟩
    exact ht.of_marked hmarked (fun m hm => by simp [hm]) m (hbmem m (hdmem m (hmem m hm)))

lemma boundedRule (hthree : Agree good three three') :
    Agree good (Expr.boundedRule three) (Expr.boundedRule three') := by
  intro s t h ht
  unfold Expr.boundedRule
  cases hs : BoundedExpr.split? s with
  | none =>
    cases ht : BoundedExpr.split? t with
    | none => rfl
    | some p =>
      obtain ⟨_, _, _, _, _, _, hsome, -⟩ := @split?_respaced α good t s h.symm _ _ ht
      rw [hs] at hsome
      exact absurd hsome (by simp)
  | some p =>
    obtain ⟨whole, remaining⟩ := p
    obtain ⟨whole', remaining', inner, inner', sts, sts', hs', hinner, hflow, hgood, hrule, hrule',
      hbehind⟩ := split?_respaced h hs
    have hparse := Statement.parseAll_pieces_congr hflow
    rw [hs']
    simp only
    rw [hrule, hrule', hthree hinner (hgood ht), hparse]
    rw [hparse] at hbehind
    cases hb : BoundedExpr.ofParts (three' inner')
        (Statement.parseAll (pieces (· == ',') (trimEnd sts'))) with
    | error e => rfl
    | ok b =>
      obtain ⟨hrest, hgood'⟩ := hbehind _ (BoundedExpr.ofParts_eq_ok.mp hb).2
      have hleading := Connective.leading?_respaced hrest
      have hnil : remaining = [] ↔ remaining' = [] := by
        constructor <;> rintro rfl
        · exact hrest.reflowed.eq_nil
        · exact hrest.symm.reflowed.eq_nil
      generalize Connective.leading? remaining = o at hleading
      generalize hcut : Connective.leading? remaining' = p at hleading
      simp only [bind, Except.bind, hnil]
      cases hleading with
      | none => rfl
      | @some p q hpq =>
        obtain ⟨c, r⟩ := p
        obtain ⟨c', r'⟩ := q
        obtain ⟨rfl, hr⟩ := hpq
        simp only
        rw [hthree hr (Connective.within_of_leading? (hgood' ht) hcut)]

theorem rule (hL : Agree good L.read L'.read) (hone : Agree good one one')
    (htwo : Agree good two two') (hthree : Agree good three three') :
    Agree good (Expr.rule L one two three) (Expr.rule L' one' two' three') := by
  intro s t h ht
  have htrim := h.trim
  have hgood := ht.trim
  have hchosen := chosen (trim s)
  generalize hs : trim s = r at hchosen htrim
  cases hchosen with
  | none => rw [rule_eq_malformed hs, rule_eq_malformed (h.trim_eq_nil.mp hs)]
  | negation r =>
    obtain ⟨r', ht', hrest⟩ := htrim.cons_inv_of_plain (by decide) (by decide)
    rw [rule_eq_negation hs, rule_eq_negation ht']
    rw [ht'] at hgood
    exact negationRule htwo hrest (hgood.of_cons (by decide))
  | bounded r =>
    obtain ⟨r', ht', -⟩ := htrim.cons_inv_of_plain (by decide) (by decide)
    rw [rule_eq_bounded hs, rule_eq_bounded ht']
    rw [ht'] at htrim hgood
    exact boundedRule hthree htrim hgood
  | group r =>
    obtain ⟨r', ht', -⟩ := htrim.cons_inv_of_plain (by decide) (by decide)
    rw [rule_eq_group hs, rule_eq_group ht']
    rw [ht'] at htrim hgood
    exact groupRule hL htwo hthree htrim hgood
  | branch hb =>
    have hrel := htrim.leadingSymbol? fun _ hc => Branch.mem_operatorChars hc
    rw [hb] at hrel
    obtain ⟨⟨b', path'⟩, ht', -⟩ := exists_of_rel_some hrel
    subst hs
    rw [rule_eq_branch hb, rule_eq_branch ht', branchRule hthree htrim hgood]
  | bare hbare =>
    subst hs
    rw [hbare.rule_eq, (htrim.bare hbare).rule_eq, logicalRule htwo htrim hgood,
      implicationRule hL hone htrim hgood]

/-- Languages that read respaced predicates alike read respaced expressions alike. -/
theorem readLevels (hL : Agree good L.read L'.read) (n : Nat) :
    Agree good (Expr.readLevels L n) (Expr.readLevels L' n) := by
  induction n using Nat.strongRecOn with
  | ind n ih =>
    intro s t h ht
    cases n with
    | zero => rw [Expr.readLevels, Expr.readLevels]
    | succ n =>
      rw [Expr.readLevels, Expr.readLevels]
      exact rule hL (ih n (by omega)) (ih (n - 1) (by omega)) (ih (n - 2) (by omega)) h ht

end Agree

end

end TimedReq
