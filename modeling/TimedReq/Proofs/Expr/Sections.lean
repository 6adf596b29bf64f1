import TimedReq.Proofs.Bound.Statement
import TimedReq.Proofs.Expr.Composition
import TimedReq.Proofs.Text.Section

/-!
# Sections in texts of expressions

The statements of a bounded expression are a section of the text. A text that is put together from
the parts of a tree has readable statements in its sections, and so has every piece of it that a
rule reads on its own: whatever the number of levels, no numeral in it is too long.
-/

namespace TimedReq

open Text

/-- No numeral was too long. -/
def Reading.Short {α : Type} (r : Reading α) : Prop := ∀ k, r ≠ .error (.tooLong k)

namespace Reading

variable {α β : Type}

lemma short_ok (x : α) : Short (.ok x : Reading α) := by
  simp [Short]

lemma short_malformed : Short (malformed : Reading α) := by
  simp [Short, malformed]

lemma short_ofOption (o : Option α) : Short (ofOption o) := by
  cases o with
  | none => exact short_malformed
  | some x => exact short_ok x

lemma Short.bind {r : Reading α} {f : α → Reading β} (hr : r.Short)
    (hf : ∀ x, r = .ok x → (f x).Short) : (r >>= f).Short := by
  cases r with
  | ok x => exact hf x rfl
  | error e =>
    intro k hk
    exact hr k (congrArg Except.error (Except.error.inj hk))

lemma Short.map {r : Reading α} (hr : r.Short) (f : α → β) : (f <$> r).Short := by
  cases r with
  | ok x => exact short_ok (f x)
  | error e =>
    intro k hk
    exact hr k (congrArg Except.error (Except.error.inj hk))

lemma Short.orElse {r : Reading α} {f : Unit → Reading α} (hr : r.Short) (hf : (f ()).Short) :
    (r.orElse f).Short := by
  unfold Reading.orElse
  split
  · exact hf
  · exact hr

/-- What is neither read nor too long is malformed. -/
lemma Short.eq_malformed {r : Reading α} (hr : r.Short) (h : ∀ x, r ≠ .ok x) : r = malformed := by
  match r with
  | .ok x => exact absurd rfl (h x)
  | .error .malformed => rfl
  | .error (.tooLong k) => exact absurd rfl (hr k)

end Reading

/-- The statements in the section are short. -/
def ShortSection (t : Text) : Prop :=
  (Statement.parseAll (pieces (· == ',') (trimEnd t))).Short

variable {α : Type} {L : Embedding α}

/-- In a text that is put together from the parts of a tree all sections are short. -/
theorem Composes.sectioned (hL : L.Unbraced) {e : Expr α} {s : Text} (h : Composes L e s) :
    Sectioned ShortSection s := by
  have hbetween : ∀ (c : Connective) {l u r : Text}, AllBlank u → Sectioned ShortSection l →
      Sectioned ShortSection r → Sectioned ShortSection (l ++ (u ++ (c.symbol ++ r))) := by
    intro c l u r hu hl hr
    have hall : Sectioned ShortSection ((l ++ u) ++ (c.symbol ++ r)) := by
      have hl' := hl.padded .nil hu
      cases c with
      | implies => exact hl'.between (w := ['>']) (by decide) rfl (by decide) hr
      | and | or => exact hl'.between (w := []) (by decide) rfl (by decide) hr
    rwa [List.append_assoc] at hall
  have hbounded : ∀ {s x y t : Text} {first : Statement} {more : List Statement},
      Sectioned ShortSection s → AllBlank x → AllBlank y →
      Statement.parseAll (pieces (· == ',') (trimEnd t)) = .ok (first :: more) →
      Sectioned ShortSection ('{' :: (s ++ '}' :: (x ++ '_' :: (y ++ '{' :: (t ++ ['}']))))) := by
    intro s x y t first more hs hx hy hsts
    refine hs.bounded hx hy ?_ ?_
    · obtain ⟨v, hv, heq⟩ := exists_trimEnd t
      intro c hc
      rw [heq] at hc
      rcases List.mem_append.mp hc with hc | hc
      · exact Statement.isPlain_of_parseAll hsts c hc
      · exact isPlain_of_isBlank (hv c hc)
    · unfold ShortSection
      rw [hsts]
      exact Reading.short_ok _
  have hsymbol : ∀ {c : Char}, c ∈ operatorChars → ∀ x ∈ [c], IsPlain x := by
    intro c hc x hx
    obtain rfl := List.mem_singleton.mp hx
    exact isPlain_of_mem_operatorChars hc
  induction h with
  | padded hu hv _ ih => exact ih.padded hu hv
  | predicate hread htrim =>
    exact .unbraced (hL.neutral hread htrim) (hL.unbraced hread htrim (.inr rfl))
  | negation _ ih => exact ih.plain (w := ['!']) (by decide)
  | group _ ih => exact ih.group
  | groupTail c _ hu _ ihl ihr =>
    have hall := hbetween c hu ihl.group ihr
    simpa using hall
  | bounded _ hx hy _ hsts ih => exact hbounded ih hx hy hsts
  | boundedTail c _ hx hy _ hsts hu _ ihl ihr =>
    have hall := hbetween c hu (hbounded ihl hx hy hsts) ihr
    simpa using hall
  | arrow _ _ ihl ihr => exact hbetween .implies .nil ihl ihr
  | logical c _ _ _ _ ihl ihr => exact hbetween c .nil ihl ihr
  | along b m hu _ _ _ ih =>
    have hpath := (ih.plain (hsymbol m.symbol_mem)).padded hu .nil
    rw [List.append_nil] at hpath
    exact hpath.plain (hsymbol b.symbol_mem)
  | «until» b u _ _ _ _ _ ihl ihr =>
    have hbar : u.symbol ≠ '_' := by cases u <;> decide
    exact (ihl.between (w := []) (hsymbol u.symbol_mem)
      (not_blank_of_mem_operatorChars u.symbol_mem) hbar ihr).plain (hsymbol b.symbol_mem)

/-- The reader takes no numeral in a text with short sections for too long. -/
def Spares (f : Text → Reading (Expr α)) : Prop :=
  ∀ {s : Text}, GoodSections ShortSection (marked s) → (f s).Short

section

variable {one two three : Text → Reading (Expr α)} {s : Text}

lemma marked_of_leadingSymbol? {β : Type} {symbol? : Char → Option β} {x : β} {r : Text}
    (hsymbol : ∀ c, (symbol? c).isSome → c ∈ operatorChars)
    (h : leadingSymbol? symbol? s = some (x, r)) : marked r <:+: marked s := by
  obtain ⟨c, rfl, hc, -⟩ := eq_of_leadingSymbol? h
  have hplain := isPlain_of_mem_operatorChars (hsymbol c (by simp [hc]))
  rw [marked_plain hplain]
  exact (List.suffix_cons _ _).isInfix

lemma Connective.marked_of_leading? {c : Connective} {r : Text} (h : leading? (trim s) = some (c, r)) :
    marked r <:+: marked s := by
  refine List.IsInfix.trans ?_ (marked_trim s)
  rw [eq_of_leading? h]
  have hplain : ∀ x ∈ c.symbol, IsPlain x := by cases c <;> decide
  rw [marked_append (Neutral.plain hplain).closed]
  exact (List.suffix_append _ _).isInfix

lemma short_predicateRule (s : Text) : (Expr.predicateRule L s).Short :=
  Reading.short_ofOption _

namespace Spares

lemma negationRule (htwo : Spares two) (hs : GoodSections ShortSection (marked s)) :
    (Expr.negationRule two s).Short := by
  refine (htwo (hs.of_infix (marked_trim s))).bind fun e _ => ?_
  split
  · exact Reading.short_malformed
  · exact Reading.short_ok _

lemma groupRule (htwo : Spares two) (hthree : Spares three) {c : Char}
    (hs : GoodSections ShortSection (marked (c :: s))) :
    (Expr.groupRule L two three (c :: s)).Short := by
  have hpieces : ∀ {inner after : Text}, splitGroup? (c :: s) = some (inner, after) →
      GoodSections ShortSection (marked inner) ∧ GoodSections ShortSection (marked after) := by
    intro inner after hsplit
    obtain ⟨close, -, hmarked⟩ := marked_of_splitGroup? hsplit
    rw [hmarked] at hs
    exact ⟨hs.2.left_of_append, hs.2.right_of_append.2⟩
  unfold Expr.groupRule
  split
  · rename_i inner hsplit
    exact (htwo (hpieces hsplit).1).bind fun _ _ => Reading.short_ok _
  · rename_i inner after _ hsplit
    obtain ⟨hinner, hafter⟩ := hpieces hsplit
    split
    · rename_i x right hleading
      refine (htwo hinner).bind fun _ _ => ?_
      exact (hthree (hafter.of_infix (Connective.marked_of_leading? hleading))).bind fun _ _ =>
        Reading.short_ok _
    · exact short_predicateRule _
  · exact Reading.short_malformed

lemma boundedRule (hthree : Spares three) {c : Char}
    (hs : GoodSections ShortSection (marked (c :: s))) : (Expr.boundedRule three (c :: s)).Short := by
  unfold Expr.boundedRule
  split
  · rename_i whole remaining hsplit
    obtain ⟨inner, x, y, t, rest, heq, hgroup, hx, hy, ht, rfl, hrule⟩ :=
      eq_of_split? (α := α) hsplit
    obtain ⟨close, hclose, hmarked⟩ := marked_of_splitGroup? hgroup
    obtain rfl : close = '}' := by
      obtain ⟨rfl, -⟩ := List.cons.inj heq
      exact (Option.some.inj hclose).symm
    rw [hmarked] at hs
    have hinner : GoodSections ShortSection (marked inner) := hs.2.left_of_append
    have hclosing := hs.2.right_of_append
    have hsection : ShortSection t := by
      refine hclosing.1 rfl t ?_
      rw [map_fst_marked]
      exact ⟨x, y, rest, hx, hy, ht, rfl⟩
    rw [hrule]
    refine Reading.Short.bind ?_ fun b hb => ?_
    · exact (hthree hinner).bind fun _ _ => hsection.bind fun _ _ => Reading.short_ofOption _
    · -- behind statements that are read the text goes on outside literals
      have hrest : GoodSections ShortSection (marked rest) := by
        have hplain := Statement.isPlain_of_parseAll (BoundedExpr.ofParts_eq_ok.mp hb).2
        obtain ⟨v, hv, htrim⟩ := exists_trimEnd t
        have hneutral : Neutral t := by
          rw [htrim]
          exact (Neutral.plain hplain).append (Neutral.allBlank hv)
        have hfront : Neutral (x ++ (['_'] ++ (y ++ '{' :: (t ++ ['}'])))) :=
          (Neutral.allBlank hx).append ((Neutral.singleton (by decide)).append
            ((Neutral.allBlank hy).append (hneutral.bracket (.inr rfl) (.inr rfl))))
        have hcut : x ++ '_' :: (y ++ '{' :: (t ++ '}' :: rest)) =
            x ++ (['_'] ++ (y ++ '{' :: (t ++ ['}']))) ++ rest := by simp
        have hafter := hclosing.2
        rw [hcut, marked_append hfront.closed] at hafter
        exact hafter.right_of_append
      split
      · exact Reading.short_ok _
      · split
        · rename_i z right hleading
          exact (hthree (hrest.of_infix (Connective.marked_of_leading? hleading))).bind fun _ _ =>
            Reading.short_ok _
        · exact Reading.short_malformed
  · exact Reading.short_malformed

lemma logicalRule (htwo : Spares two) (hs : GoodSections ShortSection (marked s)) :
    (Expr.logicalRule two s).Short := by
  unfold Expr.logicalRule
  split
  · rename_i left c right hsplit
    obtain ⟨x, hmarked⟩ := marked_of_splitToken? hsplit
    rw [hmarked] at hs
    exact (htwo hs.left_of_append).bind fun _ _ => (htwo hs.right_of_append.2).bind fun _ _ =>
      Reading.short_ok _
  · exact Reading.short_malformed

lemma implicationRule (hone : Spares one) (hs : GoodSections ShortSection (marked s)) :
    (Expr.implicationRule L one s).Short := by
  unfold Expr.implicationRule
  split
  · rename_i left right hsplit
    rw [marked_of_splitArrow? hsplit] at hs
    split
    · exact Reading.short_malformed
    · exact (hone hs.left_of_append).bind fun _ _ => (hone hs.right_of_append.2.2).bind fun _ _ =>
        Reading.short_ok _
  · exact short_predicateRule _

lemma pathRule (hthree : Spares three) (hs : GoodSections ShortSection (marked s)) :
    (PathExpr.rule three s).Short := by
  have htrim := hs.of_infix (marked_trim s)
  unfold PathExpr.rule
  simp only
  split
  · rename_i m rest hleading
    have hrest := htrim.of_infix (marked_of_leadingSymbol? (fun _ => Modality.mem_operatorChars) hleading)
    exact (hthree hrest).bind fun _ _ => Reading.short_ok _
  · split
    · rename_i left u right hsplit
      obtain ⟨x, hmarked⟩ := marked_of_splitToken? hsplit
      rw [hmarked] at htrim
      exact (hthree htrim.left_of_append).bind fun _ _ => (hthree htrim.right_of_append.2).bind fun _ _ =>
        Reading.short_ok _
    · exact Reading.short_malformed

lemma branchRule (hthree : Spares three) (hs : GoodSections ShortSection (marked s)) :
    (BranchExpr.rule three s).Short := by
  have htrim := hs.of_infix (marked_trim s)
  unfold BranchExpr.rule
  split
  · rename_i b rest hleading
    have hrest := htrim.of_infix (marked_of_leadingSymbol? (fun _ => Branch.mem_operatorChars) hleading)
    exact (hthree.pathRule hrest).bind fun _ _ => Reading.short_ok _
  · exact Reading.short_malformed

lemma rule (hone : Spares one) (htwo : Spares two) (hthree : Spares three) :
    Spares (Expr.rule L one two three) := by
  intro s hs
  have htrim := hs.of_infix (marked_trim s)
  unfold Expr.rule
  generalize trim s = t at htrim
  split
  · exact Reading.short_malformed
  · exact htwo.negationRule (GoodSections.right_of_append (l := [('!', false)]) htrim)
  · exact hthree.boundedRule htrim
  · exact htwo.groupRule hthree htrim
  · split
    · exact (hthree.branchRule htrim).map _
    · exact (htwo.logicalRule htrim).orElse (hone.implicationRule htrim)

end Spares

/-- Whatever the number of levels, no numeral in a text with short sections is too long. -/
theorem spares_readLevels (n : Nat) : Spares (Expr.readLevels L n) := by
  induction n using Nat.strongRecOn with
  | ind n ih =>
    cases n with
    | zero =>
      intro s _
      rw [Expr.readLevels]
      exact Reading.short_malformed
    | succ n =>
      intro s hs
      rw [Expr.readLevels]
      exact Spares.rule (ih n (by omega)) (ih (n - 1) (by omega)) (ih (n - 2) (by omega)) hs

end

end TimedReq
