import TimedReq.Proofs.Bound.Statement
import TimedReq.Proofs.Expr.Cases
import TimedReq.Proofs.Text.Respaced

/-!
# The predicates in a text

A text that is read lays out the texts of its predicates one after the other, with brackets and
operators between them.
-/

namespace TimedReq

open Text

variable {α : Type} {L L' : Embedding α}

/-- Where a text goes on: in front of an operand, perhaps behind a branch quantifier, or behind an
operand, which a bracket may have closed. -/
inductive Position where
  | operand (afterBranch : Bool)
  | behind (closed : Bool)

/-- The operators that stand between operands. -/
def operatorTexts : List Text := [['-', '>'], ['^'], ['V'], ['U'], ['W']]

/-- The operator needs no blanks around it. -/
def Tight (closed : Bool) (o : Text) : Prop := o = ['-', '>'] ∨ closed = true ∧ o ∈ [['^'], ['V']]

/-- What a character in front of an operand makes of the position, if it is an exclamation mark, a
branch quantifier, or a modality behind one. -/
def leadPosition? (afterBranch : Bool) (c : Char) : Option Bool :=
  if c = '!' then some false
  else if (Branch.ofChar? c).isSome then some true
  else if afterBranch && (Modality.ofChar? c).isSome then some false
  else none

/-- What may stand behind a closing bracket: after braces a section follows. -/
inductive Annotated : Char → Text → Text → Prop
  | group (s : Text) : Annotated '(' s s
  | bounded {x y sts : Text} (hx : AllBlank x) (hy : AllBlank y) (hsts : ∀ c ∈ sts, IsPlain c)
    (s : Text) : Annotated '{' (x ++ '_' :: (y ++ '{' :: (sts ++ '}' :: s))) s

/-- The text is left to the embedded language as a whole. -/
structure Embedding.Leaf (L : Embedding α) (afterBranch : Bool) (w : Text) : Prop where
  read : (L.read w).isSome
  trim_eq : trim w = w
  group : ∀ inner, splitGroup? w ≠ some (inner, [])
  branch : leadingSymbol? Branch.ofChar? w = none
  modality : afterBranch = true → leadingSymbol? Modality.ofChar? w = none

/-- From its position on, the text lays out the texts of the predicates. -/
inductive Lays (L : Embedding α) : Position → Text → List Text → Prop
  | nil {k : Bool} {u : Text} (hu : AllBlank u) : Lays L (.behind k) u []
  | leaf {b : Bool} {u w s : Text} {ws : List Text} (hu : AllBlank u) (hw : L.Leaf b w)
    (h : Lays L (.behind false) s ws) : Lays L (.operand b) (u ++ (w ++ s)) (w :: ws)
  | lead {b b' : Bool} {u s : Text} {c : Char} {ws : List Text} (hu : AllBlank u)
    (hc : leadPosition? b c = some b') (hs : c = '!' ∨ startsBlank s = true)
    (h : Lays L (.operand b') s ws) : Lays L (.operand b) (u ++ c :: s) ws
  | bracket {b : Bool} {u inner t s : Text} {o c : Char} {ws ws' : List Text} (hu : AllBlank u)
    (hc : closer? o = some c) (hin : Lays L (.operand false) inner ws) (ht : Annotated o t s)
    (h : Lays L (.behind true) s ws') :
    Lays L (.operand b) (u ++ o :: (inner ++ c :: t)) (ws ++ ws')
  | operator {k : Bool} {u s o : Text} {ws : List Text} (hu : AllBlank u) (ho : o ∈ operatorTexts)
    (hfree : ¬Tight k o → u ≠ [] ∧ startsBlank s = true) (h : Lays L (.operand false) s ws) :
    Lays L (.behind k) (u ++ (o ++ s)) ws

lemma mem_of_leadPosition? {b b' : Bool} {c : Char} (h : leadPosition? b c = some b') :
    c = '!' ∨ c ∈ operatorChars := by
  unfold leadPosition? at h
  split at h
  · exact .inl ‹_›
  · split at h
    · exact .inr (Branch.mem_operatorChars ‹_›)
    · split at h
      · rename_i hc
        exact .inr (Modality.mem_operatorChars (Bool.and_eq_true_iff.mp hc).2)
      · simp at h

lemma not_blank_of_leadPosition? {b b' : Bool} {c : Char} (h : leadPosition? b c = some b') :
    isBlank c = false := by
  rcases mem_of_leadPosition? h with rfl | hc
  · rfl
  · exact not_blank_of_mem_operatorChars hc

lemma Annotated.append {o : Char} {t s : Text} (h : Annotated o t s) (r : Text) :
    Annotated o (t ++ r) (s ++ r) := by
  cases h with
  | group => exact .group _
  | bounded hx hy hsts =>
    have hall := Annotated.bounded hx hy hsts (s ++ r)
    simpa using hall

lemma Annotated.endsBlank {o : Char} {t s : Text} (h : Annotated o t s) :
    endsBlank false t = endsBlank false s := by
  cases h with
  | group => rfl
  | bounded =>
    simp only [Text.endsBlank, endsBlank_append]
    rfl

/-- A section ends in one way only. -/
lemma Annotated.unique {o : Char} {t s s' : Text} (h : Annotated o t s) (h' : Annotated o t s') :
    s = s' := by
  generalize ho : o = o' at h'
  generalize htext : t = t' at h'
  cases h with
  | group =>
    cases h' with
    | group => exact htext
    | bounded => exact absurd ho (by decide)
  | @bounded x y sts hx hy hsts =>
    cases h' with
    | group => exact absurd ho (by decide)
    | @bounded x' y' sts' hx' hy' hsts' =>
      obtain ⟨rfl, -, hbrace⟩ := eq_of_blank_append hx hx' rfl rfl htext
      obtain ⟨rfl, -, hrest⟩ := eq_of_blank_append hy hy' rfl rfl hbrace
      have habsent : ∀ {w : Text}, (∀ c ∈ w, IsPlain c) → '}' ∉ w := fun hw hmem =>
        (hw '}' hmem).2.2.2.2.2 rfl
      exact (eq_of_append_cons (habsent hsts) (habsent hsts') hrest).2

lemma Embedding.Leaf.ne_nil {b : Bool} {w : Text} (h : L.Leaf b w) : w ≠ [] := by
  rintro rfl
  exact absurd h.read (by simp [Embedding.read, trim, trimEnd, trimStart])

/-- A leaf begins with a character other than a blank. -/
lemma Embedding.Leaf.exists_cons {b : Bool} {w : Text} (h : L.Leaf b w) :
    ∃ c v, w = c :: v ∧ isBlank c = false := by
  obtain ⟨c, v, rfl⟩ := List.exists_cons_of_ne_nil h.ne_nil
  exact ⟨c, v, rfl, not_blank_of_trim_eq_cons h.trim_eq⟩

lemma not_blank_of_mem_operatorTexts {o : Text} (ho : o ∈ operatorTexts) :
    ∃ c r, o = c :: r ∧ isBlank c = false ∧ ∀ a, endsBlank a o = false := by
  simp only [operatorTexts, List.mem_cons, List.not_mem_nil, or_false] at ho
  rcases ho with rfl | rfl | rfl | rfl | rfl <;> exact ⟨_, _, rfl, rfl, fun _ => rfl⟩

namespace Lays

variable {position : Position} {s t : Text} {ws ws' : List Text}

lemma read (h : Lays L position s ws) : ∀ w ∈ ws, (L.read w).isSome := by
  induction h with
  | nil => simp
  | leaf _ hw _ ih => simpa using ⟨hw.read, ih⟩
  | lead _ _ _ _ ih => exact ih
  | bracket _ _ _ _ _ ih ih' =>
    intro w hw
    exact (List.mem_append.mp hw).elim (ih w) (ih' w)
  | operator _ _ _ _ ih => exact ih

/-- Another language that reads the predicates lays out the same. -/
lemma change (h : Lays L position s ws) (hws : ∀ w ∈ ws, (L'.read w).isSome) :
    Lays L' position s ws := by
  induction h with
  | nil hu => exact .nil hu
  | leaf hu hw _ ih =>
    refine .leaf hu ⟨hws _ List.mem_cons_self, hw.trim_eq, hw.group, hw.branch, hw.modality⟩ ?_
    exact ih fun v hv => hws v (List.mem_cons_of_mem _ hv)
  | lead hu hc hs _ ih => exact .lead hu hc hs (ih hws)
  | bracket hu hc _ ht _ ih ih' =>
    exact .bracket hu hc (ih fun v hv => hws v (List.mem_append_left _ hv)) ht
      (ih' fun v hv => hws v (List.mem_append_right _ hv))
  | operator hu ho hfree _ ih => exact .operator hu ho hfree (ih hws)

lemma pad {b : Bool} {u : Text} (hu : AllBlank u) (h : Lays L (.operand b) s ws) :
    Lays L (.operand b) (u ++ s) ws := by
  generalize hposition : Position.operand b = position at h
  cases h with
  | nil | operator => simp at hposition
  | leaf hv hw h =>
    rw [← List.append_assoc]
    exact .leaf (hu.append hv) hw h
  | lead hv hc hs h =>
    rw [← List.append_assoc]
    exact .lead (hu.append hv) hc hs h
  | bracket hv hc hin ht h =>
    rw [← List.append_assoc]
    exact .bracket (hu.append hv) hc hin ht h

/-- What goes on behind a text, whatever blanks end the text, is laid out behind it. -/
lemma append (h : Lays L position s ws)
    (ht : ∀ k u, AllBlank u → (endsBlank false s = true → u ≠ []) →
      Lays L (.behind k) (u ++ t) ws') :
    Lays L position (s ++ t) (ws ++ ws') := by
  induction h with
  | @nil k u hu =>
    refine ht k u hu ?_
    rintro hb rfl
    exact absurd hb (by simp [endsBlank])
  | @leaf b u w s ws hu hw _ ih =>
    have hend : endsBlank false (u ++ (w ++ s)) = endsBlank false s := by
      rw [endsBlank_append, endsBlank_append, endsBlank_of_trim_eq hw.trim_eq hw.ne_nil]
    rw [hend] at ht
    rw [List.append_assoc, List.append_assoc]
    exact .leaf hu hw (ih ht)
  | @lead b b' u s c ws hu hc hs _ ih =>
    have hend : endsBlank false (u ++ c :: s) = endsBlank false s := by
      rw [endsBlank_append, endsBlank, not_blank_of_leadPosition? hc]
    rw [hend] at ht
    rw [List.append_assoc, List.cons_append]
    refine .lead hu hc (hs.imp id fun hstart => ?_) (ih ht)
    rcases s with _ | ⟨d, s⟩
    · simp [startsBlank] at hstart
    · exact hstart
  | @bracket b u inner t' s o c ws ws₁ hu hc hin hnote _ _ ih =>
    have hblank : isBlank c = false := by
      obtain ⟨rfl, rfl⟩ | ⟨rfl, rfl⟩ := closer?_eq_some.mp hc <;> rfl
    have hend : endsBlank false (u ++ o :: (inner ++ c :: t')) = endsBlank false s := by
      rw [endsBlank_append, endsBlank, endsBlank_append, endsBlank, hblank, hnote.endsBlank]
    rw [hend] at ht
    rw [List.append_assoc, List.cons_append, List.append_assoc, List.cons_append, List.append_assoc]
    exact .bracket hu hc hin (hnote.append t) (ih ht)
  | @operator k u s o ws hu ho hfree _ ih =>
    obtain ⟨-, -, -, -, hob⟩ := not_blank_of_mem_operatorTexts ho
    have hend : endsBlank false (u ++ (o ++ s)) = endsBlank false s := by
      rw [endsBlank_append, endsBlank_append, hob]
    rw [hend] at ht
    rw [List.append_assoc, List.append_assoc]
    refine .operator hu ho (fun h => ?_) (ih ht)
    obtain ⟨hne, hstart⟩ := hfree h
    refine ⟨hne, ?_⟩
    rcases s with _ | ⟨d, s⟩
    · simp [startsBlank] at hstart
    · exact hstart

lemma padEnd {v : Text} (h : Lays L position s ws) (hv : AllBlank v) :
    Lays L position (s ++ v) ws := by
  have hall : Lays L position (s ++ v) (ws ++ []) := h.append fun k u hu _ => .nil (hu.append hv)
  rwa [List.append_nil] at hall

/-- A trimmed text may be padded again. -/
lemma of_trim {b : Bool} (h : Lays L (.operand b) (trim s) ws) : Lays L (.operand b) s ws := by
  obtain ⟨u, v, hu, hv, heq⟩ := Text.exists_trim s
  rw [heq, List.append_assoc]
  exact (h.padEnd hv).pad hu

/-- Two operands with an operator between them. -/
lemma binary {o : Text} (h : Lays L position s ws) (ho : o ∈ operatorTexts)
    (hfree : o = ['-', '>'] ∨ endsBlank false s = true ∧ startsBlank t = true)
    (ht : Lays L (.operand false) t ws') : Lays L position (s ++ (o ++ t)) (ws ++ ws') := by
  refine h.append fun k u hu hne => .operator hu ho (fun htight => ?_) ht
  obtain rfl | ⟨hend, hstart⟩ := hfree
  · exact absurd (.inl rfl) htight
  · exact ⟨hne hend, hstart⟩

/-- Behind a branch quantifier an operand is one as elsewhere, unless a modality begins it. -/
lemma afterBranch {r : Text} (h : Lays L (.operand false) s ws)
    (hs : ∀ c ∈ s.head?, isBlank c = false)
    (hmodality : leadingSymbol? Modality.ofChar? (s ++ r) = none) :
    Lays L (.operand true) s ws := by
  generalize hposition : Position.operand false = position at h
  cases h with
  | nil | operator => simp at hposition
  | @leaf b u w s ws hu hw h =>
    obtain rfl : false = b := by simpa using hposition
    refine .leaf hu ⟨hw.read, hw.trim_eq, hw.group, hw.branch, fun _ => ?_⟩ h
    rcases u with _ | ⟨d, u⟩
    · rcases w with _ | ⟨c, _ | ⟨e, w⟩⟩
      · rfl
      · rfl
      · simpa [leadingSymbol?] using hmodality
    · have hd := hs d rfl
      rw [hu.of_cons.1] at hd
      exact absurd hd (by simp)
  | @lead b b' u s c ws hu hc hstart h =>
    obtain rfl : false = b := by simpa using hposition
    refine .lead hu ?_ hstart h
    unfold leadPosition? at hc ⊢
    split at hc
    · rwa [if_pos ‹_›]
    · rw [if_neg ‹_›]
      split at hc
      · rwa [if_pos ‹_›]
      · simp at hc
  | bracket hu hc hin hnote h => exact .bracket hu hc hin hnote h

end Lays

/-! ### What is read is laid out -/

/-- The part is read, and some of the texts are laid out in it. -/
def PartOf (L : Embedding α) (ws : List Text) (f : Text → Expr α → Prop) (s : Text) (e : Expr α) :
    Prop :=
  f s e ∧ ∃ vs, Lays L (.operand false) s vs ∧ vs ⊆ ws

section

variable {leaf : Text → α → Prop} {one two three : Text → Expr α → Prop} {unsplit : Text → Prop}
  {t : Text} {e : Expr α}

lemma mem_operatorTexts (c : Connective) : c.symbol ∈ operatorTexts := by
  cases c <;> decide

lemma mem_operatorTexts_until (u : Until) : [u.symbol] ∈ operatorTexts := by
  cases u <;> decide

lemma tight_connective (c : Connective) : Tight true c.symbol := by
  cases c
  · exact .inl rfl
  all_goals exact .inr ⟨rfl, by decide⟩

lemma leadPosition?_branch (k : Bool) (b : Branch) : leadPosition? k b.symbol = some true := by
  cases b <;> rfl

lemma leadPosition?_modality (m : Modality) : leadPosition? true m.symbol = some false := by
  cases m <;> rfl

/-- A connective behind a closing bracket. -/
lemma Lays.tail {after right : Text} {c : Connective} {ws : List Text}
    (h : Lays L (.operand false) right ws)
    (hleading : Connective.leading? (trim after) = some (c, right)) :
    Lays L (.behind true) after ws := by
  obtain ⟨u, v, hu, hv, rfl⟩ := Connective.exists_of_leading? hleading
  exact .operator hu (mem_operatorTexts c) (fun htight => absurd (tight_connective c) htight)
    (h.padEnd hv)

/-- A text that is split at a connective between blanks. -/
lemma Lays.split {position : Position} {left right : Text} {c : Connective} {ws vs : List Text}
    (h : Lays L position left ws) (hcut : splitToken? Connective.ofChar? t = some (left, c, right))
    (h' : Lays L (.operand false) right vs) : Lays L position t (ws ++ vs) := by
  obtain ⟨d, rfl, hd, hleft, hright⟩ := eq_of_cutAtToken hcut
  have hall := h.binary (mem_operatorTexts c) (.inr ⟨hleft, hright⟩) h'
  rwa [Connective.symbol_of_ofChar? hd] at hall

/-- A text that is read lays out the predicates of its parts. -/
theorem ReadBy.laid (h : ReadBy leaf one two three unsplit t e) (ht : trim t = t)
    (hleaf : ∀ {w p}, leaf w p → (L.read w).isSome)
    (hone : ∀ {s x}, one s x → ∃ ws, Lays L (.operand false) s ws)
    (htwo : ∀ {s x}, two s x → ∃ ws, Lays L (.operand false) s ws)
    (hthree : ∀ {s x}, three s x → ∃ ws, Lays L (.operand false) s ws) :
    ∃ ws, Lays L (.operand false) t ws ∧
      ReadBy (fun w p => leaf w p ∧ w ∈ ws) (PartOf L ws one) (PartOf L ws two) (PartOf L ws three)
        unsplit t e := by
  have hnone : ∀ {c : Char} {s : Text}, c = '{' ∨ c = '(' →
      leadingSymbol? Branch.ofChar? (c :: s) = none := by
    intro c s hc
    rcases s with _ | ⟨b, s⟩
    · rfl
    · rcases hc with rfl | rfl <;> simp [leadingSymbol?, Branch.ofChar?]
  have hleafText : ∀ {w : Text}, L.Leaf false w → Lays L (.operand false) w [w] := by
    intro w hw
    have hall := Lays.leaf (u := []) (s := []) .nil hw (.nil .nil)
    rwa [List.append_nil] at hall
  cases h with
  | @negation t body hbody hword =>
    obtain ⟨ws, hws⟩ := htwo hbody
    have hmark : leadPosition? false '!' = some false := rfl
    exact ⟨ws, .lead (u := []) .nil hmark (.inl rfl) hws.of_trim,
      .negation ⟨hbody, ws, hws, List.Subset.refl ws⟩ hword⟩
  | bounded hcut hx hy hsts hbody hparse hrest =>
    obtain ⟨close, hclose, rfl⟩ := eq_of_splitGroup? hcut
    obtain ⟨ws, hws⟩ := hthree hbody
    have hplain := Statement.isPlain_of_parseAll_trimEnd hparse
    refine ⟨ws ++ [], .bracket (u := []) .nil hclose hws (.bounded hx hy hplain _)
      (.nil (allBlank_of_trim_eq_nil hrest)), ?_⟩
    exact .bounded hcut hx hy hsts ⟨hbody, ws, hws, List.subset_append_left ws []⟩ hparse hrest
  | boundedTail hcut hx hy hsts hbody hparse hleading hrhs =>
    obtain ⟨close, hclose, rfl⟩ := eq_of_splitGroup? hcut
    obtain ⟨ws, hws⟩ := hthree hbody
    obtain ⟨vs, hvs⟩ := hthree hrhs
    have hplain := Statement.isPlain_of_parseAll_trimEnd hparse
    refine ⟨ws ++ vs, .bracket (u := []) .nil hclose hws (.bounded hx hy hplain _)
      (hvs.tail hleading), ?_⟩
    exact .boundedTail hcut hx hy hsts ⟨hbody, ws, hws, List.subset_append_left ws vs⟩ hparse
      hleading ⟨hrhs, vs, hvs, List.subset_append_right ws vs⟩
  | group hcut hbody =>
    obtain ⟨close, hclose, rfl⟩ := eq_of_splitGroup? hcut
    obtain ⟨ws, hws⟩ := htwo hbody
    refine ⟨ws ++ [], .bracket (u := []) .nil hclose hws (.group _) (.nil .nil), ?_⟩
    exact .group hcut ⟨hbody, ws, hws, List.subset_append_left ws []⟩
  | groupTail hcut hbody hleading hrhs =>
    obtain ⟨close, hclose, rfl⟩ := eq_of_splitGroup? hcut
    obtain ⟨ws, hws⟩ := htwo hbody
    obtain ⟨vs, hvs⟩ := hthree hrhs
    refine ⟨ws ++ vs, .bracket (u := []) .nil hclose hws (.group _) (hvs.tail hleading), ?_⟩
    exact .groupTail hcut ⟨hbody, ws, hws, List.subset_append_left ws vs⟩ hleading
      ⟨hrhs, vs, hvs, List.subset_append_right ws vs⟩
  | @bracketed t inner after p hcut hne hleading hread =>
    refine ⟨['(' :: t], hleafText ⟨hleaf hread, ht, ?_, hnone (.inr rfl), by simp⟩, ?_⟩
    · intro inner' hwhole
      rw [hcut] at hwhole
      exact hne (Prod.mk.inj (Option.some.inj hwhole)).2
    · exact .bracketed hcut hne hleading ⟨hread, List.mem_singleton.mpr rfl⟩
  | along hbranch hmodality hbody =>
    obtain ⟨ws, hws⟩ := hthree hbody
    refine ⟨ws, ?_, .along hbranch hmodality ⟨hbody, ws, hws, List.Subset.refl ws⟩⟩
    obtain ⟨c, rfl, hc, hstart⟩ := eq_of_leadingSymbol? hbranch
    obtain ⟨d, hpath, hd, hstart'⟩ := eq_of_leadingSymbol? hmodality
    obtain rfl := Branch.symbol_of_ofChar? hc
    obtain rfl := Modality.symbol_of_ofChar? hd
    refine .lead (u := []) .nil (leadPosition?_branch false _) (.inr hstart) (.of_trim ?_)
    rw [hpath]
    exact .lead (u := []) .nil (leadPosition?_modality _) (.inr hstart') hws
  | «until» hbranch hmodality hcut hlhs hrhs =>
    obtain ⟨ws, hws⟩ := hthree hlhs
    obtain ⟨vs, hvs⟩ := hthree hrhs
    refine ⟨ws ++ vs, ?_, .until hbranch hmodality hcut
      ⟨hlhs, ws, hws, List.subset_append_left ws vs⟩
      ⟨hrhs, vs, hvs, List.subset_append_right ws vs⟩⟩
    obtain ⟨c, rfl, hc, hstart⟩ := eq_of_leadingSymbol? hbranch
    obtain ⟨d, hpath, hd, hleft, hright⟩ := eq_of_cutAtToken hcut
    obtain rfl := Branch.symbol_of_ofChar? hc
    obtain rfl := Until.symbol_of_ofChar? hd
    refine .lead (u := []) .nil (leadPosition?_branch false _) (.inr hstart) (.of_trim ?_)
    rw [hpath] at hmodality ⊢
    refine (hws.afterBranch ?_ hmodality).binary (mem_operatorTexts_until _) (.inr ⟨hleft, hright⟩)
      hvs
    intro c hc
    obtain ⟨l, rfl⟩ := List.head?_eq_some_iff.mp hc
    exact not_blank_of_trim_eq_cons hpath
  | logical hbare hcut hlhs hrhs =>
    obtain ⟨ws, hws⟩ := htwo hlhs
    obtain ⟨vs, hvs⟩ := htwo hrhs
    exact ⟨ws ++ vs, hws.split hcut hvs, .logical hbare hcut
      ⟨hlhs, ws, hws, List.subset_append_left ws vs⟩
      ⟨hrhs, vs, hvs, List.subset_append_right ws vs⟩⟩
  | arrow hbare hno hcut hleft hright hlhs hrhs =>
    obtain ⟨ws, hws⟩ := hone hlhs
    obtain ⟨vs, hvs⟩ := hone hrhs
    refine ⟨ws ++ vs, ?_, .arrow hbare hno hcut hleft hright
      ⟨hlhs, ws, hws, List.subset_append_left ws vs⟩
      ⟨hrhs, vs, hvs, List.subset_append_right ws vs⟩⟩
    rw [eq_of_cutAtArrow hcut]
    exact hws.binary (mem_operatorTexts .implies) (.inl rfl) hvs
  | predicate hbare hno hcut hread =>
    refine ⟨[t], hleafText ⟨hleaf hread, ht, ?_, hbare.leadingSymbol?, by simp⟩,
      .predicate hbare hno hcut ⟨hread, List.mem_singleton.mpr rfl⟩⟩
    intro inner hwhole
    obtain ⟨c, s, rfl⟩ := List.exists_cons_of_ne_nil hbare.ne_nil
    obtain ⟨-, hbrace, hgroup⟩ := hbare.head c rfl
    obtain ⟨close, hclose, -⟩ := eq_of_splitGroup? hwhole
    obtain ⟨rfl, rfl⟩ | ⟨rfl, rfl⟩ := closer?_eq_some.mp hclose
    · exact hgroup rfl
    · exact hbrace rfl

end

end TimedReq
