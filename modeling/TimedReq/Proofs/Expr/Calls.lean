import TimedReq.Proofs.Expr.Cases

/-!
# Calls among rules

Each rule hands parts of its text to other rules. A rule and the ones that it calls are one level
apart, so the depth of a rule is the number of calls that lead to it. Between two expressions on the
way at least as many characters are taken off the text as half the calls, rounded up: on a text of
`n` characters no way of calls is longer than `2 * n`, and from that depth on the number of levels
makes no difference.
-/

namespace TimedReq

open Text

variable {α : Type} {L : Embedding α}

/-- A rule with the text that it is called with. `tail` is called with what follows a connective
behind a group or a bounded expression. -/
inductive RuleCall where
  | expression (s : Text)
  | negation (s : Text)
  | group (s : Text)
  | boundedOperation (s : Text)
  | bounded (s : Text)
  | tail (s : Text)
  | branch (s : Text)
  | path (s : Text)
  | logical (s : Text)

/-- The second call may be made by the rule of the first, whatever the parts are read as. -/
inductive Calls : RuleCall → RuleCall → Prop
  | negation {s t : Text} (h : trim s = '!' :: t) : Calls (.expression s) (.negation t)
  | negated (s : Text) : Calls (.negation s) (.expression (trim s))
  | group {s t : Text} (h : trim s = '(' :: t) : Calls (.expression s) (.group (trim s))
  | grouped {s inner after : Text} (h : splitGroup? s = some (inner, after)) :
    Calls (.group s) (.expression inner)
  | groupTail {s inner after right : Text} {c : Connective}
    (h : splitGroup? s = some (inner, after))
    (hc : Connective.leading? (trim after) = some (c, right)) : Calls (.group s) (.tail right)
  | boundedOperation {s t : Text} (h : trim s = '{' :: t) :
    Calls (.expression s) (.boundedOperation (trim s))
  | bounded {s whole remaining : Text} (h : BoundedExpr.split? s = some (whole, remaining)) :
    Calls (.boundedOperation s) (.bounded whole)
  | body {s inner after : Text} (h : splitGroup? (trim s) = some (inner, after)) :
    Calls (.bounded s) (.expression inner)
  | boundedTail {s whole remaining right : Text} {c : Connective}
    (h : BoundedExpr.split? s = some (whole, remaining))
    (hc : Connective.leading? remaining = some (c, right)) :
    Calls (.boundedOperation s) (.tail right)
  | operand (s : Text) : Calls (.tail s) (.expression s)
  | branch {s : Text} (h : (leadingSymbol? Branch.ofChar? (trim s)).isSome) :
    Calls (.expression s) (.branch (trim s))
  | path {s rest : Text} {b : Branch}
    (h : leadingSymbol? Branch.ofChar? (trim s) = some (b, rest)) : Calls (.branch s) (.path rest)
  | along {s rest : Text} {m : Modality}
    (h : leadingSymbol? Modality.ofChar? (trim s) = some (m, rest)) :
    Calls (.path s) (.expression rest)
  | until {s left right t : Text} {u : Until}
    (h : splitToken? Until.ofChar? (trim s) = some (left, u, right)) (ht : t = left ∨ t = right) :
    Calls (.path s) (.expression t)
  | logical {s : Text} (h : trim s ≠ []) : Calls (.expression s) (.logical (trim s))
  | conjunct {s left right t : Text} {c : Connective}
    (h : splitToken? Connective.ofChar? s = some (left, c, right)) (ht : t = left ∨ t = right) :
    Calls (.logical s) (.expression t)
  | arrow {s left right t : Text} (h : splitArrow? (trim s) = some (left, right))
    (ht : t = left ∨ t = right) : Calls (.expression s) (.expression t)

/-- The number of calls that there is room for below a call. -/
def RuleCall.room : RuleCall → Nat
  | expression s => 2 * s.length
  | negation s | tail s => 2 * s.length + 1
  | group s | boundedOperation s | branch s | logical s => 2 * s.length - 1
  | bounded s => 2 * s.length - 2
  | path s => 2 * s.length

/-! ### Lengths of pieces -/

lemma length_trim_le (s : Text) : (trim s).length ≤ s.length := by
  obtain ⟨u, v, -, -, heq⟩ := exists_trim s
  have hlength := congrArg List.length heq
  simp only [List.length_append] at hlength
  omega

lemma length_of_splitGroup? {s inner after : Text} (h : splitGroup? s = some (inner, after)) :
    inner.length + after.length + 2 = s.length := by
  rcases s with _ | ⟨c, s⟩
  · simp [splitGroup?] at h
  · obtain ⟨close, -, rfl⟩ := eq_of_splitGroup? h
    simp only [List.length_cons, List.length_append]
    omega

lemma length_of_splitToken? {β : Type} {symbol? : Char → Option β} {s l r : Text} {x : β}
    (h : splitToken? symbol? s = some (l, x, r)) : l.length + r.length + 1 = s.length := by
  obtain ⟨c, rfl, -⟩ := eq_of_cutAtToken h
  simp only [List.length_cons, List.length_append]
  omega

lemma length_of_splitArrow? {s l r : Text} (h : splitArrow? s = some (l, r)) :
    l.length + r.length + 2 = s.length := by
  rw [eq_of_cutAtArrow h]
  simp only [List.length_cons, List.length_append]
  omega

lemma length_of_leadingSymbol? {β : Type} {symbol? : Char → Option β} {s r : Text} {x : β}
    (h : leadingSymbol? symbol? s = some (x, r)) : r.length + 1 = s.length := by
  obtain ⟨c, rfl, -⟩ := eq_of_leadingSymbol? h
  rfl

lemma Connective.length_of_leading? {c : Connective} {s r : Text} (h : leading? s = some (c, r)) :
    r.length + 1 ≤ s.length := by
  rw [eq_of_leading? h]
  cases c <;> simp [symbol]

lemma BoundedExpr.length_of_split? {s whole remaining : Text}
    (h : split? s = some (whole, remaining)) :
    2 ≤ whole.length ∧ whole.length + remaining.length ≤ s.length := by
  obtain ⟨inner, x, y, sts, rest, rfl, hcut, hx, hy, hsts, -, -⟩ := eq_of_split? (α := Unit) h
  rw [split?_eq hcut hx hy hsts] at h
  obtain ⟨rfl, rfl⟩ := Prod.mk.inj (Option.some.inj h)
  have htrim := length_trim_le rest
  simp only [List.length_cons, List.length_append, List.length_nil]
  omega

/-- A call takes from the room. -/
theorem Calls.room_lt {c c' : RuleCall} (h : Calls c c') : c'.room < c.room := by
  cases h with
  | @negation s t h =>
    have htrim := length_trim_le s
    rw [h, List.length_cons] at htrim
    simp only [RuleCall.room]
    omega
  | negated s =>
    have htrim := length_trim_le s
    simp only [RuleCall.room]
    omega
  | @group s t h | @boundedOperation s t h =>
    have htrim := length_trim_le s
    have hlength := congrArg List.length h
    rw [List.length_cons] at hlength
    simp only [RuleCall.room]
    omega
  | grouped h =>
    have hlength := length_of_splitGroup? h
    simp only [RuleCall.room]
    omega
  | @groupTail s inner after right c h hc =>
    have hlength := length_of_splitGroup? h
    have htrim := length_trim_le after
    have hright := Connective.length_of_leading? hc
    simp only [RuleCall.room]
    omega
  | bounded h =>
    obtain ⟨htwo, hlength⟩ := BoundedExpr.length_of_split? h
    simp only [RuleCall.room]
    omega
  | @body s inner after h =>
    have htrim := length_trim_le s
    have hlength := length_of_splitGroup? h
    simp only [RuleCall.room]
    omega
  | boundedTail h hc =>
    obtain ⟨htwo, hlength⟩ := BoundedExpr.length_of_split? h
    have hright := Connective.length_of_leading? hc
    simp only [RuleCall.room]
    omega
  | operand s =>
    simp only [RuleCall.room]
    omega
  | @branch s h =>
    have htrim := length_trim_le s
    obtain ⟨⟨b, rest⟩, hb⟩ := Option.isSome_iff_exists.mp h
    have hlength := length_of_leadingSymbol? hb
    simp only [RuleCall.room]
    omega
  | @path s rest b h | @along s rest m h =>
    have htrim := length_trim_le s
    have hlength := length_of_leadingSymbol? h
    simp only [RuleCall.room]
    omega
  | @«until» s left right t u h ht =>
    have htrim := length_trim_le s
    have hlength := length_of_splitToken? h
    simp only [RuleCall.room]
    rcases ht with rfl | rfl <;> omega
  | @logical s h =>
    have htrim := length_trim_le s
    have hpos := List.length_pos_iff.mpr h
    simp only [RuleCall.room]
    omega
  | conjunct h ht =>
    have hlength := length_of_splitToken? h
    simp only [RuleCall.room]
    rcases ht with rfl | rfl <;> omega
  | @arrow s left right t h ht =>
    have htrim := length_trim_le s
    have hlength := length_of_splitArrow? h
    simp only [RuleCall.room]
    rcases ht with rfl | rfl <;> omega

/-- A way of calls is no longer than there is room. -/
theorem Calls.length_le_room {c : RuleCall} {cs : List RuleCall} (h : List.IsChain Calls (c :: cs)) :
    cs.length ≤ c.room := by
  induction cs generalizing c with
  | nil => exact Nat.zero_le _
  | cons c' cs ih =>
    obtain ⟨hc, hcs⟩ := List.isChain_cons_cons.mp h
    have hstep := hc.room_lt
    have hrest := ih hcs
    rw [List.length_cons]
    omega

/-! ### Rules and their calls -/

section

variable {one two three one' two' three' : Text → Reading (Expr α)} {s : Text}

lemma negationRule_congr {t : Text} (htwo : ∀ u, Calls (.negation t) (.expression u) → two u = two' u) :
    Expr.negationRule two t = Expr.negationRule two' t := by
  unfold Expr.negationRule
  simp only [htwo _ (.negated t)]

lemma groupRule_congr {t : Text} (htwo : ∀ u, Calls (.group t) (.expression u) → two u = two' u)
    (hthree : ∀ u, Calls (.group t) (.tail u) → three u = three' u) :
    Expr.groupRule L two three t = Expr.groupRule L two' three' t := by
  unfold Expr.groupRule
  split
  · rename_i inner hcut
    rw [htwo _ (.grouped hcut)]
  · rename_i inner after _ hcut
    split
    · rename_i c right hleading
      rw [htwo _ (.grouped hcut), hthree _ (.groupTail hcut hleading)]
    · rfl
  · rfl

lemma bounded_rule_congr {t : Text}
    (hbody : ∀ u, Calls (.bounded t) (.expression u) → three u = three' u) :
    BoundedExpr.rule three t = BoundedExpr.rule three' t := by
  unfold BoundedExpr.rule
  simp only
  split
  · split
    · rename_i inner after hcut
      rw [hbody _ (.body hcut)]
    · rfl
  · rfl

lemma boundedRule_congr {t : Text}
    (hbody : ∀ u v, Calls (.boundedOperation t) (.bounded u) → Calls (.bounded u) (.expression v) →
      three v = three' v)
    (htail : ∀ u, Calls (.boundedOperation t) (.tail u) → three u = three' u) :
    Expr.boundedRule three t = Expr.boundedRule three' t := by
  unfold Expr.boundedRule
  split
  · rename_i whole remaining hsplit
    rw [bounded_rule_congr fun v => hbody whole v (.bounded hsplit)]
    split
    · rfl
    · split
      · rename_i c right hleading
        rw [htail _ (.boundedTail hsplit hleading)]
      · rfl
  · rfl

lemma path_rule_congr {t : Text}
    (hthree : ∀ u, Calls (.path t) (.expression u) → three u = three' u) :
    PathExpr.rule three t = PathExpr.rule three' t := by
  unfold PathExpr.rule
  simp only
  split
  · rename_i m rest hleading
    rw [hthree _ (.along hleading)]
  · split
    · rename_i left u right hcut
      rw [hthree _ (.until hcut (.inl rfl)), hthree _ (.until hcut (.inr rfl))]
    · rfl

lemma branch_rule_congr {t : Text}
    (hthree : ∀ u v, Calls (.branch t) (.path u) → Calls (.path u) (.expression v) →
      three v = three' v) : BranchExpr.rule three t = BranchExpr.rule three' t := by
  unfold BranchExpr.rule
  split
  · rename_i b rest hleading
    rw [path_rule_congr fun v => hthree rest v (.path hleading)]
  · rfl

lemma logicalRule_congr {t : Text}
    (htwo : ∀ u, Calls (.logical t) (.expression u) → two u = two' u) :
    Expr.logicalRule two t = Expr.logicalRule two' t := by
  unfold Expr.logicalRule
  split
  · rename_i left c right hcut
    rw [htwo _ (.conjunct hcut (.inl rfl)), htwo _ (.conjunct hcut (.inr rfl))]
  · rfl

lemma implicationRule_congr
    (hone : ∀ u, Calls (.expression s) (.expression u) → one u = one' u) :
    Expr.implicationRule L one (trim s) = Expr.implicationRule L one' (trim s) := by
  unfold Expr.implicationRule
  split
  · rename_i left right hcut
    rw [hone _ (.arrow hcut (.inl rfl)), hone _ (.arrow hcut (.inr rfl))]
  · rfl

/-- The readers of the parts are asked for no text but those that calls lead to: in one call, in two
or in three. -/
theorem rule_congr (hone : ∀ t, Calls (.expression s) (.expression t) → one t = one' t)
    (htwo : ∀ c t, Calls (.expression s) c → Calls c (.expression t) → two t = two' t)
    (hthree : ∀ c c' t, Calls (.expression s) c → Calls c c' → Calls c' (.expression t) →
      three t = three' t) :
    Expr.rule L one two three s = Expr.rule L one' two' three' s := by
  have hchosen := chosen (trim s)
  generalize hs : trim s = t at hchosen
  cases hchosen with
  | none => rw [rule_eq_malformed hs, rule_eq_malformed hs]
  | negation =>
    rw [rule_eq_negation hs, rule_eq_negation hs,
      negationRule_congr fun u => htwo _ u (.negation hs)]
  | bounded =>
    have hcall := hs ▸ Calls.boundedOperation hs
    rw [rule_eq_bounded hs, rule_eq_bounded hs]
    exact boundedRule_congr (fun u v => hthree _ (.bounded u) v hcall)
      fun u hu => hthree _ (.tail u) u hcall hu (.operand u)
  | group =>
    have hcall := hs ▸ Calls.group hs
    rw [rule_eq_group hs, rule_eq_group hs]
    exact groupRule_congr (fun u => htwo _ u hcall)
      fun u hu => hthree _ (.tail u) u hcall hu (.operand u)
  | branch hb =>
    subst hs
    rw [rule_eq_branch hb, rule_eq_branch hb,
      branch_rule_congr fun u v => hthree _ (.path u) v (.branch (by rw [hb]; rfl))]
  | bare hbare =>
    subst hs
    rw [hbare.rule_eq, hbare.rule_eq,
      logicalRule_congr fun u => htwo _ u (.logical hbare.ne_nil), implicationRule_congr hone]

end

/-- Where there are more levels than the text has room for calls, their number does not matter. -/
theorem readLevels_eq_of_room {n n' : Nat} {s : Text} (h : (RuleCall.expression s).room < n)
    (h' : (RuleCall.expression s).room < n') :
    Expr.readLevels L n s = Expr.readLevels L n' s := by
  induction n using Nat.strongRecOn generalizing n' s with
  | ind n ih =>
    obtain ⟨k, rfl⟩ : ∃ k, n = k + 1 := ⟨n - 1, by omega⟩
    obtain ⟨k', rfl⟩ : ∃ k', n' = k' + 1 := ⟨n' - 1, by omega⟩
    rw [Expr.readLevels, Expr.readLevels]
    refine rule_congr ?_ ?_ ?_
    · intro t hcall
      have hlt := hcall.room_lt
      exact ih k (by omega) (by omega) (by omega)
    · intro c t hcall hcall'
      have hlt := hcall.room_lt
      have hlt' := hcall'.room_lt
      exact ih (k - 1) (by omega) (by omega) (by omega)
    · intro c c' t hcall hcall' hcall''
      have hlt := hcall.room_lt
      have hlt' := hcall'.room_lt
      have hlt'' := hcall''.room_lt
      exact ih (k - 2) (by omega) (by omega) (by omega)

namespace Expr

/-- From twice the length of the text on the greatest depth makes no difference: the same tree is
read, or none for the same reason. No way of calls leads deeper. -/
theorem read_eq_of_length (L : Embedding α) (s : Text) :
    (∀ m m' : Int, 2 * s.length ≤ m → 2 * s.length ≤ m' → read L m s = read L m' s) ∧
      ∀ cs, List.IsChain Calls (.expression s :: cs) → cs.length ≤ 2 * s.length := by
  refine ⟨?_, fun cs hcs => Calls.length_le_room hcs⟩
  intro m m' hm hm'
  refine readLevels_eq_of_room ?_ ?_ <;>
  · unfold levels
    simp only [RuleCall.room]
    omega

/-- An exclamation mark alone leads to as many calls as there may be; with too few levels another
result is possible. -/
theorem read_eq_of_length_negations :
    read .word 4 "!a".toList = read .word 256 "!a".toList ∧
      read .word 1 "!a".toList ≠ read .word 256 "!a".toList ∧
      List.IsChain Calls [.expression "!".toList, .negation [], .expression []] ∧
      [RuleCall.negation [], .expression []].length ≤ 2 * "!".toList.length := by
  have hchain : List.IsChain Calls [.expression "!".toList, .negation [], .expression []] := by
    refine List.isChain_cons_cons.mpr ⟨.negation rfl, List.isChain_cons_cons.mpr ⟨.negated [], ?_⟩⟩
    exact .singleton _
  exact ⟨(read_eq_of_length .word _).1 4 256 (by decide) (by decide), by decide +kernel, hchain,
    (read_eq_of_length .word _).2 _ hchain⟩

end Expr

end TimedReq
