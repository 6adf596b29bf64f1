import TimedReq.Proofs.Expr.Composition

/-!
# What a rule reads

A tree is read by a rule if the text can be cut as the rule cuts it and the readers of the parts
give the parts of the tree. There is one case for each way in which a rule comes to a result.
-/

namespace TimedReq

open Text

variable {α : Type} {L : Embedding α}

/-- The beginning of a text chooses no rule, so the text is split at operators. -/
structure Bare (t : Text) : Prop where
  ne_nil : t ≠ []
  head : ∀ c ∈ t.head?, c ≠ '!' ∧ c ≠ '{' ∧ c ≠ '('
  leadingSymbol? : leadingSymbol? Branch.ofChar? t = none

/-- The tree that a rule reads from a text without blanks at its ends: `leaf` tells what the embedded
language reads, `one`, `two` and `three` what is read so many levels further down, and `unsplit` that
no split at a connective between blanks is read. -/
inductive ReadBy (leaf : Text → α → Prop) (one two three : Text → Expr α → Prop)
    (unsplit : Text → Prop) : Text → Expr α → Prop
  | negation {t : Text} {body : Expr α} (hbody : two (trim t) body)
    (hword : body.isPredicate = true → (trim t).any isBlank = false) :
    ReadBy leaf one two three unsplit ('!' :: t) (.negation body)
  | bounded {t inner x y sts rest : Text} {body : Expr α} {first : Statement}
    {more : List Statement}
    (hcut : splitGroup? ('{' :: t) = some (inner, x ++ '_' :: (y ++ '{' :: (sts ++ '}' :: rest))))
    (hx : AllBlank x) (hy : AllBlank y) (hsts : '}' ∉ sts) (hbody : three inner body)
    (hparse : Statement.parseAll (pieces (· == ',') (trimEnd sts)) = .ok (first :: more))
    (hrest : trim rest = []) :
    ReadBy leaf one two three unsplit ('{' :: t) (.bounded body first more)
  | boundedTail {t inner x y sts rest right : Text} {body rhs : Expr α} {first : Statement}
    {more : List Statement} {c : Connective}
    (hcut : splitGroup? ('{' :: t) = some (inner, x ++ '_' :: (y ++ '{' :: (sts ++ '}' :: rest))))
    (hx : AllBlank x) (hy : AllBlank y) (hsts : '}' ∉ sts) (hbody : three inner body)
    (hparse : Statement.parseAll (pieces (· == ',') (trimEnd sts)) = .ok (first :: more))
    (hleading : Connective.leading? (trim rest) = some (c, right)) (hrhs : three right rhs) :
    ReadBy leaf one two three unsplit ('{' :: t) (.binary c (.bounded body first more) rhs)
  | group {t inner : Text} {body : Expr α} (hcut : splitGroup? ('(' :: t) = some (inner, []))
    (hbody : two inner body) : ReadBy leaf one two three unsplit ('(' :: t) (.group body)
  | groupTail {t inner after right : Text} {body rhs : Expr α} {c : Connective}
    (hcut : splitGroup? ('(' :: t) = some (inner, after)) (hbody : two inner body)
    (hleading : Connective.leading? (trim after) = some (c, right)) (hrhs : three right rhs) :
    ReadBy leaf one two three unsplit ('(' :: t) (.binary c (.group body) rhs)
  | bracketed {t inner after : Text} {p : α} (hcut : splitGroup? ('(' :: t) = some (inner, after))
    (hne : after ≠ []) (hleading : Connective.leading? (trim after) = none)
    (hread : leaf ('(' :: t) p) : ReadBy leaf one two three unsplit ('(' :: t) (.predicate p)
  | along {t path operand : Text} {b : Branch} {m : Modality} {body : Expr α}
    (hbranch : leadingSymbol? Branch.ofChar? t = some (b, path))
    (hmodality : leadingSymbol? Modality.ofChar? (trim path) = some (m, operand))
    (hbody : three operand body) : ReadBy leaf one two three unsplit t (.along b m body)
  | until {t path left right : Text} {b : Branch} {u : Until} {lhs rhs : Expr α}
    (hbranch : leadingSymbol? Branch.ofChar? t = some (b, path))
    (hmodality : leadingSymbol? Modality.ofChar? (trim path) = none)
    (hcut : splitToken? Until.ofChar? (trim path) = some (left, u, right))
    (hlhs : three left lhs) (hrhs : three right rhs) :
    ReadBy leaf one two three unsplit t (.until b u lhs rhs)
  | logical {t left right : Text} {c : Connective} {lhs rhs : Expr α} (hbare : Bare t)
    (hcut : splitToken? Connective.ofChar? t = some (left, c, right)) (hlhs : two left lhs)
    (hrhs : two right rhs) : ReadBy leaf one two three unsplit t (.binary c lhs rhs)
  | arrow {t left right : Text} {lhs rhs : Expr α} (hbare : Bare t) (hunsplit : unsplit t)
    (hcut : splitArrow? t = some (left, right)) (hleft : trim left ≠ []) (hright : trim right ≠ [])
    (hlhs : one left lhs) (hrhs : one right rhs) :
    ReadBy leaf one two three unsplit t (.binary .implies lhs rhs)
  | predicate {t : Text} {p : α} (hbare : Bare t) (hunsplit : unsplit t)
    (hcut : splitArrow? t = none) (hread : leaf t p) :
    ReadBy leaf one two three unsplit t (.predicate p)

/-- What is read stays read if the parts do and splits stay refused. -/
lemma ReadBy.mono {leaf leaf' : Text → α → Prop} {one two three one' two' three' : Text → Expr α → Prop}
    {unsplit unsplit' : Text → Prop} {t : Text} {e : Expr α}
    (h : ReadBy leaf one two three unsplit t e) (hleaf : ∀ {w p}, leaf w p → leaf' w p)
    (hone : ∀ {s x}, one s x → one' s x) (htwo : ∀ {s x}, two s x → two' s x)
    (hthree : ∀ {s x}, three s x → three' s x) (hunsplit : unsplit t → unsplit' t) :
    ReadBy leaf' one' two' three' unsplit' t e := by
  cases h with
  | negation hbody hword => exact .negation (htwo hbody) hword
  | bounded hcut hx hy hsts hbody hparse hrest =>
    exact .bounded hcut hx hy hsts (hthree hbody) hparse hrest
  | boundedTail hcut hx hy hsts hbody hparse hleading hrhs =>
    exact .boundedTail hcut hx hy hsts (hthree hbody) hparse hleading (hthree hrhs)
  | group hcut hbody => exact .group hcut (htwo hbody)
  | groupTail hcut hbody hleading hrhs =>
    exact .groupTail hcut (htwo hbody) hleading (hthree hrhs)
  | bracketed hcut hne hleading hread => exact .bracketed hcut hne hleading (hleaf hread)
  | along hbranch hmodality hbody => exact .along hbranch hmodality (hthree hbody)
  | «until» hbranch hmodality hcut hlhs hrhs =>
    exact .until hbranch hmodality hcut (hthree hlhs) (hthree hrhs)
  | logical hbare hcut hlhs hrhs => exact .logical hbare hcut (htwo hlhs) (htwo hrhs)
  | arrow hbare hno hcut hleft hright hlhs hrhs =>
    exact .arrow hbare (hunsplit hno) hcut hleft hright (hone hlhs) (hone hrhs)
  | predicate hbare hno hcut hread => exact .predicate hbare (hunsplit hno) hcut (hleaf hread)

/-- The language reads the text as the predicate. -/
def Embedding.Reads (L : Embedding α) (w : Text) (p : α) : Prop := L.read w = some p

/-- The reader reads the text as the tree. -/
def Reads (f : Text → Reading (Expr α)) (s : Text) (e : Expr α) : Prop := f s = .ok e

/-- The reader of the parts refuses the split at a connective between blanks. -/
def Unsplit (two : Text → Reading (Expr α)) (t : Text) : Prop := Expr.logicalRule two t = .malformed

section

variable {one two three : Text → Reading (Expr α)} {t : Text} {e : Expr α}

lemma Expr.predicateRule_eq_ok :
    predicateRule L t = .ok e ↔ ∃ p, L.read t = some p ∧ e = .predicate p := by
  unfold predicateRule
  rw [Reading.ofOption_eq_ok, Option.map_eq_some_iff]
  exact exists_congr fun p => and_congr_right fun _ => eq_comm

lemma Expr.logicalRule_eq_ok {operand : Text → Reading (Expr α)} : logicalRule operand t = .ok e ↔
    ∃ left c right lhs rhs, splitToken? Connective.ofChar? t = some (left, c, right) ∧
      operand left = .ok lhs ∧ operand right = .ok rhs ∧ e = .binary c lhs rhs := by
  unfold logicalRule
  constructor
  · intro h
    split at h
    · rename_i left c right hcut
      obtain ⟨lhs, hlhs, h⟩ := Reading.bind_eq_ok.mp h
      obtain ⟨rhs, hrhs, h⟩ := Reading.bind_eq_ok.mp h
      exact ⟨left, c, right, lhs, rhs, hcut, hlhs, hrhs, (Except.ok.inj h).symm⟩
    · exact absurd h (Reading.malformed_ne_ok e)
  · rintro ⟨left, c, right, lhs, rhs, hcut, hlhs, hrhs, rfl⟩
    rw [hcut]
    simp only
    rw [hlhs, hrhs]
    rfl

lemma Expr.implicationRule_eq_ok {operand : Text → Reading (Expr α)} :
    implicationRule L operand t = .ok e ↔
      (∃ left right lhs rhs, splitArrow? t = some (left, right) ∧ trim left ≠ [] ∧
        trim right ≠ [] ∧ operand left = .ok lhs ∧ operand right = .ok rhs ∧
        e = .binary .implies lhs rhs) ∨
      splitArrow? t = none ∧ ∃ p, L.read t = some p ∧ e = .predicate p := by
  unfold implicationRule
  cases hcut : splitArrow? t with
  | none => simp [predicateRule_eq_ok]
  | some parts =>
    obtain ⟨left, right⟩ := parts
    constructor
    · intro h
      simp only at h
      split at h
      · exact absurd h (Reading.malformed_ne_ok e)
      · rename_i hne
        rw [not_or] at hne
        obtain ⟨lhs, hlhs, h⟩ := Reading.bind_eq_ok.mp h
        obtain ⟨rhs, hrhs, h⟩ := Reading.bind_eq_ok.mp h
        exact .inl ⟨left, right, lhs, rhs, rfl, hne.1, hne.2, hlhs, hrhs, (Except.ok.inj h).symm⟩
    · rintro (⟨left', right', lhs, rhs, hsame, hleft, hright, hlhs, hrhs, rfl⟩ | ⟨hnone, -⟩)
      · obtain ⟨rfl, rfl⟩ := Prod.mk.inj (Option.some.inj hsame)
        simp only
        rw [if_neg (not_or.mpr ⟨hleft, hright⟩), hlhs, hrhs]
        rfl
      · simp at hnone

lemma Expr.boundedRule_eq_ok {three : Text → Reading (Expr α)} :
    boundedRule three ('{' :: t) = .ok e ↔
      ∃ inner x y sts rest body first more,
        splitGroup? ('{' :: t) = some (inner, x ++ '_' :: (y ++ '{' :: (sts ++ '}' :: rest))) ∧
        AllBlank x ∧ AllBlank y ∧ '}' ∉ sts ∧ three inner = .ok body ∧
        Statement.parseAll (pieces (· == ',') (trimEnd sts)) = .ok (first :: more) ∧
        (trim rest = [] ∧ e = .bounded body first more ∨
          ∃ c right rhs, Connective.leading? (trim rest) = some (c, right) ∧
            three right = .ok rhs ∧ e = .binary c (.bounded body first more) rhs) := by
  unfold boundedRule
  constructor
  · intro h
    split at h
    · rename_i whole remaining hsplit
      obtain ⟨inner, x, y, sts, rest, -, hcut, hx, hy, hsts, rfl, hrule⟩ :=
        eq_of_split? (α := α) hsplit
      obtain ⟨b, hb, h⟩ := Reading.bind_eq_ok.mp h
      rw [hrule, BoundedExpr.ofParts_eq_ok] at hb
      refine ⟨inner, x, y, sts, rest, b.body, b.first, b.more, hcut, hx, hy, hsts, hb.1, hb.2, ?_⟩
      split at h
      · rename_i hrest
        exact .inl ⟨hrest, (Except.ok.inj h).symm⟩
      · split at h
        · rename_i c right hleading
          obtain ⟨rhs, hrhs, h⟩ := Reading.bind_eq_ok.mp h
          exact .inr ⟨c, right, rhs, hleading, hrhs, (Except.ok.inj h).symm⟩
        · exact absurd h (Reading.malformed_ne_ok e)
    · exact absurd h (Reading.malformed_ne_ok e)
  · rintro ⟨inner, x, y, sts, rest, body, first, more, hcut, hx, hy, hsts, hbody, hparse, h⟩
    have hwhole : BoundedExpr.rule three ('{' :: (inner ++ '}' :: '_' :: '{' :: (sts ++ ['}']))) =
        .ok ⟨body, first, more⟩ := by
      rw [BoundedExpr.rule_eq_ofParts hcut, BoundedExpr.ofParts_eq_ok]
      exact ⟨hbody, hparse⟩
    rw [BoundedExpr.split?_eq hcut hx hy hsts]
    simp only
    rw [hwhole]
    obtain ⟨hrest, rfl⟩ | ⟨c, right, rhs, hleading, hrhs, rfl⟩ := h
    · rw [hrest]
      rfl
    · have hne : trim rest ≠ [] := by
        intro hnil
        rw [hnil] at hleading
        exact absurd hleading (by simp [Connective.leading?])
      refine Reading.bind_eq_ok.mpr ⟨_, rfl, ?_⟩
      rw [if_neg hne, hleading]
      exact Reading.bind_eq_ok.mpr ⟨rhs, hrhs, rfl⟩

lemma Expr.negationRule_eq_ok {two : Text → Reading (Expr α)} : negationRule two t = .ok e ↔
    ∃ body, two (trim t) = .ok body ∧
      (body.isPredicate = true → (trim t).any isBlank = false) ∧ e = .negation body := by
  unfold negationRule
  simp only
  rw [Reading.bind_eq_ok]
  refine exists_congr fun body => and_congr_right fun _ => ?_
  by_cases hrefused : (body.isPredicate && (trim t).any isBlank) = true
  · rw [if_pos hrefused]
    rw [Bool.and_eq_true] at hrefused
    constructor
    · intro h
      exact absurd h (Reading.malformed_ne_ok e)
    · rintro ⟨hword, -⟩
      rw [hword hrefused.1] at hrefused
      exact absurd hrefused.2 (by simp)
  · rw [if_neg hrefused]
    constructor
    · intro h
      refine ⟨fun hp => ?_, (Except.ok.inj h).symm⟩
      simpa [hp] using hrefused
    · rintro ⟨-, rfl⟩
      rfl

lemma Expr.groupRule_eq_ok {two three : Text → Reading (Expr α)} :
    groupRule L two three ('(' :: t) = .ok e ↔
      (∃ inner body, splitGroup? ('(' :: t) = some (inner, []) ∧ two inner = .ok body ∧
        e = .group body) ∨
      (∃ inner after c right body rhs, splitGroup? ('(' :: t) = some (inner, after) ∧
        Connective.leading? (trim after) = some (c, right) ∧ two inner = .ok body ∧
        three right = .ok rhs ∧ e = .binary c (.group body) rhs) ∨
      ∃ inner after p, splitGroup? ('(' :: t) = some (inner, after) ∧ after ≠ [] ∧
        Connective.leading? (trim after) = none ∧ L.read ('(' :: t) = some p ∧
        e = .predicate p := by
  have hnil : Connective.leading? (trim []) = none := rfl
  unfold groupRule
  constructor
  · intro h
    split at h
    · rename_i inner hcut
      obtain ⟨body, hbody, h⟩ := Reading.bind_eq_ok.mp h
      exact .inl ⟨inner, body, hcut, hbody, (Except.ok.inj h).symm⟩
    · rename_i inner after hne hcut
      split at h
      · rename_i c right hleading
        obtain ⟨body, hbody, h⟩ := Reading.bind_eq_ok.mp h
        obtain ⟨rhs, hrhs, h⟩ := Reading.bind_eq_ok.mp h
        exact .inr (.inl ⟨inner, after, c, right, body, rhs, hcut, hleading, hbody, hrhs,
          (Except.ok.inj h).symm⟩)
      · rename_i hleading
        obtain ⟨p, hread, rfl⟩ := predicateRule_eq_ok.mp h
        exact .inr (.inr ⟨inner, after, p, hcut, hne, hleading, hread, rfl⟩)
    · exact absurd h (Reading.malformed_ne_ok e)
  · rintro (⟨inner, body, hcut, hbody, rfl⟩ |
      ⟨inner, after, c, right, body, rhs, hcut, hleading, hbody, hrhs, rfl⟩ |
      ⟨inner, after, p, hcut, hne, hleading, hread, rfl⟩)
    · rw [hcut]
      exact Reading.bind_eq_ok.mpr ⟨body, hbody, rfl⟩
    · rcases after with _ | ⟨d, after⟩
      · rw [hnil] at hleading
        exact absurd hleading (by simp)
      · rw [hcut]
        simp only
        rw [hleading]
        exact Reading.bind_eq_ok.mpr ⟨body, hbody, Reading.bind_eq_ok.mpr ⟨rhs, hrhs, rfl⟩⟩
    · rcases after with _ | ⟨d, after⟩
      · exact absurd rfl hne
      · rw [hcut]
        simp only
        rw [hleading]
        exact predicateRule_eq_ok.mpr ⟨p, hread, rfl⟩

lemma PathExpr.rule_eq_ok {operand : Text → Reading (Expr α)} {path : PathExpr α} :
    PathExpr.rule operand t = .ok path ↔
      (∃ m rest body, leadingSymbol? Modality.ofChar? (trim t) = some (m, rest) ∧
        operand rest = .ok body ∧ path = .along m body) ∨
      leadingSymbol? Modality.ofChar? (trim t) = none ∧ ∃ left u right lhs rhs,
        splitToken? Until.ofChar? (trim t) = some (left, u, right) ∧ operand left = .ok lhs ∧
        operand right = .ok rhs ∧ path = .until u lhs rhs := by
  unfold PathExpr.rule
  simp only
  constructor
  · intro h
    split at h
    · rename_i m rest hleading
      obtain ⟨body, hbody, h⟩ := Reading.bind_eq_ok.mp h
      exact .inl ⟨m, rest, body, hleading, hbody, (Except.ok.inj h).symm⟩
    · rename_i hleading
      split at h
      · rename_i left u right hcut
        obtain ⟨lhs, hlhs, h⟩ := Reading.bind_eq_ok.mp h
        obtain ⟨rhs, hrhs, h⟩ := Reading.bind_eq_ok.mp h
        exact .inr ⟨hleading, left, u, right, lhs, rhs, hcut, hlhs, hrhs, (Except.ok.inj h).symm⟩
      · exact absurd h (Reading.malformed_ne_ok path)
  · rintro (⟨m, rest, body, hleading, hbody, rfl⟩ |
      ⟨hleading, left, u, right, lhs, rhs, hcut, hlhs, hrhs, rfl⟩)
    · rw [hleading]
      exact Reading.bind_eq_ok.mpr ⟨body, hbody, rfl⟩
    · rw [hleading]
      simp only
      rw [hcut]
      exact Reading.bind_eq_ok.mpr ⟨lhs, hlhs, Reading.bind_eq_ok.mpr ⟨rhs, hrhs, rfl⟩⟩

lemma BranchExpr.rule_eq_ok {operand : Text → Reading (Expr α)} {x : BranchExpr α} :
    BranchExpr.rule operand t = .ok x ↔
      ∃ b rest path, leadingSymbol? Branch.ofChar? (trim t) = some (b, rest) ∧
        PathExpr.rule operand rest = .ok path ∧ x = ⟨b, path⟩ := by
  unfold BranchExpr.rule
  constructor
  · intro h
    split at h
    · rename_i b rest hleading
      obtain ⟨path, hpath, h⟩ := Reading.bind_eq_ok.mp h
      exact ⟨b, rest, path, hleading, hpath, (Except.ok.inj h).symm⟩
    · exact absurd h (Reading.malformed_ne_ok x)
  · rintro ⟨b, rest, path, hleading, hpath, rfl⟩
    rw [hleading]
    exact Reading.bind_eq_ok.mpr ⟨path, hpath, rfl⟩

end

section

variable {one two three : Text → Reading (Expr α)} {s t : Text} {e : Expr α}

/-- Where the first characters choose no rule, the text is split. -/
lemma Bare.rule_eq (h : Bare (trim s)) : Expr.rule L one two three s =
    (Expr.logicalRule two (trim s)).orElse fun _ => Expr.implicationRule L one (trim s) := by
  obtain ⟨hnil, hhead, hleading⟩ := h
  unfold Expr.rule
  generalize trim s = t at hnil hhead hleading
  rcases t with _ | ⟨c, t⟩
  · exact absurd rfl hnil
  · obtain ⟨hneg, hbrace, hgroup⟩ := hhead c rfl
    simp [hneg, hbrace, hgroup, hleading]

lemma rule_eq_negation (h : trim s = '!' :: t) :
    Expr.rule L one two three s = Expr.negationRule two t := by
  unfold Expr.rule
  rw [h]
  rfl

lemma rule_eq_bounded (h : trim s = '{' :: t) :
    Expr.rule L one two three s = Expr.boundedRule three ('{' :: t) := by
  unfold Expr.rule
  rw [h]
  rfl

lemma rule_eq_group (h : trim s = '(' :: t) :
    Expr.rule L one two three s = Expr.groupRule L two three ('(' :: t) := by
  unfold Expr.rule
  rw [h]
  rfl

/-- A branch quantifier chooses its rule. -/
lemma rule_eq_branch {b : Branch} {path : Text}
    (h : leadingSymbol? Branch.ofChar? (trim s) = some (b, path)) :
    Expr.rule L one two three s = Expr.ofBranch <$> BranchExpr.rule three (trim s) := by
  obtain ⟨c, heq, hc, -⟩ := eq_of_leadingSymbol? h
  have hne : c ≠ '!' ∧ c ≠ '{' ∧ c ≠ '(' := by
    refine ⟨?_, ?_, ?_⟩ <;> rintro rfl <;> simp [Branch.ofChar?] at hc
  unfold Expr.rule
  rw [heq] at h ⊢
  simp [hne, h]

lemma rule_eq_malformed (h : trim s = []) : Expr.rule L one two three s = .malformed := by
  unfold Expr.rule
  rw [h]

/-- The rule that the first characters of a text without blanks at its ends choose. -/
inductive Chosen : Text → Prop
  | none : Chosen []
  | negation (t : Text) : Chosen ('!' :: t)
  | bounded (t : Text) : Chosen ('{' :: t)
  | group (t : Text) : Chosen ('(' :: t)
  | branch {t path : Text} {b : Branch} (h : leadingSymbol? Branch.ofChar? t = some (b, path)) :
    Chosen t
  | bare {t : Text} (h : Bare t) : Chosen t

/-- Each text is read by one of the rules. -/
lemma chosen (t : Text) : Chosen t := by
  cases hbranch : leadingSymbol? Branch.ofChar? t with
  | some p => exact .branch hbranch
  | none =>
    rcases t with _ | ⟨c, t⟩
    · exact .none
    · by_cases hneg : c = '!'
      · exact hneg ▸ .negation t
      by_cases hbrace : c = '{'
      · exact hbrace ▸ .bounded t
      by_cases hgroup : c = '('
      · exact hgroup ▸ .group t
      refine .bare ⟨by simp, ?_, hbranch⟩
      rintro d hd
      obtain rfl := Option.some.inj hd
      exact ⟨hneg, hbrace, hgroup⟩

/-- What a rule reads, by the way in which the text is cut. -/
theorem rule_eq_ok : Expr.rule L one two three s = .ok e ↔
    ReadBy L.Reads (Reads one) (Reads two) (Reads three) (Unsplit two) (trim s) e := by
  constructor
  · intro h
    have hchosen := chosen (trim s)
    generalize ht : trim s = t at hchosen
    cases hchosen with
    | none =>
      rw [rule_eq_malformed ht] at h
      exact absurd h (Reading.malformed_ne_ok e)
    | negation =>
      rw [rule_eq_negation ht] at h
      obtain ⟨body, hbody, hword, rfl⟩ := Expr.negationRule_eq_ok.mp h
      exact .negation hbody hword
    | bounded =>
      rw [rule_eq_bounded ht] at h
      obtain ⟨inner, x, y, sts, rest, body, first, more, hcut, hx, hy, hsts, hbody, hparse,
        ⟨hrest, rfl⟩ | ⟨c, right, rhs, hleading, hrhs, rfl⟩⟩ := Expr.boundedRule_eq_ok.mp h
      · exact .bounded hcut hx hy hsts hbody hparse hrest
      · exact .boundedTail hcut hx hy hsts hbody hparse hleading hrhs
    | group =>
      rw [rule_eq_group ht] at h
      obtain ⟨inner, body, hcut, hbody, rfl⟩ |
        ⟨inner, after, c, right, body, rhs, hcut, hleading, hbody, hrhs, rfl⟩ |
        ⟨inner, after, p, hcut, hne, hleading, hread, rfl⟩ := Expr.groupRule_eq_ok.mp h
      · exact .group hcut hbody
      · exact .groupTail hcut hbody hleading hrhs
      · exact .bracketed hcut hne hleading hread
    | branch hb =>
      subst ht
      rw [rule_eq_branch hb, Reading.map_eq_ok] at h
      obtain ⟨x, hx, rfl⟩ := h
      obtain ⟨b', path', y, hb', hy, rfl⟩ := BranchExpr.rule_eq_ok.mp hx
      rw [trim_trim] at hb'
      obtain ⟨m, rest, body, hm, hbody, rfl⟩ | ⟨hm, left, u, right, lhs, rhs, hcut, hl, hr, rfl⟩ :=
        PathExpr.rule_eq_ok.mp hy
      · exact .along hb' hm hbody
      · exact .until hb' hm hcut hl hr
    | bare hbare =>
      subst ht
      rw [hbare.rule_eq, Reading.orElse_eq_ok] at h
      obtain h | ⟨hlogical, h⟩ := h
      · obtain ⟨left, c, right, lhs, rhs, hcut, hl, hr, rfl⟩ := Expr.logicalRule_eq_ok.mp h
        exact .logical hbare hcut hl hr
      · obtain ⟨left, right, lhs, rhs, hcut, hleft, hright, hl, hr, rfl⟩ | ⟨hcut, p, hread, rfl⟩ :=
          Expr.implicationRule_eq_ok.mp h
        · exact .arrow hbare hlogical hcut hleft hright hl hr
        · exact .predicate hbare hlogical hcut hread
  · intro h
    generalize ht : trim s = t at h
    cases h with
    | negation hbody hword =>
      rw [rule_eq_negation ht]
      exact Expr.negationRule_eq_ok.mpr ⟨_, hbody, hword, rfl⟩
    | bounded hcut hx hy hsts hbody hparse hrest =>
      rw [rule_eq_bounded ht]
      exact Expr.boundedRule_eq_ok.mpr
        ⟨_, _, _, _, _, _, _, _, hcut, hx, hy, hsts, hbody, hparse, .inl ⟨hrest, rfl⟩⟩
    | boundedTail hcut hx hy hsts hbody hparse hleading hrhs =>
      rw [rule_eq_bounded ht]
      exact Expr.boundedRule_eq_ok.mpr ⟨_, _, _, _, _, _, _, _, hcut, hx, hy, hsts, hbody, hparse,
        .inr ⟨_, _, _, hleading, hrhs, rfl⟩⟩
    | group hcut hbody =>
      rw [rule_eq_group ht]
      exact Expr.groupRule_eq_ok.mpr (.inl ⟨_, _, hcut, hbody, rfl⟩)
    | groupTail hcut hbody hleading hrhs =>
      rw [rule_eq_group ht]
      exact Expr.groupRule_eq_ok.mpr
        (.inr (.inl ⟨_, _, _, _, _, _, hcut, hleading, hbody, hrhs, rfl⟩))
    | bracketed hcut hne hleading hread =>
      rw [rule_eq_group ht]
      exact Expr.groupRule_eq_ok.mpr (.inr (.inr ⟨_, _, _, hcut, hne, hleading, hread, rfl⟩))
    | along hbranch hmodality hbody =>
      subst ht
      rw [rule_eq_branch hbranch]
      refine Reading.map_eq_ok.mpr ⟨⟨_, .along _ _⟩, BranchExpr.rule_eq_ok.mpr ?_, rfl⟩
      exact ⟨_, _, _, by rw [trim_trim, hbranch],
        PathExpr.rule_eq_ok.mpr (.inl ⟨_, _, _, hmodality, hbody, rfl⟩), rfl⟩
    | «until» hbranch hmodality hcut hlhs hrhs =>
      subst ht
      rw [rule_eq_branch hbranch]
      refine Reading.map_eq_ok.mpr ⟨⟨_, .until _ _ _⟩, BranchExpr.rule_eq_ok.mpr ?_, rfl⟩
      exact ⟨_, _, _, by rw [trim_trim, hbranch],
        PathExpr.rule_eq_ok.mpr (.inr ⟨hmodality, _, _, _, _, _, hcut, hlhs, hrhs, rfl⟩), rfl⟩
    | logical hbare hcut hlhs hrhs =>
      subst ht
      rw [hbare.rule_eq]
      exact Reading.orElse_eq_ok.mpr
        (.inl (Expr.logicalRule_eq_ok.mpr ⟨_, _, _, _, _, hcut, hlhs, hrhs, rfl⟩))
    | arrow hbare hlogical hcut hleft hright hlhs hrhs =>
      subst ht
      rw [hbare.rule_eq]
      exact Reading.orElse_eq_ok.mpr (.inr ⟨hlogical, Expr.implicationRule_eq_ok.mpr
        (.inl ⟨_, _, _, _, hcut, hleft, hright, hlhs, hrhs, rfl⟩)⟩)
    | predicate hbare hlogical hcut hread =>
      subst ht
      rw [hbare.rule_eq]
      exact Reading.orElse_eq_ok.mpr
        (.inr ⟨hlogical, Expr.implicationRule_eq_ok.mpr (.inr ⟨hcut, _, hread, rfl⟩)⟩)

/-- Blanks at the ends of a text do not matter. -/
lemma Expr.read_trim {m : Int} (s : Text) : Expr.read L m (trim s) = Expr.read L m s := by
  unfold Expr.read
  cases Expr.levels m with
  | zero => rw [Expr.readLevels, Expr.readLevels]
  | succ n => rw [Expr.readLevels, Expr.readLevels, Expr.rule, Expr.rule, trim_trim]

end

end TimedReq
