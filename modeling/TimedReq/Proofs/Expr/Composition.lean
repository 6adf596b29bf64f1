import TimedReq.Expr.Parser
import TimedReq.Proofs.Expr.Operator
import TimedReq.Proofs.Reading
import TimedReq.Proofs.Text.Quoting

/-!
# How a text is put together

A text that is read is put together from the texts of the parts of its tree, as the rules take it
apart. Nothing is said about which of its compositions the reader finds.
-/

namespace TimedReq

open Text

variable {α : Type} {L : Embedding α}

/-- The text is put together from the texts of the parts of the tree. -/
inductive Composes (L : Embedding α) : Expr α → Text → Prop
  | padded {e : Expr α} {s u v : Text} (hu : AllBlank u) (hv : AllBlank v) (h : Composes L e s) :
    Composes L e (u ++ s ++ v)
  | predicate {p : α} {w : Text} (hread : L.read w = some p) (htrim : trim w = w)
    (hgroup : ∀ inner, splitGroup? w ≠ some (inner, [])) : Composes L (.predicate p) w
  | negation {e : Expr α} {s : Text} (h : Composes L e s) : Composes L (.negation e) ('!' :: s)
  | group {e : Expr α} {s : Text} (h : Composes L e s) : Composes L (.group e) ('(' :: (s ++ [')']))
  | groupTail (c : Connective) {lhs rhs : Expr α} {s u r : Text} (hl : Composes L lhs s)
    (hu : AllBlank u) (hr : Composes L rhs r) :
    Composes L (.binary c (.group lhs) rhs) ('(' :: (s ++ ')' :: (u ++ (c.symbol ++ r))))
  | bounded {e : Expr α} {s x y t : Text} {first : Statement} {more : List Statement}
    (h : Composes L e s) (hx : AllBlank x) (hy : AllBlank y) (ht : '}' ∉ t)
    (hsts : Statement.parseAll (pieces (· == ',') (trimEnd t)) = .ok (first :: more)) :
    Composes L (.bounded e first more)
      ('{' :: (s ++ '}' :: (x ++ '_' :: (y ++ '{' :: (t ++ ['}'])))))
  | boundedTail (c : Connective) {lhs rhs : Expr α} {s x y t u r : Text} {first : Statement}
    {more : List Statement} (hl : Composes L lhs s) (hx : AllBlank x) (hy : AllBlank y)
    (ht : '}' ∉ t)
    (hsts : Statement.parseAll (pieces (· == ',') (trimEnd t)) = .ok (first :: more))
    (hu : AllBlank u) (hr : Composes L rhs r) :
    Composes L (.binary c (.bounded lhs first more) rhs)
      ('{' :: (s ++ '}' :: (x ++ '_' :: (y ++ '{' :: (t ++ '}' :: (u ++ (c.symbol ++ r)))))))
  | arrow {lhs rhs : Expr α} {l r : Text} (hl : Composes L lhs l) (hr : Composes L rhs r) :
    Composes L (.binary .implies lhs rhs) (l ++ '-' :: '>' :: r)
  | logical (c : Connective) {lhs rhs : Expr α} {l r : Text} (hl : Composes L lhs l)
    (hr : Composes L rhs r) (hleft : endsBlank false l = true) (hright : startsBlank r = true) :
    Composes L (.binary c lhs rhs) (l ++ (c.symbol ++ r))
  | along (b : Branch) (m : Modality) {e : Expr α} {u s : Text} (hu : AllBlank u) (hne : u ≠ [])
    (h : Composes L e s) (hs : startsBlank s = true) :
    Composes L (.along b m e) (b.symbol :: (u ++ m.symbol :: s))
  | until (b : Branch) (u : Until) {lhs rhs : Expr α} {l r : Text} (hl : Composes L lhs l)
    (hr : Composes L rhs r) (hstart : startsBlank l = true) (hleft : endsBlank false l = true)
    (hright : startsBlank r = true) :
    Composes L (.until b u lhs rhs) (b.symbol :: (l ++ u.symbol :: r))

/-- The text of a predicate closes its brackets, and no brace stands in it outside literals. -/
structure Embedding.Unbraced (L : Embedding α) : Prop where
  neutral : ∀ {w : Text} {p : α}, L.read w = some p → trim w = w → Neutral w
  unbraced : ∀ {w : Text} {p : α}, L.read w = some p → trim w = w →
    ∀ {c : Char}, c = '{' ∨ c = '}' → (c, false) ∉ marked w

lemma Composes.of_trim {e : Expr α} {s : Text} (h : Composes L e (trim s)) : Composes L e s := by
  obtain ⟨u, v, hu, hv, heq⟩ := Text.exists_trim s
  rw [heq]
  exact .padded hu hv h

lemma Connective.eq_of_leading? {c : Connective} {s r : Text} (h : leading? s = some (c, r)) :
    s = c.symbol ++ r := by
  unfold leading? at h
  split at h
  · obtain ⟨rfl, rfl⟩ := Prod.mk.inj (Option.some.inj h)
    rfl
  · obtain ⟨rfl, rfl⟩ := Prod.mk.inj (Option.some.inj h)
    rfl
  · obtain ⟨rfl, rfl⟩ := Prod.mk.inj (Option.some.inj h)
    rfl
  · simp at h

/-- What a connective in front of a trimmed text tells of the text. -/
lemma Connective.exists_of_leading? {c : Connective} {s r : Text}
    (h : leading? (trim s) = some (c, r)) :
    ∃ u v, AllBlank u ∧ AllBlank v ∧ s = u ++ (c.symbol ++ (r ++ v)) := by
  obtain ⟨u, v, hu, hv, hs⟩ := exists_trim s
  refine ⟨u, v, hu, hv, hs.trans ?_⟩
  rw [eq_of_leading? h]
  simp

lemma eq_of_leadingSymbol? {β : Type} {symbol? : Char → Option β} {x : β} {s r : Text}
    (h : leadingSymbol? symbol? s = some (x, r)) :
    ∃ c, s = c :: r ∧ symbol? c = some x ∧ startsBlank r = true := by
  unfold leadingSymbol? at h
  split at h
  · rename_i c b s
    split at h
    · rename_i hb
      obtain ⟨y, hy, heq⟩ := Option.map_eq_some_iff.mp h
      obtain ⟨rfl, rfl⟩ := Prod.mk.inj heq
      exact ⟨c, rfl, hy, hb⟩
    · simp at h
  · simp at h

/-- The statements of a bounded expression, with blanks around the underscore and behind the
braces. -/
lemma listRule_padded {x y z : Text} (hx : AllBlank x) (hy : AllBlank y) (hz : AllBlank z)
    (t : Text) : Statement.listRule (x ++ '_' :: (y ++ '{' :: (t ++ '}' :: z))) =
      Statement.parseAll (pieces (· == ',') (trimEnd t)) := by
  have htrim : trim (x ++ '_' :: (y ++ '{' :: (t ++ '}' :: z))) =
      '_' :: (y ++ '{' :: (t ++ ['}'])) := by
    have hcut : '_' :: (y ++ '{' :: (t ++ '}' :: z)) = '_' :: (y ++ '{' :: (t ++ ['}'])) ++ z := by
      simp
    rw [trim_append_left hx, hcut, trim_append_right hz]
    exact trim_of_ends (t := '_' :: (y ++ '{' :: t)) (c := '_') (d := '}') rfl rfl (by simp)
  have hsection : y ++ '{' :: (t ++ ['}']) = y ++ '{' :: t ++ ['}'] := by simp
  have hinner : trim (y ++ '{' :: t) = '{' :: trimEnd t := by
    rw [trim_append_left hy]
    exact trim_append_cons (a := []) (by simp) rfl t
  unfold Statement.listRule
  rw [htrim]
  simp only
  rw [hsection, if_pos List.getLast?_concat, List.dropLast_concat, hinner]
  rfl

/-- The statements of a bounded expression, written without blanks between the braces. -/
lemma listRule_eq (t : Text) :
    Statement.listRule ('_' :: '{' :: (t ++ ['}'])) =
      Statement.parseAll (pieces (· == ',') (trimEnd t)) :=
  listRule_padded .nil .nil .nil t

lemma trim_braces (v t : Text) :
    trim ('{' :: (v ++ '}' :: '_' :: '{' :: (t ++ ['}']))) =
      '{' :: (v ++ '}' :: '_' :: '{' :: (t ++ ['}'])) := by
  refine trim_of_ends (t := '{' :: (v ++ '}' :: '_' :: '{' :: t)) (d := '}') rfl rfl ?_
  simp

/-- A bounded expression of what is read in its two pairs of braces. -/
def BoundedExpr.ofParts (e : Reading (Expr α)) (sts : Reading (List Statement)) :
    Reading (BoundedExpr α) := do
  let x ← e
  let ys ← sts
  .ofOption (BoundedExpr.ofList? x ys)

/-- A bounded expression is separated from what follows its statements. -/
lemma BoundedExpr.split?_eq {t inner x y sts rest : Text}
    (hcut : splitGroup? ('{' :: t) = some (inner, x ++ '_' :: (y ++ '{' :: (sts ++ '}' :: rest))))
    (hx : AllBlank x) (hy : AllBlank y) (hsts : '}' ∉ sts) :
    split? ('{' :: t) = some ('{' :: (inner ++ '}' :: '_' :: '{' :: (sts ++ ['}'])), trim rest) := by
  have hne : ∀ c ∈ sts, (decide (c ≠ '}')) = true := by
    intro c hc
    simp only [decide_eq_true_eq]
    rintro rfl
    exact hsts hc
  unfold split?
  rw [if_pos List.head?_cons, hcut]
  simp only
  rw [trimStart_append hx, trimStart_of_not_blank _ rfl]
  simp only
  rw [trimStart_append hy, trimStart_of_not_blank _ rfl]
  simp only
  rw [List.dropWhile_append_of_pos hne, List.takeWhile_append_of_pos hne]
  simp

/-- A separated bounded expression is read by its parts. -/
lemma BoundedExpr.rule_eq_ofParts {t inner after sts : Text}
    (hcut : splitGroup? ('{' :: t) = some (inner, after)) (body : Text → Reading (Expr α)) :
    BoundedExpr.rule body ('{' :: (inner ++ '}' :: '_' :: '{' :: (sts ++ ['}']))) =
      ofParts (body inner) (Statement.parseAll (pieces (· == ',') (trimEnd sts))) := by
  obtain ⟨close, hclose, rfl⟩ := eq_of_splitGroup? hcut
  obtain rfl := Option.some.inj hclose
  unfold BoundedExpr.rule
  simp only [trim_braces]
  rw [if_pos List.head?_cons, splitGroup?_congr rfl hcut (by simp)]
  simp only [listRule_eq]
  rfl

/-- Where a bounded expression is separated from what follows it, and how it is read. -/
lemma eq_of_split? {s whole remaining : Text}
    (h : BoundedExpr.split? s = some (whole, remaining)) :
    ∃ inner x y t rest, s = '{' :: (inner ++ '}' :: (x ++ '_' :: (y ++ '{' :: (t ++ '}' :: rest)))) ∧
      splitGroup? s = some (inner, x ++ '_' :: (y ++ '{' :: (t ++ '}' :: rest))) ∧
      AllBlank x ∧ AllBlank y ∧ '}' ∉ t ∧ remaining = trim rest ∧
      ∀ body : Text → Reading (Expr α), BoundedExpr.rule body whole =
        BoundedExpr.ofParts (body inner) (Statement.parseAll (pieces (· == ',') (trimEnd t))) := by
  unfold BoundedExpr.split? at h
  split at h
  · rename_i hhead
    obtain ⟨c, s, rfl⟩ := List.exists_cons_of_ne_nil (l := s) (by rintro rfl; simp at hhead)
    obtain rfl : c = '{' := by simpa using hhead
    split at h
    · rename_i inner after hgroup
      obtain ⟨close, hclose, rfl⟩ := eq_of_splitGroup? hgroup
      obtain rfl := Option.some.inj hclose
      obtain ⟨x, hx, hafter⟩ := exists_trimStart after
      split at h
      · rename_i rest hrest
        obtain ⟨y, hy, hbrace⟩ := exists_trimStart rest
        split at h
        · rename_i text htext
          have hcut := List.takeWhile_append_dropWhile (p := (· ≠ '}')) (l := text)
          split at h
          · rename_i d remaining hdrop
            have hclose : d = '}' := by
              have hhead := List.head?_dropWhile_not (fun x => decide (x ≠ '}')) text
              rw [hdrop] at hhead
              simpa using hhead
            subst hclose
            obtain ⟨rfl, rfl⟩ := Prod.mk.inj (Option.some.inj h)
            have habsent : '}' ∉ text.takeWhile (· ≠ '}') := by
              intro hmem
              have hall := List.all_eq_true.mp
                (List.all_takeWhile (l := text) (p := fun x => decide (x ≠ '}'))) _ hmem
              simp at hall
            have hafter' : after = x ++ '_' :: (y ++ '{' :: (text.takeWhile (· ≠ '}') ++
                '}' :: remaining)) := by
              rw [hdrop] at hcut
              rw [hcut, ← htext, ← hbrace, ← hrest, ← hafter]
            refine ⟨inner, x, y, text.takeWhile (· ≠ '}'), remaining, by rw [← hafter'],
              by rw [← hafter', hgroup], hx, hy, habsent, rfl, ?_⟩
            intro body
            have hwhole : ∀ t : Text, '{' :: inner ++ '}' :: '_' :: '{' :: t ++ ['}'] =
                '{' :: (inner ++ '}' :: '_' :: '{' :: (t ++ ['}'])) := by simp
            rw [hwhole, BoundedExpr.rule_eq_ofParts hgroup]
          · simp at h
        · simp at h
      · simp at h
    · simp at h
  · simp at h

/-- A bounded expression is read if its body and its statements are. -/
lemma BoundedExpr.ofParts_eq_ok {e : Reading (Expr α)} {sts : Reading (List Statement)}
    {b : BoundedExpr α} :
    ofParts e sts = .ok b ↔ e = .ok b.body ∧ sts = .ok (b.first :: b.more) := by
  unfold ofParts
  constructor
  · intro h
    obtain ⟨x, hx, h⟩ := Reading.bind_eq_ok.mp h
    obtain ⟨ys, hys, h⟩ := Reading.bind_eq_ok.mp h
    have hlist := Reading.ofOption_eq_ok.mp h
    cases ys with
    | nil => simp [ofList?] at hlist
    | cons first more =>
      obtain rfl := Option.some.inj hlist
      exact ⟨hx, hys⟩
  · rintro ⟨hx, hys⟩
    exact Reading.bind_eq_ok.mpr ⟨_, hx, Reading.bind_eq_ok.mpr ⟨_, hys, rfl⟩⟩

/-- What is read is put together from the texts of its parts. -/
def Takes (L : Embedding α) (f : Text → Reading (Expr α)) : Prop :=
  ∀ {s : Text} {e : Expr α}, f s = .ok e → Composes L e s

section

variable {one two three : Text → Reading (Expr α)} {s : Text} {e : Expr α}

lemma composes_of_predicateRule (h : Expr.predicateRule L s = .ok e) (hs : trim s = s)
    (hgroup : ∀ inner, splitGroup? s ≠ some (inner, [])) : Composes L e s := by
  obtain ⟨p, hp, rfl⟩ := Option.map_eq_some_iff.mp (Reading.ofOption_eq_ok.mp h)
  exact .predicate hp hs hgroup

namespace Takes

lemma negationRule (htwo : Takes L two) (h : Expr.negationRule two s = .ok e) :
    Composes L e ('!' :: s) := by
  unfold Expr.negationRule at h
  obtain ⟨body, hbody, h⟩ := Reading.bind_eq_ok.mp h
  split at h
  · exact absurd h (Reading.malformed_ne_ok e)
  · obtain rfl := Except.ok.inj h
    exact (htwo hbody).of_trim.negation

lemma groupRule (htwo : Takes L two) (hthree : Takes L three)
    (h : Expr.groupRule L two three ('(' :: s) = .ok e) (hs : trim ('(' :: s) = '(' :: s) :
    Composes L e ('(' :: s) := by
  unfold Expr.groupRule at h
  split at h
  · rename_i inner hgroup
    obtain ⟨close, hclose, rfl⟩ := eq_of_splitGroup? hgroup
    obtain rfl := Option.some.inj hclose
    obtain ⟨body, hbody, h⟩ := Reading.bind_eq_ok.mp h
    obtain rfl := Except.ok.inj h
    exact (htwo hbody).group
  · rename_i inner after hne hgroup
    obtain ⟨close, hclose, rfl⟩ := eq_of_splitGroup? hgroup
    obtain rfl := Option.some.inj hclose
    split at h
    · rename_i c right hleading
      obtain ⟨lhs, hlhs, h⟩ := Reading.bind_eq_ok.mp h
      obtain ⟨rhs, hrhs, h⟩ := Reading.bind_eq_ok.mp h
      obtain rfl := Except.ok.inj h
      obtain ⟨u, v, hu, hv, rfl⟩ := Connective.exists_of_leading? hleading
      exact .groupTail c (htwo hlhs) hu (.padded .nil hv (hthree hrhs))
    · refine composes_of_predicateRule h hs ?_
      intro inner' hwhole
      rw [hgroup] at hwhole
      obtain ⟨-, hnil⟩ := Prod.mk.inj (Option.some.inj hwhole)
      exact hne hnil
  · exact absurd h (Reading.malformed_ne_ok e)

lemma boundedRule (hthree : Takes L three) (h : Expr.boundedRule three s = .ok e) :
    Composes L e s := by
  unfold Expr.boundedRule at h
  split at h
  · rename_i whole remaining hsplit
    obtain ⟨inner, x, y, t, rest, rfl, -, hx, hy, ht, rfl, hrule⟩ := eq_of_split? (α := α) hsplit
    obtain ⟨b, hb, h⟩ := Reading.bind_eq_ok.mp h
    rw [hrule, BoundedExpr.ofParts_eq_ok] at hb
    obtain ⟨hbody, hsts⟩ := hb
    split at h
    · rename_i hnil
      obtain rfl := Except.ok.inj h
      have hblank := allBlank_of_trim_eq_nil hnil
      have htext : '{' :: (inner ++ '}' :: (x ++ '_' :: (y ++ '{' :: (t ++ '}' :: rest)))) =
          [] ++ ('{' :: (inner ++ '}' :: (x ++ '_' :: (y ++ '{' :: (t ++ ['}']))))) ++ rest := by
        simp
      rw [htext]
      exact .padded .nil hblank (.bounded (hthree hbody) hx hy ht hsts)
    · split at h
      · rename_i c right hleading
        obtain ⟨rhs, hrhs, h⟩ := Reading.bind_eq_ok.mp h
        obtain rfl := Except.ok.inj h
        obtain ⟨u, v, hu, hv, rfl⟩ := Connective.exists_of_leading? hleading
        exact .boundedTail c (hthree hbody) hx hy ht hsts hu (.padded .nil hv (hthree hrhs))
      · exact absurd h (Reading.malformed_ne_ok e)
  · exact absurd h (Reading.malformed_ne_ok e)

lemma logicalRule (htwo : Takes L two) (h : Expr.logicalRule two s = .ok e) : Composes L e s := by
  unfold Expr.logicalRule at h
  split at h
  · rename_i left c right hsplit
    obtain ⟨lhs, hlhs, h⟩ := Reading.bind_eq_ok.mp h
    obtain ⟨rhs, hrhs, h⟩ := Reading.bind_eq_ok.mp h
    obtain rfl := Except.ok.inj h
    obtain ⟨x, rfl, hx, hleft, hright⟩ := eq_of_cutAtToken hsplit
    have hcomposes := Composes.logical c (htwo hlhs) (htwo hrhs) hleft hright
    rwa [Connective.symbol_of_ofChar? hx] at hcomposes
  · exact absurd h (Reading.malformed_ne_ok e)

lemma implicationRule (hone : Takes L one) (h : Expr.implicationRule L one s = .ok e)
    (hs : trim s = s) (hgroup : ∀ inner, splitGroup? s ≠ some (inner, [])) : Composes L e s := by
  unfold Expr.implicationRule at h
  split at h
  · rename_i left right hsplit
    split at h
    · exact absurd h (Reading.malformed_ne_ok e)
    · obtain ⟨lhs, hlhs, h⟩ := Reading.bind_eq_ok.mp h
      obtain ⟨rhs, hrhs, h⟩ := Reading.bind_eq_ok.mp h
      obtain rfl := Except.ok.inj h
      rw [eq_of_cutAtArrow hsplit]
      exact .arrow (hone hlhs) (hone hrhs)
  · exact composes_of_predicateRule h hs hgroup

lemma pathRule (hthree : Takes L three) (b : Branch) {path : PathExpr α}
    (h : PathExpr.rule three s = .ok path) (hs : startsBlank s = true) :
    Composes L (Expr.ofBranch ⟨b, path⟩) (b.symbol :: s) := by
  obtain ⟨u, v, hu, hv, heq⟩ := exists_trim s
  unfold PathExpr.rule at h
  simp only at h
  split at h
  · rename_i m rest hleading
    obtain ⟨body, hbody, h⟩ := Reading.bind_eq_ok.mp h
    obtain rfl := Except.ok.inj h
    obtain ⟨x, htrim, hx, hblank⟩ := eq_of_leadingSymbol? hleading
    obtain rfl := Modality.symbol_of_ofChar? hx
    rw [htrim] at heq
    have hne : u ≠ [] := by
      rintro rfl
      rw [heq] at hs
      have hm := not_blank_of_mem_operatorChars m.symbol_mem
      simp [startsBlank, hm] at hs
    have hstart : startsBlank ([] ++ rest ++ v) = true := by
      rw [List.nil_append, startsBlank_append (by rintro rfl; simp [startsBlank] at hblank), hblank]
    have htext : s = u ++ m.symbol :: ([] ++ rest ++ v) := by
      rw [heq]
      simp
    rw [htext]
    exact .along b m hu hne (.padded .nil hv (hthree hbody)) hstart
  · split at h
    · rename_i left x right hsplit
      obtain ⟨lhs, hlhs, h⟩ := Reading.bind_eq_ok.mp h
      obtain ⟨rhs, hrhs, h⟩ := Reading.bind_eq_ok.mp h
      obtain rfl := Except.ok.inj h
      obtain ⟨c, htrim, hc, hleft, hright⟩ := eq_of_cutAtToken hsplit
      obtain rfl := Until.symbol_of_ofChar? hc
      rw [htrim] at heq
      have hne : left ≠ [] := by
        rintro rfl
        simp [endsBlank] at hleft
      have hends : endsBlank false (u ++ left ++ []) = true := by
        rw [List.append_nil, endsBlank_append, endsBlank_eq_of_ne_nil hne _ false, hleft]
      have htext : s = (u ++ left ++ []) ++ x.symbol :: ([] ++ right ++ v) := by
        rw [heq]
        simp
      have hstart : startsBlank (u ++ left ++ []) = true := by
        rw [htext, startsBlank_append (by simp [hne])] at hs
        exact hs
      have hblank : startsBlank ([] ++ right ++ v) = true := by
        rw [List.nil_append, startsBlank_append (by rintro rfl; simp [startsBlank] at hright), hright]
      rw [htext]
      exact .until b x (.padded hu .nil (hthree hlhs)) (.padded .nil hv (hthree hrhs)) hstart hends
        hblank
    · exact absurd h (Reading.malformed_ne_ok path)

lemma branchRule (hthree : Takes L three) (h : Expr.ofBranch <$> BranchExpr.rule three s = .ok e)
    (hs : trim s = s) : Composes L e s := by
  obtain ⟨x, hx, rfl⟩ := Reading.map_eq_ok.mp h
  unfold BranchExpr.rule at hx
  rw [hs] at hx
  split at hx
  · rename_i b rest hleading
    obtain ⟨path, hpath, hx⟩ := Reading.bind_eq_ok.mp hx
    obtain rfl := Except.ok.inj hx
    obtain ⟨c, rfl, hc, hblank⟩ := eq_of_leadingSymbol? hleading
    obtain rfl := Branch.symbol_of_ofChar? hc
    exact hthree.pathRule b hpath hblank
  · exact absurd hx (Reading.malformed_ne_ok x)

lemma rule (hone : Takes L one) (htwo : Takes L two) (hthree : Takes L three) :
    Takes L (Expr.rule L one two three) := by
  intro s e h
  refine .of_trim ?_
  have hs := trim_trim s
  unfold Expr.rule at h
  generalize trim s = t at h hs
  split at h
  · exact absurd h (Reading.malformed_ne_ok e)
  · exact htwo.negationRule h
  · exact hthree.boundedRule h
  · exact htwo.groupRule hthree h hs
  · rename_i hnil hneg hbrace hgroup
    split at h
    · exact hthree.branchRule h hs
    · have hwhole : ∀ inner, splitGroup? t ≠ some (inner, []) := by
        intro inner hsplit
        cases t with
        | nil => exact hnil rfl
        | cons c t =>
          obtain ⟨close, hclose, -⟩ := eq_of_splitGroup? hsplit
          obtain ⟨rfl, rfl⟩ | ⟨rfl, rfl⟩ := closer?_eq_some.mp hclose
          · exact hgroup t rfl
          · exact hbrace t rfl
      obtain h | ⟨-, h⟩ := Reading.orElse_eq_ok.mp h
      · exact htwo.logicalRule h
      · exact hone.implicationRule h hs hwhole

end Takes

/-- A text that is read is put together from the texts of the parts of its tree. -/
theorem takes_readLevels (n : Nat) : Takes L (Expr.readLevels L n) := by
  induction n using Nat.strongRecOn with
  | ind n ih =>
    cases n with
    | zero =>
      intro s e h
      rw [Expr.readLevels] at h
      exact absurd h (Reading.malformed_ne_ok e)
    | succ n =>
      intro s e h
      rw [Expr.readLevels] at h
      exact Takes.rule (ih n (by omega)) (ih (n - 1) (by omega)) (ih (n - 2) (by omega)) h

end

end TimedReq
