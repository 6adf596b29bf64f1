import TimedReq.Proofs.Expr.Laid

/-!
# Predicates that end where operators begin

In a language whose predicates end where operators of expressions begin, a text lays out predicates
in one way only, however the text is read.
-/

namespace TimedReq

open Text

variable {α : Type} {L L' : Embedding α}

/-- The texts of predicates end where operators of expressions begin. -/
structure Embedding.Delimited (L : Embedding α) : Prop where
  neutral : ∀ {w : Text} {p : α}, L.read w = some p → trim w = w → Neutral w
  head : ∀ {w : Text} {p : α}, L.read w = some p → trim w = w → ∀ c ∈ w.head?, c ≠ '!' ∧ c ≠ '{'
  symbol : ∀ {c : Char}, c ∈ operatorChars → L.read [c] = none
  operator : ∀ {w u r : Text} {c : Char} {p : α}, L.read w = some p → trim w = w → AllBlank u →
    u ≠ [] → c ∈ operatorChars → r = [] ∨ startsBlank r = true → L.read (w ++ (u ++ c :: r)) = none
  arrow : ∀ {w u r : Text} {p : α}, L.read w = some p → trim w = w → AllBlank u →
    L.read (w ++ (u ++ '-' :: '>' :: r)) = none
  /-- A bracket in front of the text is closed before its end, and no operator of expressions
  follows it. -/
  bracket : ∀ {w : Text} {p : α}, L.read w = some p → trim w = w →
    (∀ inner, splitGroup? w ≠ some (inner, [])) → w.head? = some '(' →
    ∃ inner g c r, w = '(' :: (inner ++ ')' :: (g ++ c :: r)) ∧ Neutral inner ∧ AllBlank g ∧
      isBlank c = false ∧ ∀ o ∈ operatorTexts, ∀ s, ¬o <+: c :: (r ++ s)

/-- How an operand begins. -/
inductive Begins (L : Embedding α) (b : Bool) : Text → List Text → Prop
  | leaf {w s : Text} {ws : List Text} (hw : L.Leaf b w) (h : Lays L (.behind false) s ws) :
    Begins L b (w ++ s) (w :: ws)
  | lead {b' : Bool} {s : Text} {c : Char} {ws : List Text} (hc : leadPosition? b c = some b')
    (hs : c = '!' ∨ startsBlank s = true) (h : Lays L (.operand b') s ws) : Begins L b (c :: s) ws
  | bracket {inner t s : Text} {o c : Char} {ws ws' : List Text} (hc : closer? o = some c)
    (hin : Lays L (.operand false) inner ws) (ht : Annotated o t s)
    (h : Lays L (.behind true) s ws') : Begins L b (o :: (inner ++ c :: t)) (ws ++ ws')

lemma not_blank_of_closer? {o c : Char} (h : closer? o = some c) : isBlank o = false := by
  obtain ⟨rfl, rfl⟩ | ⟨rfl, rfl⟩ := closer?_eq_some.mp h <;> rfl

lemma Lays.begins {b : Bool} {u s : Text} {c : Char} {ws : List Text} (hu : AllBlank u)
    (hc : isBlank c = false) (h : Lays L (.operand b) (u ++ c :: s) ws) :
    Begins L b (c :: s) ws := by
  generalize htext : u ++ c :: s = t at h
  generalize hposition : Position.operand b = position at h
  cases h with
  | nil | operator => simp at hposition
  | @leaf b' v w r ws hv hw h =>
    obtain rfl : b = b' := by simpa using hposition
    obtain ⟨d, w, rfl, hd⟩ := hw.exists_cons
    obtain ⟨-, rfl, rfl⟩ := eq_of_blank_append hu hv hc hd htext
    exact .leaf hw h
  | @lead b' _ v r d ws hv hd hs h =>
    obtain rfl : b = b' := by simpa using hposition
    obtain ⟨-, rfl, rfl⟩ := eq_of_blank_append hu hv hc (not_blank_of_leadPosition? hd) htext
    exact .lead hd hs h
  | @bracket b' v inner t r o d ws ws' hv hd hin ht h =>
    obtain rfl : b = b' := by simpa using hposition
    obtain ⟨-, rfl, rfl⟩ := eq_of_blank_append hu hv hc (not_blank_of_closer? hd) htext
    exact .bracket hd hin ht h

/-- How a text goes on behind an operand. -/
lemma Lays.behind_inv {k : Bool} {u s : Text} {c : Char} {ws : List Text} (hu : AllBlank u)
    (hc : isBlank c = false) (h : Lays L (.behind k) (u ++ c :: s) ws) :
    ∃ o r, o ∈ operatorTexts ∧ c :: s = o ++ r ∧ (¬Tight k o → u ≠ [] ∧ startsBlank r = true) ∧
      Lays L (.operand false) r ws := by
  generalize htext : u ++ c :: s = t at h
  generalize hposition : Position.behind k = position at h
  cases h with
  | nil hv =>
    have hblank := hv c (by rw [← htext]; simp)
    rw [hc] at hblank
    exact absurd hblank (by simp)
  | leaf | lead | bracket => simp at hposition
  | @operator k' v r o ws hv ho hfree h =>
    obtain rfl : k = k' := by simpa using hposition
    obtain ⟨d, x, rfl, hd, -⟩ := not_blank_of_mem_operatorTexts ho
    rw [List.cons_append] at htext
    obtain ⟨rfl, rfl, rfl⟩ := eq_of_blank_append hu hv hc hd htext
    exact ⟨c :: x, r, ho, rfl, hfree, h⟩

lemma Lays.eq_nil_of_allBlank {k : Bool} {s : Text} {ws : List Text} (h : Lays L (.behind k) s ws)
    (hs : AllBlank s) : ws = [] := by
  generalize hposition : Position.behind k = position at h
  cases h with
  | nil => rfl
  | leaf | lead | bracket => simp at hposition
  | operator hu ho hfree h =>
    obtain ⟨d, x, rfl, hd, -⟩ := not_blank_of_mem_operatorTexts ho
    have hblank := hs d (by simp)
    rw [hd] at hblank
    exact absurd hblank (by simp)

/-- The text closes its brackets, and all its characters are good. -/
structure Framed (good : Mark → Prop) (s : Text) : Prop where
  neutral : Neutral s
  within : Within good s

namespace Framed

variable {good : Mark → Prop} {s t : Text}

lemma append (hs : Framed good s) (ht : Framed good t) : Framed good (s ++ t) := by
  refine ⟨hs.neutral.append ht.neutral, ?_⟩
  intro m hm
  rw [marked_append hs.neutral.closed] at hm
  exact (List.mem_append.mp hm).elim (hs.within m) (ht.within m)

lemma plain (hgood : ∀ c, c ≠ '\'' → good (c, false)) (hs : ∀ c ∈ s, IsPlain c) :
    Framed good s := by
  refine ⟨.plain hs, ?_⟩
  induction s with
  | nil =>
    intro m hm
    simp [marked] at hm
  | cons c s ih =>
    have hc := hs c List.mem_cons_self
    intro m hm
    rw [marked_plain hc] at hm
    rcases List.mem_cons.mp hm with rfl | hm
    · exact hgood c hc.2.1
    · exact ih (fun d hd => hs d (List.mem_cons_of_mem c hd)) m hm

lemma bracket (hgood : ∀ c, c ≠ '\'' → good (c, false)) {o c : Char} (ho : IsOpening o)
    (hc : IsClosing c) (hs : Framed good s) : Framed good (o :: (s ++ [c])) := by
  refine ⟨hs.neutral.bracket ho hc, ?_⟩
  intro m hm
  rw [marked_bracket ho hc hs.neutral.closed] at hm
  simp only [List.mem_cons, List.mem_append, List.not_mem_nil, or_false] at hm
  rcases hm with rfl | hm | rfl
  · refine hgood o ?_
    rcases ho with rfl | rfl <;> decide
  · exact hs.within m hm
  · refine hgood c ?_
    rcases hc with rfl | rfl <;> decide

end Framed

/-- What is laid out is framed as the texts of the predicates are. -/
lemma Lays.framed {good : Mark → Prop} (hgood : ∀ c, c ≠ '\'' → good (c, false))
    (hL : ∀ {w : Text}, (L.read w).isSome → trim w = w → Framed good w) {position : Position}
    {s : Text} {ws : List Text} (h : Lays L position s ws) : Framed good s := by
  have hblank : ∀ {u : Text}, AllBlank u → Framed good u := fun hu =>
    .plain hgood fun c hc => isPlain_of_isBlank (hu c hc)
  induction h with
  | nil hu => exact hblank hu
  | leaf hu hw _ ih => exact (hblank hu).append ((hL hw.read hw.trim_eq).append ih)
  | @lead b b' u s c ws hu hc hs _ ih =>
    have hplain : IsPlain c := by
      rcases mem_of_leadPosition? hc with rfl | hmem
      · decide
      · exact isPlain_of_mem_operatorChars hmem
    have hone : Framed good [c] := .plain hgood fun d hd => by
      obtain rfl := List.mem_singleton.mp hd
      exact hplain
    exact (hblank hu).append (hone.append ih)
  | @bracket b u inner t s o c ws ws' hu hc _ ht _ ih ih' =>
    have hboth := isBracket_of_closer? hc
    have hnote : Framed good t := by
      cases ht with
      | group => exact ih'
      | @bounded x y sts hx hy hsts =>
        have hplain : ∀ d ∈ x ++ '_' :: y, IsPlain d := by
          intro d hd
          rcases List.mem_append.mp hd with hd | hd
          · exact isPlain_of_isBlank (hx d hd)
          · rcases List.mem_cons.mp hd with rfl | hd
            · decide
            · exact isPlain_of_isBlank (hy d hd)
        have hall := (Framed.plain hgood hplain).append
          (((Framed.plain hgood hsts).bracket hgood (.inr rfl) (.inr rfl)).append ih')
        simpa using hall
    have hall := (hblank hu).append ((ih.bracket hgood hboth.1 hboth.2).append hnote)
    simpa using hall
  | @operator k u s o ws hu ho _ _ ih =>
    have hplain : ∀ o ∈ operatorTexts, ∀ d ∈ o, IsPlain d := by decide
    exact (hblank hu).append ((Framed.plain hgood (hplain o ho)).append ih)

section

variable (hL : L.Delimited)

include hL

lemma Lays.neutral {position : Position} {s : Text} {ws : List Text} (h : Lays L position s ws) :
    Neutral s := by
  have hall : Framed (fun _ => True) s := h.framed (fun _ _ => trivial) fun hw htrim => by
    obtain ⟨p, hp⟩ := Option.isSome_iff_exists.mp hw
    exact ⟨hL.neutral hp htrim, fun _ _ => trivial⟩
  exact hall.neutral

namespace Embedding.Leaf

variable {b b' : Bool} {w s : Text} {ws : List Text}

/-- A predicate does not go on where another predicate ends and an operator begins. -/
lemma eq_nil_of_append {x : Text} {ws' : List Text} (hw : L.Leaf b w) (hwx : L.Leaf b' (w ++ x))
    (h : Lays L (.behind false) (x ++ s) ws) (h' : Lays L (.behind false) s ws') : x = [] := by
  obtain ⟨p, hp⟩ := Option.isSome_iff_exists.mp hw.read
  have hread : ∀ {y : Text}, L.read (w ++ y) = none → x ≠ y := by
    rintro y hy rfl
    have hsome := hwx.read
    rw [hy] at hsome
    exact absurd hsome (by simp)
  by_contra hne
  obtain ⟨u, hu, hx⟩ := exists_trimStart x
  rcases hstart : trimStart x with _ | ⟨c, y⟩
  · rw [hstart, List.append_nil] at hx
    have htrim := hwx.trim_eq
    rw [hx, trim_append_right hu, hw.trim_eq] at htrim
    exact hne (hx.trans (by simpa using htrim))
  · have hc := not_blank_of_trimStart_eq_cons hstart
    rw [hstart] at hx
    rw [hx, List.append_assoc, List.cons_append] at h
    obtain ⟨o, r, ho, htext, hfree, -⟩ := h.behind_inv hu hc
    by_cases harrow : o = ['-', '>']
    · subst harrow
      obtain ⟨rfl, hrest⟩ := List.cons.inj htext
      rcases y with _ | ⟨d, y⟩
      · -- the sign `>` begins no operator
        rw [List.nil_append] at hrest
        rw [hrest] at h'
        obtain ⟨o', r', ho', htext', -⟩ := h'.behind_inv (u := []) .nil rfl
        simp only [operatorTexts, List.mem_cons, List.not_mem_nil, or_false] at ho'
        rcases ho' with rfl | rfl | rfl | rfl | rfl <;> simp at htext'
      · obtain ⟨rfl, -⟩ := List.cons.inj hrest
        exact hread (hL.arrow hp hw.trim_eq hu) hx
    · have hsingle : ∀ o ∈ operatorTexts, o ≠ ['-', '>'] → ∃ d, o = [d] ∧ d ∈ operatorChars := by
        intro o ho hne
        simp only [operatorTexts, List.mem_cons, List.not_mem_nil, or_false] at ho
        rcases ho with rfl | rfl | rfl | rfl | rfl
        · exact absurd rfl hne
        all_goals exact ⟨_, rfl, by decide⟩
      obtain ⟨d, rfl, hd⟩ := hsingle o ho harrow
      obtain ⟨rfl, rfl⟩ := List.cons.inj htext
      obtain ⟨hune, hblank⟩ := hfree (by simp [Tight])
      refine hread (hL.operator hp hw.trim_eq hu hune hd ?_) hx
      rcases y with _ | ⟨e, y⟩
      · exact .inl rfl
      · exact .inr hblank

lemma not_lead {c : Char} {r : Text} (hw : L.Leaf b w) (hc : leadPosition? b c = some b')
    (hr : c = '!' ∨ startsBlank r = true) : w ++ s ≠ c :: r := by
  intro htext
  obtain ⟨p, hp⟩ := Option.isSome_iff_exists.mp hw.read
  obtain ⟨d, v, rfl, hd⟩ := hw.exists_cons
  obtain ⟨rfl, rfl⟩ := List.cons.inj htext
  have hneg : d ≠ '!' := (hL.head hp hw.trim_eq d rfl).1
  have hblank := hr.resolve_left hneg
  -- a symbol that is a predicate by itself, or that a blank follows
  have hsymbol : ∀ {β : Type} {symbol? : Char → Option β}, (symbol? d).isSome → d ∈ operatorChars →
      leadingSymbol? symbol? (d :: v) ≠ none := by
    intro β symbol? hsome hmem
    rcases v with _ | ⟨e, v⟩
    · rw [hL.symbol hmem] at hp
      exact absurd hp (by simp)
    · have he : isBlank e = true := hblank
      obtain ⟨x, hx⟩ := Option.isSome_iff_exists.mp hsome
      simp [leadingSymbol?, he, hx]
  unfold leadPosition? at hc
  rw [if_neg hneg] at hc
  split at hc
  · rename_i hbranch
    exact hsymbol hbranch (Branch.mem_operatorChars hbranch) hw.branch
  · split at hc
    · rename_i hmodality
      obtain ⟨hb, hm⟩ := Bool.and_eq_true_iff.mp hmodality
      exact hsymbol hm (Modality.mem_operatorChars hm) (hw.modality hb)
    · simp at hc

lemma not_bracket {inner t r : Text} {o c : Char} {ws' : List Text} (hw : L.Leaf b w)
    (hc : closer? o = some c) (hin : Lays L (.operand false) inner ws) (ht : Annotated o t r)
    (h : Lays L (.behind true) r ws') : w ++ s ≠ o :: (inner ++ c :: t) := by
  intro htext
  obtain ⟨p, hp⟩ := Option.isSome_iff_exists.mp hw.read
  obtain ⟨d, v, rfl, hd⟩ := hw.exists_cons
  obtain ⟨rfl, rest⟩ := List.cons.inj htext
  cases ht with
  | bounded => exact (hL.head hp hw.trim_eq '{' rfl).2 rfl
  | group =>
    obtain rfl : c = ')' := (Option.some.inj hc).symm
    obtain ⟨inner', g, e, y, hv, hneutral, hg, he, hno⟩ := hL.bracket hp hw.trim_eq hw.group rfl
    have hgroup := splitGroup?_bracket (hin.neutral hL) hc t
    have hgroup' := splitGroup?_bracket hneutral hc (g ++ e :: (y ++ s))
    have hsame : '(' :: (inner ++ ')' :: t) = '(' :: (inner' ++ ')' :: (g ++ e :: (y ++ s))) := by
      rw [← htext, hv]
      simp
    rw [hsame, hgroup'] at hgroup
    obtain ⟨-, rfl⟩ := Prod.mk.inj (Option.some.inj hgroup)
    obtain ⟨o, x, ho, hx, -⟩ := h.behind_inv hg he
    exact hno o ho s (hx ▸ List.prefix_append o x)

end Embedding.Leaf

/-- A text lays out its predicates in one way only. -/
theorem Lays.unique {position : Position} {s : Text} {ws ws' : List Text} (h : Lays L position s ws)
    (h' : Lays L position s ws') : ws = ws' := by
  have hdisjoint : ∀ {b b' : Bool} {o c : Char}, closer? o = some c →
      leadPosition? b o ≠ some b' := by
    intro b b' o c ho hlead
    obtain ⟨rfl, rfl⟩ | ⟨rfl, rfl⟩ := closer?_eq_some.mp ho <;>
      simp [leadPosition?, Branch.ofChar?, Modality.ofChar?] at hlead
  induction h generalizing ws' with
  | nil hu => exact (h'.eq_nil_of_allBlank hu).symm
  | @leaf b u w s ws hu hw h ih =>
    obtain ⟨d, v, rfl, hd⟩ := hw.exists_cons
    have hbegins := h'.begins hu hd
    generalize htext : d :: (v ++ s) = t at hbegins
    cases hbegins with
    | @leaf w' s' ws' hw' hrest =>
      have hboth : (d :: v) ++ s = w' ++ s' := htext
      obtain ⟨x, rfl, hs⟩ | ⟨x, hx, rfl⟩ := List.append_eq_append_iff.mp hboth
      · obtain rfl := hw.eq_nil_of_append hL hw' (hs ▸ h) hrest
        obtain rfl : s = s' := hs
        rw [List.append_nil, ih hrest]
      · obtain rfl := hw'.eq_nil_of_append hL (hx ▸ hw) hrest h
        rw [hx, List.append_nil, ih hrest]
    | lead hc hr => exact absurd htext (hw.not_lead hL hc hr)
    | bracket hc hin ht h => exact absurd htext (hw.not_bracket hL hc hin ht h)
  | @lead b b' u s c ws hu hc hs h ih =>
    have hbegins := h'.begins hu (not_blank_of_leadPosition? hc)
    generalize htext : c :: s = t at hbegins
    cases hbegins with
    | leaf hw => exact absurd htext.symm (hw.not_lead hL hc hs)
    | lead hc' _ h' =>
      obtain ⟨rfl, rfl⟩ := List.cons.inj htext
      obtain rfl := Option.some.inj (hc.symm.trans hc')
      exact ih h'
    | bracket hc' =>
      obtain ⟨rfl, -⟩ := List.cons.inj htext
      exact absurd hc (hdisjoint hc')
  | @bracket b u inner t s o c ws ws₁ hu hc hin ht h ih ih' =>
    have hbegins := h'.begins hu (not_blank_of_closer? hc)
    generalize htext : o :: (inner ++ c :: t) = x at hbegins
    cases hbegins with
    | leaf hw => exact absurd htext.symm (hw.not_bracket hL hc hin ht h)
    | lead hc' =>
      obtain ⟨rfl, -⟩ := List.cons.inj htext
      exact absurd hc' (hdisjoint hc)
    | @bracket inner' t' s' o' c' vs vs' hc' hin' ht' h' =>
      obtain ⟨rfl, hrest⟩ := List.cons.inj htext
      obtain rfl := Option.some.inj (hc.symm.trans hc')
      have hgroup := splitGroup?_bracket (hin.neutral hL) hc t
      rw [hrest, splitGroup?_bracket (hin'.neutral hL) hc] at hgroup
      obtain ⟨rfl, rfl⟩ := Prod.mk.inj (Option.some.inj hgroup)
      obtain rfl := ht.unique ht'
      rw [ih hin', ih' h']
  | @operator k u s o ws hu ho hfree h ih =>
    obtain ⟨c, x, rfl, hc, -⟩ := not_blank_of_mem_operatorTexts ho
    obtain ⟨o', r, ho', htext, -, h'⟩ := h'.behind_inv hu hc
    have hfirst : ∀ o ∈ operatorTexts, ∀ o' ∈ operatorTexts, o.head? = o'.head? → o = o' := by
      decide
    obtain ⟨c', x', rfl, -⟩ := not_blank_of_mem_operatorTexts ho'
    have hsame : c :: x = c' :: x' := hfirst _ ho _ ho' (by rw [(List.cons.inj htext).1]; rfl)
    rw [← hsame] at htext
    obtain rfl := List.append_cancel_left (List.cons.inj htext).2
    exact ih h'

end

end TimedReq
