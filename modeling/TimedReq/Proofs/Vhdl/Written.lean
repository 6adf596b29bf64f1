import TimedReq.Proofs.Expr.Operator
import TimedReq.Proofs.Text.Brackets
import TimedReq.Proofs.Vhdl.Printing

/-!
# Texts of conditions in a larger text

What the text of a condition looks like to a reader that knows of brackets and quotes only: it
closes its brackets, and no operator of expressions is found in it unless the condition has a name
that looks like one.
-/

namespace TimedReq.Vhdl

open Text Lexeme

namespace Lexeme

lemma isPlain_of_isTokenChar {c : Char} (h : isTokenChar c = true) : IsPlain c := by
  refine ⟨?_, ?_, ?_, ?_, ?_, ?_⟩ <;> rintro rfl <;> exact absurd h (by decide)

lemma isPlain_of_isAsciiLetter {c : Char} (h : isAsciiLetter c = true) : IsPlain c :=
  isPlain_of_isTokenChar (isTokenChar_of_isWordChar (isWordChar_of_isAsciiLetter h))

/-- The nesting of a bit string: only its base is not quoted. -/
lemma nestingFrom_bitString {base : Char} {w : Text} (hbase : isAsciiLetter base = true)
    (hw : ∀ c ∈ w, c ≠ '"') (d : Int) (s : Text) :
    nestingFrom false d (base :: '"' :: (w ++ '"' :: s)) =
      some d :: (List.replicate (w.length + 2) none ++ nestingFrom false d s) := by
  rw [nestingFrom_plain d _ (isPlain_of_isAsciiLetter hbase), nestingFrom_quoted d hw]

/-- A token that is no bracket holds none outside literals. -/
lemma Shape.bracketed {k : TokenKind} {w : Text} (h : Shape k w) (hl : k ≠ .leftParen)
    (hr : k ≠ .rightParen) : Bracketed w := by
  cases h with
  | plain _ _ hw => exact Bracketed.plain fun c hc => isPlain_of_isTokenChar (hw c hc)
  | leftParen => exact absurd rfl hl
  | rightParen => exact absurd rfl hr
  | character c => exact Bracketed.character c
  | string hw => exact Bracketed.string hw
  | @bitString base w hbase hw =>
    have hplain : Bracketed [base] := Bracketed.plain fun c hc => by
      obtain rfl := List.mem_singleton.mp hc
      exact isPlain_of_isAsciiLetter hbase
    exact hplain.append (Bracketed.string hw)

lemma Shape.closed {k : TokenKind} {w : Text} (h : Shape k w) : ∃ δ, Closed δ w := by
  by_cases hl : k = .leftParen
  · subst hl
    cases h with
    | plain hl _ _ => exact absurd rfl hl
    | leftParen => exact ⟨1, Closed.opening (.inl rfl)⟩
  · by_cases hr : k = .rightParen
    · subst hr
      cases h with
      | plain _ hr _ => exact absurd rfl hr
      | rightParen => exact ⟨-1, Closed.closing (.inl rfl)⟩
    · exact ⟨0, (h.bracketed hl hr).neutral.closed⟩

/-- The characters of tokens outside literals. -/
lemma Shape.of_unquoted {k : TokenKind} {w : Text} (h : Shape k w) {c : Char}
    (hc : (c, false) ∈ marked w) : isTokenChar c = true ∨ c = '(' ∨ c = ')' := by
  -- a character of a literal is none outside literals
  have hinside : ∀ {s : Text} {qs : List Bool}, (∀ q ∈ qs, q = true) → (c, false) ∉ s.zip qs := by
    intro s qs hqs hmem
    exact absurd (hqs false (List.of_mem_zip hmem).2) (by simp)
  rw [marked_eq_zip] at hc
  cases h with
  | plain _ _ hchars => exact .inl (hchars c (List.of_mem_zip hc).1)
  | leftParen => exact .inr (.inl (List.mem_singleton.mp (List.of_mem_zip hc).1))
  | rightParen => exact .inr (.inr (List.mem_singleton.mp (List.of_mem_zip hc).1))
  | character e => exact absurd hc (hinside (by simp [quotes, nestingFrom_character]))
  | @string w hw =>
    refine absurd hc (hinside ?_)
    rw [quotes, nestingFrom_quoted 0 hw]
    simp
  | @bitString base w hbase hw =>
    rw [quotes, nestingFrom_bitString hbase hw, List.map_cons, List.zip_cons_cons,
      List.mem_cons] at hc
    rcases hc with hc | hc
    · rw [(Prod.mk.inj hc).1]
      exact .inl (isTokenChar_of_isWordChar (isWordChar_of_isAsciiLetter hbase))
    · exact absurd hc (hinside (by simp))

end Lexeme

/-- The characters of a text of tokens outside literals. -/
lemma Written.of_unquoted {w : Text} {ts : List Token} (h : Written w ts) {c : Char}
    (hc : (c, false) ∈ marked w) : isGap c ∨ isTokenChar c = true ∨ c = '(' ∨ c = ')' := by
  induction h with
  | nil => simp [marked] at hc
  | @gap d s ts hd _ ih =>
    have hplain := isPlain_of_isBlank (isBlank_of_isGap hd)
    rw [marked_plain hplain, List.mem_cons] at hc
    rcases hc with hc | hc
    · rw [(Prod.mk.inj hc).1]
      exact .inl hd
    · exact ih hc
  | @token t s ts ht _ ih =>
    have hshape := (leads_of_alone (b := []) ht trivial).shape
    obtain ⟨δ, hδ⟩ := hshape.closed
    rw [marked_append hδ, List.mem_append] at hc
    exact hc.elim (fun hc => .inr (hshape.of_unquoted hc)) ih

lemma Written.allBlank {w : Text} (h : Written w []) : AllBlank w := by
  generalize hts : ([] : List Token) = ts at h
  induction h with
  | nil => exact .nil
  | gap hc _ ih => exact .cons (isBlank_of_isGap hc) (ih hts)
  | token => simp at hts

lemma Written.append {v w : Text} {ts us : List Token} (hv : Written v ts) (hw : Written w us) :
    Written (v ++ w) (ts ++ us) := by
  induction hv with
  | nil => exact hw
  | gap hc _ ih => exact .gap hc ih
  | token ht _ ih =>
    rw [List.append_assoc]
    exact .token ht ih

lemma Written.cons_inv {w : Text} {t : Token} {ts : List Token} (h : Written w (t :: ts)) :
    ∃ u s, w = u ++ (t.text ++ s) ∧ Written u [] ∧ Leads t.kind t.text [] ∧ Written s ts := by
  generalize hts : t :: ts = us at h
  induction h with
  | nil => simp at hts
  | @gap c s us hc _ ih =>
    obtain ⟨u, v, rfl, hu, ht, hv⟩ := ih hts
    exact ⟨c :: u, v, rfl, .gap hc hu, ht, hv⟩
  | token ht hs =>
    obtain ⟨rfl, rfl⟩ := List.cons.inj hts
    exact ⟨[], _, rfl, .nil, leads_of_alone ht trivial, hs⟩

lemma Written.append_inv {w : Text} {ts us : List Token} (h : Written w (ts ++ us)) :
    ∃ u v, w = u ++ v ∧ Written u ts ∧ Written v us := by
  generalize hall : ts ++ us = vs at h
  induction h generalizing ts with
  | nil =>
    obtain ⟨rfl, rfl⟩ := List.append_eq_nil_iff.mp hall
    exact ⟨[], [], rfl, .nil, .nil⟩
  | @gap c s vs hc _ ih =>
    obtain ⟨u, v, rfl, hu, hv⟩ := ih hall
    exact ⟨c :: u, v, rfl, .gap hc hu, hv⟩
  | @token t s vs ht hs ih =>
    cases ts with
    | nil =>
      rw [List.nil_append] at hall
      subst hall
      exact ⟨[], _, rfl, .nil, .token ht hs⟩
    | cons t' ts =>
      obtain ⟨rfl, hrest⟩ := List.cons.inj hall
      obtain ⟨u, v, rfl, hu, hv⟩ := ih hrest
      exact ⟨t'.text ++ u, v, by rw [List.append_assoc], .token ht hu, hv⟩

/-- A text in brackets, taken apart. -/
lemma Written.bracket_inv {w : Text} {l r : Token} {ts us : List Token} (hl : l.kind = .leftParen)
    (hr : r.kind = .rightParen) (h : Written w (l :: (ts ++ r :: us))) :
    ∃ u v x, w = u ++ '(' :: (v ++ ')' :: x) ∧ AllBlank u ∧ Written v ts ∧ Written x us := by
  have hleft : l.text = ['('] ∧ r.text = [')'] := by
    obtain ⟨-, s, -, -, hlead, hs⟩ := h.cons_inv
    obtain ⟨v, y, rfl, -, hy⟩ := hs.append_inv
    obtain ⟨-, -, -, -, hrlead, -⟩ := hy.cons_inv
    have hlshape := hlead.shape
    have hrshape := hrlead.shape
    rw [hl] at hlshape
    rw [hr] at hrshape
    exact ⟨hlshape.eq_leftParen, hrshape.eq_rightParen⟩
  obtain ⟨u, s, rfl, hu, -, hs⟩ := h.cons_inv
  obtain ⟨v, y, rfl, hv, hy⟩ := hs.append_inv
  obtain ⟨g, x, rfl, hg, -, hx⟩ := hy.cons_inv
  have hvg := hv.append hg
  rw [List.append_nil] at hvg
  rw [hleft.1, hleft.2]
  exact ⟨u, v ++ g, x, by simp, hu.allBlank, hvg, hx⟩

/-- The text of an expression closes its brackets, each by its own kind. -/
lemma Derives.bracketed {ts : List Token} {x : Node} (h : Derives ts x) {w : Text}
    (hw : Written w ts) : Bracketed w := by
  have htoken : ∀ {t : Token} {us : List Token} {s : Text}, Written s (t :: us) →
      t.kind ≠ .leftParen → t.kind ≠ .rightParen →
      ∃ u v, s = u ++ v ∧ Bracketed u ∧ Written v us := by
    intro t us s hs hl hr
    obtain ⟨u, v, rfl, hu, hlead, hv⟩ := hs.cons_inv
    refine ⟨u ++ t.text, v, by simp, ?_, hv⟩
    exact (Bracketed.allBlank hu.allBlank).append (hlead.shape.bracketed hl hr)
  induction h generalizing w with
  | @leaf t x ht =>
    have hkind : t.kind ≠ .leftParen ∧ t.kind ≠ .rightParen := by
      constructor <;> intro hk <;> rw [Token.leaf?, hk] at ht <;> simp at ht
    obtain ⟨u, v, rfl, hu, hv⟩ := htoken hw hkind.1 hkind.2
    exact hu.append (Bracketed.allBlank hv.allBlank)
  | paren hl hr _ ih =>
    obtain ⟨u, v, x, rfl, hu, hv, hx⟩ := Written.bracket_inv hl hr hw
    have hbracket := (ih hv).bracket (o := '(') (c := ')') rfl
    have heq : u ++ '(' :: (v ++ ')' :: x) = u ++ ('(' :: (v ++ [')']) ++ x) := by simp
    rw [heq]
    exact (Bracketed.allBlank hu).append (hbracket.append (Bracketed.allBlank hx.allBlank))
  | @unary t o ts x ht _ ih =>
    have hkind : t.kind ≠ .leftParen ∧ t.kind ≠ .rightParen := by
      rw [TokenKind.eq_of_unary? ht]
      cases o <;> decide
    obtain ⟨u, v, rfl, hu, hv⟩ := htoken hw hkind.1 hkind.2
    exact hu.append (ih hv)
  | @binary t o ts us x y ht _ _ ihx ihy =>
    obtain ⟨v, s, rfl, hv, hs⟩ := hw.append_inv
    obtain ⟨u, s, rfl, hu, hs⟩ := htoken hs (by simp [ht]) (by simp [ht])
    exact (ihx hv).append (hu.append (ihy hs))

lemma Derives.neutral {ts : List Token} {x : Node} (h : Derives ts x) {w : Text}
    (hw : Written w ts) : Neutral w := (h.bracketed hw).neutral

lemma Derives.ne_nil {ts : List Token} {x : Node} (h : Derives ts x) : ts ≠ [] := by
  induction h <;> simp

/-- An expression that begins with a bracket is one in brackets, or an operator follows the
partner of the bracket. -/
lemma Derives.bracket {t : Token} {ts : List Token} {x : Node} (h : Derives (t :: ts) x)
    (ht : t.kind = .leftParen) :
    ∃ us y r rest, ts = us ++ r :: rest ∧ Derives us y ∧ r.kind = .rightParen ∧
      (rest = [] → x = .paren y) ∧ ∀ u vs, rest = u :: vs → ∃ o, u.kind = .binary o := by
  generalize hall : t :: ts = ws at h
  induction h generalizing ts with
  | @leaf u x hu =>
    obtain ⟨rfl, rfl⟩ := List.cons.inj hall
    rw [Token.leaf?, ht] at hu
    simp at hu
  | paren hl hr hx =>
    obtain ⟨rfl, rfl⟩ := List.cons.inj hall
    refine ⟨_, _, _, [], rfl, hx, hr, fun _ => rfl, ?_⟩
    intro u vs h
    simp at h
  | @unary u o us x hu =>
    obtain ⟨rfl, rfl⟩ := List.cons.inj hall
    have hkind := TokenKind.eq_of_unary? hu
    rw [ht] at hkind
    cases o <;> simp [UnaryOperator.kind] at hkind
  | @binary u o vs us x y hu hx hy ihx _ =>
    cases hx' : vs with
    | nil =>
      subst hx'
      exact absurd rfl hx.ne_nil
    | cons t' vs' =>
      subst hx'
      obtain ⟨rfl, rfl⟩ := List.cons.inj hall
      obtain ⟨is, z, r, rest, rfl, hz, hr, -, hrest⟩ := ihx rfl
      refine ⟨is, z, r, rest ++ u :: us, by simp, hz, hr, by simp, ?_⟩
      intro v ws hv
      rcases rest with _ | ⟨v', rest⟩
      · obtain ⟨rfl, -⟩ := List.cons.inj hv
        exact ⟨o, hu⟩
      · obtain ⟨rfl, -⟩ := List.cons.inj hv
        exact hrest v' rest rfl

/-- The names among the tokens are names of the expression. -/
lemma Derives.mem_names {ts : List Token} {x : Node} (h : Derives ts x) :
    ∀ t ∈ ts, t.kind = .name → t.text ∈ x.names := by
  intro t ht hk
  rw [h.names_eq]
  exact List.mem_map_of_mem (List.mem_filter.mpr ⟨ht, by simpa using hk⟩)

/-- An operator of expressions that is a token by itself is a name. -/
lemma Lexeme.Leads.eq_name {k : TokenKind} {c : Char} {b : Text} (h : Leads k [c] b)
    (hc : c ∈ operatorChars) : k = .name ∧ [c] ∈ operatorNames := by
  have hnext : ∀ c ∈ operatorChars, Lexeme.next? [c] = none ∨
      (Lexeme.next? [c] = some (.name, 1) ∧ [c] ∈ operatorNames) := by decide
  have halone := h.alone
  rcases hnext c hc with hn | ⟨hn, hmem⟩
  · rw [hn] at halone
    exact absurd halone (by simp)
  · rw [hn] at halone
    exact ⟨(Prod.mk.inj (Option.some.inj halone)).1.symm, hmem⟩

/-- Behind the first character of a token stands the end of the token or no blank. -/
lemma Lexeme.Shape.second_not_blank {k : TokenKind} {c d : Char} {w : Text}
    (h : Shape k (c :: d :: w)) (hc : c ∈ operatorChars) : isBlank d = false := by
  generalize hw : c :: d :: w = v at h
  cases h with
  | plain _ _ hchars =>
    subst hw
    exact not_blank_of_isTokenChar (hchars d (by simp))
  | leftParen | rightParen => simp at hw
  | character | string =>
    obtain ⟨rfl, -⟩ := List.cons.inj hw
    exact absurd hc (by decide)
  | bitString =>
    obtain ⟨-, hw⟩ := List.cons.inj hw
    obtain ⟨rfl, -⟩ := List.cons.inj hw
    rfl

section TokenFree

variable {β : Type} {symbol? : Char → Option β}

lemma tokenFree_of_not_blank {w : Text} (hw : ∀ c ∈ w, isBlank c = false)
    (ns : List (Option Int)) : TokenFree symbol? false w ns := by
  induction w generalizing ns with
  | nil => trivial
  | cons c w ih =>
    cases ns with
    | nil => trivial
    | cons d ns =>
      refine ⟨by simp, ?_⟩
      rw [hw c List.mem_cons_self]
      exact ih (fun x hx => hw x (List.mem_cons_of_mem c hx)) ns

lemma tokenFree_of_quoted {w : Text} {ns : List (Option Int)} (hns : ∀ n ∈ ns, n = none)
    (a : Bool) : TokenFree symbol? a w ns :=
  TokenFree.of_depth (fun k hk => absurd (hns _ hk) (by simp)) a w

/-- No operator is found in a token that is none itself. -/
lemma Lexeme.Leads.tokenFree {k : TokenKind} {w b : Text} (h : Leads k w b)
    (hsymbol : ∀ c, (symbol? c).isSome → c ∈ operatorChars) (hk : k = .name → w ∉ operatorNames)
    (a : Bool) (d : Int) : TokenFree symbol? a w (nestingFrom false d w) := by
  have hnone : ∀ {c : Char}, c ∉ operatorChars → symbol? c = none := by
    intro c hc
    by_contra hne
    exact hc (hsymbol c (Option.isSome_iff_ne_none.mpr hne))
  have hshape := h.shape
  cases hshape with
  | plain hl hr hw =>
    rcases w with _ | ⟨c, _ | ⟨e, w⟩⟩
    · trivial
    · refine TokenFree.of_symbols ?_ a _
      intro c' hc'
      obtain rfl := List.mem_singleton.mp hc'
      refine hnone fun hmem => ?_
      obtain ⟨hname, hin⟩ := h.eq_name hmem
      exact hk hname hin
    · have hc := hw c List.mem_cons_self
      rw [nestingFrom_plain d _ (isPlain_of_isTokenChar hc)]
      refine ⟨?_, ?_⟩
      · intros
        exact ⟨e, w, rfl, not_blank_of_isTokenChar (hw e (by simp))⟩
      · rw [not_blank_of_isTokenChar hc]
        refine tokenFree_of_not_blank ?_ _
        intro x hx
        exact not_blank_of_isTokenChar (hw x (List.mem_cons_of_mem c hx))
  | leftParen | rightParen =>
    refine TokenFree.of_symbols ?_ a _
    intro c hc
    obtain rfl := List.mem_singleton.mp hc
    exact hnone (by decide)
  | character c =>
    refine tokenFree_of_quoted ?_ a
    simp [nestingFrom_character]
  | @string w hw =>
    refine tokenFree_of_quoted ?_ a
    rw [nestingFrom_quoted d hw]
    simp
  | @bitString base w hbase hw =>
    rw [nestingFrom_bitString hbase hw]
    refine ⟨?_, tokenFree_of_quoted ?_ _⟩
    · intros
      exact ⟨'"', w ++ ['"'], rfl, rfl⟩
    · simp

/-- No operator is found in a text of tokens that are none. -/
lemma Written.tokenFree {w : Text} {ts : List Token} (h : Written w ts)
    (hsymbol : ∀ c, (symbol? c).isSome → c ∈ operatorChars)
    (hts : ∀ t ∈ ts, t.kind = .name → t.text ∉ operatorNames) (a : Bool) (d : Int) :
    TokenFree symbol? a w (nestingFrom false d w) := by
  induction h generalizing a d with
  | nil => trivial
  | @gap c s ts hc _ ih =>
    rw [nestingFrom_plain d s (isPlain_of_isBlank (isBlank_of_isGap hc))]
    refine ⟨?_, ih hts _ _⟩
    intro hx
    have hblank := not_blank_of_mem_operatorChars (hsymbol c hx)
    rw [isBlank_of_isGap hc] at hblank
    exact absurd hblank (by simp)
  | @token t s ts ht hs ih =>
    have hlead := leads_of_alone (b := []) ht trivial
    obtain ⟨δ, hδ⟩ := hlead.shape.closed
    rw [hδ d s]
    refine TokenFree.append ?_ (length_nestingFrom _ _ _) (ih ?_ _ _)
    · exact hlead.tokenFree hsymbol (hts t List.mem_cons_self) a d
    · exact fun u hu => hts u (List.mem_cons_of_mem t hu)

end TokenFree

end TimedReq.Vhdl
