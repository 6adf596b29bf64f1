import Mathlib.Logic.Relation
import TimedReq.Embedding
import TimedReq.Proofs.Document.Header

/-!
# Layout of documents

Comments, blanks around lines and further blank lines where there is a blank line already change
nothing of how a document is read, and neither does the way its lines are ended. One edit keeps what
the body of a document is made up of, so any sequence of them does.
-/

namespace TimedReq

open Text

/-- An edit of the lines below a header that concerns their layout only. -/
inductive Document.Edit : List Text → List Text → Prop
  | comment (xs ys : List Text) {t : Text} (ht : Unbroken t) :
      Edit (xs ++ ys) (xs ++ ('-' :: '-' :: t) :: ys)
  | remark (xs ys : List Text) {l t : Text} (hl : ¬AllBlank l) (ht : Unbroken t) :
      Edit (xs ++ l :: ys) (xs ++ (l ++ ' ' :: '-' :: '-' :: ' ' :: t) :: ys)
  | pad (xs ys : List Text) (l : Text) {u v : Text} (hu : AllBlank u) (hv : AllBlank v)
      (hu' : Unbroken u) (hv' : Unbroken v) : Edit (xs ++ l :: ys) (xs ++ (u ++ l ++ v) :: ys)
  | unpad (xs ys : List Text) (l : Text) {u v : Text} (hu : AllBlank u) (hv : AllBlank v) :
      Edit (xs ++ (u ++ l ++ v) :: ys) (xs ++ l :: ys)
  | blankAbove (xs ys : List Text) {l b : Text} (hl : AllBlank l) (hb : AllBlank b)
      (hb' : Unbroken b) : Edit (xs ++ l :: ys) (xs ++ b :: l :: ys)
  | blankBelow (xs ys : List Text) {l b : Text} (hl : AllBlank l) (hb : AllBlank b)
      (hb' : Unbroken b) : Edit (xs ++ l :: ys) (xs ++ l :: b :: ys)
  | blankFirst (ls : List Text) {b : Text} (hb : AllBlank b) (hb' : Unbroken b) : Edit ls (b :: ls)
  | blankLast (ls : List Text) {b : Text} (hb : AllBlank b) (hb' : Unbroken b) :
      Edit ls (ls ++ [b])

namespace Document.Edit

variable {ls ms : List Text}

/-- The runs of what is left of the lines are the same. -/
lemma runs_eq (h : Edit ls ms) :
    Blocks.runs (Blocks.contents ls) = Blocks.runs (Blocks.contents ms) := by
  -- what a line leaves that stands in place of another
  have hset : ∀ {xs ys : List Text} {l l' : Text}, Blocks.contents [l] = Blocks.contents [l'] →
      Blocks.contents (xs ++ l :: ys) = Blocks.contents (xs ++ l' :: ys) := by
    intro xs ys l l' hl
    rw [Blocks.contents_append, Blocks.contents_cons, hl, ← Blocks.contents_cons,
      ← Blocks.contents_append]
  have hblank : ∀ {b : Text} (ys : List Text), AllBlank b →
      Blocks.contents (b :: ys) = [] :: Blocks.contents ys := by
    intro b ys hb
    rw [Blocks.contents_cons, Blocks.contents_of_allBlank hb]
    rfl
  cases h with
  | @comment xs ys t ht =>
    have hcomment := Blocks.contents_of_isComment (Blocks.isComment_mark t)
    rw [Blocks.contents_append, Blocks.contents_append, Blocks.contents_cons _ ys, hcomment]
    rfl
  | remark xs ys hl ht => rw [hset (Blocks.contents_remark hl _)]
  | pad xs ys l hu hv => rw [hset (Blocks.contents_pad hu hv l)]
  | unpad xs ys l hu hv => rw [hset (Blocks.contents_pad hu hv l)]
  | blankAbove xs ys hl hb =>
    rw [Blocks.contents_append, Blocks.contents_append, hblank _ hb, hblank _ hl,
      Blocks.runs_append_cons, Blocks.runs_append_cons, Blocks.runs_cons_nil]
  | blankBelow xs ys hl hb =>
    rw [Blocks.contents_append, Blocks.contents_append, hblank _ hl, hblank _ hl, hblank _ hb,
      Blocks.runs_append_cons, Blocks.runs_append_cons, Blocks.runs_cons_nil]
  | blankFirst ls hb => rw [hblank _ hb, Blocks.runs_cons_nil]
  | blankLast ls hb =>
    rw [Blocks.contents_append, Blocks.contents_of_allBlank hb, Blocks.runs_concat_nil]

/-- No edit breaks a line. -/
lemma unbroken (h : Edit ls ms) (hls : ∀ l ∈ ls, Unbroken l) : ∀ l ∈ ms, Unbroken l := by
  have hset : ∀ {xs ys : List Text} {l l' : Text}, (∀ x ∈ xs ++ l :: ys, Unbroken x) →
      (Unbroken l → Unbroken l') → ∀ x ∈ xs ++ l' :: ys, Unbroken x := by
    intro xs ys l l' hall hl x hx
    simp only [List.forall_mem_append, List.forall_mem_cons] at hall
    rcases List.mem_append.mp hx with hx | hx
    · exact hall.1 x hx
    · rcases List.mem_cons.mp hx with rfl | hx
      · exact hl hall.2.1
      · exact hall.2.2 x hx
  cases h with
  | comment xs ys ht =>
    have hcomment := Unbroken.append (s := ['-', '-']) (by decide) ht
    simp only [List.forall_mem_append, List.forall_mem_cons] at hls ⊢
    exact ⟨hls.1, hcomment, hls.2⟩
  | remark xs ys hl ht =>
    exact hset hls fun h => h.append (Unbroken.append (s := [' ', '-', '-', ' ']) (by decide) ht)
  | pad xs ys l hu hv hu' hv' => exact hset hls fun h => (hu'.append h).append hv'
  | unpad xs ys l hu hv => exact hset hls fun h => h.mono (by simp)
  | blankAbove xs ys hl hb hb' =>
    simp only [List.forall_mem_append, List.forall_mem_cons] at hls ⊢
    exact ⟨hls.1, hb', hls.2⟩
  | blankBelow xs ys hl hb hb' =>
    simp only [List.forall_mem_append, List.forall_mem_cons] at hls ⊢
    exact ⟨hls.1, hls.2.1, hb', hls.2.2⟩
  | blankFirst ls hb hb' => exact List.forall_mem_cons.mpr ⟨hb', hls⟩
  | blankLast ls hb hb' => exact List.forall_mem_append.mpr ⟨hls, by simpa using hb'⟩

/-- No edit makes the first line one of the header. -/
lemma unmarked (h : Edit ls ms) (hls : ∀ l ∈ ls.head?, ¬Header.mark <+: trim l) :
    ∀ l ∈ ms.head?, ¬Header.mark <+: trim l := by
  have hset : ∀ {xs ys zs : List Text} {l l' : Text},
      (∀ x ∈ (xs ++ l :: ys).head?, ¬Header.mark <+: trim x) →
      (¬Header.mark <+: trim l → ¬Header.mark <+: trim l') →
      ∀ x ∈ (xs ++ l' :: zs).head?, ¬Header.mark <+: trim x := by
    intro xs ys zs l l' hall hl x hx
    cases xs with
    | nil =>
      obtain rfl := Option.some.inj hx
      exact hl (hall l rfl)
    | cons y xs => exact hall x hx
  have hblank : ∀ {b : Text}, AllBlank b → ¬Header.mark <+: trim b := by
    intro b hb
    rw [trim_of_allBlank hb]
    decide
  cases h with
  | @comment xs ys t ht =>
    have hcomment : ¬Header.mark <+: trim ('-' :: '-' :: t) := fun hmark =>
      absurd (List.prefix_of_prefix_length_le hmark (Blocks.isComment_mark t) le_rfl) (by decide)
    cases xs with
    | nil =>
      rintro x hx
      obtain rfl := Option.some.inj hx
      exact hcomment
    | cons y xs => exact hls
  | remark xs ys hl ht =>
    exact hset hls (mt (prefix_trim_append_blank (by decide) hl rfl _).mp)
  | pad xs ys l hu hv => exact hset hls fun h => (trim_pad hu hv l).symm ▸ h
  | unpad xs ys l hu hv => exact hset hls fun h => trim_pad hu hv l ▸ h
  | blankAbove xs ys hl hb => exact hset hls fun _ => hblank hb
  | blankBelow xs ys hl hb => exact hset hls id
  | blankFirst ls hb =>
    rintro x hx
    obtain rfl := Option.some.inj hx
    exact hblank hb
  | blankLast ls hb =>
    cases ls with
    | nil =>
      rintro x hx
      obtain rfl := Option.some.inj hx
      exact hblank hb
    | cons l ls => exact hls

/-- An edit leaves the header as it is. -/
lemma divides (h : Edit ls ms) {header : List Text} (hdivides : Header.Divides header ls) :
    Header.Divides header ms where
  ne_nil := hdivides.ne_nil
  marked := hdivides.marked
  unmarked := h.unmarked hdivides.unmarked
  unbroken := by
    obtain ⟨hheader, hls⟩ := List.forall_mem_append.mp hdivides.unbroken
    exact List.forall_mem_append.mpr ⟨hheader, h.unbroken hls⟩

end Document.Edit

/-- What edits of the lines below the header keep. -/
lemma Document.edits_preserve {header body body' : List Text}
    (hdivides : Header.Divides header body) (hedits : Relation.ReflTransGen Edit body body') :
    Header.Divides header body' ∧
      Blocks.runs (Blocks.contents body) = Blocks.runs (Blocks.contents body') := by
  induction hedits with
  | refl => exact ⟨hdivides, rfl⟩
  | tail _ hedit ih => exact ⟨hedit.divides ih.1, ih.2.trans hedit.runs_eq⟩

/-- The layout of a document does not matter: edits of the lines below its header that concern the
layout, and the way the lines are ended, leave the outcome as it is, with the reports of errors. -/
theorem Specification.parse_eq_of_edits {α : Type} (L : Embedding α) (m : Int)
    {header body body' : List Text} (hdivides : Header.Divides header body)
    (hedits : Relation.ReflTransGen Document.Edit body body') {d d' : Text}
    (hd : HasLines d (header ++ body)) (hd' : HasLines d' (header ++ body')) :
    Specification.parse L m d' = Specification.parse L m d := by
  obtain ⟨hdivides', hruns⟩ := Document.edits_preserve hdivides hedits
  obtain ⟨below, hsplit, hblocks⟩ := hdivides.split_eq hd
  obtain ⟨below', hsplit', hblocks'⟩ := hdivides'.split_eq hd'
  exact Specification.parse_congr hsplit' hsplit (by rw [hblocks', hblocks, hruns])

theorem Specification.parse_eq_of_edits_crlf :
    ∃ s, parse .vhdl 5 "// spec:language VHDL\n\na = '1' ^\nb = '1'\n".toList = .ok s ∧
      parse .vhdl 5
        "// spec:language VHDL\r\n\r\n-- both\r\na = '1' ^ -- one\r\n  b = '1'\r\n".toList =
          .ok s := by
  have hmark : ∀ l ∈ [[], "a = '1' ^".toList, "b = '1'".toList].head?,
      ¬Header.mark <+: trim l := by decide
  have hdivides : Header.Divides ["// spec:language VHDL".toList]
      [[], "a = '1' ^".toList, "b = '1'".toList] :=
    ⟨by decide, by decide, hmark, by decide⟩
  have hcomment := Document.Edit.comment [[]] ["a = '1' ^".toList, "b = '1'".toList]
    (t := " both".toList) (by decide)
  have hremark := Document.Edit.remark [[], "-- both".toList] ["b = '1'".toList]
    (l := "a = '1' ^".toList) (t := "one".toList) (by decide) (by decide)
  have hpad := Document.Edit.pad [[], "-- both".toList, "a = '1' ^ -- one".toList] []
    "b = '1'".toList (u := "  ".toList) (v := []) (by decide) (by decide) (by decide) (by decide)
  have hd : HasLines "// spec:language VHDL\n\na = '1' ^\nb = '1'\n".toList
      ["// spec:language VHDL".toList, [], "a = '1' ^".toList, "b = '1'".toList] :=
    ⟨['\n'], by decide, .inr (by decide)⟩
  have hd' : HasLines
      "// spec:language VHDL\r\n\r\n-- both\r\na = '1' ^ -- one\r\n  b = '1'\r\n".toList
      ["// spec:language VHDL".toList, [], "-- both".toList, "a = '1' ^ -- one".toList,
        "  b = '1'".toList] :=
    ⟨['\r', '\n'], by decide, .inr (by decide)⟩
  have h : parse .vhdl 5 "// spec:language VHDL\n\na = '1' ^\nb = '1'\n".toList =
      .ok ⟨⟨.vhdl⟩, [.binary .and
        (.predicate (.ofBinary .comparison ['='] (.name ['a']) (.ofBit ['1'])))
        (.predicate (.ofBinary .comparison ['='] (.name ['b']) (.ofBit ['1'])))]⟩ := by
    decide +kernel
  have hedits := ((Relation.ReflTransGen.single hcomment).tail hremark).tail hpad
  exact ⟨_, h, (parse_eq_of_edits .vhdl 5 hdivides hedits hd hd').trans h⟩

end TimedReq
