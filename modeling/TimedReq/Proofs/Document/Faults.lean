import TimedReq.Document.File
import TimedReq.Proofs.Document.RoundTrip
import TimedReq.Proofs.Expr.TooLong

/-!
# Reading and validating

A document is read up to its first fault and validated to its end. The two agree on the first fault
as long as no numeral in the document is too long: behind a fault such a numeral is not seen by
reading, but it ends the search for faults, so that none of them is reported.
-/

namespace TimedReq

open Text Blocks

variable {α : Type} {L : Embedding α}

namespace Document

/-- The fault of a block that is malformed. -/
def badBlock? (L : Embedding α) (i : Nat) (b : Text) : Option DocumentFault :=
  match Expr.read L Expr.defaultDepth b with
  | .error .malformed => some (.badRequirement i b)
  | _ => none

/-- The faults of the blocks that are malformed, in their order; the first block has the given
index. -/
def malformed (L : Embedding α) (i : Nat) (bs : List Text) : List DocumentFault :=
  (bs.zipIdx i).filterMap fun (b, j) => badBlock? L j b

/-- No numeral in a block is too long. -/
def MeasuredBlocks (L : Embedding α) (bs : List Text) : Prop :=
  ∀ b ∈ bs, ∀ n, Expr.read L Expr.defaultDepth b ≠ .error (.tooLong n)

/-- No numeral in a requirement of the document is too long. -/
def Measured (L : Embedding α) (d : Text) : Prop :=
  ∀ c body, split d = .ok (c, body) → MeasuredBlocks L (ofBody body)

lemma measuredBlocks_cons {b : Text} {bs : List Text} : MeasuredBlocks L (b :: bs) ↔
    (∀ n, Expr.read L Expr.defaultDepth b ≠ .error (.tooLong n)) ∧ MeasuredBlocks L bs :=
  List.forall_mem_cons

lemma malformed_cons (i : Nat) (b : Text) (bs : List Text) :
    malformed L i (b :: bs) = (badBlock? L i b).toList ++ malformed L (i + 1) bs := by
  unfold malformed
  simp only [List.zipIdx_cons, List.filterMap_cons]
  cases badBlock? L i b <;> rfl

/-- The search for faults comes to its end if no numeral is too long, and finds all of them. -/
lemma badBlocks_eq_ok {i : Nat} {bs : List Text} {fs : List DocumentFault} :
    badBlocks L i bs = .ok fs ↔ MeasuredBlocks L bs ∧ fs = malformed L i bs := by
  induction bs generalizing i fs with
  | nil => simp [badBlocks, MeasuredBlocks, malformed, eq_comm]
  | cons b bs ih =>
    rw [badBlocks, malformed_cons, measuredBlocks_cons, badBlock?]
    cases hb : Expr.read L Expr.defaultDepth b with
    | ok e => simp [ih]
    | error r =>
      cases r with
      | malformed =>
        have hstep : (DocumentFault.badRequirement i b :: ·) <$> badBlocks L (i + 1) bs = .ok fs ↔
            ∃ gs, badBlocks L (i + 1) bs = .ok gs ∧ .badRequirement i b :: gs = fs := by
          cases badBlocks L (i + 1) bs <;> simp [Functor.map, Except.map]
        simp [hstep, ih, eq_comm, and_assoc]
      | tooLong n => simp

/-- Blocks are read just if no fault is found in them. -/
lemma exists_readBlocks_iff {i : Nat} {bs : List Text} :
    (∃ rs, readBlocks L Expr.defaultDepth i bs = .ok rs) ↔ badBlocks L i bs = .ok [] := by
  induction bs generalizing i with
  | nil => simp [readBlocks, badBlocks]
  | cons b bs ih =>
    rw [badBlocks, readBlocks]
    cases hb : Expr.read L Expr.defaultDepth b with
    | ok e =>
      simp only [← ih]
      cases readBlocks L Expr.defaultDepth (i + 1) bs <;> simp [Functor.map, Except.map]
    | error r =>
      cases r with
      | malformed => cases badBlocks L (i + 1) bs <;> simp [Functor.map, Except.map]
      | tooLong n => simp

/-- If no numeral is too long, reading stops at the first fault. -/
lemma readBlocks_eq_fault {i : Nat} {bs : List Text} (h : MeasuredBlocks L bs) {f : DocumentFault} :
    readBlocks L Expr.defaultDepth i bs = .error (.fault f) ↔
      ∃ rest, malformed L i bs = f :: rest := by
  induction bs generalizing i with
  | nil => simp [readBlocks, malformed]
  | cons b bs ih =>
    obtain ⟨hlong, hbs⟩ := measuredBlocks_cons.mp h
    rw [readBlocks, malformed_cons, badBlock?]
    cases hb : Expr.read L Expr.defaultDepth b with
    | ok e =>
      simp only [Option.toList_none, List.nil_append, ← ih hbs]
      cases readBlocks L Expr.defaultDepth (i + 1) bs <;> simp [Functor.map, Except.map]
    | error r =>
      cases r with
      | malformed => simp
      | tooLong n => exact absurd hb (hlong n)

variable {d : Text} {fs : List DocumentFault}

lemma measured_of_split_error {f : DocumentFault} (h : split d = .error f) : Measured L d := by
  intro c body hsplit
  rw [h] at hsplit
  simp at hsplit

lemma measured_of_split_ok {c : Configuration} {body : List Text} (h : split d = .ok (c, body)) :
    Measured L d ↔ MeasuredBlocks L (ofBody body) := by
  unfold Measured
  rw [h]
  simp

/-- The faults of a document with a header are those of its blocks. -/
lemma faults_eq_ok {c : Configuration} {body : List Text} (h : split d = .ok (c, body)) :
    faults L d = .ok fs ↔ Measured L d ∧ fs = malformed L 1 (ofBody body) := by
  unfold faults
  rw [h, measured_of_split_ok h]
  exact badBlocks_eq_ok

/-- A document in which faults are found has no numeral that is too long. -/
lemma measured_of_faults (h : faults L d = .ok fs) : Measured L d := by
  cases hsplit : split d with
  | error f => exact measured_of_split_error hsplit
  | ok parts => exact ((faults_eq_ok hsplit).mp h).1

lemma exists_parse_iff :
    (∃ s, Specification.parse L Expr.defaultDepth d = .ok s) ↔ faults L d = .ok [] := by
  unfold Specification.parse faults
  cases split d with
  | error f => simp
  | ok parts =>
    simp only [← exists_readBlocks_iff]
    cases readBlocks L Expr.defaultDepth 1 (ofBody parts.2) <;> simp [Functor.map, Except.map]

/-- If no numeral is too long, a document is read up to the first of its faults. -/
lemma parse_eq_fault (h : Measured L d) {f : DocumentFault} :
    Specification.parse L Expr.defaultDepth d = .error (.fault f) ↔
      ∃ rest, faults L d = .ok (f :: rest) := by
  cases hsplit : split d with
  | error g => simp [Specification.parse, faults, hsplit, eq_comm]
  | ok parts =>
    have hrest : (∃ rest, faults L d = .ok (f :: rest)) ↔
        ∃ rest, malformed L 1 (ofBody parts.2) = f :: rest := by
      simp [faults_eq_ok hsplit, h, eq_comm]
    rw [hrest, ← readBlocks_eq_fault ((measured_of_split_ok hsplit).mp h)]
    unfold Specification.parse
    rw [hsplit]
    simp only
    cases readBlocks L Expr.defaultDepth 1 (ofBody parts.2) <;> simp [Functor.map, Except.map]

end Document

namespace SpecificationFile

variable {t : Tree} {p : Path} {d : Text}

lemma read_eq (h : t.read p = .ok d) (m : Int) :
    read L m t p = (Specification.parse L m d).mapError .document := by
  unfold read document
  rw [h]
  rfl

lemma validate_eq (h : t.read p = .ok d) : validate L t p =
    ((Document.faults L d).map (·.map DocumentFault.message)).mapError .document := by
  unfold validate document
  rw [h]
  rfl

lemma validate_eq_ok (h : t.read p = .ok d) {ms : List String} :
    validate L t p = .ok ms ↔
      ∃ fs, Document.faults L d = .ok fs ∧ fs.map DocumentFault.message = ms := by
  rw [validate_eq h]
  cases Document.faults L d <;> simp [Except.map, Except.mapError]

/-- A file is read just if nothing is found in it. -/
lemma exists_read_iff (h : t.read p = .ok d) :
    (∃ s, read L Expr.defaultDepth t p = .ok s) ↔ validate L t p = .ok [] := by
  have hread : ∀ s, read L Expr.defaultDepth t p = .ok s ↔
      Specification.parse L Expr.defaultDepth d = .ok s := by
    intro s
    rw [read_eq h]
    cases Specification.parse L Expr.defaultDepth d <;> simp [Except.mapError]
  simp only [hread, Document.exists_parse_iff, validate_eq_ok h, List.map_eq_nil_iff,
    exists_eq_right]

/-- What is found first is the fault at which reading stops. -/
lemma validate_eq_cons_iff (h : t.read p = .ok d) {msg : String} :
    (∃ rest, validate L t p = .ok (msg :: rest)) ↔ Document.Measured L d ∧
      ∃ f, read L Expr.defaultDepth t p = .error (.document (.fault f)) ∧ f.message = msg := by
  have hfault : ∀ f, read L Expr.defaultDepth t p = .error (.document (.fault f)) ↔
      Specification.parse L Expr.defaultDepth d = .error (.fault f) := by
    intro f
    rw [read_eq h]
    cases Specification.parse L Expr.defaultDepth d <;> simp [Except.mapError]
  simp only [hfault, validate_eq_ok h]
  constructor
  · rintro ⟨rest, fs, hfs, hmap⟩
    have hmeasured := Document.measured_of_faults hfs
    obtain ⟨f, fs, rfl, hf, -⟩ := List.map_eq_cons_iff.mp hmap
    exact ⟨hmeasured, f, (Document.parse_eq_fault hmeasured).mpr ⟨fs, hfs⟩, hf⟩
  · rintro ⟨hmeasured, f, hf, rfl⟩
    obtain ⟨fs, hfs⟩ := (Document.parse_eq_fault hmeasured).mp hf
    exact ⟨fs.map DocumentFault.message, f :: fs, hfs, rfl⟩

/-- Below a header, the malformed blocks are found. -/
lemma validate_eq_ok_of_split (h : t.read p = .ok d) {c : Configuration} {body : List Text}
    (hsplit : Document.split d = .ok (c, body)) {ms : List String} :
    validate L t p = .ok ms ↔ Document.Measured L d ∧
      ms = (Document.malformed L 1 (ofBody body)).map DocumentFault.message := by
  simp only [validate_eq_ok h, Document.faults_eq_ok hsplit]
  constructor
  · rintro ⟨fs, ⟨hmeasured, rfl⟩, rfl⟩
    exact ⟨hmeasured, rfl⟩
  · rintro ⟨hmeasured, rfl⟩
    exact ⟨_, ⟨hmeasured, rfl⟩, rfl⟩

/-- Reading and validating a file agree: a file that is read has no faults, the first fault that is
found is the one at which reading stops, and each malformed block is reported once and in its place.
A numeral that is too long, and only that, keeps faults from being reported. -/
theorem validate_eq_ok_iff_read (h : t.read p = .ok d) :
    ((∃ s, read L Expr.defaultDepth t p = .ok s) ↔ validate L t p = .ok []) ∧
      (∀ msg, (∃ rest, validate L t p = .ok (msg :: rest)) ↔ Document.Measured L d ∧
        ∃ f, read L Expr.defaultDepth t p = .error (.document (.fault f)) ∧ f.message = msg) ∧
      ∀ c body, Document.split d = .ok (c, body) → ∀ ms, validate L t p = .ok ms ↔
        Document.Measured L d ∧
          ms = (Document.malformed L 1 (ofBody body)).map DocumentFault.message :=
  ⟨exists_read_iff h, fun _ => validate_eq_cons_iff h,
    fun _ _ hsplit _ => validate_eq_ok_of_split h hsplit⟩

theorem validate_eq_ok_iff_read_malformed :
    ∃ t p, t.read p = .ok "// spec:language VHDL\n\n(\n\na = '1'\n\n)\n".toList ∧
      validate .vhdl t p = .ok ["Requirement 1 is not a valid TCTL expression: '('",
        "Requirement 3 is not a valid TCTL expression: ')'"] ∧
      ∃ f, read .vhdl Expr.defaultDepth t p = .error (.document (.fault f)) ∧
        f.message = "Requirement 1 is not a valid TCTL expression: '('" := by
  have h : (Tree.empty.put ["s".toList] "// spec:language VHDL\n\n(\n\na = '1'\n\n)\n".toList).read
      ⟨[], ["s".toList]⟩ = .ok "// spec:language VHDL\n\n(\n\na = '1'\n\n)\n".toList := by
    decide +kernel
  have hvalidate : validate .vhdl
      (Tree.empty.put ["s".toList] "// spec:language VHDL\n\n(\n\na = '1'\n\n)\n".toList)
      ⟨[], ["s".toList]⟩ = .ok ["Requirement 1 is not a valid TCTL expression: '('",
        "Requirement 3 is not a valid TCTL expression: ')'"] := by decide +kernel
  exact ⟨_, _, h, hvalidate, (((validate_eq_ok_iff_read h).2.1 _).mp ⟨_, hvalidate⟩).2⟩

end SpecificationFile

/-! ## A fault that is not reported -/

lemma Text.unifyNewlines_of_not_mem {s : Text} (h : '\r' ∉ s) : unifyNewlines s = s := by
  fun_induction unifyNewlines s with
  | case1 => rfl
  | case2 s ih => simp at h
  | case3 c s hne ih =>
    simp only [List.mem_cons, not_or] at h
    rw [ih h.2, if_neg (Ne.symm h.1)]

/-- A requirement that bounds a time by an amount of microseconds. -/
def requirementOf (amount : Text) : Text :=
  '{' :: "true".toList ++ '}' :: '_' :: '{' :: Statement.ofAmount amount ⟨.time, .micro⟩ ++ ['}']

section

variable {w : Text} (hw : ∀ c ∈ w, isAsciiDigit c = true)

include hw

lemma oneLine_requirementOf : OneLine (requirementOf w) := by
  refine OneLine.braced (.of_forall (by decide)) (.of_forall fun c hc => ?_)
  rcases Statement.mem_ofAmount hw _ hc with hc | rfl
  · exact Statement.not_lineBreak_of_isBoundChar hc
  · decide

variable (hlong : Number.digitLimit < w.length)

include hlong

lemma read_requirementOf :
    Expr.read .vhdl Expr.defaultDepth (requirementOf w) = .error (.tooLong w.length) := by
  have hbody : Expr.readLevels .vhdl (Expr.levels Expr.defaultDepth - 3) "true".toList =
      .ok (.predicate (.ofBool true)) := by decide +kernel
  have hletters : ∀ c ∈ "true".toList, isAsciiLetter c = true := by decide
  have hneutral : Neutral "true".toList :=
    Neutral.plain fun c hc => Vhdl.Lexeme.isPlain_of_isAsciiLetter (hletters c hc)
  have h := Expr.read_of_long hneutral hbody (by decide) hw hlong ⟨.time, .micro⟩
  unfold requirementOf
  simpa using h

/-- Such a requirement behind a malformed one keeps the document from being searched, although it
is read up to the malformed one. -/
lemma faults_of_long (c : Configuration) {d : Text}
    (hd : d = c.print ++ '\n' :: '\n' :: join ['\n', '\n'] [['('], requirementOf w] ++ ['\n']) :
    Specification.parse .vhdl Expr.defaultDepth d = .error (.fault (.badRequirement 1 ['('])) ∧
      Document.faults .vhdl d = .error (.tooLong w.length) := by
  have hlines : ∀ x ∈ [['('], requirementOf w], OneLine x := by
    simp only [List.forall_mem_cons]
    exact ⟨.of_forall (by decide), oneLine_requirementOf hw, by simp⟩
  obtain ⟨body, hsplit, hblocks⟩ := Document.split_spread c hlines
  rw [← hd] at hsplit
  have hbody : ofBody body = [['('], requirementOf w] := by
    have htrim : trim (requirementOf w) = requirementOf w :=
      trim_of_ends (t := '{' :: "true".toList ++ '}' :: '_' :: '{' ::
        Statement.ofAmount w ⟨.time, .micro⟩) (c := '{') (d := '}') rfl rfl rfl
    rw [hblocks, List.map_cons, List.map_singleton, htrim]
    rfl
  have hfirst : Expr.read .vhdl Expr.defaultDepth ['('] = .malformed := by decide +kernel
  have hsecond := read_requirementOf hw hlong
  constructor
  · unfold Specification.parse
    rw [hsplit]
    simp only [hbody, Document.readBlocks, hfirst]
    rfl
  · unfold Document.faults
    rw [hsplit]
    simp only [hbody, Document.badBlocks, hfirst, hsecond]
    rfl

end

/-- A numeral that is too long keeps a fault in front of it from being reported. -/
theorem SpecificationFile.not_validate_of_tooLong :
    ∃ t p, t.read p = .ok ("// spec:language VHDL\n\n(\n\n\x7btrue\x7d_\x7bt < ".toList ++
        List.replicate 4301 '1' ++ " us\x7d\n".toList) ∧
      read .vhdl Expr.defaultDepth t p = .error (.document (.fault (.badRequirement 1 ['(']))) ∧
      validate .vhdl t p = .error (.document (.tooLong 4301)) := by
  have hw : ∀ c ∈ List.replicate 4301 '1', isAsciiDigit c = true := by
    intro c hc
    rw [List.eq_of_mem_replicate hc]
    decide
  have hlength : (List.replicate 4301 '1').length = 4301 := List.length_replicate
  generalize List.replicate 4301 '1' = w at hw hlength
  have hlong : Number.digitLimit < w.length := by
    rw [hlength]
    decide
  generalize hd : "// spec:language VHDL\n\n(\n\n\x7btrue\x7d_\x7bt < ".toList ++ w ++
    " us\x7d\n".toList = d
  have hprint : d = Configuration.print ⟨.vhdl⟩ ++
      '\n' :: '\n' :: join ['\n', '\n'] [['('], requirementOf w] ++ ['\n'] := by
    have hfront : "// spec:language VHDL\n\n(\n\n\x7btrue\x7d_\x7bt < ".toList =
        Configuration.print ⟨.vhdl⟩ ++ ['\n', '\n', '(', '\n', '\n', '{'] ++ "true".toList ++
          ['}', '_', '{', 't', ' ', '<', ' '] := by decide
    have hback : " us\x7d\n".toList = ' ' :: PhysicalUnit.token ⟨.time, .micro⟩ ++ ['}', '\n'] := by
      decide
    rw [← hd, hfront, hback]
    simp [join, requirementOf, Statement.ofAmount]
  obtain ⟨hparse, hfaults⟩ := faults_of_long hw hlong ⟨.vhdl⟩ hprint
  have hreturn : '\r' ∉ d := by
    rw [← hd]
    simp only [List.mem_append, not_or]
    exact ⟨⟨by decide, fun hmem => absurd (hw _ hmem) (by decide)⟩, by decide⟩
  have h : (Tree.empty.put ["s".toList] d).read ⟨[], ["s".toList]⟩ = .ok d := by
    have hraw : (Tree.empty.put ["s".toList] d).read ⟨[], ["s".toList]⟩ =
        .ok (unifyNewlines d) := rfl
    rw [hraw, unifyNewlines_of_not_mem hreturn]
  refine ⟨_, _, h, ?_, ?_⟩
  · rw [read_eq h, hparse]
    rfl
  · rw [validate_eq h, hfaults, hlength]
    rfl

end TimedReq
