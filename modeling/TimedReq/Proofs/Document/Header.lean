import TimedReq.Document.Specification
import TimedReq.Proofs.Document.Runs

/-!
# Documents as lists of lines

A document that is given as a list of lines is divided as the list is: the leading lines with the
mark of a header make up its header, and its blocks are the runs of what is left of the others.
-/

namespace TimedReq

open Text

/-- The text has these lines. All of them are ended alike; the last one need not be ended. -/
def HasLines (d : Text) (ls : List Text) : Prop :=
  ∃ eol ∈ lineEnds, d = join eol ls ∨ d = join eol ls ++ eol

/-- The header of a list of lines that is divided so: the leading lines that begin with the mark,
of which there is at least one. -/
structure Header.Divides (header body : List Text) : Prop where
  ne_nil : header ≠ []
  marked : ∀ l ∈ header, mark <+: trim l
  unmarked : ∀ l ∈ body.head?, ¬mark <+: trim l
  unbroken : ∀ l ∈ header ++ body, Unbroken l

namespace Header

lemma split?_of_trimmedLines {d : Text} {header below : List Text} (hne : header ≠ [])
    (hmarked : ∀ l ∈ header, mark <+: l) (hunmarked : ∀ l ∈ below.head?, ¬mark <+: l)
    (hd : trimmedLines d = header ++ below) : split? d = some (join ['\n'] header, below) := by
  have hall : ∀ l ∈ header, mark.isPrefixOf l = true := fun l hl =>
    List.isPrefixOf_iff_prefix.mpr (hmarked l hl)
  have hstop : below.takeWhile mark.isPrefixOf = [] ∧ below.dropWhile mark.isPrefixOf = below := by
    cases below with
    | nil => exact ⟨rfl, rfl⟩
    | cons l ls =>
      have hl : ¬mark.isPrefixOf l := mt List.isPrefixOf_iff_prefix.mp (hunmarked l rfl)
      exact ⟨List.takeWhile_cons_of_neg hl, List.dropWhile_cons_of_neg hl⟩
  obtain ⟨l, ls, rfl⟩ := List.exists_cons_of_ne_nil hne
  unfold split?
  rw [hd]
  simp only
  rw [List.takeWhile_append_of_pos hall, List.dropWhile_append_of_pos hall, hstop.1, hstop.2,
    List.append_nil]

/-- What follows the header are lines of the document. -/
lemma subset_of_split? {d header : Text} {body : List Text} (h : split? d = some (header, body)) :
    body ⊆ trimmedLines d := by
  unfold split? at h
  simp only at h
  split at h
  · simp at h
  · obtain ⟨-, rfl⟩ := Prod.mk.inj (Option.some.inj h)
    exact List.dropWhile_subset _

/-- The lines of a document are its header and its body, but for blank lines at the end. -/
lemma Divides.exists_trimmedLines {header body : List Text} (h : Divides header body) {d : Text}
    (hd : HasLines d (header ++ body)) :
    ∃ below k, trimmedLines d = header.map trim ++ below ∧
      body.map trim = below ++ List.replicate k [] := by
  obtain ⟨eol, heol, hd⟩ := hd
  obtain ⟨l, header, rfl⟩ := List.exists_cons_of_ne_nil h.ne_nil
  have htrim : trim d = trim (join eol (l :: (header ++ body))) := by
    rcases hd with rfl | rfl
    · rfl
    · exact trim_append_right (allBlank_of_mem_lineEnds heol) _
  have hempty : ¬mark <+: [] := by decide
  have hfirst : trim l ≠ [] := fun hnil => hempty (hnil ▸ h.marked l List.mem_cons_self)
  have hunbroken : ∀ x ∈ l :: (header ++ body), Unbroken x := h.unbroken
  obtain ⟨k, hk⟩ := map_trim_lines_trim heol hunbroken hfirst
  rw [← htrim, ← List.cons_append, List.map_append] at hk
  obtain ⟨t, ht, htail⟩ | ⟨t, ht, htail⟩ := List.append_eq_append_iff.mp hk
  · -- no line of the header is empty
    have hnil : t = [] := by
      refine List.eq_nil_iff_forall_not_mem.mpr fun x hx => ?_
      have hx' : x ∈ List.replicate k [] := htail ▸ List.mem_append_left _ hx
      have hmem : x ∈ (l :: header).map trim := ht ▸ List.mem_append_right _ hx
      obtain ⟨y, hy, hyx⟩ := List.mem_map.mp hmem
      exact hempty (List.eq_of_mem_replicate hx' ▸ hyx ▸ h.marked y hy)
    rw [hnil] at ht htail
    exact ⟨[], k, by rw [ht, List.append_nil, List.append_nil]; rfl, htail.symm⟩
  · exact ⟨t, k, ht, htail⟩

/-- What a document is divided into that has these lines. -/
theorem Divides.split_eq {header body : List Text} (h : Divides header body) {d : Text}
    (hd : HasLines d (header ++ body)) :
    ∃ below, split? d = some (join ['\n'] (header.map trim), below) ∧
      Blocks.ofBody below = (Blocks.runs (Blocks.contents body)).map (join ['\n']) := by
  obtain ⟨below, k, hlines, hbody⟩ := h.exists_trimmedLines hd
  have hmarked : ∀ l ∈ header.map trim, mark <+: l := by
    intro l hl
    obtain ⟨x, hx, rfl⟩ := List.mem_map.mp hl
    exact h.marked x hx
  have hunmarked : ∀ l ∈ below.head?, ¬mark <+: l := by
    intro l hl
    obtain ⟨ls, rfl⟩ := List.head?_eq_some_iff.mp hl
    have hhead : l ∈ (body.map trim).head? := by
      rw [hbody]
      exact rfl
    rw [List.head?_map] at hhead
    obtain ⟨x, hx, rfl⟩ := Option.map_eq_some_iff.mp hhead
    exact h.unmarked x hx
  have hunbroken : ∀ l ∈ below, Unbroken l := by
    intro l hl
    have hmem : l ∈ body.map trim := hbody ▸ List.mem_append_left _ hl
    obtain ⟨x, hx, rfl⟩ := List.mem_map.mp hmem
    exact (h.unbroken x (List.mem_append_right _ hx)).trim
  have hcontents : Blocks.contents body = Blocks.contents below ++ List.replicate k [] := by
    rw [← Blocks.contents_map_trim, hbody, Blocks.contents_append, Blocks.contents_replicate_nil]
  refine ⟨below, split?_of_trimmedLines (by simpa using h.ne_nil) hmarked hunmarked hlines, ?_⟩
  rw [Blocks.ofBody_eq fun l hl => (hunbroken l hl).newline_not_mem, hcontents,
    Blocks.runs_append_replicate]

end Header

lemma Document.split_eq_ok {d : Text} {c : Configuration} {body : List Text} :
    split d = .ok (c, body) ↔
      ∃ header, Header.split? d = some (header, body) ∧ Configuration.parse header = some c := by
  unfold split
  split
  · rename_i h
    simp [h]
  · rename_i header below h
    cases hc : Configuration.parse header <;> simp [h, hc, and_comm]

variable {α : Type} {L : Embedding α} {m : Int}

/-- How a document is read depends on its header and its blocks. -/
lemma Specification.parse_congr {d d' header : Text} {below below' : List Text}
    (h : Header.split? d = some (header, below)) (h' : Header.split? d' = some (header, below'))
    (hblocks : Blocks.ofBody below = Blocks.ofBody below') :
    Specification.parse L m d = Specification.parse L m d' := by
  unfold Specification.parse Document.split
  rw [h, h']
  simp only
  cases Configuration.parse header with
  | none => rfl
  | some c => simp only [hblocks]

end TimedReq
