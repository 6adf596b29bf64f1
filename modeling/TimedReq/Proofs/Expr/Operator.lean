import Mathlib.Tactic.Common
import TimedReq.Expr.Basic
import TimedReq.Proofs.Text.Nesting

/-!
# Operators that are single characters
-/

namespace TimedReq

/-- The operators of expressions that are single characters. -/
def operatorChars : List Char := ['^', 'A', 'E', 'G', 'X', 'F', 'U', 'W', 'V']

/-- The names that look like an operator of expressions. -/
def operatorNames : List Text := [['A'], ['E'], ['G'], ['X'], ['F'], ['U'], ['W'], ['V']]

lemma not_blank_of_mem_operatorChars {c : Char} (hc : c ∈ operatorChars) :
    Text.isBlank c = false := by
  have hall : ∀ c ∈ operatorChars, Text.isBlank c = false := by decide
  exact hall c hc

lemma isPlain_of_mem_operatorChars {c : Char} (hc : c ∈ operatorChars) : Text.IsPlain c := by
  have hall : ∀ c ∈ operatorChars, Text.IsPlain c := by decide
  exact hall c hc

lemma Connective.mem_operatorChars {c : Char} (h : (Connective.ofChar? c).isSome) :
    c ∈ operatorChars := by
  unfold Connective.ofChar? at h
  split at h
  · decide
  · decide
  · simp at h

lemma Branch.mem_operatorChars {c : Char} (h : (Branch.ofChar? c).isSome) : c ∈ operatorChars := by
  unfold Branch.ofChar? at h
  split at h
  · decide
  · decide
  · simp at h

lemma Modality.mem_operatorChars {c : Char} (h : (Modality.ofChar? c).isSome) :
    c ∈ operatorChars := by
  unfold Modality.ofChar? at h
  split at h
  · decide
  · decide
  · decide
  · simp at h

lemma Until.mem_operatorChars {c : Char} (h : (Until.ofChar? c).isSome) : c ∈ operatorChars := by
  unfold Until.ofChar? at h
  split at h
  · decide
  · decide
  · simp at h

/-- The characters of the connectives that are single characters. -/
def Connective.char? : Connective → Option Char
  | implies => none
  | and => some '^'
  | or => some 'V'

lemma Connective.char?_mem {c : Connective} {x : Char} (h : c.char? = some x) :
    x ∈ operatorChars := by
  cases c with
  | implies => simp [char?] at h
  | and | or =>
    obtain rfl := Option.some.inj h
    decide

lemma Branch.symbol_mem (b : Branch) : b.symbol ∈ operatorChars := by
  cases b <;> decide

lemma Modality.symbol_mem (m : Modality) : m.symbol ∈ operatorChars := by
  cases m <;> decide

lemma Until.symbol_mem (u : Until) : u.symbol ∈ operatorChars := by
  cases u <;> decide

lemma Branch.symbol_of_ofChar? {c : Char} {b : Branch} (h : ofChar? c = some b) : c = b.symbol := by
  unfold ofChar? at h
  split at h
  · obtain rfl := Option.some.inj h
    rfl
  · obtain rfl := Option.some.inj h
    rfl
  · simp at h

lemma Modality.symbol_of_ofChar? {c : Char} {m : Modality} (h : ofChar? c = some m) :
    c = m.symbol := by
  unfold ofChar? at h
  split at h
  · obtain rfl := Option.some.inj h
    rfl
  · obtain rfl := Option.some.inj h
    rfl
  · obtain rfl := Option.some.inj h
    rfl
  · simp at h

lemma Until.symbol_of_ofChar? {c : Char} {u : Until} (h : ofChar? c = some u) : c = u.symbol := by
  unfold ofChar? at h
  split at h
  · obtain rfl := Option.some.inj h
    rfl
  · obtain rfl := Option.some.inj h
    rfl
  · simp at h

lemma Connective.symbol_of_ofChar? {x : Char} {c : Connective} (h : ofChar? x = some c) :
    c.symbol = [x] := by
  unfold ofChar? at h
  split at h
  · obtain rfl := Option.some.inj h
    rfl
  · obtain rfl := Option.some.inj h
    rfl
  · simp at h

end TimedReq
