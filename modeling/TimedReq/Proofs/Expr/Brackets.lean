import TimedReq.Proofs.Bound.Statement
import TimedReq.Proofs.Expr.Composition
import TimedReq.Proofs.Text.Brackets
import TimedReq.Proofs.Vhdl.Condition

/-!
# Brackets in accepted texts

Every rule takes out of brackets only what a bracket of the same kind closes, and no bracket stands
in a statement. So the brackets of a text that is read are nested if those of its predicates are.
-/

namespace TimedReq

open Text

variable {α : Type} {L : Embedding α}

/-- The texts of predicates close their brackets, each by its own kind. -/
def Embedding.Bracketed (L : Embedding α) : Prop :=
  ∀ {w : Text} {p : α}, L.read w = some p → trim w = w → Text.Bracketed w

namespace Text.Bracketed

variable {s t u v : Text}

lemma padded (hu : AllBlank u) (h : Bracketed s) (hv : AllBlank v) : Bracketed (u ++ s ++ v) :=
  ((allBlank hu).append h).append (allBlank hv)

lemma symbol {c : Char} (hc : c ∈ operatorChars) : Bracketed [c] :=
  plain fun x hx => by
    obtain rfl := List.mem_singleton.mp hx
    exact isPlain_of_mem_operatorChars hc

lemma connective (c : Connective) (hs : Bracketed s) (hu : AllBlank u) (ht : Bracketed t) :
    Bracketed (s ++ (u ++ (c.symbol ++ t))) := by
  have hsymbol : ∀ x ∈ c.symbol, IsPlain x := by cases c <;> decide
  exact hs.append ((allBlank hu).append ((plain hsymbol).append ht))

/-- A text in braces with its statements. -/
lemma bounded {x y t : Text} {sts : List Statement} (hs : Bracketed s) (hx : AllBlank x)
    (hy : AllBlank y)
    (hsts : Statement.parseAll (pieces (· == ',') (trimEnd t)) = .ok sts) :
    Bracketed ('{' :: (s ++ '}' :: (x ++ '_' :: (y ++ '{' :: (t ++ ['}']))))) := by
  have hbody : Bracketed ('{' :: (s ++ ['}'])) := hs.bracket rfl
  have hsection : Bracketed ('{' :: (t ++ ['}'])) :=
    (plain (Statement.isPlain_of_parseAll_trimEnd hsts)).bracket rfl
  have hbar : Bracketed ['_'] := plain (by decide)
  have hall := hbody.append ((allBlank hx).append (hbar.append ((allBlank hy).append hsection)))
  simpa using hall

end Text.Bracketed

/-- The brackets of a text that is put together from the parts of a tree are nested. -/
theorem Composes.bracketed (hL : L.Bracketed) {e : Expr α} {s : Text} (h : Composes L e s) :
    Bracketed s := by
  induction h with
  | padded hu hv _ ih => exact ih.padded hu hv
  | predicate hread htrim => exact hL hread htrim
  | negation _ ih => exact (Bracketed.plain (s := ['!']) (by decide)).append ih
  | group _ ih => exact ih.bracket rfl
  | groupTail c _ hu _ ihl ihr =>
    have hall := Bracketed.connective c (ihl.bracket (o := '(') rfl) hu ihr
    simpa using hall
  | bounded _ hx hy _ hsts ih => exact ih.bounded hx hy hsts
  | boundedTail c _ hx hy _ hsts hu _ ihl ihr =>
    have hall := Bracketed.connective c (ihl.bounded hx hy hsts) hu ihr
    simpa using hall
  | arrow _ _ ihl ihr => exact ihl.connective .implies .nil ihr
  | logical c _ _ _ _ ihl ihr => exact ihl.connective c .nil ihr
  | along b m hu _ _ _ ih =>
    exact (Bracketed.symbol b.symbol_mem).append
      ((Bracketed.allBlank hu).append ((Bracketed.symbol m.symbol_mem).append ih))
  | «until» b u _ _ _ _ _ ihl ihr =>
    exact (Bracketed.symbol b.symbol_mem).append
      (ihl.append ((Bracketed.symbol u.symbol_mem).append ihr))

/-- The brackets of conditions are nested. -/
theorem Vhdl.bracketed : Embedding.vhdl.Bracketed := by
  intro w p hread htrim
  obtain ⟨ts, hlexes, hparses, -, -⟩ := exists_tokens hread htrim
  exact hparses.derives.bracketed hlexes.written

namespace Expr

/-- In a text that is read, every bracket outside literals is closed by its own kind. -/
theorem nested_brackets_of_read {m : Int} {s : Text} {e : Expr Vhdl.Node}
    (h : read .vhdl m s = .ok e) : Nested (brackets s) :=
  ((takes_readLevels (levels m) h).bracketed Vhdl.bracketed).nested

theorem nested_brackets_of_read_literal :
    ∃ e, read .vhdl 9 "\x7b (c = '(' ^ s = \"\x7d)\") \x7d_\x7bt < 2 us\x7d".toList = .ok e ∧
      brackets "\x7b (c = '(' ^ s = \"\x7d)\") \x7d_\x7bt < 2 us\x7d".toList =
        "\x7b()\x7d\x7b\x7d".toList ∧
      Nested (brackets "\x7b (c = '(' ^ s = \"\x7d)\") \x7d_\x7bt < 2 us\x7d".toList) := by
  have h : read .vhdl 9 "\x7b (c = '(' ^ s = \"\x7d)\") \x7d_\x7bt < 2 us\x7d".toList =
      .ok (bounded (group (binary .and
        (predicate (.ofBinary .comparison ['='] (.name ['c']) (.ofBit ['('])))
        (predicate (.ofBinary .comparison ['='] (.name ['s'])
          (.literal .string "\"\x7d)\"".toList)))))
        ⟨.lt, ⟨2, ⟨.time, .micro⟩⟩⟩ []) := by decide +kernel
  exact ⟨_, h, by decide +kernel, nested_brackets_of_read h⟩

end Expr

end TimedReq
