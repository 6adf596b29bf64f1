import TimedReq.Reading

/-!
# Outcomes of readings in steps
-/

namespace TimedReq.Reading

variable {α β : Type}

theorem bind_eq_ok {r : Reading α} {f : α → Reading β} {y : β} :
    r >>= f = .ok y ↔ ∃ x, r = .ok x ∧ f x = .ok y := by
  cases r with
  | error e => simp [bind, Except.bind]
  | ok x => simp [bind, Except.bind]

theorem map_eq_ok {r : Reading α} {f : α → β} {y : β} :
    f <$> r = .ok y ↔ ∃ x, r = .ok x ∧ f x = y := by
  cases r with
  | error e => simp [Functor.map, Except.map]
  | ok x => simp [Functor.map, Except.map]

theorem ofOption_eq_ok {o : Option α} {x : α} : ofOption o = .ok x ↔ o = some x := by
  cases o with
  | none => simp [ofOption, malformed]
  | some y => simp [ofOption]

theorem malformed_ne_ok (x : α) : (malformed : Reading α) ≠ .ok x := by
  simp [malformed]

theorem orElse_eq_ok {r : Reading α} {f : Unit → Reading α} {x : α} :
    r.orElse f = .ok x ↔ r = .ok x ∨ r = malformed ∧ f () = .ok x := by
  unfold orElse
  split
  · simp [malformed]
  · rename_i hne
    constructor
    · exact .inl
    · rintro (h | ⟨h, -⟩)
      · exact h
      · exact absurd h hne

theorem orElse_ofOption (o o' : Option α) :
    (ofOption o).orElse (fun _ => ofOption o') = ofOption (o.or o') := by
  cases o <;> rfl

end TimedReq.Reading
