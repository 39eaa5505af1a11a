import Mathlib.Init
/-!
# Computations that may fail

What a successful computation of `Except` went through.
-/

namespace Results
universe u v
variable {ε : Type v} {α β : Type u}

/-- A sequence succeeded: both parts did. -/
theorem bind_eq_ok {x : Except ε α} {f : α → Except ε β} {b : β} (h : (x >>= f) = .ok b) :
    ∃ a, x = .ok a ∧ f a = .ok b := by
  cases x with
  | error err => cases h
  | ok a => exact ⟨a, rfl, h⟩

theorem ok_bind {a : α} {f : α → Except ε β} : (Except.ok a >>= f) = f a := rfl

theorem isOk_iff {x : Except ε α} : x.isOk = true ↔ ∃ a, x = .ok a := by
  cases x with
  | error err => simp [Except.isOk, Except.toBool]
  | ok a => simp [Except.isOk, Except.toBool]

/-- A guard: the computation fails with `err` where `p` holds. -/
def refuseIf (p : Prop) [Decidable p] (err : ε) : Except ε Unit := if p then .error err else .ok ()

theorem refuseIf_ok {p : Prop} [Decidable p] {err : ε} {u : Unit} (h : refuseIf p err = .ok u) :
    ¬ p := by
  unfold refuseIf at h
  split at h
  · cases h
  · assumption

theorem refuseIf_of_not {p : Prop} [Decidable p] {err : ε} (h : ¬ p) : refuseIf p err = .ok () :=
  if_neg h

theorem map_eq_ok {x : Except ε α} {f : α → β} {b : β} (h : x.map f = .ok b) :
    ∃ a, x = .ok a ∧ f a = b := by
  cases x with
  | error err => cases h
  | ok a => exact ⟨a, rfl, Except.ok.inj h⟩

theorem mapError_eq_ok {ε' : Type v} {x : Except ε α} {f : ε → ε'} {a : α}
    (h : x.mapError f = .ok a) : x = .ok a := by
  cases x with
  | error err => cases h
  | ok a' => exact congrArg Except.ok (Except.ok.inj h)

end Results
