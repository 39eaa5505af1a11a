import Mathlib.Data.List.Basic
import Mathlib.Data.Nat.Basic
/-!
# Computations that may not end

A computation whose loops may run for ever takes fuel: `f fuel` is `none` as long as
`fuel` rounds are not enough. `Returns f v` says that with enough of it `f` gives `v`.
A computation that is `Steady` keeps its answer under more fuel, so it gives one answer
at most, and one amount of fuel serves several of them.
-/

namespace Fuel
variable {α β : Type*}

/-- More fuel keeps the answer. -/
def Steady (f : Nat → Option α) : Prop := ∀ ⦃n m v⦄, n ≤ m → f n = some v → f m = some v

/-- With enough fuel the answer is `v`. -/
def Returns (f : Nat → Option α) (v : α) : Prop := ∃ n, f n = some v

/-- With enough fuel there is an answer. -/
def Ends (f : Nat → Option α) : Prop := ∃ v, Returns f v

section Steady
variable {f : Nat → Option α} {g : α → Nat → Option β} {v w : α}

theorem steady_const (o : Option α) : Steady fun _ => o := fun _ _ _ _ h => h

theorem Steady.bind (hf : Steady f) (hg : ∀ v, Steady (g v)) : Steady fun n => (f n).bind fun v =>
    g v n := by
  intro n m w hle h
  obtain ⟨v, hv, hw⟩ := Option.bind_eq_some_iff.1 h
  exact Option.bind_eq_some_iff.2 ⟨v, hf hle hv, hg v hle hw⟩

theorem Steady.map (hf : Steady f) (g : α → β) : Steady fun n => (f n).map g := by
  intro n m w hle h
  obtain ⟨v, hv, rfl⟩ := Option.map_eq_some_iff.1 h
  exact Option.map_eq_some_iff.2 ⟨v, hf hle hv, rfl⟩

theorem Steady.ite {p : Prop} [Decidable p] {f' : Nat → Option α} (hf : Steady f) (hf' : Steady f') :
    Steady fun n => if p then f n else f' n := by
  split_ifs
  · exact hf
  · exact hf'

theorem Returns.unique (hf : Steady f) (hv : Returns f v) (hw : Returns f w) : v = w := by
  obtain ⟨n, hn⟩ := hv
  obtain ⟨m, hm⟩ := hw
  exact Option.some.inj ((hf (le_max_left n m) hn).symm.trans (hf (le_max_right n m) hm))

theorem returns_const {o : Option α} (h : o = some v) : Returns (fun _ => o) v := ⟨0, h⟩

theorem Returns.map (hf : Returns f v) (g : α → β) : Returns (fun n => (f n).map g) (g v) := by
  obtain ⟨n, hn⟩ := hf
  exact ⟨n, congrArg (Option.map g) hn⟩

/-- The fuel of a computation, or of the one that goes on from its answer, is enough for both. -/
theorem Returns.bind {w : β} (hf : Steady f) (hg : ∀ v, Steady (g v)) (hv : Returns f v)
    (hw : Returns (g v) w) :
    Returns (fun n => (f n).bind fun v => g v n) w := by
  obtain ⟨n, hn⟩ := hv
  obtain ⟨m, hm⟩ := hw
  refine ⟨max n m, ?_⟩
  dsimp only
  rw [hf (le_max_left n m) hn, Option.bind_some]
  exact hg v (le_max_right n m) hm

theorem ends_const (v : α) : Ends fun _ => some v := ⟨v, 0, rfl⟩

theorem ends_ite {p : Prop} [Decidable p] {f' : Nat → Option α} (hf : p → Ends f) (hf' : ¬ p → Ends f') :
    Ends fun n => if p then f n else f' n := by
  split_ifs with hp
  · exact hf hp
  · exact hf' hp

theorem Ends.bind (hf : Steady f) (hg : ∀ v, Steady (g v)) (h : Ends f)
    (hrest : ∀ v, Returns f v → Ends (g v)) :
    Ends fun n => (f n).bind fun v => g v n := by
  obtain ⟨v, hv⟩ := h
  obtain ⟨w, hw⟩ := hrest v hv
  exact ⟨w, hv.bind hf hg hw⟩

end Steady

end Fuel
