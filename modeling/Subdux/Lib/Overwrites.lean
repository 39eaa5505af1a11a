import Mathlib.Data.List.Induction
import Mathlib.Logic.Function.Basic
/-!
# Writes of which the last counts

A map from keys to values that a list of writes goes to. What the map holds under a key
afterwards is the last value written to it, or what it held (`foldl_write`); writing under
other names for the keys makes no difference where the names tell the keys apart (`last_map`).
-/

namespace Overwrites
variable {κ κ' ν : Type*} [DecidableEq κ] [DecidableEq κ'] {m : κ → Option ν}
  {writes : List (κ × ν)} {w : κ × ν} {k : κ} {v : ν}

/-- The last value written under `k`. -/
def last (writes : List (κ × ν)) (k : κ) : Option ν := (writes.reverse.find? (·.1 = k)).map (·.2)

def write (m : κ → Option ν) (w : κ × ν) : κ → Option ν := Function.update m w.1 (some w.2)

theorem last_snoc : last (writes ++ [w]) k = if w.1 = k then some w.2 else last writes k := by
  rw [last, List.reverse_append, List.reverse_singleton, List.singleton_append, List.find?_cons]
  by_cases hk : w.1 = k
  · simp [hk]
  · simp [hk, last]

theorem foldl_write (m : κ → Option ν) (writes : List (κ × ν)) (k : κ) :
    writes.foldl write m k = (last writes k).or (m k) := by
  induction writes using List.reverseRecOn with
  | nil => rfl
  | append_singleton writes w ih =>
    rw [List.foldl_append, List.foldl_cons, List.foldl_nil, last_snoc, write]
    by_cases hk : w.1 = k
    · rw [if_pos hk, ← hk, Function.update_self, Option.some_or]
    · rw [if_neg hk, Function.update_of_ne (Ne.symm hk), ih]

theorem mem_of_last (h : last writes k = some v) : (k, v) ∈ writes := by
  obtain ⟨w, hw, rfl⟩ := Option.map_eq_some_iff.1 h
  have hkey : w.1 = k := by simpa using List.find?_some hw
  rw [← hkey]
  exact List.mem_reverse.1 (List.mem_of_find?_eq_some hw)

theorem last_eq_none : last writes k = none ↔ ∀ w ∈ writes, w.1 ≠ k := by
  simp [last]

theorem last_map (g : κ → κ') (hinj : ∀ w ∈ writes, g w.1 = g k → w.1 = k) :
    last (writes.map fun w => (g w.1, w.2)) (g k) = last writes k := by
  induction writes using List.reverseRecOn with
  | nil => rfl
  | append_singleton writes w ih =>
    have hlast : g w.1 = g k ↔ w.1 = k := ⟨hinj w (by simp), congrArg g⟩
    rw [List.map_append, List.map_singleton, last_snoc, last_snoc, ih fun x hx =>
      hinj x (List.mem_append_left _ hx)]
    simp only [hlast]

end Overwrites
