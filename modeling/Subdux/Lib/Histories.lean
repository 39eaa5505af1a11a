import Mathlib.Data.List.Chain
/-!
# Histories of a value

Each item of a history names the value it set and the value it found. The history
is chained from `first` to `last` when every item found what the item before it
set. A change of the current value that is recorded keeps it so (`Chained.snoc`).
-/

namespace Histories

variable {ι π : Type*} (found set : ι → π)

structure Chained (first last : π) (items : List ι) : Prop where
  head : items.head?.map set = some first
  links : items.IsChain fun a b => found b = set a
  last : items.getLast?.map set = some last

variable {found set} {first last : π} {items : List ι} {x : ι}

theorem Chained.single (x : ι) : Chained found set (set x) (set x) [x] :=
  ⟨rfl, List.isChain_singleton x, rfl⟩

theorem Chained.snoc (h : Chained found set first last items) (hx : found x = last) :
    Chained found set first (set x) (items ++ [x]) where
  head := by
    cases items with
    | nil => cases h.head
    | cons y ys => exact h.head
  links := by
    refine List.isChain_append.2 ⟨h.links, List.isChain_singleton x, ?_⟩
    intro y hy z hz
    obtain rfl : x = z := by simpa using hz
    have hlast := h.last
    rw [Option.mem_def.1 hy] at hlast
    exact hx.trans (Option.some.inj hlast).symm
  last := by simp

end Histories
