import Mathlib.Data.List.Sort
/-!
# Lists sorted by a key, each key once

`addNew` keeps the first item of a key, and `canonical` sorts what is kept. A canonical
list is its own canonical list (`canonical_canonical`). A sort of items whose keys differ
can be filtered before or after (`sortByKey_filter`).
-/

namespace SortedKeys
variable {α κ : Type*} [LinearOrder κ] (key : α → κ)

def addNew (kept : List α) (x : α) : List α := if key x ∈ kept.map key then kept else kept ++ [x]

def sortByKey (xs : List α) : List α := xs.insertionSort fun x y => key x ≤ key y

def canonical (xs : List α) : List α := sortByKey key (xs.foldl (addNew key) [])

variable {key} {xs kept : List α} {x : α}

theorem nodup_addNew (h : (kept.map key).Nodup) : ((addNew key kept x).map key).Nodup := by
  unfold addNew
  split
  · exact h
  · rename_i hnew
    rw [List.map_append, List.map_singleton]
    refine List.nodup_append.2 ⟨h, List.nodup_singleton _, fun k hk k' hk' => ?_⟩
    rintro rfl
    exact hnew (List.mem_singleton.1 hk' ▸ hk)

theorem nodup_foldl_addNew (h : (kept.map key).Nodup) :
    ((xs.foldl (addNew key) kept).map key).Nodup := by
  induction xs generalizing kept with
  | nil => exact h
  | cons x xs ih => exact ih (nodup_addNew h)

/-- Items with keys of their own are all kept. -/
theorem foldl_addNew_of_nodup (h : ((kept ++ xs).map key).Nodup) :
    xs.foldl (addNew key) kept = kept ++ xs := by
  induction xs generalizing kept with
  | nil => simp
  | cons x xs ih =>
    have hnew : key x ∉ kept.map key := by
      intro hmem
      rw [List.map_append, List.map_cons] at h
      exact (List.nodup_append.1 h).2.2 _ hmem _ List.mem_cons_self rfl
    rw [List.foldl_cons, addNew, if_neg hnew, ih (by simpa using h), List.append_assoc,
      List.singleton_append]

/-- What is kept was there or is among the items. -/
theorem mem_of_mem_foldl (h : x ∈ xs.foldl (addNew key) kept) : x ∈ kept ∨ x ∈ xs := by
  induction xs generalizing kept with
  | nil => exact .inl h
  | cons y xs ih =>
    rcases ih h with h | h
    · unfold addNew at h
      split at h
      · exact .inl h
      · rcases List.mem_append.1 h with h | h
        · exact .inl h
        · exact .inr (List.mem_singleton.1 h ▸ List.mem_cons_self)
    · exact .inr (List.mem_cons_of_mem y h)

theorem mem_foldl_of_mem (h : x ∈ kept) : x ∈ xs.foldl (addNew key) kept := by
  induction xs generalizing kept with
  | nil => exact h
  | cons y xs ih =>
    refine ih ?_
    unfold addNew
    split
    · exact h
    · exact List.mem_append_left _ h

/-- Every item has its key kept. -/
theorem exists_mem_foldl (kept : List α) (h : x ∈ xs) :
    ∃ y ∈ xs.foldl (addNew key) kept, key y = key x := by
  induction xs generalizing kept with
  | nil => cases h
  | cons z xs ih =>
    rcases List.mem_cons.1 h with rfl | h
    · rw [List.foldl_cons]
      unfold addNew
      split
      · rename_i hmem
        obtain ⟨y, hy, hkey⟩ := List.mem_map.1 hmem
        exact ⟨y, mem_foldl_of_mem hy, hkey⟩
      · exact ⟨x, mem_foldl_of_mem (List.mem_append_right _ (List.mem_singleton_self x)), rfl⟩
    · exact ih _ h

theorem pairwise_sortByKey (xs : List α) : (sortByKey key xs).Pairwise fun x y => key x ≤ key y := by
  have : Std.Total fun x y : α => key x ≤ key y := ⟨fun x y => le_total (key x) (key y)⟩
  have : IsTrans α fun x y => key x ≤ key y := ⟨fun x y z => le_trans⟩
  exact List.pairwise_insertionSort _ xs

/-- Items with keys of their own have one sorted order, so leaving some out commutes with the sort. -/
theorem sortByKey_filter (hinj : ∀ x ∈ xs, ∀ y ∈ xs, key x = key y → x = y) (p : α → Bool) :
    (sortByKey key xs).filter p = sortByKey key (xs.filter p) := by
  have hperm : List.Perm ((sortByKey key xs).filter p) (sortByKey key (xs.filter p)) :=
    ((List.perm_insertionSort _ xs).filter p).trans (List.perm_insertionSort _ _).symm
  have hsorted : ((sortByKey key xs).filter p).Pairwise fun x y => key x ≤ key y :=
    (pairwise_sortByKey xs).filter p
  refine hperm.eq_of_pairwise ?_ hsorted (pairwise_sortByKey _)
  intro x y hx hy hxy hyx
  have hmem : ∀ {z}, z ∈ sortByKey key (xs.filter p) → z ∈ xs := fun hz =>
    (List.mem_filter.1 ((List.perm_insertionSort _ _).mem_iff.1 hz)).1
  exact hinj x (hmem (hperm.mem_iff.1 hx)) y (hmem hy) (le_antisymm hxy hyx)

theorem mem_canonical (h : ∀ y ∈ xs, key y = key x → y = x) : x ∈ canonical key xs ↔ x ∈ xs := by
  rw [canonical, sortByKey, (List.perm_insertionSort _ _).mem_iff]
  constructor
  · intro hmem
    exact (mem_of_mem_foldl hmem).resolve_left (fun h => by cases h)
  · intro hmem
    obtain ⟨y, hy, hkey⟩ : ∃ y ∈ xs.foldl (addNew key) [], key y = key x := exists_mem_foldl [] hmem
    obtain rfl := h y ((mem_of_mem_foldl hy).resolve_left (fun h => by cases h)) hkey
    exact hy

theorem nodup_canonical (xs : List α) : ((canonical key xs).map key).Nodup :=
  ((List.perm_insertionSort _ _).map key).nodup_iff.2 (nodup_foldl_addNew List.nodup_nil)

/-- Nothing is left to do for a canonical list. -/
theorem canonical_canonical (xs : List α) : canonical key (canonical key xs) = canonical key xs := by
  have hkept : (canonical key xs).foldl (addNew key) [] = canonical key xs :=
    foldl_addNew_of_nodup (nodup_canonical xs)
  rw [canonical, hkept]
  exact (pairwise_sortByKey _).insertionSort_eq

end SortedKeys
