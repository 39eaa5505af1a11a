import Mathlib.Algebra.BigOperators.Group.List.Basic
import Mathlib.Data.List.Nodup
import Mathlib.Order.Basic
/-!
# Totals under keys

A loop that keeps totals. `foldl_total` says what one total is after the loop.
`file` puts an item under its key: the entry with the key is written, and the first
item of a key brings an entry of its own. Keys stay distinct (`nodup_foldl_file`), and
what is put under all of them adds up to what the items bring (`sum_foldl_file`).
-/

namespace Tally

/-! ## Totals of a loop -/

section Totals
variable {σ ι M : Type*} [AddMonoid M]

/-- A total that each round adds to. -/
theorem foldl_total {f : σ → ι → σ} (total : σ → M) (amount : ι → M)
    (h : ∀ s i, total (f s i) = total s + amount i) (items : List ι) (s : σ) : total
    (items.foldl f s) = total s + (items.map amount).sum := by
  induction items generalizing s with
  | nil => simp
  | cons i items ih => rw [List.foldl_cons, ih, h, List.map_cons, List.sum_cons, add_assoc]

/-- Amounts that are not positive do not count. -/
theorem sum_filter_pos [PartialOrder M] [DecidableLT M] {amount : ι → M} {items : List ι}
    (h : ∀ i ∈ items, 0 ≤ amount i) :
    ((items.filter fun i => 0 < amount i).map amount).sum = (items.map amount).sum := by
  induction items with
  | nil => rfl
  | cons i items ih =>
    have hrest := ih fun j hj => h j (List.mem_cons_of_mem i hj)
    rcases (h i List.mem_cons_self).eq_or_lt with hzero | hpos
    · rw [List.filter_cons_of_neg (by simp [← hzero]), hrest, List.map_cons, List.sum_cons, ← hzero,
        zero_add]
    · rw [List.filter_cons_of_pos (by simpa using hpos), List.map_cons, List.map_cons,
        List.sum_cons, List.sum_cons, hrest]

end Totals

/-! ## Entries under keys -/

section Entries
variable {ε κ ι : Type*} [DecidableEq κ]

/-- Writes the entry that has the key of `fresh`; without one, `fresh` itself. -/
def file (key : ε → κ) (fresh : ε) (write : ε → ε) (entries : List ε) : List ε :=
  if key fresh ∈ entries.map key then entries.map fun e => if key e = key fresh then write e else e
  else entries ++ [write fresh]

variable {key : ε → κ} {fresh : ε} {write : ε → ε} {entries : List ε}

theorem map_key_file (hwrite : ∀ e, key (write e) = key e) :
    (file key fresh write entries).map key =
      if key fresh ∈ entries.map key then entries.map key else entries.map key ++ [key fresh] := by
  unfold file
  split
  · rw [List.map_map]
    apply List.map_congr_left
    intro e _
    simp only [Function.comp_apply]
    split
    · exact hwrite e
    · rfl
  · simp [hwrite]

theorem nodup_file (hwrite : ∀ e, key (write e) = key e) (hnodup : (entries.map key).Nodup) :
    ((file key fresh write entries).map key).Nodup := by
  rw [map_key_file hwrite]
  split
  · exact hnodup
  · rename_i hfresh
    simpa [List.nodup_append, hnodup] using hfresh

section Sum
variable {M : Type*} [AddCommMonoid M] {measure : ε → M} {x : M}

/-- One entry is written. -/
theorem sum_write (hwrite : ∀ e, measure (write e) = measure e + x) {k : κ}
    (hnodup : (entries.map key).Nodup) (hk : k ∈ entries.map key) :
    ((entries.map fun e => if key e = k then write e else e).map measure).sum =
    (entries.map measure).sum + x := by
  induction entries with
  | nil => cases hk
  | cons e entries ih =>
    simp only [List.map_cons, List.nodup_cons, List.mem_cons, List.sum_cons] at hnodup hk ⊢
    by_cases he : key e = k
    · -- No other entry has the key.
      have hrest : (entries.map fun e => if key e = k then write e else e) = entries := by
        refine (List.map_congr_left fun e' he' => if_neg fun h => hnodup.1 ?_).trans (List.map_id _)
        rw [he, ← h]
        exact List.mem_map_of_mem he'
      rw [if_pos he, hrest, hwrite, add_right_comm]
    · rw [if_neg he, ih hnodup.2 (hk.resolve_left (Ne.symm he)), add_assoc]

theorem sum_file (hwrite : ∀ e, measure (write e) = measure e + x) (hfresh : measure fresh = 0)
    (hnodup : (entries.map key).Nodup) :
    ((file key fresh write entries).map measure).sum = (entries.map measure).sum + x := by
  unfold file
  split
  · rename_i hk
    exact sum_write hwrite hnodup hk
  · simp [hwrite, hfresh]

end Sum

/-! ## A loop that files its items -/

section Loop
variable (key : ε → κ) (fresh : ι → ε) (write : ι → ε → ε) (entries : List ε)

theorem nodup_foldl_file (hwrite : ∀ i e, key (write i e) = key e) (items : List ι)
    (hnodup : (entries.map key).Nodup) :
    ((items.foldl (fun entries i => file key (fresh i) (write i) entries) entries).map key).Nodup := by
  induction items generalizing entries with
  | nil => exact hnodup
  | cons i items ih => exact ih _ (nodup_file (hwrite i) hnodup)

theorem sum_foldl_file {M : Type*} [AddCommMonoid M] (measure : ε → M) (amount : ι → M)
    (hkey : ∀ i e, key (write i e) = key e) (hwrite : ∀ i e, measure (write i e) = measure e + amount i)
    (hfresh : ∀ i, measure (fresh i) = 0) (items : List ι) (hnodup : (entries.map key).Nodup) :
    ((items.foldl (fun entries i => file key (fresh i) (write i) entries) entries).map measure).sum =
      (entries.map measure).sum + (items.map amount).sum := by
  induction items generalizing entries with
  | nil => simp
  | cons i items ih =>
    rw [List.foldl_cons, ih _ (nodup_file (hkey i) hnodup), sum_file (hwrite i) (hfresh i) hnodup,
      List.map_cons,
      List.sum_cons, add_assoc]

end Loop
end Entries
end Tally
