import Mathlib.Data.List.Nodup
/-!
# Tables as lists of rows

`updateWhere p f` is `UPDATE ... SET f WHERE p`, and `affected p` the number of
rows it reports. Columns that `f` does not write keep their values
(`map_updateWhere`); with unique keys a row is determined by its key
(`eq_of_key`).
-/

namespace Rows
variable {α κ : Type*}

def updateWhere (p : α → Bool) (f : α → α) (rows : List α) : List α :=
  rows.map fun r => if p r then f r else r

def affected (p : α → Bool) (rows : List α) : Nat := rows.countP p

section Update
variable {p : α → Bool} {f : α → α} {rows : List α} {key : α → κ} {r x y : α}

theorem mem_updateWhere : x ∈ updateWhere p f rows ↔ ∃ r ∈ rows, (if p r then f r else r) = x :=
  List.mem_map

/-- A row after an update is a row that was not selected, or an updated one. -/
theorem mem_updateWhere_cases (h : x ∈ updateWhere p f rows) :
    (x ∈ rows ∧ p x = false) ∨ ∃ r ∈ rows, p r = true ∧ x = f r := by
  obtain ⟨r, hr, rfl⟩ := mem_updateWhere.1 h
  cases hp : p r with
  | false => exact .inl ⟨by simpa [hp] using hr, by simp [hp]⟩
  | true => exact .inr ⟨r, hr, hp, by simp⟩

theorem mem_updateWhere_of_not (hr : r ∈ rows) (hp : p r = false) : r ∈ updateWhere p f rows :=
  mem_updateWhere.2 ⟨r, hr, by simp [hp]⟩

theorem mem_updateWhere_of (hr : r ∈ rows) (hp : p r = true) : f r ∈ updateWhere p f rows :=
  mem_updateWhere.2 ⟨r, hr, by simp [hp]⟩

/-- An update leaves alone every column it does not write. -/
theorem map_updateWhere (key : α → κ)
    (h : ∀ r, key (f r) = key r) : (updateWhere p f rows).map key = rows.map key := by
  rw [updateWhere, List.map_map]
  apply List.map_congr_left
  intro r _
  simp only [Function.comp_apply]
  split
  · exact h r
  · rfl

theorem affected_eq_zero : affected p rows = 0 ↔ ∀ r ∈ rows, p r = false := by
  simp [affected, List.countP_eq_zero]

/-- An update that selects no row changes nothing. -/
theorem updateWhere_of_affected_zero (h : affected p rows = 0) : updateWhere p f rows = rows := by
  rw [updateWhere, List.map_congr_left (g := id) fun r hr => by simp [affected_eq_zero.1 h r hr]]
  exact List.map_id _

/-- With unique keys, an update of one key reports at most one row. -/
theorem affected_le_one {k : κ} (hnodup : (rows.map key).Nodup) (hp : ∀ r, p r = true → key r = k) :
    affected p rows ≤ 1 := by
  induction rows with
  | nil => exact Nat.zero_le 1
  | cons r rows ih =>
    obtain ⟨hfresh, hnodup⟩ := List.nodup_cons.1 hnodup
    unfold affected at ih ⊢
    rw [List.countP_cons]
    split
    · rename_i hr
      have hrest : rows.countP p = 0 := by
        rw [List.countP_eq_zero]
        intro x hx hpx
        exact hfresh (List.mem_map.2 ⟨x, hx, (hp x hpx).trans (hp r hr).symm⟩)
      omega
    · exact ih hnodup

/-- An update raises a count by at most the number of rows that it reports. -/
theorem countP_updateWhere_le (q : α → Bool) :
    (updateWhere p f rows).countP q ≤ rows.countP q + affected p rows := by
  induction rows with
  | nil => exact Nat.zero_le _
  | cons r rows ih =>
    have hcons : updateWhere p f (r :: rows) = (if p r then f r else r) :: updateWhere p f rows := rfl
    simp only [affected] at ih ⊢
    rw [hcons, List.countP_cons, List.countP_cons, List.countP_cons]
    cases hp : p r with
    | false =>
      simp only [Bool.false_eq_true, if_false]
      omega
    | true =>
      simp only [if_true]
      split <;> split <;> omega

/-- An update that lets no further row count does not raise the count. -/
theorem countP_updateWhere_le_of {q : α → Bool}
    (h : ∀ r ∈ rows, p r = true → q (f r) = true → q r = true) : (updateWhere p f rows).countP q ≤
    rows.countP q := by
  rw [updateWhere, List.countP_map]
  apply List.countP_mono_left
  intro r hr hq
  simp only [Function.comp_apply] at hq
  split at hq
  · rename_i hp
    exact h r hr hp hq
  · exact hq

/-- With unique keys, a row is determined by its key. -/
theorem eq_of_key (hnodup : (rows.map key).Nodup) (hx : x ∈ rows) (hy : y ∈ rows)
    (h : key x = key y) : x = y :=
  List.inj_on_of_nodup_map hnodup hx hy h

end Update

/-- Rows made of rows with unique keys have unique keys, where each takes over its key. -/
theorem nodup_map_filterMap {β : Type*} {f : α → Option β} {key : α → κ} {key' : β → κ} {rows : List α}
    (h : ∀ r x, f r = some x → key' x = key r) (hnodup : (rows.map key).Nodup) :
    ((rows.filterMap f).map key').Nodup := by
  rw [List.Nodup, List.pairwise_map] at hnodup ⊢
  rw [List.pairwise_filterMap]
  refine hnodup.imp ?_
  intro r r' hne x hx x' hx'
  rw [h r x hx, h r' x' hx']
  exact hne

end Rows
