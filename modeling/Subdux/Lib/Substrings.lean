import Mathlib.Data.List.Infix
/-!
# The first occurrence of a substring

`indexOf` is Go's `strings.Index`, over lists of any elements. It finds an occurrence that
ends before any other begins (`indexOf_append_iff`), or says that there is none
(`indexOf_eq_none_iff`). No occurrence reaches over an element that the substring lacks
(`prefix_append_cons`).
-/

namespace Substrings
variable {α : Type*} [DecidableEq α] {sub cs as bs : List α} {x : α} {i : Nat}

def indexOf (sub : List α) : List α → Option Nat
  | [] => if sub = [] then some 0 else none
  | c :: cs => if sub <+: c :: cs then some 0 else (indexOf sub cs).map (· + 1)

theorem indexOf_eq_some_iff :
    indexOf sub cs = some i ↔ i ≤ cs.length ∧ sub <+: cs.drop i ∧ ∀ j < i, ¬ sub <+: cs.drop j := by
  induction cs generalizing i with
  | nil =>
    simp only [indexOf, Option.ite_none_right_eq_some, Option.some.injEq, List.length_nil,
      List.drop_nil, List.prefix_nil]
    constructor
    · rintro ⟨hsub, rfl⟩
      exact ⟨le_rfl, hsub, fun j hj => absurd hj (Nat.not_lt_zero j)⟩
    · rintro ⟨hi, hsub, -⟩
      exact ⟨hsub, by omega⟩
  | cons c cs ih =>
    simp only [indexOf]
    by_cases hstart : sub <+: c :: cs
    · rw [if_pos hstart, Option.some.injEq]
      constructor
      · rintro rfl
        exact ⟨Nat.zero_le _, hstart, fun j hj => absurd hj (Nat.not_lt_zero j)⟩
      · rintro ⟨-, -, hfirst⟩
        by_contra hne
        exact hfirst 0 (by omega) hstart
    · rw [if_neg hstart, Option.map_eq_some_iff]
      constructor
      · rintro ⟨k, hk, rfl⟩
        obtain ⟨hle, hsub, hfirst⟩ := ih.1 hk
        refine ⟨by simpa using hle, hsub, fun j hj => ?_⟩
        cases j with
        | zero => exact hstart
        | succ j => exact hfirst j (by omega)
      · rintro ⟨hle, hsub, hfirst⟩
        cases i with
        | zero => exact absurd hsub hstart
        | succ k =>
          exact ⟨k, ih.2 ⟨by simpa using hle, hsub, fun j hj => hfirst (j + 1) (by omega)⟩, rfl⟩

/-- What stands around the first occurrence. -/
theorem indexOf_split (h : indexOf sub cs = some i) :
    (cs.take i).length = i ∧ cs = cs.take i ++ sub ++ cs.drop (i + sub.length) := by
  obtain ⟨hle, hsub, -⟩ := indexOf_eq_some_iff.1 h
  obtain ⟨tail, htail⟩ := hsub
  have hdrop : cs.drop (i + sub.length) = tail := by rw [← List.drop_drop, ← htail, List.drop_left]
  refine ⟨List.length_take_of_le hle, ?_⟩
  rw [hdrop, List.append_assoc, htail, List.take_append_drop]

omit [DecidableEq α] in
theorem infix_iff_drop : sub <:+: cs ↔ ∃ j ≤ cs.length, sub <+: cs.drop j := by
  constructor
  · rintro ⟨as, bs, rfl⟩
    exact ⟨as.length, by simp, by simp⟩
  · rintro ⟨j, -, hj⟩
    exact hj.isInfix.trans (List.drop_suffix j cs).isInfix

theorem indexOf_eq_none_iff : indexOf sub cs = none ↔ ¬ sub <:+: cs := by
  induction cs with
  | nil => simp [indexOf]
  | cons c cs ih =>
    simp only [indexOf, List.infix_cons_iff]
    split
    · rename_i hstart
      simp [hstart]
    · rename_i hstart
      simp [hstart, ih]

theorem indexOf_isSome_iff : (indexOf sub cs).isSome ↔ sub <:+: cs := by
  rw [← not_iff_not, Option.not_isSome_iff_eq_none, indexOf_eq_none_iff]

omit [DecidableEq α] in
/-- A prefix that lacks an element ends before it. -/
theorem prefix_append_cons (hx : x ∉ sub) : sub <+: as ++ x :: bs ↔ sub <+: as := by
  constructor
  · intro h
    rcases List.prefix_or_prefix_of_prefix h (List.prefix_append as (x :: bs)) with hsub | has
    · exact hsub
    · obtain ⟨rest, rfl⟩ := has
      cases rest with
      | nil => simp
      | cons y rest =>
        rw [List.prefix_append_right_inj, List.cons_prefix_cons] at h
        exact absurd (h.1 ▸ List.mem_append_right as List.mem_cons_self) hx
  · exact fun h => h.trans (List.prefix_append as (x :: bs))

/-- An occurrence that ends before any other begins is the first. -/
theorem indexOf_append_iff (hsub : sub ≠ []) : indexOf sub (as ++ sub ++ bs) = some as.length ↔
    ¬ sub <:+: as ++ sub.dropLast := by
  have hlen : 0 < sub.length := List.length_pos_iff.2 hsub
  have hwhole : (as ++ sub.dropLast) <+: as ++ sub ++ bs := by
    rw [List.append_assoc, List.prefix_append_right_inj]
    exact (List.dropLast_prefix sub).trans (List.prefix_append sub bs)
  rw [indexOf_eq_some_iff, infix_iff_drop]
  constructor
  · rintro ⟨-, -, hfirst⟩ ⟨j, -, hj⟩
    have hshort := hj.length_le
    simp only [List.length_drop, List.length_append, List.length_dropLast] at hshort
    exact hfirst j (by omega) (hj.trans (hwhole.drop j))
  · intro hnone
    refine ⟨by simp, by simp, fun j hj hsubj => hnone ⟨j, by simp; omega, ?_⟩⟩
    refine List.prefix_of_prefix_length_le hsubj (hwhole.drop j) ?_
    simp only [List.length_drop, List.length_append, List.length_dropLast]
    omega

/-- The first occurrence begins before an element that the substring lacks if and only if
there is one that ends before it. -/
theorem exists_indexOf_lt_iff (hsub : sub ≠ []) (hx : x ∉ sub) :
    (∃ i, indexOf sub (as ++ x :: bs) = some i ∧ i < as.length) ↔ sub <:+: as := by
  constructor
  · rintro ⟨i, hi, hlt⟩
    obtain ⟨-, hstart, -⟩ := indexOf_eq_some_iff.1 hi
    rw [List.drop_append_of_le_length hlt.le, prefix_append_cons hx] at hstart
    exact infix_iff_drop.2 ⟨i, hlt.le, hstart⟩
  · intro hinside
    obtain ⟨j, hj, hstart⟩ := infix_iff_drop.1 hinside
    have hlt : j < as.length := by
      have hlen : 0 < sub.length := List.length_pos_iff.2 hsub
      have := hstart.length_le
      rw [List.length_drop] at this
      omega
    have hsome : (indexOf sub (as ++ x :: bs)).isSome :=
      indexOf_isSome_iff.2 (hinside.trans (List.prefix_append as _).isInfix)
    obtain ⟨i, hi⟩ := Option.isSome_iff_exists.1 hsome
    refine ⟨i, hi, ?_⟩
    by_contra hle
    refine (indexOf_eq_some_iff.1 hi).2.2 j (by omega) ?_
    rw [List.drop_append_of_le_length hj]
    exact hstart.trans (List.prefix_append _ _)

omit [DecidableEq α] in
/-- A doubled element is a substring once more when it is appended to its like. -/
theorem pair_infix_concat : [x, x] <:+: cs ++ [x] ↔ [x, x] <:+: cs ∨ cs.getLast? = some x := by
  rw [List.infix_concat_iff, or_comm]
  apply or_congr_right
  constructor
  · rintro ⟨before, h⟩
    have hcs : before ++ [x] = cs := by
      rw [← List.append_cancel_right_eq _ [x] _, List.append_assoc]
      exact h
    rw [← hcs, List.getLast?_concat]
  · intro h
    obtain ⟨before, rfl⟩ := List.getLast?_eq_some_iff.1 h
    exact ⟨before, by simp⟩

end Substrings
