import Mathlib.Algebra.Order.Group.Defs
import Mathlib.Order.Basic
/-!
# Leases that run out

A lease of length `d` is granted to one owner at a time. A grant follows another one
when it renews it or when the other one had run out; that is a preorder (`Grant.Follows.refl`,
`Grant.Follows.trans`), so a history in which each grant follows the one before is ordered
throughout (`Ordered.snoc`), and grants to different owners exclude each other
(`Ordered.excludes`).
-/

namespace Leases
variable {ω τ : Type*}

/-- The lease goes to `owner` at `time`. -/
structure Grant (ω τ : Type*) where
  owner : ω
  time : τ
  deriving DecidableEq

section Follows
variable [AddCommGroup τ] [LinearOrder τ] {d : τ} {g g' g'' : Grant ω τ}

/-- `g'` is granted after `g` has run out, or renews it. -/
def Grant.Follows (d : τ) (g g' : Grant ω τ) : Prop :=
  g.time + d ≤ g'.time ∨ (g.owner = g'.owner ∧ g.time ≤ g'.time)

theorem Grant.Follows.refl (d : τ) (g : Grant ω τ) : g.Follows d g := .inr ⟨rfl, le_rfl⟩

theorem Grant.Follows.expired (h : g.Follows d g') (howner : g.owner ≠ g'.owner) :
    g.time + d ≤ g'.time := by
  rcases h with h | ⟨hsame, -⟩
  · exact h
  · exact absurd hsame howner

variable [IsOrderedAddMonoid τ]

theorem Grant.Follows.le (hd : 0 ≤ d) (h : g.Follows d g') : g.time ≤ g'.time := by
  rcases h with h | ⟨-, h⟩
  · exact (le_add_of_nonneg_right hd).trans h
  · exact h

theorem Grant.Follows.trans (hd : 0 ≤ d) (h : g.Follows d g') (h' : g'.Follows d g'') :
    g.Follows d g'' := by
  rcases h with h | ⟨howner, h⟩
  · exact .inl (h.trans (h'.le hd))
  · rcases h' with h' | ⟨howner', h'⟩
    · exact .inl ((add_le_add_left h d).trans h')
    · exact .inr ⟨howner.trans howner', h.trans h'⟩

end Follows

section Ordered
variable [AddCommGroup τ] [LinearOrder τ] {d : τ} {grants : List (Grant ω τ)} {last new a b : Grant ω τ}

/-- Every grant follows all grants before it. -/
def Ordered (d : τ) (grants : List (Grant ω τ)) : Prop := grants.Pairwise (Grant.Follows d)

/-- The last grant follows all of `grants`. -/
def Held (d : τ) (grants : List (Grant ω τ)) (last : Grant ω τ) : Prop := ∀ g ∈ grants, g.Follows d last

/-- Two grants of an ordered history follow one another, in some order. -/
theorem Ordered.total (h : Ordered d grants) (ha : a ∈ grants) (hb : b ∈ grants) :
    a.Follows d b ∨ b.Follows d a := by
  induction grants with
  | nil => cases ha
  | cons g grants ih =>
    obtain ⟨hhead, htail⟩ := List.pairwise_cons.1 h
    rcases List.mem_cons.1 ha with ha | ha <;> rcases List.mem_cons.1 hb with hb | hb
    · rw [ha, hb]
      exact .inl (Grant.Follows.refl d g)
    · rw [ha]
      exact .inl (hhead b hb)
    · rw [hb]
      exact .inr (hhead a ha)
    · exact ih htail ha hb

variable [IsOrderedAddMonoid τ]

theorem Held.follows (hd : 0 ≤ d) (h : Held d grants last) (hnew : last.Follows d new) :
    Held d (grants ++ [new]) new := by
  intro g hg
  rcases List.mem_append.1 hg with hg | hg
  · exact (h g hg).trans hd hnew
  · rw [List.mem_singleton.1 hg]
    exact Grant.Follows.refl d new

/-- A history grows by a grant that follows the one that holds. -/
theorem Ordered.snoc (hd : 0 ≤ d) (h : Ordered d grants) (hheld : Held d grants last)
    (hnew : last.Follows d new) :
    Ordered d (grants ++ [new]) := by
  refine List.pairwise_append.2 ⟨h, List.pairwise_singleton _ _, ?_⟩
  intro g hg g' hg'
  rw [List.mem_singleton.1 hg']
  exact (hheld g hg).trans hd hnew

/-- While a lease runs nobody else is granted it. -/
theorem Ordered.excludes (hd : 0 < d) (h : Ordered d grants) (ha : a ∈ grants) (hb : b ∈ grants)
    (howner : a.owner ≠ b.owner) :
    ¬ (a.time ≤ b.time ∧ b.time < a.time + d) := by
  rintro ⟨hle, hlt⟩
  rcases h.total ha hb with hab | hba
  · exact absurd (hab.expired howner) (not_le.2 hlt)
  · have hlater : b.time + d ≤ a.time := hba.expired (Ne.symm howner)
    exact absurd (hlater.trans hle) (not_le.2 (lt_add_of_pos_right b.time hd))

end Ordered

end Leases
