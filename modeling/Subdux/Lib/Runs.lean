import Mathlib.Algebra.BigOperators.Group.Finset.Basic
import Mathlib.Logic.Function.Basic
/-!
# Runs of a system

A system is a partial step function: `step s e` is the state after event `e`, or
`none` when `e` cannot happen in `s`. A `Path` is a run in which every event also
meets a side condition `ok` where it happens. Invariants and relations between
states come from one step each (`Path.invariant`, `Path.relates`), as does another
side condition (`Path.weaken`), and a concrete run is a list of events (`exec`). Where
every event can happen, `throughout_iff` says exactly when a property lasts.
Processes are numbered; `weight` adds up a measure of those in a finite set.
-/

namespace Runs

section Path
variable {σ ε : Type*}

/-- The states that runs from `s` reach. -/
inductive Path (step : σ → ε → Option σ) (ok : σ → ε → Prop) (s : σ) : σ → Prop where
  | refl : Path step ok s s
  | snoc {t u : σ} (e : ε) (h : Path step ok s t) (hok : ok t e)
    (hstep : step t e = some u) : Path step ok s u

/-- No side condition. -/
def Always (_ : σ) (_ : ε) : Prop := True

instance (s : σ) (e : ε) : Decidable (Always s e) := inferInstanceAs (Decidable True)

variable {step : σ → ε → Option σ} {ok ok' : σ → ε → Prop} {s t u : σ}

theorem Path.trans (h₁ : Path step ok s t) (h₂ : Path step ok t u) : Path step ok s u := by
  induction h₂ with
  | refl => exact h₁
  | snoc e _ hok hstep ih => exact ih.snoc e hok hstep

/-- What every step keeps, a run keeps. -/
theorem Path.invariant (Inv : σ → Prop)
    (hkeep : ∀ t e u, Inv t → ok t e → step t e = some u → Inv u) (hs : Inv s)
    (h : Path step ok s t) : Inv t := by
  induction h with
  | refl => exact hs
  | snoc e _ hok hstep ih => exact hkeep _ e _ ih hok hstep

/-- Another side condition, for a run whose states are invariant. -/
theorem Path.weaken (Inv : σ → Prop) (hkeep : ∀ t e u, Inv t → ok t e → step t e = some u → Inv u)
    (hle : ∀ t e, Inv t → ok t e → ok' t e) (hs : Inv s) (h : Path step ok s t) : Path step ok' s t := by
  induction h with
  | refl => exact .refl
  | snoc e h hok hstep ih => exact ih.snoc e (hle _ e (h.invariant Inv hkeep hs) hok) hstep

/-- A reflexive and transitive relation that every step from an invariant state
stands in, a run stands in. -/
theorem Path.relates (Inv : σ → Prop) (R : σ → σ → Prop) (hrefl : ∀ s, R s s)
    (htrans : ∀ s t u, R s t → R t u → R s u)
    (hkeep : ∀ t e u, Inv t → ok t e → step t e = some u → Inv u ∧ R t u) (hs : Inv s)
    (h : Path step ok s t) : R s t := by
  have hboth : Inv t ∧ R s t := by
    induction h with
    | refl => exact ⟨hs, hrefl s⟩
    | snoc e _ hok hstep ih =>
      obtain ⟨hu, hR⟩ := hkeep _ e _ ih.1 hok hstep
      exact ⟨hu, htrans _ _ _ ih.2 hR⟩
  exact hboth.2

/-- A run seen through `abs`, where each step from an invariant state is a run of the
other system. -/
theorem Path.simulates {τ ε' : Type*} {step' : τ → ε' → Option τ} {ok₀ : τ → ε' → Prop}
    (Inv : σ → Prop) (abs : σ → τ)
    (hstep : ∀ t e u, Inv t → ok t e → step t e = some u → Inv u ∧ Path step' ok₀ (abs t) (abs u))
    (hs : Inv s) (h : Path step ok s t) : Path step' ok₀ (abs s) (abs t) := by
  have hboth : Inv t ∧ Path step' ok₀ (abs s) (abs t) := by
    induction h with
    | refl => exact ⟨hs, .refl⟩
    | snoc e _ hok hst ih =>
      obtain ⟨hu, hpath⟩ := hstep _ e _ ih.1 hok hst
      exact ⟨hu, ih.2.trans hpath⟩
  exact hboth.2

end Path

section Exec
variable {σ ε : Type*} (step : σ → ε → Option σ) (ok : σ → ε → Prop) [∀ s e, Decidable (ok s e)]

/-- Run a list of events; `none` when one cannot happen or breaks `ok`. -/
def exec (s : σ) : List ε → Option σ
  | [] => some s
  | e :: es => if ok s e then (step s e).bind fun t => exec t es else none

variable {step ok}

theorem Path.of_exec {es : List ε} {s t : σ} (h : exec step ok s es = some t) : Path step ok s t := by
  induction es generalizing s with
  | nil => cases h; exact .refl
  | cons e es ih =>
    simp only [exec] at h
    split at h
    · rename_i hok
      obtain ⟨u, hu, ht⟩ := Option.bind_eq_some_iff.1 h
      exact (Path.refl.snoc e hok hu).trans (ih ht)
    · cases h

/-- What the events of a list leave alone, running the list does. -/
theorem exec_keeps {α : Type*} (f : σ → α) {P : ε → Prop}
    (hkeep : ∀ s e t, P e → step s e = some t → f t = f s) {es : List ε} {s t : σ}
    (hes : ∀ e ∈ es, P e) (h : exec step ok s es = some t) : f t = f s := by
  induction es generalizing s with
  | nil => cases h; rfl
  | cons e es ih =>
    simp only [exec] at h
    split at h
    · obtain ⟨u, hu, ht⟩ := Option.bind_eq_some_iff.1 h
      rw [ih (fun x hx => hes x (List.mem_cons_of_mem e hx)) ht,
        hkeep s e u (hes e List.mem_cons_self) hu]
    · cases h

end Exec

/-! ## Steps that always happen -/

section Total
variable {σ ι : Type*} (step : σ → ι → σ) (ok : σ → ι → Prop)

/-- Every input of the list meets `ok` in the state where the run reaches it. -/
def Throughout (s : σ) : List ι → Prop
  | [] => True
  | x :: xs => ok s x ∧ Throughout (step s x) xs

variable {step ok} {Inv : σ → Prop} {s : σ} {xs : List ι}

/-- When `ok` is what a step needs to keep `Inv`, a run keeps `Inv` in all its states
exactly when every step is `ok`. -/
theorem throughout_iff (hstep : ∀ s x, Inv s → (Inv (step s x) ↔ ok s x)) (hs : Inv s) :
    (∀ before, before <+: xs → Inv (before.foldl step s)) ↔ Throughout step ok s xs := by
  induction xs generalizing s with
  | nil =>
    refine ⟨fun _ => trivial, fun _ before hbefore => ?_⟩
    obtain rfl := List.prefix_nil.1 hbefore
    exact hs
  | cons x xs ih =>
    constructor
    · intro h
      have hx : Inv (step s x) := h [x] (List.prefix_append [x] xs)
      refine ⟨(hstep s x hs).1 hx, (ih hx).1 fun before hbefore => ?_⟩
      exact h (x :: before) (List.cons_prefix_cons.2 ⟨rfl, hbefore⟩)
    · rintro ⟨hok, hrest⟩ before hbefore
      cases before with
      | nil => exact hs
      | cons y before =>
        obtain ⟨rfl, htail⟩ := List.cons_prefix_cons.1 hbefore
        exact (ih ((hstep s y hs).2 hok)).2 hrest before htail

/-- When a broken `Inv` stays broken, the last state tells: every input keeps it where the
run reaches it. -/
theorem foldl_iff_splits {keeps : List ι → ι → Prop}
    (hstep : ∀ before x, Inv (before.foldl step s) →
      (Inv (step (before.foldl step s) x) ↔ keeps before x))
    (hstay : ∀ s x, Inv (step s x) → Inv s) (hs : Inv s) :
    Inv (xs.foldl step s) ↔ ∀ before x after, xs = before ++ x :: after → keeps before x := by
  induction xs using List.reverseRecOn with
  | nil => simp [hs]
  | append_singleton xs x ih =>
    rw [List.foldl_append, List.foldl_cons, List.foldl_nil]
    constructor
    · intro h before y after hsplit
      have hxs : Inv (xs.foldl step s) := hstay _ x h
      rcases List.eq_nil_or_concat after with rfl | ⟨after, z, rfl⟩
      · obtain ⟨rfl, hx⟩ := List.append_inj' hsplit rfl
        obtain rfl := List.singleton_inj.1 hx
        exact (hstep xs x hxs).1 h
      · rw [List.concat_eq_append, ← List.cons_append, ← List.append_assoc] at hsplit
        exact ih.1 hxs before y after (List.append_inj' hsplit rfl).1
    · intro h
      have hxs : Inv (xs.foldl step s) := by
        refine ih.2 fun before y after hsplit => h before y (after ++ [x]) ?_
        rw [hsplit, List.append_assoc, List.cons_append]
      exact (hstep xs x hxs).2 (h xs x [] rfl)

end Total

/-! ## Processes by number -/

section Processes
variable {π : Type*}

/-- Process `i` moves to `p`; `none` is no process. -/
def set (procs : Nat → Option π) (i : Nat) (p : Option π) : Nat → Option π := Function.update procs i p

@[simp] theorem set_self (procs : Nat → Option π) (i : Nat) (p : Option π) : set procs i p i = p :=
  Function.update_self ..

theorem set_of_ne (procs : Nat → Option π) {i j : Nat} (p : Option π) (h : j ≠ i) :
    set procs i p j = procs j :=
  Function.update_of_ne h ..

/-- What holds of the others, and of `i` where it moves to, holds of every process. -/
theorem forall_set_of_ne {procs : Nat → Option π} {P : Nat → π → Prop} {i : Nat} {p : Option π}
    (h : ∀ j q, j ≠ i → procs j = some q → P j q) (hp : ∀ q, p = some q → P i q) :
    ∀ j q, set procs i p j = some q → P j q := by
  intro j q hq
  by_cases hj : j = i
  · subst hj
    exact hp q (by simpa using hq)
  · exact h j q hj (by rwa [set_of_ne procs p hj] at hq)

/-- What holds of every process still does when `i` moves to a state it holds of. -/
theorem forall_set {procs : Nat → Option π} {P : Nat → π → Prop}
    (h : ∀ j p, procs j = some p → P j p) {i : Nat} {p : Option π} (hp : ∀ q, p = some q → P i q) :
    ∀ j q, set procs i p j = some q → P j q :=
  forall_set_of_ne (fun j q _ => h j q) hp

/-- Only numbers below `n` are processes. -/
def Below (procs : Nat → Option π) (n : Nat) : Prop := ∀ j, n ≤ j → procs j = none

section Below
variable {procs : Nat → Option π} {n i : Nat}

theorem Below.lt (h : Below procs n) {q : π} (hi : procs i = some q) : i < n := by
  by_contra hge
  rw [h i (by omega)] at hi
  cases hi

theorem Below.set (h : Below procs n) (hi : i < n) (p : Option π) : Below (set procs i p) n := by
  intro j hj
  exact (set_of_ne procs p (by omega)).trans (h j hj)

end Below

/-! ### Adding up over the processes -/

/-- What the processes in `S` weigh together. -/
def weight (w : π → Nat) (procs : Nat → Option π) (S : Finset Nat) : Nat := ∑ i ∈ S, (procs i).elim 0 w

variable {w : π → Nat} {procs : Nat → Option π} {S : Finset Nat} {i : Nat}

/-- The weight before and after process `i` moves. -/
theorem weight_set (hi : i ∈ S) (p : Option π) :
    weight w (set procs i p) S + (procs i).elim 0 w = weight w procs S + p.elim 0 w := by
  have hrest : ∑ j ∈ S.erase i, (set procs i p j).elim 0 w = ∑ j ∈ S.erase i, (procs j).elim 0 w :=
    Finset.sum_congr rfl fun j hj => by rw [set_of_ne procs p (Finset.ne_of_mem_erase hj)]
  unfold weight
  rw [← Finset.add_sum_erase S _ hi, ← Finset.add_sum_erase S (fun j => (procs j).elim 0 w) hi,
    hrest, set_self]
  omega

theorem weight_insert (h : procs i = none) : weight w procs (insert i S) = weight w procs S := by
  unfold weight
  by_cases hi : i ∈ S
  · rw [Finset.insert_eq_of_mem hi]
  · simp [Finset.sum_insert hi, h]

theorem le_weight (hi : i ∈ S) : (procs i).elim 0 w ≤ weight w procs S := by
  unfold weight
  rw [← Finset.add_sum_erase S _ hi]
  exact Nat.le_add_right _ _

end Processes

end Runs
