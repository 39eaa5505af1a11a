import Mathlib.Data.Int.ConditionallyCompleteOrder
import Mathlib.Data.Nat.Find
import Mathlib.Order.Monotone.Basic
import Mathlib.Tactic.IntervalCases
import Mathlib.Tactic.Ring
/-!
# Loops that walk up to a bound

A loop `for cur < b { cur = step(cur) }` over values with a strictly
increasing height ends at the first element of the orbit whose height reaches
`b`. `First f b k` names that index `k` and `run_eq` says the loop computes it.
A loop that can end in every round (`rounds`) ends when its rounds use something up
(`rounds_ends`), and along a list it finds the first result (`rounds_list`).
`foldl_first` is about a loop over a list that only the first element of a kind takes part in.
-/

namespace Loop

/-! ## The first index that reaches a bound -/

/-- A strictly increasing sequence gains at least one a step. -/
theorem height_grows {f : Nat → Int} (hf : StrictMono f) (n : Nat) : f 0 + n ≤ f n := by
  induction n with
  | zero => simp
  | succ n ih =>
    have := hf (show n < n + 1 by omega)
    push_cast; omega

/-- `k` is the first index at which `f` reaches `b`. -/
def First (f : Nat → Int) (b : Int) (k : Nat) : Prop := b ≤ f k ∧ ∀ j < k, f j < b

section First
variable {f : Nat → Int} {a b : Int} {j k : Nat}

theorem First.unique (hj : First f b j) (hk : First f b k) : j = k := by
  rcases lt_trichotomy j k with h | h | h
  · exact absurd hj.1 (not_le.2 (hk.2 j h))
  · exact h
  · exact absurd hk.1 (not_le.2 (hj.2 k h))

theorem First.mono (hab : a ≤ b) (hj : First f a j) (hk : First f b k) : j ≤ k :=
  not_lt.1 fun h => absurd (hab.trans hk.1) (not_le.2 (hj.2 k h))

theorem exists_first (hf : StrictMono f) (b : Int) : ∃ k, First f b k := by
  have hex : ∃ n, b ≤ f n := ⟨(b - f 0).toNat, by have := height_grows hf (b - f 0).toNat; omega⟩
  exact ⟨Nat.find hex, Nat.find_spec hex, fun j hj => not_le.1 (Nat.find_min hex hj)⟩

/-- A bound already reached at the start is reached at index 0. -/
theorem first_zero : First f b 0 ↔ b ≤ f 0 := by simp [First]

/-- The first element to reach a bound is the least element that does. -/
theorem isLeast_iff_first (hf : StrictMono f) {x : Int} :
    IsLeast {n | (∃ k, n = f k) ∧ b ≤ n} x ↔ ∃ k, First f b k ∧ x = f k := by
  constructor
  · rintro ⟨⟨⟨k, rfl⟩, hk⟩, hmin⟩
    refine ⟨k, ⟨hk, fun j hj => not_le.1 fun hb => ?_⟩, rfl⟩
    exact absurd (hmin ⟨⟨j, rfl⟩, hb⟩) (not_le.2 (hf hj))
  · rintro ⟨k, hk, rfl⟩
    refine ⟨⟨⟨k, rfl⟩, hk.1⟩, ?_⟩
    rintro n ⟨⟨j, rfl⟩, hj⟩
    exact hf.monotone (not_lt.1 fun h => absurd hj (not_le.2 (hk.2 j h)))

end First

/-- The same for a sequence without a first element. -/
theorem isLeast_of_between {f : Int → Int} (hf : StrictMono f) {b k : Int} (hk : b ≤ f k)
    (hlt : f (k - 1) < b) :
    IsLeast {n | (∃ i, n = f i) ∧ b ≤ n} (f k) := by
  refine ⟨⟨⟨k, rfl⟩, hk⟩, ?_⟩
  rintro n ⟨⟨j, rfl⟩, hj⟩
  have := hf.lt_iff_lt.1 (hlt.trans_le hj)
  exact hf.monotone (by omega)

/-! ## The loop -/

/-- `for p(cur) { cur = step(cur) }`, cut off after the given number of rounds. -/
def run {α : Type*} (p : α → Bool) (step : α → α) : Nat → α → α
  | 0, cur => cur
  | fuel + 1, cur => if p cur then run p step fuel (step cur) else cur

section Run
variable {α : Type*} {p : α → Bool} {step : α → α} {b : Int}

/-- The loop stops at the first element of the orbit that reaches the bound. -/
theorem run_eq (height : α → Int) (hp : ∀ x, p x = true ↔ height x < b) {k fuel : Nat} {x : α}
    (hk : First (fun n => height (step^[n] x)) b k)
    (hfuel : k ≤ fuel) : run p step fuel x = step^[k] x := by
  induction fuel generalizing k x with
  | zero => obtain rfl : k = 0 := by omega
            rfl
  | succ fuel ih =>
    cases k with
    | zero =>
      have : ¬ p x = true := by rw [hp]; exact not_lt.2 hk.1
      simp [run, this]
    | succ k =>
      have hx : p x = true := (hp x).2 (hk.2 0 (by omega))
      have hk' : First (fun n => height (step^[n] (step x))) b k :=
        ⟨by simpa using hk.1, fun j hj => by simpa using hk.2 (j + 1) (by omega)⟩
      simp only [run, hx, if_true, Function.iterate_succ, Function.comp_apply]
      exact ih hk' (by omega)

/-- With a strictly increasing height, one round a unit is fuel enough. -/
theorem first_le_fuel {f : Nat → Int} (hf : StrictMono f) {k : Nat} (hk : First f b k) {fuel : Nat}
    (hfuel : b - f 0 ≤ fuel) : k ≤ fuel := by
  by_contra h
  have h1 := hk.2 fuel (by omega)
  have h2 := height_grows hf fuel
  omega

end Run

/-! ## Loops with a way out -/

/-- `while (true) { … }`, where a round goes on from a state or ends with a result: cut off with
`cut` after the given number of rounds. -/
def rounds {ε σ β : Type} (cut : ε) (body : σ → Except ε (σ ⊕ β)) : Nat → σ → Except ε β
  | 0, _ => .error cut
  | n + 1, s =>
    match body s with
    | .error err => .error err
    | .ok (.inr b) => .ok b
    | .ok (.inl s') => rounds cut body n s'

section Rounds
variable {ε σ τ β : Type} {cut : ε} {body : σ → Except ε (σ ⊕ β)} {n : Nat} {s : σ} {b : β}

/-- A loop whose rounds all succeed and use something up ends in time. -/
theorem rounds_ends (inv : σ → Prop) (height : σ → Nat) (hok : ∀ s, inv s → ∃ r, body s = .ok r)
    (hdown : ∀ s s', inv s → body s = .ok (.inl s') → inv s' ∧ height s' < height s) (hs : inv s)
    (hn : height s < n) :
    ∃ b, rounds cut body n s = .ok b := by
  induction n generalizing s with
  | zero => omega
  | succ n ih =>
    obtain ⟨r, hr⟩ := hok s hs
    rw [rounds, hr]
    cases r with
    | inr b => exact ⟨b, rfl⟩
    | inl s' =>
      obtain ⟨hinv, hless⟩ := hdown s s' hs hr
      exact ih hinv (by omega)

/-- The first result `f` gives along a list, `f` seeing what follows; `b` where there is none. -/
def firstOf (f : τ → List τ → Option β) (b : β) : List τ → β
  | [] => b
  | t :: ts => (f t ts).getD (firstOf f b ts)

/-- A loop that meets the elements of a list one after another ends with the first result of one of
them. -/
theorem rounds_list (state : List τ → σ) (f : τ → List τ → Option β) {ts : List τ}
    (hround : ∀ before t after, ts = before ++ t :: after →
      body (state before) = .ok ((f t after).elim (.inl (state (before ++ [t]))) .inr))
    (hend : body (state ts) = .ok (.inr b)) (hn : ts.length < n) :
    rounds cut body n (state []) = .ok (firstOf f b ts) := by
  -- the induction is on what is left, behind what was passed
  suffices h : ∀ left passed n, ts = passed ++ left → left.length < n →
      rounds cut body n (state passed) = .ok (firstOf f b left) from h ts [] n rfl hn
  intro left
  induction left with
  | nil =>
    rintro passed (_ | n) rfl hn
    · cases hn
    · rw [List.append_nil] at hend
      rw [rounds, hend]
      rfl
  | cons t left ih =>
    rintro passed (_ | n) hts hn
    · cases hn
    · rw [rounds, hround passed t left hts, firstOf]
      cases f t left with
      | some b => rfl
      | none =>
        exact ih (passed ++ [t]) n (by rw [hts, List.append_assoc, List.singleton_append])
          (Nat.lt_of_succ_lt_succ hn)

end Rounds

/-! ## Loops over a list -/

section Lists
variable {σ τ : Type*} {f : σ → τ → σ} {p : τ → Bool} {l : List τ} {t : τ} {s : σ}

/-- A loop whose result the first element with `p` decides. -/
theorem foldl_first (P Q : σ → Prop) (hfind : l.find? p = some t) (hs : P s)
    (hbefore : ∀ s, ∀ x ∈ l, p x = false → P s → P (f s x)) (hfirst : ∀ s, P s → Q (f s t))
    (hafter : ∀ s, ∀ x ∈ l, Q s → Q (f s x)) : Q (l.foldl f s) := by
  obtain ⟨-, before, after, rfl, hnot⟩ := List.find?_eq_some_iff_append.1 hfind
  rw [List.foldl_append, List.foldl_cons]
  have hP : P (before.foldl f s) :=
    List.foldlRecOn before f hs fun s hs x hx =>
      hbefore s x (List.mem_append_left _ hx) (by simpa using hnot x hx) hs
  exact List.foldlRecOn after f (hfirst _ hP) fun s hs x hx =>
    hafter s x (List.mem_append_right _ (List.mem_cons_of_mem _ hx)) hs

end Lists

end Loop
