import Mathlib.Tactic.Linarith
import Subdux.Lib.Gregorian
import Subdux.Lib.Loop
/-!
# Recurrence rules

What a schedule means, apart from the code that walks it. `Rule.dates r a` is the
set of dates of rule `r` anchored at day `a`, and `r.IsNext a b x` says that `x` is
the first of them on or after `b`.

Two operations re-anchor a rule at a date it produced: catching a stored date up
with the calendar (`CatchUp`) and listing charges one after the other (`Charges`).
All rules but `months` forget their anchor's day of the month, so re-anchoring
changes nothing (`isNext_reanchor`). For `months` a clamped date is a smaller
anchor day; `catchUp_stop_iff` and `windows_additive_iff` say exactly when that
shows.
-/

namespace Subdux
open Gregorian Loop

/-- A recurrence rule, its parameters in range. -/
inductive Rule where
  /-- Every `step` days from the anchor. -/
  | days (step : Int) (pos : 0 < step)
  /-- Every `stride` months from the anchor, on its day of the month. -/
  | months (stride : Int) (pos : 0 < stride)
  /-- On `day` of every month. -/
  | monthDay (day : Int) (pos : 1 ≤ day)
  /-- On `day` of `month` every year. -/
  | yearDay (month day : Int) (pos : 1 ≤ day)

/-- The `k`-th month date after the anchor `a`. -/
def monthDate (stride a : Int) (k : Nat) : Int := onMonth (monthOf a + stride * k) (dayOf a)

namespace Rule

/-- The dates of a rule anchored at `a`. A day that a month lacks is its last day. -/
def dates : Rule → Int → Set Int
  | days step _, a => {n | ∃ k : Nat, n = a + step * k}
  | months stride _, a => {n | ∃ k : Nat, n = monthDate stride a k}
  | monthDay day _, _ => {n | ∃ M : Int, n = onMonth M day}
  | yearDay month day _, _ => {n | ∃ y : Int, n = onMonth (12 * y + (month - 1)) day}

/-- `x` is the first date on or after `b`. -/
def IsNext (r : Rule) (a b x : Int) : Prop := IsLeast {n | n ∈ r.dates a ∧ b ≤ n} x

theorem IsNext.unique {r : Rule} {a b x y : Int} (hx : r.IsNext a b x) (hy : r.IsNext a b y) : x = y :=
  IsLeast.unique hx hy

theorem IsNext.le {r : Rule} {a b x : Int} (h : r.IsNext a b x) : b ≤ x := h.1.2

/-- A first date on or after `b` is still the first from any later bound it reaches. -/
theorem IsNext.of_le {r : Rule} {a b c x : Int} (h : r.IsNext a b x) (hbc : b ≤ c) (hcx : c ≤ x) :
    r.IsNext a c x :=
  ⟨⟨h.1.1, hcx⟩, fun _ hn => h.2 ⟨hn.1, hbc.trans hn.2⟩⟩

theorem IsNext.mono {r : Rule} {a b c x y : Int} (hx : r.IsNext a b x) (hy : r.IsNext a c y)
    (hbc : b ≤ c) : x ≤ y :=
  hx.2 ⟨hy.1.1, hbc.trans hy.1.2⟩

/-! ## The dates as sequences -/

section Sequences
variable {a b x : Int}

theorem dayDate_strictMono {step : Int} (pos : 0 < step) : StrictMono fun k : Nat => a + step * k := by
  intro j k h
  have : step * j < step * k := Int.mul_lt_mul_of_pos_left (by omega) pos
  simp only; omega

theorem monthDate_strictMono {stride : Int} (pos : 0 < stride) : StrictMono (monthDate stride a) := by
  intro j k h
  have : stride * j < stride * k := Int.mul_lt_mul_of_pos_left (by omega) pos
  exact onMonth_lt (by omega) (dayOf_bounds a).1

theorem isNext_days {step : Int} {pos : 0 < step} :
    (days step pos).IsNext a b x ↔ ∃ k, First (fun k : Nat => a + step * k) b k ∧ x = a + step * k :=
  isLeast_iff_first (dayDate_strictMono pos)

theorem isNext_months {stride : Int} {pos : 0 < stride} :
    (months stride pos).IsNext a b x ↔ ∃ k, First (monthDate stride a) b k ∧ x = monthDate stride a k :=
  isLeast_iff_first (monthDate_strictMono pos)

theorem isNext_days_self {step : Int} {pos : 0 < step} (h : b ≤ a) : (days step pos).IsNext a b a :=
  isNext_days.2 ⟨0, first_zero.2 (by simpa using h), by simp⟩

theorem isNext_monthDay {day M : Int} {pos : 1 ≤ day} (h : b ≤ onMonth M day)
    (hlt : onMonth (M - 1) day < b) : (monthDay day pos).IsNext a b (onMonth M day) :=
  isLeast_of_between (f := fun M => onMonth M day) (fun _ _ h => onMonth_lt h pos) h hlt

theorem isNext_yearDay {month day y : Int} {pos : 1 ≤ day} (h : b ≤ onMonth (12 * y + (month - 1)) day)
    (hlt : onMonth (12 * (y - 1) + (month - 1)) day < b) :
    (yearDay month day pos).IsNext a b (onMonth (12 * y + (month - 1)) day) :=
  isLeast_of_between (f := fun y => onMonth (12 * y + (month - 1)) day)
    (fun _ _ h => onMonth_lt (by omega) pos) h hlt

@[simp] theorem monthDate_zero (stride a : Int) : monthDate stride a 0 = a := by simp [monthDate]

theorem isNext_months_self {stride : Int} {pos : 0 < stride} (h : b ≤ a) :
    (months stride pos).IsNext a b a :=
  isNext_months.2 ⟨0, first_zero.2 (by simpa using h), by simp⟩

theorem monthOf_monthDate (stride a : Int) (k : Nat) :
    monthOf (monthDate stride a k) = monthOf a + stride * k :=
  monthOf_onMonth (dayOf_bounds a).1

theorem dayOf_monthDate (stride a : Int) (k : Nat) :
    dayOf (monthDate stride a k) = min (dayOf a) (monthLen (monthOf a + stride * k)) :=
  dayOf_onMonth (dayOf_bounds a).1

end Sequences

/-! ## Re-anchoring -/

/-- Whether the rule reads the anchor's day of the month. -/
def keepsDay : Rule → Bool
  | months _ _ => true
  | _ => false

/-- A rule that does not read the anchor's day has the same dates from a later
anchor among them. -/
theorem isNext_reanchor {r : Rule} (hr : r.keepsDay = false) {a b x : Int} (hx : x ∈ r.dates a)
    (hxb : x ≤ b) (y : Int) :
    r.IsNext x b y ↔ r.IsNext a b y := by
  cases r with
  | days step pos =>
    obtain ⟨k, rfl⟩ := hx
    have : {n | n ∈ (days step pos).dates (a + step * k) ∧ b ≤ n} =
        {n | n ∈ (days step pos).dates a ∧ b ≤ n} := by
      ext n
      constructor
      · rintro ⟨⟨j, rfl⟩, hb⟩
        exact ⟨⟨k + j, by push_cast; ring⟩, hb⟩
      · rintro ⟨⟨j, rfl⟩, hb⟩
        have hle : (k : Int) ≤ j := le_of_mul_le_mul_left (by omega) pos
        exact ⟨⟨j - k, by rw [Nat.cast_sub (by omega)]; ring⟩, hb⟩
    rw [IsNext, this]; rfl
  | months => cases hr
  | monthDay => rfl
  | yearDay => rfl

/-! ## Due months -/

/-- The first month in steps of `stride` from the anchor's whose date is not before `t`. -/
def dueMonth (stride a t : Int) : Int :=
  if t ≤ a then monthOf a
  else
    let M := monthOf a + stride * ((monthOf t - monthOf a + stride - 1) / stride)
    if onMonth M (dayOf a) < t then M + stride else M

/-- One date below `t`, and the next not, are the last and the first of their kind. -/
theorem isNext_months_of_between {stride : Int} {pos : 0 < stride} {a t : Int} {k : Nat}
    (hlt : ∀ j : Nat, j + 1 = k → monthDate stride a j < t) (hle : t ≤ monthDate stride a k) :
    (months stride pos).IsNext a t (monthDate stride a k) := by
  refine isNext_months.2 ⟨k, ⟨hle, fun j hj => ?_⟩, rfl⟩
  obtain ⟨i, rfl⟩ : ∃ i, k = i + 1 := ⟨k - 1, by omega⟩
  exact ((monthDate_strictMono pos).monotone (by omega : j ≤ i)).trans_lt (hlt i rfl)

theorem isNext_dueMonth {stride : Int} (pos : 0 < stride) (a t : Int) :
    (months stride pos).IsNext a t (onMonth (dueMonth stride a t) (dayOf a)) := by
  unfold dueMonth
  by_cases hta : t ≤ a
  · simpa [hta] using isNext_months_self hta
  have hmono := monthOf_mono (not_le.1 hta).le
  simp only [hta, if_false]
  -- `k` strides reach the month of `t`, and one fewer do not.
  generalize hk : (monthOf t - monthOf a + stride - 1) / stride = k
  have hk0 : 0 ≤ k := by rw [← hk]; exact Int.ediv_nonneg (by omega) pos.le
  have hdiv := Int.emod_add_mul_ediv (monthOf t - monthOf a + stride - 1) stride
  have hmod := Int.emod_nonneg (monthOf t - monthOf a + stride - 1) pos.ne'
  have hlt := Int.emod_lt_of_pos (monthOf t - monthOf a + stride - 1) pos
  rw [hk] at hdiv
  lift k to Nat using hk0
  have hbelow : ∀ j : Nat, j + 1 = k → monthDate stride a j < t := by
    rintro j rfl
    push_cast at hdiv
    have hM : monthOf a + stride * j < monthOf t := by linarith
    have := onMonth_lt (d := dayOf a) hM (dayOf_bounds t).1
    rwa [onMonth_dayOf] at this
  split_ifs with h
  · -- The date of the month of `t` itself is over.
    have hM : monthOf t < monthOf a + stride * (k + 1 : Nat) := by push_cast; linarith
    have hle : t ≤ monthDate stride a (k + 1) := by
      have := onMonth_lt (d := dayOf t) hM (dayOf_bounds a).1
      rw [onMonth_dayOf] at this
      exact this.le
    convert isNext_months_of_between (k := k + 1) (fun j hj => ?_) hle using 1
    · rw [monthDate]; congr 1; push_cast; ring
    · obtain rfl : j = k := by omega
      exact h
  · exact isNext_months_of_between hbelow (not_lt.1 h)

theorem isNext_months_iff {stride : Int} {pos : 0 < stride} {a t x : Int} :
    (months stride pos).IsNext a t x ↔ x = onMonth (dueMonth stride a t) (dayOf a) := by
  constructor
  · exact fun h => h.unique (isNext_dueMonth pos a t)
  · rintro rfl
    exact isNext_dueMonth pos a t

theorem dueMonth_of_le {stride a t : Int} (h : t ≤ a) : dueMonth stride a t = monthOf a := if_pos h

/-! ## Catching up -/

/-- A date still ahead of `t` stays; a past one moves to the first date on or after `t`. -/
def CatchUp (r : Rule) (a t x : Int) : Prop := if a < t then r.IsNext a t x else x = a

/-- When a stop at `t₁` on the way to `t₂` does not show: a month rule's day, as
far as the month due at `t₂` has it, exists in the month due at `t₁`. -/
def StopSafe : Rule → Int → Int → Int → Prop
  | months stride _, a, t₁, t₂ =>
    min (dayOf a) (monthLen (dueMonth stride a t₂)) ≤ monthLen (dueMonth stride a t₁)
  | _, _, _, _ => True

instance (r : Rule) (a t₁ t₂ : Int) : Decidable (r.StopSafe a t₁ t₂) := by
  cases r <;> unfold StopSafe <;> infer_instance

section CatchUp
variable {r : Rule} {a t₁ t₂ x y z : Int}

theorem catchUp_months {stride : Int} {pos : 0 < stride} :
    (months stride pos).CatchUp a t₁ x ↔ x = onMonth (dueMonth stride a t₁) (dayOf a) := by
  unfold CatchUp
  split_ifs with h
  · exact isNext_months_iff
  · rw [dueMonth_of_le (not_lt.1 h), onMonth_dayOf]

theorem CatchUp.unique (hx : r.CatchUp a t₁ x) (hy : r.CatchUp a t₁ y) : x = y := by
  unfold CatchUp at hx hy
  split_ifs at hx hy
  · exact hx.unique hy
  · rw [hx, hy]

theorem CatchUp.le (h : r.CatchUp a t₁ x) : t₁ ≤ x := by
  unfold CatchUp at h
  split_ifs at h with hat
  · exact h.le
  · omega

/-- Re-anchoring a month rule at the date of `t₁` keeps the date of `t₂` exactly
when that date's day exists in the month of the first. -/
theorem isNext_months_reanchor {stride : Int} {pos : 0 < stride} (ht : t₁ ≤ t₂)
    (hx : (months stride pos).IsNext a t₁ x) (hz : (months stride pos).IsNext a t₂ z)
    (hy : (months stride pos).IsNext x t₂ y) : y = z ↔ dayOf z ≤ monthLen (monthOf x) := by
  obtain ⟨k₁, h₁, rfl⟩ := isNext_months.1 hx
  obtain ⟨k₂, h₂, rfl⟩ := isNext_months.1 hz
  obtain ⟨j, hj, rfl⟩ := isNext_months.1 hy
  obtain ⟨i, rfl⟩ : ∃ i, k₂ = k₁ + i := ⟨k₂ - k₁, by have := h₁.mono ht h₂; omega⟩
  -- The re-anchored dates lie in the same months, on the day clamped once more.
  have hdate : ∀ n, monthDate stride (monthDate stride a k₁) n =
      onMonth (monthOf a + stride * (k₁ + n : Nat))
        (min (dayOf a) (monthLen (monthOf a + stride * k₁))) := by
    intro n
    rw [monthDate, monthOf_monthDate, dayOf_monthDate]
    congr 1; push_cast; ring
  have hle : ∀ n, monthDate stride (monthDate stride a k₁) n ≤ monthDate stride a (k₁ + n) := by
    intro n
    rw [hdate]
    exact onMonth_mono (min_le_left _ _)
  have hsame : monthDate stride (monthDate stride a k₁) i = monthDate stride a (k₁ + i) ↔
      dayOf (monthDate stride a (k₁ + i)) ≤ monthLen (monthOf (monthDate stride a k₁)) := by
    rw [hdate, dayOf_monthDate, monthOf_monthDate, monthDate, onMonth_inj]
    omega
  rw [← hsame]
  constructor
  · intro h
    have hm := congrArg monthOf h
    rw [hdate, monthOf_onMonth
      (by have := dayOf_bounds a; have := monthLen_bounds (monthOf a + stride * k₁); omega),
      monthOf_monthDate] at hm
    have : stride * ((k₁ + j : Nat) : Int) = stride * ((k₁ + i : Nat) : Int) := by omega
    have := Int.eq_of_mul_eq_mul_left (by omega) this
    obtain rfl : j = i := by omega
    exact h
  · intro h
    have hi : First (monthDate stride (monthDate stride a k₁)) t₂ i :=
      ⟨h ▸ h₂.1, fun n hn => (hle n).trans_lt (h₂.2 (k₁ + n) (by omega))⟩
    rw [hj.unique hi, h]

/-- Stopping at `t₁` on the way to `t₂` leaves the date that going straight to
`t₂` leaves, exactly under `StopSafe`. -/
theorem catchUp_stop_iff (ht : t₁ ≤ t₂) (hx : r.CatchUp a t₁ x) (hy : r.CatchUp x t₂ y)
    (hz : r.CatchUp a t₂ z) :
    y = z ↔ r.StopSafe a t₁ t₂ := by
  by_cases ha : a < t₁
  · rw [CatchUp, if_pos ha] at hx
    rw [CatchUp, if_pos (ha.trans_le ht)] at hz
    by_cases hxt : x < t₂
    · rw [CatchUp, if_pos hxt] at hy
      cases r with
      | months stride pos =>
        rw [isNext_months_reanchor ht hx hz hy, isNext_months_iff.1 hx, isNext_months_iff.1 hz,
          dayOf_onMonth (dayOf_bounds a).1, monthOf_onMonth (dayOf_bounds a).1]
        rfl
      | days | monthDay | yearDay =>
        simpa [StopSafe] using ((isNext_reanchor rfl hx.1.1 hxt.le y).1 hy).unique hz
    · -- The stop already reached `t₂`.
      rw [CatchUp, if_neg hxt] at hy
      have hxz : x = z := (hx.of_le ht (not_lt.1 hxt)).unique hz
      subst hy hxz
      cases r with
      | months stride pos =>
        have hmonth := congrArg monthOf ((isNext_months_iff.1 hx).symm.trans (isNext_months_iff.1 hz))
        simp only [monthOf_onMonth (dayOf_bounds a).1] at hmonth
        simp [StopSafe, hmonth]
      | days | monthDay | yearDay => simp [StopSafe]
  · rw [CatchUp, if_neg ha] at hx
    subst hx
    have hsafe : r.StopSafe x t₁ t₂ := by
      cases r with
      | months stride pos =>
        have := (dayOf_bounds x).2
        simp only [StopSafe, dueMonth_of_le (not_lt.1 ha)]
        omega
      | days | monthDay | yearDay => trivial
    simpa [hsafe] using hy.unique hz

end CatchUp

/-! ## Charging -/

/-- From the date `x` on, each date re-anchored at the one before, the dates
before `c` are `L`. -/
inductive Charges (r : Rule) (c : Int) : Int → List Int → Prop where
  | done {x : Int} (h : c ≤ x) : Charges r c x []
  | charge {x y : Int} {L : List Int} (h : x < c) (hy : r.IsNext x (x + 1) y) (hL : Charges r c y L) :
      Charges r c x (x :: L)

/-- Charging on from `x`, `y` is the first date on or after `b`. -/
inductive Reaches (r : Rule) (b : Int) : Int → Int → Prop where
  | stop {x : Int} (h : b ≤ x) : Reaches r b x x
  | next {x y z : Int} (h : x < b) (hy : r.IsNext x (x + 1) y) (hz : Reaches r b y z) : Reaches r b x z

section Charges
variable {r : Rule} {a b c x y n : Int} {L L₁ L₂ : List Int}

theorem Reaches.le (h : r.Reaches b x y) : b ≤ y := by
  induction h with
  | stop h => exact h
  | next _ _ _ ih => exact ih

theorem Reaches.ge (h : r.Reaches b x y) : x ≤ y := by
  induction h with
  | stop h => exact le_rfl
  | next h hy _ ih => exact (hy.le.trans' (by omega)).trans ih

/-- The charges of a window lie in it. -/
theorem Charges.bounds (h : r.Charges c x L) : ∀ z ∈ L, x ≤ z ∧ z < c := by
  induction h with
  | done h => simp
  | charge h hy _ ih =>
    intro z hz
    rcases List.mem_cons.1 hz with rfl | hz
    · exact ⟨le_rfl, h⟩
    · have := hy.le
      have := ih z hz
      omega

/-- The date after the charges of a window. -/
theorem Charges.reaches (h : r.Charges c x L) : ∃ y, r.Reaches c x y := by
  induction h with
  | done h => exact ⟨_, .stop h⟩
  | charge h hy _ ih =>
    obtain ⟨z, hz⟩ := ih
    exact ⟨z, .next h hy hz⟩

/-- After one of the charges comes the next. -/
theorem Charges.reaches_of_mem (h : r.Charges c x L) (hy : r.Reaches c x y) {z : Int} (hz : z ∈ L) :
    ∃ next, r.IsNext z (z + 1) next ∧ r.Reaches c next y := by
  induction h with
  | done h => cases hz
  | charge h hnext _ ih =>
    cases hy with
    | stop h' => omega
    | next _ hnext' hy =>
      obtain rfl := hnext.unique hnext'
      rcases List.mem_cons.1 hz with rfl | hz
      · exact ⟨_, hnext, hy⟩
      · exact ih hy hz

/-- Two charge lists of one window agree when they start at the same date, or
both start after the window. -/
theorem charges_eq_iff (hy : r.Charges c y L₁) (hx : r.Charges c x L₂) :
    L₁ = L₂ ↔ y = x ∨ (c ≤ y ∧ c ≤ x) := by
  constructor
  · rintro rfl
    cases hy <;> cases hx <;> simp_all
  · rintro (rfl | ⟨h1, h2⟩)
    · induction hy generalizing L₂ with
      | done h =>
        cases hx with
        | done => rfl
        | charge h' => omega
      | charge h hy _ ih =>
        cases hx with
        | done h' => omega
        | charge _ hy' hL => rw [ih (hy.unique hy' ▸ hL)]
    · cases hy with
      | charge h => omega
      | done =>
        cases hx with
        | charge h => omega
        | done => rfl

/-- A long window charges what its first part does, and then on from the date
that part reaches. -/
theorem Charges.split (h : r.Charges c x L) (hbc : b ≤ c) (h₁ : r.Charges b x L₁) :
    ∃ y M, r.Reaches b x y ∧ r.Charges c y M ∧ L = L₁ ++ M := by
  induction h generalizing L₁ with
  | done h =>
    cases h₁ with
    | done hb => exact ⟨_, _, .stop hb, .done h, rfl⟩
    | charge hb => omega
  | charge h hy hL ih =>
    cases h₁ with
    | done hb => exact ⟨_, _, .stop hb, .charge h hy hL, rfl⟩
    | charge hb hy' hL₁ =>
      obtain rfl := hy.unique hy'
      obtain ⟨z, M, hz, hM, rfl⟩ := ih hL₁
      exact ⟨z, M, .next hb hy hz, hM, rfl⟩

/-- Charging on under a rule that does not read the anchor's day stays on the
dates of the first anchor `n`. -/
theorem reaches_reanchor (hr : r.keepsDay = false) (h : r.Reaches b x y) {z : Int} (hz : r.CatchUp n b z)
    (hnx : n ≤ x) (hx : x = n ∨ x ∈ r.dates n) (hxz : x ≤ z) : y = z := by
  unfold CatchUp at hz
  split_ifs at hz with hnb
  · induction h with
    | stop hb =>
      have hx : _ ∈ r.dates n := hx.resolve_left (by omega)
      exact le_antisymm hxz (hz.2 ⟨hx, hb⟩)
    | @next x y _ hxb hy _ ih =>
      have hy' : r.IsNext n (x + 1) y := by
        rcases hx with rfl | hx
        · exact hy
        · exact (isNext_reanchor hr hx (by omega) y).1 hy
      have := hy'.le
      exact ih (by omega) (.inr hy'.1.1) (hy'.2 ⟨hz.1.1, by have := hz.le; omega⟩)
  · -- The anchor itself is the first charge.
    cases h with
    | stop => omega
    | next => omega

end Charges

/-! ## How far apart the dates are -/

/-- A rule has a date in every so many days. -/
def gap : Rule → Int
  | days step _ => step
  | months stride _ => 31 * (stride + 1)
  | monthDay _ _ => 31 * 2
  | yearDay _ _ _ => 31 * 13

section Gap
variable {r : Rule} {a b n x y : Int}

/-- A month has at most 31 days. -/
theorem monthStart_lag (M : Int) (k : Nat) : monthStart (M + k) ≤ monthStart M + 31 * k := by
  induction k with
  | zero => simp
  | succ k ih =>
    have hlen := monthLen_bounds (M + k)
    have hsucc := monthStart_succ (M + k)
    push_cast
    rw [← add_assoc]
    omega

/-- A date of one of the next `k` months. -/
theorem onMonth_lag {M d k : Int} (hd : 1 ≤ d) (hlt : monthOf n < M) (hle : M ≤ monthOf n + k) :
    n ≤ onMonth M d ∧ onMonth M d ≤ n + 31 * (k + 1) := by
  obtain ⟨j, rfl⟩ : ∃ j : Nat, k = j := ⟨k.toNat, by omega⟩
  have hlater := lt_onMonth hlt hd
  have hmono :=
    monthStart_strictMono.monotone (show M + 1 ≤ monthOf n + (j + 1 : Nat) by push_cast; omega)
  have hlag := monthStart_lag (monthOf n) (j + 1)
  have hday := @onMonth_le M d
  rw [← monthStart_succ] at hday
  have hspec := (monthOf_spec n).1
  push_cast at hlag hmono
  omega

theorem exists_date (r : Rule) (a b : Int) : ∃ x ∈ r.dates a, b ≤ x ∧ x ≤ max a b + r.gap := by
  cases r with
  | days step pos =>
    by_cases hba : b ≤ a
    · exact ⟨a, ⟨0, by simp⟩, hba, by simp only [gap]; omega⟩
    -- The first multiple of `step` that is long enough.
    have hdiv := Int.emod_add_mul_ediv (b - a + step - 1) step
    have hmod := Int.emod_nonneg (b - a + step - 1) pos.ne'
    have hlt := Int.emod_lt_of_pos (b - a + step - 1) pos
    have hk : 0 ≤ (b - a + step - 1) / step := Int.ediv_nonneg (by omega) pos.le
    generalize (b - a + step - 1) / step = k at hdiv hk
    refine ⟨a + step * k, ⟨k.toNat, by rw [Int.toNat_of_nonneg hk]⟩, by omega, ?_⟩
    simp only [gap]
    omega
  | months stride pos =>
    by_cases hba : b ≤ a
    · exact ⟨a, ⟨0, (monthDate_zero _ _).symm⟩, hba, by simp only [gap]; omega⟩
    have hmono := monthOf_mono (not_le.1 hba).le
    have hdiv := Int.emod_add_mul_ediv (monthOf b - monthOf a) stride
    have hmod := Int.emod_nonneg (monthOf b - monthOf a) pos.ne'
    have hlt := Int.emod_lt_of_pos (monthOf b - monthOf a) pos
    have hk : 0 ≤ (monthOf b - monthOf a) / stride := Int.ediv_nonneg (by omega) pos.le
    obtain ⟨k, hk⟩ : ∃ k : Nat, (monthOf b - monthOf a) / stride = k :=
      ⟨_, (Int.toNat_of_nonneg hk).symm⟩
    rw [hk] at hdiv
    have hM : stride * ((k + 1 : Nat) : Int) = stride * k + stride := by push_cast; ring
    obtain ⟨hle, hge⟩ :=
      onMonth_lag (n := b) (M := monthOf a + stride * (k + 1 : Nat)) (k := stride) (dayOf_bounds a).1
      (by omega) (by omega)
    exact ⟨monthDate stride a (k + 1), ⟨k + 1, rfl⟩, hle, hge.trans (by simp only [gap]; omega)⟩
  | monthDay day pos =>
    obtain ⟨hle, hge⟩ := onMonth_lag (n := b) (M := monthOf b + 1) (k := 1) pos (by omega) (by omega)
    exact ⟨_, ⟨_, rfl⟩, hle, hge.trans (by simp only [gap]; omega)⟩
  | yearDay month day pos =>
    obtain ⟨hle, hge⟩ :=
      onMonth_lag (n := b) (M := 12 * ((monthOf b - (month - 1)) / 12 + 1) + (month - 1)) (k := 12) pos
      (by omega) (by omega)
    exact ⟨_, ⟨_, rfl⟩, hle, hge.trans (by simp only [gap]; omega)⟩

theorem IsNext.le_gap (h : r.IsNext a b x) : x ≤ max a b + r.gap := by
  obtain ⟨y, hy, hby, hgap⟩ := exists_date r a b
  exact (h.2 ⟨hy, hby⟩).trans hgap

theorem CatchUp.le_gap (hgap : 0 ≤ r.gap) (h : r.CatchUp a b x) : x ≤ max a b + r.gap := by
  unfold CatchUp at h
  split_ifs at h with hab
  · exact h.le_gap
  · omega

theorem gap_pos (r : Rule) : 0 < r.gap := by
  cases r <;> simp only [gap] <;> omega

/-- Charging on stops at most that far after `b`, unless it starts there. -/
theorem Reaches.le_gap (h : r.Reaches b x y) : y ≤ max x (b + r.gap) := by
  induction h with
  | stop h => exact le_max_left _ _
  | next hxb hy _ ih =>
    have := hy.le_gap
    omega

end Gap

/-! ## Charge windows of a month rule -/

/-- The day of the month that is left of `d` after `k` charges from month `M` on. -/
def carriedDay (stride M d : Int) : Nat → Int
  | 0 => d
  | k + 1 => min (carriedDay stride M d k) (monthLen (M + stride * k))

/-- The `k`-th charge of a month rule after the first, on day `d` of month `M`. -/
def chargeDate (stride M d : Int) (k : Nat) : Int := onMonth (M + stride * k) (carriedDay stride M d k)

section MonthCharges
variable {stride : Int} {pos : 0 < stride} {M d b n : Int}

theorem carriedDay_pos (hd : 1 ≤ d) (k : Nat) : 1 ≤ carriedDay stride M d k := by
  induction k with
  | zero => exact hd
  | succ k ih =>
    have := monthLen_bounds (M + stride * k)
    simp only [carriedDay]; omega

theorem carriedDay_le (k : Nat) : carriedDay stride M d k ≤ d := by
  induction k with
  | zero => exact le_rfl
  | succ k ih => exact (min_le_left _ _).trans ih

/-- Each charge is the next date of the rule anchored at the charge before. -/
theorem isNext_chargeDate (hd : 1 ≤ d) (k : Nat) :
    (months stride pos).IsNext (chargeDate stride M d k) (chargeDate stride M d k + 1)
    (chargeDate stride M d (k + 1)) := by
  have hnext : monthDate stride (chargeDate stride M d k) 1 = chargeDate stride M d (k + 1) := by
    rw [monthDate, chargeDate, monthOf_onMonth (carriedDay_pos hd k),
      dayOf_onMonth (carriedDay_pos hd k), chargeDate,
      carriedDay]
    congr 1; push_cast; ring
  rw [← hnext]
  refine isNext_months_of_between (k := 1) (fun j hj => ?_) ?_
  · obtain rfl : j = 0 := by omega
    rw [monthDate_zero]; omega
  · have := monthDate_strictMono (a := chargeDate stride M d k) pos (show 0 < 1 by omega)
    rw [monthDate_zero] at this
    omega

theorem reaches_chargeDate (hd : 1 ≤ d) {k : Nat} {x y : Int} (hx : x = chargeDate stride M d k)
    (h : (months stride pos).Reaches b x y) (hk : ∀ i < k, chargeDate stride M d i < b) :
    ∃ j, First (chargeDate stride M d) b j ∧ y = chargeDate stride M d j := by
  induction h generalizing k with
  | stop hb => exact ⟨k, ⟨hx ▸ hb, hk⟩, hx⟩
  | next hb hy _ ih =>
    subst hx
    refine ih (k := k + 1) (hy.unique (isNext_chargeDate hd k)) fun i hi => ?_
    rcases Nat.lt_succ_iff_lt_or_eq.1 hi with h | rfl
    · exact hk i h
    · exact hb

theorem dueMonth_first (pos : 0 < stride) (n t : Int) :
    ∃ k : Nat, First (monthDate stride n) t k ∧ dueMonth stride n t = monthOf n + stride * k := by
  obtain ⟨k, hk, he⟩ := isNext_months.1 (isNext_dueMonth pos n t)
  refine ⟨k, hk, ?_⟩
  have := congrArg monthOf he
  rwa [monthOf_onMonth (dayOf_bounds n).1, monthOf_monthDate] at this

end MonthCharges

/-- When the windows from `a` to `b` and from `b` to `c` charge what the window
from `a` to `c` does. In the month due at `b`, the charges from `a` on have come
down to a day: it is the due day, or nothing is charged there before `c`. -/
def WindowSafe : Rule → Int → Int → Int → Int → Prop
  | months stride _, n, a, b, c =>
    let rounds := ((dueMonth stride n b - dueMonth stride n a) / stride).toNat
    let carried := chargeDate stride (dueMonth stride n a) (dayOf n) rounds
    let due := onMonth (dueMonth stride n b) (dayOf n)
    carried = due ∨ c ≤ if b ≤ carried then carried else due
  | _, _, _, _, _ => True

instance (r : Rule) (n a b c : Int) : Decidable (r.WindowSafe n a b c) := by
  cases r <;> unfold WindowSafe <;> infer_instance

section Windows
variable {r : Rule} {n a b c xa xb : Int}

/-- The charges from `a` on come down to a date no later than the one due at `b`;
if that is before `b`, the first from `b` on is after the due one. -/
theorem reaches_months {stride : Int} {pos : 0 < stride} (hab : a ≤ b) {y carried due : Int}
    (hcarried : carried = chargeDate stride (dueMonth stride n a) (dayOf n)
      ((dueMonth stride n b - dueMonth stride n a) / stride).toNat)
    (hdue : due = onMonth (dueMonth stride n b) (dayOf n))
    (h : (months stride pos).Reaches b (onMonth (dueMonth stride n a) (dayOf n)) y) :
    carried ≤ due ∧ b ≤ due ∧ if b ≤ carried then y = carried else due < y := by
  have hd := (dayOf_bounds n).1
  obtain ⟨ka, ha, hMa⟩ := dueMonth_first pos n a
  obtain ⟨kb, hb, hMb⟩ := dueMonth_first pos n b
  obtain ⟨k, rfl⟩ : ∃ k, kb = ka + k := ⟨kb - ka, by have := ha.mono hab hb; omega⟩
  have hMk : dueMonth stride n b = dueMonth stride n a + stride * k := by rw [hMa, hMb]; push_cast; ring
  have hrounds : ((dueMonth stride n b - dueMonth stride n a) / stride).toNat = k := by
    rw [hMk, add_sub_cancel_left, Int.mul_ediv_cancel_left _ pos.ne']; rfl
  rw [hrounds] at hcarried
  have hsmaller : ∀ i, chargeDate stride (dueMonth stride n a) (dayOf n) i ≤ monthDate stride n
      (ka + i) := by
    intro i
    rw [chargeDate, monthDate, hMa, show monthOf n + stride * ((ka + i : Nat) : Int) = monthOf n +
      stride * ka + stride * i by
      push_cast; ring]
    exact onMonth_mono (carriedDay_le i)
  have hdue' : due = monthDate stride n (ka + k) := by rw [hdue, hMb, monthDate]
  have hstart : onMonth (dueMonth stride n a) (dayOf n) = chargeDate stride (dueMonth stride n a)
      (dayOf n) 0 := by
    simp [chargeDate, carriedDay]
  obtain ⟨j, hj, rfl⟩ := reaches_chargeDate hd hstart h (by simp)
  have hkj : k ≤ j := by
    by_contra hlt
    have := hb.2 (ka + j) (by omega)
    have := hsmaller j
    have := hj.1
    omega
  refine ⟨by rw [hcarried, hdue']; exact hsmaller k, by rw [hdue']; exact hb.1, ?_⟩
  split_ifs with hbc
  · rw [hcarried] at hbc ⊢
    have hfirst : First (chargeDate stride (dueMonth stride n a) (dayOf n)) b k :=
      ⟨hbc, fun i hi => (hsmaller i).trans_lt (hb.2 (ka + i) (by omega))⟩
    rw [hj.unique hfirst]
  · have hne : j ≠ k := by rintro rfl; exact hbc (hcarried ▸ hj.1)
    have hlt : stride * k < stride * j := Int.mul_lt_mul_of_pos_left (by omega) pos
    rw [hdue, hMk, chargeDate]
    exact onMonth_lt (by omega) (carriedDay_pos hd j)

/-- Two adjacent windows charge what the window over both does, exactly under `WindowSafe`. -/
theorem windows_additive_iff {L L₁ L₂ : List Int} (hab : a ≤ b) (hbc : b ≤ c) (hxa : r.CatchUp n a xa)
    (hxb : r.CatchUp n b xb) (h : r.Charges c xa L) (h₁ : r.Charges b xa L₁) (h₂ : r.Charges c xb L₂) :
    L = L₁ ++ L₂ ↔ r.WindowSafe n a b c := by
  obtain ⟨y, K, hy, hK, rfl⟩ := h.split hbc h₁
  rw [List.append_cancel_left_eq, charges_eq_iff hK h₂]
  have hstay : r.keepsDay = false → y = xb := by
    intro hr
    unfold CatchUp at hxa
    split_ifs at hxa with hna
    · have hxb' := hxb
      rw [CatchUp, if_pos (hna.trans_le hab)] at hxb'
      exact reaches_reanchor hr hy hxb (by have := hxa.le; omega) (.inr hxa.1.1) (hxa.mono hxb' hab)
    · subst hxa
      refine reaches_reanchor hr hy hxb le_rfl (.inl rfl) ?_
      unfold CatchUp at hxb
      split_ifs at hxb with hnb
      · have := hxb.le; omega
      · exact hxb.ge
  cases r with
  | months stride pos =>
    rw [catchUp_months] at hxa hxb
    subst hxa
    obtain ⟨h1, h2, h3⟩ := reaches_months hab rfl hxb hy
    simp only [WindowSafe, ← hxb]
    split_ifs at h3 ⊢ <;> omega
  | days | monthDay | yearDay => simp [WindowSafe, hstay rfl]

end Windows

end Rule

end Subdux
