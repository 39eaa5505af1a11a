import Mathlib.Data.Int.ConditionallyCompleteOrder
import Mathlib.Order.Monotone.Basic
import Mathlib.Tactic.IntervalCases
import Mathlib.Tactic.Ring
/-!
# The proleptic Gregorian calendar

Days are numbered from 1970-01-01 and months from January of year 0, so that a
month index is `12 * year + (month - 1)`. A calendar is then one strictly
increasing function, `monthStart`, and every fact about dates follows from
`monthLen_bounds` and `monthOf_spec`: a month has 28 to 31 days, and each day
lies in exactly one month.

The formulas count years from March, which puts the leap day last.
-/

namespace Gregorian

/-! ## Months -/

/-- The day number of 1 March of year `Y`. -/
def yearStart (Y : Int) : Int := 365 * Y + Y / 4 - Y / 100 + Y / 400 - 719468

/-- Days from 1 March to the first of the `p`-th month after it. -/
def dayInYear (p : Int) : Int := (153 * p + 2) / 5

/-- The day number of the first of month `M`. -/
def monthStart (M : Int) : Int := yearStart ((M - 2) / 12) + dayInYear ((M - 2) % 12)

/-- The number of days of month `M`. -/
def monthLen (M : Int) : Int := monthStart (M + 1) - monthStart M

theorem monthStart_march (Y p : Int) (h0 : 0 ≤ p) (h : p < 12) :
    monthStart (12 * Y + p + 2) = yearStart Y + dayInYear p := by
  have h1 : (12 * Y + p + 2 - 2) / 12 = Y := by omega
  have h2 : (12 * Y + p + 2 - 2) % 12 = p := by omega
  rw [monthStart, h1, h2]

theorem exists_march (M : Int) : ∃ Y p : Int, 0 ≤ p ∧ p < 12 ∧ M = 12 * Y + p + 2 :=
  ⟨(M - 2) / 12, (M - 2) % 12, by omega, by omega, by omega⟩

theorem monthStart_succ (M : Int) : monthStart (M + 1) = monthStart M + monthLen M := by
  unfold monthLen; omega

/-- A month has 28 to 31 days. -/
theorem monthLen_bounds (M : Int) : 28 ≤ monthLen M ∧ monthLen M ≤ 31 := by
  obtain ⟨Y, p, h0, h, rfl⟩ := exists_march M
  rw [monthLen, monthStart_march Y p h0 h]
  rcases (show p < 11 ∨ p = 11 by omega) with hp | rfl
  · rw [show 12 * Y + p + 2 + 1 = 12 * Y + (p + 1) + 2 by ring,
      monthStart_march Y (p + 1) (by omega) (by omega)]
    unfold dayInYear; omega
  · -- February: its length is what the year leaves.
    rw [show 12 * Y + 11 + 2 + 1 = 12 * (Y + 1) + 0 + 2 by ring,
      monthStart_march (Y + 1) 0 (by omega) (by omega)]
    unfold dayInYear yearStart; omega

/-- The usual leap-year rule. -/
def isLeap (y : Int) : Bool := y % 4 = 0 ∧ (y % 100 ≠ 0 ∨ y % 400 = 0)

/-- The lengths `monthLen` gives are the usual ones. -/
theorem monthLen_eq (y m : Int) (h1 : 1 ≤ m) (h2 : m ≤ 12) :
    monthLen (12 * y + (m - 1)) =
      if m = 2 then (if isLeap y then 29 else 28) else if m = 4 ∨ m = 6 ∨ m = 9 ∨ m = 11 then 30
        else 31 := by
  rcases (show m ≤ 2 ∨ 2 < m by omega) with hm | hm
  · -- January and February close the March year `y - 1`.
    rcases (show m = 1 ∨ m = 2 by omega) with rfl | rfl
    · rw [monthLen, show 12 * y + (1 - 1) + 1 = 12 * (y - 1) + 11 + 2 by ring,
        show 12 * y + (1 - 1) = 12 * (y - 1) + 10 + 2 by ring,
            monthStart_march _ 11 (by omega) (by omega),
        monthStart_march _ 10 (by omega) (by omega)]
      simp [dayInYear]
    · rw [monthLen, show 12 * y + (2 - 1) + 1 = 12 * y + 0 + 2 by ring,
        show 12 * y + (2 - 1) = 12 * (y - 1) + 11 + 2 by ring,
            monthStart_march _ 0 (by omega) (by omega),
        monthStart_march _ 11 (by omega) (by omega)]
      simp only [isLeap, dayInYear, yearStart, if_true, decide_eq_true_eq]
      split <;> omega
  · rw [monthLen, show 12 * y + (m - 1) + 1 = 12 * y + (m - 2) + 2 by ring,
      show 12 * y + (m - 1) = 12 * y + (m - 3) + 2 by ring, monthStart_march _ _ (by omega) (by omega),
      monthStart_march _ _ (by omega) (by omega)]
    unfold dayInYear
    interval_cases m <;> simp

theorem monthStart_strictMono : StrictMono monthStart :=
  strictMono_int_of_lt_succ fun M => by
    have := monthLen_bounds M
    rw [monthStart_succ]; omega

theorem monthStart_le {M N : Int} (h : M < N) : monthStart M + monthLen M ≤ monthStart N := by
  rw [← monthStart_succ]
  exact monthStart_strictMono.monotone h

/-! ## The month of a day -/

/-- The year, counted from March, that day `n` lies in. -/
def marchYear (n : Int) : Int :=
  let z := n + 719468
  let doe := z % 146097
  let c := min (doe / 36524) 3
  let doc := doe - 36524 * c
  let q := doc / 1461
  400 * (z / 146097) + 100 * c + 4 * q + min ((doc - 1461 * q) / 365) 3

/-- The month index of day `n`. -/
def monthOf (n : Int) : Int := 12 * marchYear n + (5 * (n - yearStart (marchYear n)) + 2) / 153 + 2

/-- The day of the month of day `n`, from 1. -/
def dayOf (n : Int) : Int := n - monthStart (monthOf n) + 1

theorem marchYear_spec (n : Int) : yearStart (marchYear n) ≤ n ∧ n < yearStart (marchYear n + 1) := by
  -- `n` in 400-, 100-, 4- and 1-year cycles, each but the last of its kind of full length.
  obtain ⟨e, c, q, y, doy, hc, hq, hy, hd, hn, hY⟩ : ∃ e c q y doy : Int,
      (0 ≤ c ∧ c ≤ 3) ∧ (0 ≤ q ∧ q ≤ 24) ∧ (0 ≤ y ∧ y ≤ 3) ∧
      (0 ≤ doy ∧ (doy < 365 ∨ (doy = 365 ∧ y = 3 ∧ (q ≠ 24 ∨ c = 3)))) ∧
      n = 146097 * e + 36524 * c + 1461 * q + 365 * y + doy - 719468 ∧
      marchYear n = 400 * e + 100 * c + 4 * q + y := by
    unfold marchYear
    simp only
    generalize hz : n + 719468 = z
    generalize he : z / 146097 = e
    generalize hdoe : z % 146097 = doe
    generalize hc : min (doe / 36524) 3 = c
    generalize hdoc : doe - 36524 * c = doc
    generalize hq : doc / 1461 = q
    generalize hdoq : doc - 1461 * q = doq
    generalize hy : min (doq / 365) 3 = y
    have hdoe' : 0 ≤ doe ∧ doe < 146097 := by omega
    have hdoc' : 0 ≤ c ∧ c ≤ 3 ∧ 0 ≤ doc ∧ (doc < 36524 ∨ (c = 3 ∧ doc = 36524)) := by omega
    have hdoq' : 0 ≤ q ∧ q ≤ 24 ∧ 0 ≤ doq ∧ doq < 1461 ∧ (doq = 1460 → q ≠ 24 ∨ c = 3) := by omega
    exact ⟨e, c, q, y, doq - 365 * y, by omega, by omega, by omega, by omega, by omega, rfl⟩
  have h1 : (400 * e + 100 * c + 4 * q + y) / 4 = 100 * e + 25 * c + q := by omega
  have h2 : (400 * e + 100 * c + 4 * q + y) / 100 = 4 * e + c := by omega
  have h3 : (400 * e + 100 * c + 4 * q + y) / 400 = e := by omega
  rw [hY, yearStart, yearStart, h1, h2, h3]
  constructor <;> omega

/-- Day `n` lies in month `monthOf n`. -/
theorem monthOf_spec (n : Int) : monthStart (monthOf n) ≤ n ∧ n < monthStart (monthOf n + 1) := by
  obtain ⟨h1, h2⟩ := marchYear_spec n
  have hlen : yearStart (marchYear n + 1) ≤ yearStart (marchYear n) + 366 := by unfold yearStart; omega
  generalize hY : marchYear n = Y at h1 h2 hlen
  generalize hp : (5 * (n - yearStart Y) + 2) / 153 = p
  have hM : monthOf n = 12 * Y + p + 2 := by rw [monthOf, hY, hp]
  rw [hM, monthStart_march Y p (by omega) (by omega)]
  refine ⟨by unfold dayInYear; omega, ?_⟩
  rcases (show p < 11 ∨ p = 11 by omega) with h | rfl
  · rw [show 12 * Y + p + 2 + 1 = 12 * Y + (p + 1) + 2 by ring,
      monthStart_march Y (p + 1) (by omega) (by omega)]
    unfold dayInYear; omega
  · rw [show 12 * Y + 11 + 2 + 1 = 12 * (Y + 1) + 0 + 2 by ring,
      monthStart_march (Y + 1) 0 (by omega) (by omega)]
    unfold dayInYear; omega

/-- No other month contains day `n`. -/
theorem monthOf_eq {n M : Int} (h1 : monthStart M ≤ n) (h2 : n < monthStart (M + 1)) :
    monthOf n = M := by
  obtain ⟨h3, h4⟩ := monthOf_spec n
  have hle := monthStart_strictMono.lt_iff_lt.1 (h1.trans_lt h4)
  have hge := monthStart_strictMono.lt_iff_lt.1 (h3.trans_lt h2)
  omega

theorem dayOf_bounds (n : Int) : 1 ≤ dayOf n ∧ dayOf n ≤ monthLen (monthOf n) := by
  have := monthOf_spec n
  rw [monthStart_succ] at this
  unfold dayOf; omega

/-! ## A day of a month, clamped to its length -/

/-- Day `d` of month `M`, or the last day of `M` when `M` is shorter. -/
def onMonth (M d : Int) : Int := monthStart M + min d (monthLen M) - 1

@[simp] theorem onMonth_dayOf (n : Int) : onMonth (monthOf n) (dayOf n) = n := by
  have := dayOf_bounds n
  rw [onMonth, min_eq_left this.2, dayOf]; omega

theorem onMonth_le {M d : Int} : onMonth M d < monthStart M + monthLen M := by
  unfold onMonth; omega

theorem monthOf_onMonth {M d : Int} (hd : 1 ≤ d) : monthOf (onMonth M d) = M := by
  have := monthLen_bounds M
  apply monthOf_eq
  · unfold onMonth; omega
  · rw [monthStart_succ]; exact onMonth_le

theorem dayOf_onMonth {M d : Int} (hd : 1 ≤ d) : dayOf (onMonth M d) = min d (monthLen M) := by
  rw [dayOf, monthOf_onMonth hd, onMonth]; omega

/-- Whatever the days of the month, a later month gives a later date. -/
theorem onMonth_lt {M N d e : Int} (h : M < N) (he : 1 ≤ e) : onMonth M d < onMonth N e := by
  have h1 := monthStart_le h
  have h2 := monthLen_bounds N
  have h3 := @onMonth_le M d
  rw [onMonth.eq_1 N]; omega

theorem onMonth_mono {M d e : Int} (h : d ≤ e) : onMonth M d ≤ onMonth M e := by
  unfold onMonth; omega

theorem onMonth_inj {M d e : Int} :
    onMonth M d = onMonth M e ↔ min d (monthLen M) = min e (monthLen M) := by
  unfold onMonth; omega

/-- A date in a later month is later. -/
theorem lt_onMonth {n M d : Int} (h : monthOf n < M) (hd : 1 ≤ d) : n < onMonth M d := by
  have hlater := onMonth_lt (d := dayOf n) h hd
  rwa [onMonth_dayOf] at hlater

/-- A later day lies in a month no earlier. -/
theorem monthOf_mono {m n : Int} (h : m ≤ n) : monthOf m ≤ monthOf n := by
  by_contra hlt
  have hlater := lt_onMonth (d := dayOf m) (not_le.1 hlt) (dayOf_bounds m).1
  rw [onMonth_dayOf] at hlater
  omega

end Gregorian
