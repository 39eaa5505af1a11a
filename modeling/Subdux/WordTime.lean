import Mathlib.RingTheory.Coprime.Lemmas
import Mathlib.Tactic.NormNum
import Subdux.Billing
import Subdux.Lib.Words
/-!
# Rolling billing dates forward on 64-bit words

`internal/service/subscription_rollover.go` once more, now with the words of Go:
an `int` has 64 bits, and a time in UTC is its count of seconds since 0001-01-01,
which `time.Date` computes modulo `2 ^ 64`. The loops take fuel here, and `none`
is a loop that has not ended.

`advances_days_iff` says which intervals of days and weeks the loop walks upwards,
`advances_of_fits` that every schedule that fits does, and
`nextIntervalOccurrence_eq` that up to the end of Go's times the loops return what
they do over unbounded integers.
-/

namespace Subdux.WordTime
open Gregorian Words

/-! ## `time.Time` in UTC -/

def secondsPerDay : Int := 86400

/-- The days from 0001-01-01 to 1970-01-01. -/
def unixDays : Int := 719162

/-- The day number of the date that the time shows. -/
def dayNumber (sec : Int) : Int := sec / secondsPerDay - unixDays

def year (sec : Int) : Int := monthOf (dayNumber sec) / 12
def month (sec : Int) : Int := monthOf (dayNumber sec) % 12 + 1
def day (sec : Int) : Int := dayOf (dayNumber sec)

/-- The seconds since midnight. -/
def clock (sec : Int) : Int := sec % secondsPerDay

/-- `time.Date(year, month, day, 0, 0, clock, 0, time.UTC)`: months out of range
carry over into the year, and the rest is a count of seconds modulo `2 ^ 64`. -/
def date (year month day clock : Int) : Int :=
  let year := wrap (year + (month - 1) / 12)
  wrap ((monthStart (12 * year + (month - 1) % 12) + (day - 1) + unixDays) * secondsPerDay + clock)

/-- `t.AddDate(0, 0, days)`. -/
def addDays (sec days : Int) : Int := date (year sec) (month sec) (wrap (day sec + days)) (clock sec)

/-- `normalizeDateUTC` of any time, and of one in UTC. -/
def ofTime (t : Time) : Int := date t.year t.month t.dayOfMonth 0

def normalizeDateUTC (sec : Int) : Int := date (year sec) (month sec) (day sec) 0

/-! ## The loops -/

def daysInMonth (year month : Int) : Int := day (date year (month + 1) 0 0)

def clampDay (year month day : Int) : Int :=
  if day < 1 then 1
  else
    let maxDay := daysInMonth year month
    if day > maxDay then maxDay else day

def buildDate (year month preferredDay : Int) : Int :=
  date year month (clampDay year month preferredDay) 0

def addMonthsPreservePreferredDay (base months preferredDay : Int) : Int :=
  let base := normalizeDateUTC base
  let targetMonthIndex := wrap (month base - 1 + months)
  let targetYear := wrap (year base + targetMonthIndex.tdiv 12)
  let targetMonth := targetMonthIndex.tmod 12
  if targetMonth < 0 then buildDate (wrap (targetYear - 1)) (targetMonth + 12 + 1) preferredDay
  else buildDate targetYear (targetMonth + 1) preferredDay

def addYearsPreservePreferredDate (base years preferredMonth preferredDay : Int) : Int :=
  let base := normalizeDateUTC base
  buildDate (wrap (year base + years)) preferredMonth preferredDay

/-- One round of the loop of each unit. -/
def intervalStep (anchor intervalCount : Int) (intervalUnit : String) (current : Int) : Int :=
  if intervalUnit = intervalUnitDay then addDays current intervalCount
  else if intervalUnit = intervalUnitWeek then addDays current (wrap (intervalCount * 7))
  else if intervalUnit = intervalUnitMonth then addMonthsPreservePreferredDay current intervalCount
    (day anchor)
  else if intervalUnit = intervalUnitYear then
    addYearsPreservePreferredDate current intervalCount (month anchor) (day anchor)
  else current

/-- `for current.Before(bound) { current = step(current) }`. -/
def walk (step : Int → Int) (bound : Int) : Nat → Int → Option Int
  | 0, _ => none
  | fuel + 1, current => if current < bound then walk step bound fuel (step current) else some current

def nextIntervalOccurrence (fuel : Nat) (anchor fromDate intervalCount : Int)
    (intervalUnit : String) : Option Int :=
  let anchor := normalizeDateUTC anchor
  let bound := normalizeDateUTC fromDate
  if ¬ anchor < bound then some anchor
  else if isValidIntervalUnit intervalUnit then
    walk (intervalStep anchor intervalCount intervalUnit) bound fuel anchor
  else some anchor

def nextMonthlyDayOccurrence (fromDate preferredDay : Int) : Int :=
  let bound := normalizeDateUTC fromDate
  let candidate := buildDate (year bound) (month bound) preferredDay
  if candidate < bound then addMonthsPreservePreferredDay candidate 1 preferredDay else candidate

def nextYearlyDateOccurrence (fromDate preferredMonth preferredDay : Int) : Int :=
  let bound := normalizeDateUTC fromDate
  let candidate := buildDate (year bound) preferredMonth preferredDay
  if candidate < bound then buildDate (wrap (year bound + 1)) preferredMonth preferredDay else candidate

/-- The `switch` of `nextRecurringBillingDateOnOrAfter`; the inner `none` is a failed check. -/
def checkedOccurrence (fuel : Nat) (sub : Subscription) (current today : Int) : Option (Option Int) :=
  if sub.recurrenceType = recurrenceTypeInterval then
    match sub.intervalCount with
    | none => some none
    | some count =>
      if count < 1 ∨ ¬ isValidIntervalUnit sub.intervalUnit then some none
      else (nextIntervalOccurrence fuel current today count sub.intervalUnit).map some
  else if sub.recurrenceType = recurrenceTypeMonthlyDate then
    match sub.monthlyDay with
    | none => some none
    | some preferredDay =>
      some (if preferredDay < 1 ∨ preferredDay > 31 then none
        else some (nextMonthlyDayOccurrence today preferredDay))
  else if sub.recurrenceType = recurrenceTypeYearlyDate then
    match sub.yearlyMonth, sub.yearlyDay with
    | some preferredMonth, some preferredDay =>
      some (if preferredMonth < 1 ∨ preferredMonth > 12 ∨ preferredDay < 1 ∨ preferredDay > 31 then none
        else some (nextYearlyDateOccurrence today preferredMonth preferredDay))
    | _, _ => some none
  else some none

def nextRecurringBillingDateOnOrAfter (fuel : Nat) (sub : Subscription) (referenceDate : Time) :
    Option (Option Int) :=
  if sub.billingType ≠ billingTypeRecurring then some none
  else
    match sub.nextBillingDate with
    | none => some none
    | some nextBillingDate =>
      let today := ofTime referenceDate
      let current := ofTime nextBillingDate
      if ¬ current < today then some none
      else (checkedOccurrence fuel sub current today).map fun next =>
        (next.map normalizeDateUTC).filter (current < ·)

/-! ## Dates that do not wrap -/

/-- Midnight of day `n`, before it is wrapped. -/
def seconds (n : Int) : Int := (n + unixDays) * secondsPerDay

section Dates
variable {sec y m d n M c : Int}

/-- The months that a word can show. -/
theorem monthOf_bounds (h : InRange sec) :
    -2 ^ 48 < monthOf (dayNumber sec) ∧ monthOf (dayNumber sec) < 2 ^ 48 := by
  obtain ⟨h1, h2⟩ := monthOf_spec (dayNumber sec)
  unfold InRange at h
  unfold monthStart yearStart dayInYear at h1 h2
  generalize hn : dayNumber sec = n at *
  unfold dayNumber secondsPerDay unixDays at hn
  omega

theorem dayNumber_seconds (n : Int) : dayNumber (seconds n) = n := by
  unfold dayNumber seconds secondsPerDay
  omega

theorem seconds_dayNumber (sec : Int) : seconds (dayNumber sec) + clock sec = sec := by
  unfold seconds dayNumber clock secondsPerDay
  omega

/-- `time.Date`, with the year and month as a count of months. -/
theorem date_eq (hM : 12 * y + (m - 1) = M) (hy : InRange (M / 12)) (d c : Int) :
    date y m d c = wrap (seconds (monthStart M + (d - 1)) + c) := by
  have hyear : y + (m - 1) / 12 = M / 12 := by omega
  have hmonth : (m - 1) % 12 = M % 12 := by omega
  rw [date, hyear, wrap_of_inRange hy, hmonth, Int.mul_ediv_add_emod]
  rfl

theorem inRange_year (h1 : -2 ^ 60 ≤ M) (h2 : M ≤ 2 ^ 60) : InRange (M / 12) := by
  unfold InRange
  omega

theorem date_of (h : InRange sec) (d c : Int) :
    date (year sec) (month sec) d c = wrap
    (seconds (monthStart (monthOf (dayNumber sec)) + (d - 1)) + c) := by
  have := monthOf_bounds h
  refine date_eq ?_ (inRange_year (by omega) (by omega)) d c
  unfold year month
  omega

/-- Adding days adds their seconds, modulo `2 ^ 64`. -/
theorem addDays_eq (h : InRange sec) (days : Int) :
    addDays sec days = wrap (sec + days * secondsPerDay) := by
  have hsec := seconds_dayNumber sec
  rw [addDays, date_of h]
  unfold seconds at hsec ⊢
  rw [show monthStart (monthOf (dayNumber sec)) + (wrap (day sec + days) - 1) + unixDays =
    (monthStart (monthOf (dayNumber sec)) - 1 + unixDays) + wrap (day sec + days) by ring, wrap_linear]
  congr 1
  simp only [day, dayOf]
  linarith

theorem normalizeDateUTC_seconds (h : InRange (seconds n)) :
    normalizeDateUTC (seconds n) = seconds n := by
  rw [normalizeDateUTC, date_of h, day, dayNumber_seconds, dayOf]
  rw [show monthStart (monthOf n) + (n - monthStart (monthOf n) + 1 - 1) = n by ring, add_zero,
    wrap_of_inRange h]

/-- The month `M` lies within Go's times, and so does the start of the next one. -/
def MonthFits (M : Int) : Prop :=
  InRange (seconds (monthStart M)) ∧ InRange (seconds (monthStart (M + 1)))

theorem MonthFits.bounds (h : MonthFits M) : -2 ^ 48 < M ∧ M < 2 ^ 48 := by
  have := monthOf_bounds h.1
  rwa [dayNumber_seconds,
    monthOf_eq le_rfl (by have := monthStart_succ M; have := monthLen_bounds M; omega)] at this

/-- The days of a month that fits are within Go's times. -/
theorem MonthFits.inRange (h : MonthFits M) (h1 : monthStart M ≤ n) (h2 : n ≤ monthStart (M + 1)) :
    InRange (seconds n) := by
  have hlo : seconds (monthStart M) ≤ seconds n := by unfold seconds secondsPerDay; omega
  have hhi : seconds n ≤ seconds (monthStart (M + 1)) := by unfold seconds secondsPerDay; omega
  exact ⟨h.1.1.trans hlo, hhi.trans_lt h.2.2⟩

theorem daysInMonth_eq (hM : 12 * y + (m - 1) = M) (h : MonthFits M) : daysInMonth y m = monthLen M := by
  have hb := h.bounds
  have hsucc := monthStart_succ M
  have hlen := monthLen_bounds M
  have hlast : InRange (seconds (monthStart (M + 1) + (0 - 1))) := h.inRange (by omega) (by omega)
  rw [daysInMonth, date_eq (M := M + 1) (by omega) (inRange_year (by omega) (by omega)), add_zero,
    wrap_of_inRange hlast, day,
    dayNumber_seconds, dayOf, monthOf_eq (M := M) (by omega) (by omega)]
  omega

theorem buildDate_eq (hM : 12 * y + (m - 1) = M) (h : MonthFits M) (hd : 1 ≤ d) :
    buildDate y m d = seconds (onMonth M d) := by
  have hb := h.bounds
  have hsucc := monthStart_succ M
  have hlen := monthLen_bounds M
  have hclamp : clampDay y m d = min d (monthLen M) := by
    simp only [clampDay, daysInMonth_eq hM h, if_neg (not_lt.2 hd)]
    omega
  rw [buildDate, hclamp, date_eq hM (inRange_year (by omega) (by omega)), add_zero,
    wrap_of_inRange (h.inRange (by omega) (by omega)), onMonth, add_sub_assoc]

theorem addMonthsPreservePreferredDay_eq {months : Int} (hn : InRange (seconds n)) (hm : 0 ≤ months)
    (h : MonthFits (monthOf n + months)) (hd : 1 ≤ d) :
    addMonthsPreservePreferredDay (seconds n) months d = seconds (onMonth (monthOf n + months) d) := by
  have hb := h.bounds
  have hnb := monthOf_bounds hn
  rw [dayNumber_seconds] at hnb
  have hindex : month (seconds n) - 1 + months = monthOf n % 12 + months := by
    simp [month, dayNumber_seconds]
  have h0 : 0 ≤ monthOf n % 12 + months := by omega
  have hword : InRange (monthOf n % 12 + months) := by unfold InRange; omega
  have hyear : InRange (monthOf n / 12 + (monthOf n % 12 + months) / 12) := by unfold InRange; omega
  have hmod : ¬ (monthOf n % 12 + months) % 12 < 0 := by omega
  simp only [addMonthsPreservePreferredDay, normalizeDateUTC_seconds hn, hindex, wrap_of_inRange hword,
    Int.tdiv_eq_ediv_of_nonneg h0, Int.tmod_eq_emod_of_nonneg h0, hmod, if_false, year,
      dayNumber_seconds,
    wrap_of_inRange hyear]
  exact buildDate_eq (by omega) h hd

theorem addYearsPreservePreferredDate_eq {years : Int} (hn : InRange (seconds n))
    (h : MonthFits (monthOf n + 12 * years)) (hd : 1 ≤ d) (hm : m = monthOf n % 12 + 1) :
    addYearsPreservePreferredDate (seconds n) years m d = seconds
    (onMonth (monthOf n + 12 * years) d) := by
  have hb := h.bounds
  have hnb := monthOf_bounds hn
  rw [dayNumber_seconds] at hnb
  have hyear : InRange (monthOf n / 12 + years) := by unfold InRange; omega
  simp only [addYearsPreservePreferredDate, normalizeDateUTC_seconds hn, year, dayNumber_seconds,
    wrap_of_inRange hyear]
  exact buildDate_eq (by omega) h hd

end Dates

/-! ## Loops that move up -/

/-- The length of a unit of months, in months. -/
def monthsPerUnit (unit : String) : Int := if unit = intervalUnitYear then 12 else 1

/-- The seconds of a round of days or weeks, as a word of 64 bits without sign. -/
def daySeconds (count : Int) (unit : String) : Int :=
  (if unit = intervalUnitWeek then count * 7 else count) * secondsPerDay % 2 ^ 64

/-- The schedule reaches `bound` within Go's times. For days and weeks the round's
seconds count modulo `2 ^ 64`; for months and years the month due at `bound` ends
before Go's times do. -/
def Fits (anchor bound count : Int) (unit : String) : Prop :=
  bound ≤ anchor ∨
    if unit = intervalUnitDay ∨ unit = intervalUnitWeek then
      0 < daySeconds count unit ∧
        anchor + daySeconds count unit * rounds (daySeconds count unit) anchor bound < 2 ^ 63
    else
      clock anchor = 0 ∧ clock bound = 0 ∧
        seconds (monthStart
          (Rule.dueMonth (count * monthsPerUnit unit) (dayNumber anchor) (dayNumber bound) + 1)) < 2 ^ 63

section Fits
variable {anchor bound count : Int} {unit : String}

/-- The days of a round of days or weeks. -/
def dayStride (count : Int) (unit : String) : Int := if unit = intervalUnitWeek then count * 7 else count

theorem intervalStep_days (hunit : unit = intervalUnitDay ∨ unit = intervalUnitWeek) {x : Int}
    (hx : InRange x) :
    intervalStep anchor count unit x = wrap (x + dayStride count unit * secondsPerDay) := by
  rcases hunit with rfl | rfl
  · rw [intervalStep, if_pos rfl, addDays_eq hx, dayStride, if_neg (by decide)]
  · rw [intervalStep, if_neg (by decide), if_pos rfl, addDays_eq hx, dayStride, if_pos rfl]
    exact wrap_congr (((wrap_modEq _).mul_right _).add_left _)

/-- Days and weeks. -/
theorem advances_days_iff (ha : InRange anchor) (hb : InRange bound) (hab : anchor < bound)
    (hunit : unit = intervalUnitDay ∨ unit = intervalUnitWeek) :
    Advances (intervalStep anchor count unit) anchor bound ↔ Fits anchor bound count unit := by
  rw [Fits, if_pos hunit, or_iff_right (not_le.2 hab)]
  exact advances_wrap_iff ha hb hab fun x hx => intervalStep_days hunit hx

end Fits

/-! ## The loops up to the end of Go's times -/

section Walk
variable {step : Int → Int} {a b x : Int}

/-- A loop that reaches the bound ends. -/
theorem walk_ends {n : Nat} (h : b ≤ step^[n] a) : ∃ fuel x, walk step b fuel a = some x := by
  induction n generalizing a with
  | zero => exact ⟨1, a, by simpa [walk] using h⟩
  | succ n ih =>
    obtain ⟨fuel, x, hx⟩ := ih h
    by_cases hab : a < b
    · exact ⟨fuel + 1, x, by rwa [walk, if_pos hab]⟩
    · exact ⟨1, a, by rw [walk, if_neg hab]⟩

/-- What a loop returns has reached the bound. -/
theorem walk_le {fuel : Nat} (h : walk step b fuel a = some x) : b ≤ x := by
  induction fuel generalizing a with
  | zero => cases h
  | succ fuel ih =>
    rw [walk] at h
    split_ifs at h with hab
    · exact ih h
    · cases h
      exact not_lt.1 hab

/-- A loop whose rounds follow a sequence ends at its first element that reaches the bound. -/
theorem walk_of_sequence {f : Nat → Int} {k : Nat} (hstep : ∀ n < k, step (f n) = f (n + 1))
    (hk : Loop.First f b k) :
    walk step b (k + 1) (f 0) = some (f k) := by
  induction k generalizing f with
  | zero => rw [walk, if_neg (not_lt.2 hk.1)]
  | succ k ih =>
    rw [walk, if_pos (hk.2 0 (by omega)), hstep 0 (by omega)]
    exact ih (f := fun n => f (n + 1)) (fun n hn => hstep (n + 1) (by omega))
      ⟨hk.1, fun j hj => hk.2 (j + 1) (by omega)⟩

/-- A loop whose orbit stays below the bound does not end. -/
theorem walk_none (h : ∀ n, step^[n] a < b) (fuel : Nat) : walk step b fuel a = none := by
  induction fuel generalizing a with
  | zero => rfl
  | succ fuel ih =>
    have hab : a < b := h 0
    rw [walk, if_pos hab]
    exact ih fun n => h (n + 1)

end Walk

section Days
variable {anchor a b count : Int} {unit : String}

/-- Half of the words divides the seconds of a round exactly when `2 ^ 56` divides the count. -/
theorem dvd_daySeconds (count : Int) (unit : String) :
    2 ^ 63 ∣ dayStride count unit * secondsPerDay ↔ 2 ^ 56 ∣ count := by
  have hodd : ∀ m : Int, IsCoprime 2 m → (2 ^ 63 ∣ count * m * 2 ^ 7 ↔ 2 ^ 56 ∣ count) := fun m hm => by
    rw [show (2 : Int) ^ 63 = 2 ^ 56 * 2 ^ 7 by norm_num, mul_dvd_mul_iff_right (by decide)]
    exact ⟨fun h => hm.pow_left.dvd_of_dvd_mul_right h, fun h => h.mul_right m⟩
  unfold dayStride
  split_ifs
  · rw [show count * 7 * secondsPerDay = count * 4725 * 2 ^ 7 by unfold secondsPerDay; ring]
    exact hodd 4725 ⟨-2362, 1, by norm_num⟩
  · rw [show count * secondsPerDay = count * 675 * 2 ^ 7 by unfold secondsPerDay; ring]
    exact hodd 675 ⟨-337, 1, by norm_num⟩

/-- Days and weeks that end: what the walk passes in the last quarter of the range. -/
theorem walk_days_ends (anchor : Int) (hunit : unit = intervalUnitDay ∨ unit = intervalUnitWeek)
    (hcount : ¬ 2 ^ 56 ∣ count) (ha : InRange a) (hb : b ≤ 2 ^ 62) :
    ∃ fuel x, walk (intervalStep anchor count unit) b fuel a = some x := by
  obtain ⟨n, hn⟩ := wrap_reaches (mt (dvd_daySeconds count unit).1 hcount) a
  refine walk_ends (n := n) (hb.trans ?_)
  rwa [iterate_wrap (fun x hx => intervalStep_days hunit hx) ha]

/-- Days and weeks that do not. -/
theorem walk_days_stuck (anchor : Int) (hunit : unit = intervalUnitDay ∨ unit = intervalUnitWeek)
    (hcount : 2 ^ 56 ∣ count) (h0 : 0 ≤ a) (ha : InRange a) (hab : a < b) (fuel : Nat) :
    walk (intervalStep anchor count unit) b fuel a = none := by
  refine walk_none (fun n => ?_) fuel
  rw [iterate_wrap (fun x hx => intervalStep_days hunit hx) ha]
  exact (wrap_stuck ((dvd_daySeconds count unit).2 hcount) h0 ha.2 n).trans_lt hab

end Days

section Months
variable {a b stride count : Int} {unit : String}

theorem seconds_strictMono : StrictMono seconds := fun m n h => by
  simp only [seconds, secondsPerDay]
  omega

/-- The months from the anchor's on, up to one that ends in time. -/
theorem monthFits_of_le {N M : Int} (ha : InRange (seconds a)) (haN : monthOf a < N) (hN : N ≤ M)
    (hM : seconds (monthStart (M + 1)) < 2 ^ 63) : MonthFits N := by
  have hafter := monthStart_le haN
  have hday := (monthOf_spec a).2
  have hsucc := monthStart_succ (monthOf a)
  have hNM := monthStart_strictMono.monotone (show N + 1 ≤ M + 1 by omega)
  have hNN := monthStart_strictMono (show N < N + 1 by omega)
  have h1 := seconds_strictMono.monotone (show a ≤ monthStart N by omega)
  have h2 := seconds_strictMono hNN
  have h3 := seconds_strictMono.monotone hNM
  unfold MonthFits InRange at *
  omega

/-- The rounds of months and years follow the dates of the schedule. -/
theorem intervalStep_months (hunit : unit = intervalUnitMonth ∨ unit = intervalUnitYear)
    (hcount : 0 < count) (ha : InRange (seconds a)) {k K : Nat} (hk : k < K)
    (hfits : seconds (monthStart (monthOf a + count * monthsPerUnit unit * K + 1)) < 2 ^ 63) :
    intervalStep (seconds a) count unit (seconds (monthDate (count * monthsPerUnit unit) a k)) =
      seconds (monthDate (count * monthsPerUnit unit) a (k + 1)) := by
  have hpos : 0 < count * monthsPerUnit unit :=
    Int.mul_pos hcount (by unfold monthsPerUnit; split <;> omega)
  generalize hstride : count * monthsPerUnit unit = stride at *
  have hd := (dayOf_bounds a).1
  have hmonth : monthOf (monthDate stride a k) + stride = monthOf a + stride * (k + 1 : Nat) := by
    rw [Rule.monthOf_monthDate]
    push_cast
    ring
  have hle : ∀ j ≤ K, monthOf a + stride * j ≤ monthOf a + stride * K := fun j hj => by
    have : stride * (j : Int) ≤ stride * K := Int.mul_le_mul_of_nonneg_left (by omega) hpos.le
    omega
  have hgt : ∀ j : Nat, 0 < j → monthOf a < monthOf a + stride * j := fun j hj => by
    have := Int.mul_pos hpos (show (0 : Int) < j by omega)
    omega
  have hnext : MonthFits (monthOf a + stride * (k + 1 : Nat)) :=
    monthFits_of_le ha (hgt _ (by omega)) (hle (k + 1) hk) hfits
  have hcur : InRange (seconds (monthDate stride a k)) := by
    rcases Nat.eq_zero_or_pos k with rfl | hk0
    · simpa using ha
    have hfit := monthFits_of_le ha (hgt k hk0) (hle k hk.le) hfits
    have hstart := monthOf_spec (monthDate stride a k)
    rw [Rule.monthOf_monthDate] at hstart
    exact hfit.inRange hstart.1 hstart.2.le
  rw [← hmonth] at hnext
  rw [show monthDate stride a (k + 1) = onMonth (monthOf (monthDate stride a k) + stride)
    (dayOf a) by rw [hmonth, monthDate]]
  rcases hunit with rfl | rfl
  · obtain rfl : stride = count := by rw [← hstride, monthsPerUnit, if_neg (by decide), mul_one]
    rw [intervalStep, if_neg (by decide), if_neg (by decide), if_pos rfl, day, dayNumber_seconds]
    exact addMonthsPreservePreferredDay_eq hcur hcount.le hnext hd
  · obtain rfl : stride = 12 * count := by rw [← hstride, monthsPerUnit, if_pos rfl, mul_comm]
    rw [intervalStep, if_neg (by decide), if_neg (by decide), if_neg (by decide), if_pos rfl, day,
      month, dayNumber_seconds]
    refine addYearsPreservePreferredDate_eq hcur hnext hd ?_
    rw [Rule.monthOf_monthDate, mul_assoc]
    omega

end Months

/-- A schedule that fits walks upwards. -/
theorem advances_of_fits {anchor bound count : Int} {unit : String} (ha : InRange anchor)
    (hb : InRange bound) (hcount : 0 < count) (hunit : isValidIntervalUnit unit = true)
    (h : Fits anchor bound count unit) :
    Advances (intervalStep anchor count unit) anchor bound := by
  by_cases hab : anchor < bound
  case neg =>
    intro n hn
    exact absurd (hn 0 (by omega)) hab
  by_cases hdays : unit = intervalUnitDay ∨ unit = intervalUnitWeek
  · exact (advances_days_iff ha hb hab hdays).2 h
  have hmonths : unit = intervalUnitMonth ∨ unit = intervalUnitYear := by
    simp only [isValidIntervalUnit, decide_eq_true_eq] at hunit
    tauto
  rw [Fits, if_neg hdays, or_iff_right (not_le.2 hab)] at h
  obtain ⟨hca, hcb, hlast⟩ := h
  have hpos : 0 < count * monthsPerUnit unit :=
    Int.mul_pos hcount (by unfold monthsPerUnit; split <;> omega)
  obtain ⟨K, hK, hdue⟩ := Rule.dueMonth_first hpos (dayNumber anchor) (dayNumber bound)
  rw [hdue] at hlast
  have ha0 : seconds (dayNumber anchor) = anchor := by have := seconds_dayNumber anchor; omega
  have hb0 : seconds (dayNumber bound) = bound := by have := seconds_dayNumber bound; omega
  refine advances_of_sequence
    (f := fun k => seconds (monthDate (count * monthsPerUnit unit) (dayNumber anchor) k)) (k := K)
    (fun j k hjk => seconds_strictMono (Rule.monthDate_strictMono hpos hjk)) (by simpa using ha0)
      (fun k hk => ?_) ?_
  · have := intervalStep_months hmonths hcount (a := dayNumber anchor) (by rwa [ha0]) hk hlast
    rwa [ha0] at this
  · rw [← hb0]
    exact seconds_strictMono.monotone hK.1

theorem first_seconds {f : Nat → Int} {b : Int} {k : Nat} (h : Loop.First f b k) :
    Loop.First (fun n => seconds (f n)) (seconds b) k :=
  ⟨seconds_strictMono.monotone h.1, fun j hj => seconds_strictMono (h.2 j hj)⟩

/-- A loop that adds days and stays within Go's times. -/
theorem walk_days {step : Int → Int} {d a b x : Int} (hd : 0 < d)
    (hstep : ∀ y, InRange y → step y = wrap (y + d * secondsPerDay)) (ha : InRange (seconds a))
    (hx : (Rule.days d hd).IsNext a b x) (hlast : seconds x < 2 ^ 63) :
    ∃ fuel, walk step (seconds b) fuel (seconds a) = some (seconds x) := by
  obtain ⟨k, hk, rfl⟩ := Rule.isNext_days.1 hx
  have hmono := Rule.dayDate_strictMono (a := a) hd
  have hrange : ∀ n ≤ k, InRange (seconds (a + d * n)) := by
    intro n hn
    have h1 := seconds_strictMono.monotone (hmono.monotone (show 0 ≤ n by omega))
    have h2 := seconds_strictMono.monotone (hmono.monotone hn)
    simp only [Nat.cast_zero, mul_zero, add_zero] at h1
    exact ⟨ha.1.trans h1, h2.trans_lt hlast⟩
  have hround : ∀ n < k, step (seconds (a + d * n)) = seconds (a + d * (n + 1 : Nat)) := by
    intro n hn
    have hnext : seconds (a + d * n) + d * secondsPerDay = seconds (a + d * (n + 1 : Nat)) := by
      unfold seconds
      push_cast
      ring
    rw [hstep _ (hrange n hn.le), hnext, wrap_of_inRange (hrange (n + 1) hn)]
  have hwalk := walk_of_sequence (f := fun n => seconds (a + d * n)) hround (first_seconds hk)
  exact ⟨k + 1, by simpa using hwalk⟩

/-- A loop over months that stays within Go's times. -/
theorem walk_months {count a b x : Int} {unit : String}
    (hunit : unit = intervalUnitMonth ∨ unit = intervalUnitYear) (hcount : 0 < count)
    (pos : 0 < count * monthsPerUnit unit) (ha : InRange (seconds a))
    (hx : (Rule.months (count * monthsPerUnit unit) pos).IsNext a b x)
    (hfits : seconds (monthStart (monthOf x + 1)) < 2 ^ 63) :
    ∃ fuel, walk (intervalStep (seconds a) count unit) (seconds b) fuel (seconds a) = some
    (seconds x) := by
  obtain ⟨k, hk, rfl⟩ := Rule.isNext_months.1 hx
  rw [Rule.monthOf_monthDate] at hfits
  have hwalk := walk_of_sequence (f := fun n => seconds (monthDate (count * monthsPerUnit unit) a n))
    (fun n hn => intervalStep_months hunit hcount ha hn hfits) (first_seconds hk)
  exact ⟨k + 1, by simpa using hwalk⟩

/-- Up to the end of Go's times the loops return what they do over unbounded integers. -/
theorem nextIntervalOccurrence_eq {count : Int} {unit : String} {r : Rule}
    (hr : intervalRule count unit = some r) {a b : Int} (ha : InRange (seconds a))
    (hb : InRange (seconds b)) :
    ∃ x, Subdux.nextIntervalOccurrence (midnight a) (midnight b) count unit = midnight x ∧
      (seconds (monthStart (monthOf x + 1)) < 2 ^ 63 →
        ∃ fuel, nextIntervalOccurrence fuel (seconds a) (seconds b) count unit = some (seconds x)) := by
  obtain ⟨x, hx, he⟩ := nextIntervalOccurrence_spec hr a b
  refine ⟨x, he, fun hfits => ?_⟩
  have hpos : 0 < count := by
    by_contra h
    simp [intervalRule, h] at hr
  have hvalid := ((intervalRule_isSome count unit).1 ⟨r, hr⟩).2
  simp only [nextIntervalOccurrence, normalizeDateUTC_seconds ha, normalizeDateUTC_seconds hb,
    hvalid, if_true]
  by_cases hab : seconds a < seconds b
  case neg =>
    have hle : b ≤ a := not_lt.1 fun h => hab (seconds_strictMono h)
    exact ⟨0, by rw [if_pos hab, hx.unique (intervalRule_self hr hle)]⟩
  simp only [not_not.2 hab, if_false]
  have hlast : seconds x < 2 ^ 63 := (seconds_strictMono (monthOf_spec x).2).trans hfits
  unfold intervalRule at hr
  split_ifs at hr with h1 h2 h3 h4 <;> cases hr
  · refine walk_days hpos (fun y hy => ?_) ha hx hlast
    rw [intervalStep, if_pos h1, addDays_eq hy]
  · refine walk_days (by omega) (fun y hy => ?_) ha hx hlast
    rw [intervalStep, if_neg h1, if_pos h2, addDays_eq hy]
    exact wrap_congr (((wrap_modEq _).mul_right _).add_left _)
  · have hs : count = count * monthsPerUnit unit := by
      rw [monthsPerUnit, h3, if_neg (by decide), mul_one]
    refine walk_months (.inl h3) hpos (hs ▸ hpos) ha ?_ hfits
    simpa only [← hs] using hx
  · have hs : 12 * count = count * monthsPerUnit unit := by rw [monthsPerUnit, if_pos h4, mul_comm]
    refine walk_months (.inr h4) hpos (by omega) ha ?_ hfits
    simpa only [← hs] using hx

/-! ## The roll of a row ends -/

section Ends
variable {sub : Subscription} {referenceDate : Time} {fuel more : Nat} {current today : Int}

theorem walk_mono {step : Int → Int} {b a x : Int} (h : walk step b fuel a = some x)
    (hle : fuel ≤ more) :
    walk step b more a = some x := by
  induction fuel generalizing more a with
  | zero => cases h
  | succ fuel ih =>
    obtain ⟨more, rfl⟩ : ∃ n, more = n + 1 := ⟨more - 1, by omega⟩
    rw [walk] at h ⊢
    by_cases hab : a < b
    · rw [if_pos hab] at h ⊢
      exact ih h (by omega)
    · rwa [if_neg hab] at h ⊢

theorem nextIntervalOccurrence_mono {anchor bound count x : Int} {unit : String}
    (h : nextIntervalOccurrence fuel anchor bound count unit = some x) (hle : fuel ≤ more) :
    nextIntervalOccurrence more anchor bound count unit = some x := by
  unfold nextIntervalOccurrence at h ⊢
  dsimp only at h ⊢
  split_ifs at h ⊢
  · exact walk_mono h hle
  · exact h
  · exact h

theorem checkedOccurrence_mono {next : Option Int}
    (h : checkedOccurrence fuel sub current today = some next) (hle : fuel ≤ more) :
    checkedOccurrence more sub current today = some next := by
  unfold checkedOccurrence at h ⊢
  split_ifs at h ⊢
  · cases hc : sub.intervalCount with
    | none => simpa [hc] using h
    | some count =>
      simp only [hc] at h ⊢
      split_ifs at h ⊢
      · exact h
      · obtain ⟨x, hx, rfl⟩ := Option.map_eq_some_iff.1 h
        rw [nextIntervalOccurrence_mono hx hle, Option.map_some]
  all_goals exact h

theorem nextRecurringBillingDateOnOrAfter_mono {next : Option Int}
    (h : nextRecurringBillingDateOnOrAfter fuel sub referenceDate = some next) (hle : fuel ≤ more) :
    nextRecurringBillingDateOnOrAfter more sub referenceDate = some next := by
  unfold nextRecurringBillingDateOnOrAfter at h ⊢
  split_ifs at h ⊢
  · exact h
  · cases hd : sub.nextBillingDate with
    | none => simpa [hd] using h
    | some date =>
      simp only [hd] at h ⊢
      split_ifs at h ⊢
      · obtain ⟨x, hx, rfl⟩ := Option.map_eq_some_iff.1 h
        rw [checkedOccurrence_mono hx hle, Option.map_some]
      · exact h

/-- The only loop of a roll is that of an interval. -/
theorem nextRecurringBillingDateOnOrAfter_ends
    (h : sub.recurrenceType = recurrenceTypeInterval → ∀ date count, sub.nextBillingDate = some date →
      sub.intervalCount = some count → 1 ≤ count → isValidIntervalUnit sub.intervalUnit = true →
      ∃ fuel x, nextIntervalOccurrence fuel (ofTime date)
        (ofTime referenceDate) count sub.intervalUnit = some x) :
    ∃ fuel next, nextRecurringBillingDateOnOrAfter fuel sub referenceDate = some next := by
  unfold nextRecurringBillingDateOnOrAfter
  split_ifs
  · exact ⟨0, _, rfl⟩
  cases hd : sub.nextBillingDate with
  | none => exact ⟨0, _, rfl⟩
  | some date =>
    dsimp only
    split_ifs
    case neg => exact ⟨0, _, rfl⟩
    suffices ∃ fuel next, checkedOccurrence fuel sub (ofTime date) (ofTime referenceDate) = some next by
      obtain ⟨fuel, next, hnext⟩ := this
      exact ⟨fuel, _, by rw [hnext, Option.map_some]⟩
    unfold checkedOccurrence
    split_ifs with hinterval
    · cases hc : sub.intervalCount with
      | none => exact ⟨0, _, rfl⟩
      | some count =>
        by_cases hbad : count < 1 ∨ ¬ isValidIntervalUnit sub.intervalUnit
        · exact ⟨0, _, if_pos hbad⟩
        · obtain ⟨fuel, x, hx⟩ := h hinterval date count hd hc (by omega) (by tauto)
          exact ⟨fuel, some x, by simp only [if_neg hbad, hx, Option.map_some]⟩
    · cases sub.monthlyDay <;> exact ⟨0, _, rfl⟩
    · cases sub.yearlyMonth <;> cases sub.yearlyDay <;> exact ⟨0, _, rfl⟩
    · exact ⟨0, _, rfl⟩

end Ends

section Schedules
variable {draft schedule : BillingDraft} {date referenceDate : Time}

/-- The rounds of the schedule's loop strictly increase `current`, and so the loop
ends, and the roll of every row with this schedule. -/
structure Progresses (schedule : BillingDraft) (date referenceDate : Time) : Prop where
  advances : ∀ count, schedule.intervalCount = some count →
    Advances (intervalStep (normalizeDateUTC (ofTime date)) count schedule.intervalUnit)
      (normalizeDateUTC (ofTime date)) (normalizeDateUTC (ofTime referenceDate))
  ends : ∀ count, schedule.intervalCount = some count →
    ∃ fuel x, nextIntervalOccurrence fuel (ofTime date)
      (ofTime referenceDate) count schedule.intervalUnit = some x
  rolls : ∀ sub : Subscription, sub.billing = schedule →
    ∃ fuel next, nextRecurringBillingDateOnOrAfter fuel sub referenceDate = some next

/-- The dates of the schedule's interval, if it has one, fit. -/
def ScheduleFits (schedule : BillingDraft) (date referenceDate : Time) : Prop :=
  ∀ count, schedule.intervalCount = some count →
    Fits (normalizeDateUTC (ofTime date))
      (normalizeDateUTC (ofTime referenceDate)) count schedule.intervalUnit

theorem normalizeDateUTC_inRange (sec : Int) : InRange (normalizeDateUTC sec) := wrap_inRange _

theorem nextIntervalOccurrence_ends {anchor bound count : Int} {unit : String}
    (h : Advances (intervalStep (normalizeDateUTC anchor) count unit) (normalizeDateUTC anchor)
      (normalizeDateUTC bound)) :
    ∃ fuel x, nextIntervalOccurrence fuel anchor bound count unit = some x := by
  unfold nextIntervalOccurrence
  dsimp only
  split_ifs
  · obtain ⟨n, hn⟩ := h.ends
    exact walk_ends hn
  · exact ⟨0, _, rfl⟩
  · exact ⟨0, _, rfl⟩

/-- The interval of a normalized schedule is in range. -/
theorem schedule_interval (h : schedule.Normalized date) {count : Int}
    (hcount : schedule.intervalCount = some count) :
    1 ≤ count ∧ isValidIntervalUnit schedule.intervalUnit = true := by
  cases h.fields with
  | interval _ hc hpos hunit =>
    obtain rfl := Option.some.inj (hc.symm.trans hcount)
    exact ⟨hpos, hunit⟩
  | monthlyDate _ _ _ hc => simp [hc] at hcount
  | yearlyDate _ _ _ _ _ hc => simp [hc] at hcount

/-- A schedule that fits makes progress; for days and weeks only such a schedule does. -/
theorem nextIntervalOccurrence_progresses (h : normalizeBillingDraft draft = .ok (schedule, date))
    (referenceDate : Time) :
    (ScheduleFits schedule date referenceDate → Progresses schedule date referenceDate) ∧
      (¬ (schedule.intervalUnit = intervalUnitMonth ∨ schedule.intervalUnit = intervalUnitYear) →
        (Progresses schedule date referenceDate ↔ ScheduleFits schedule date referenceDate)) := by
  have hnorm := normalizeBillingDraft_ok h
  have hprogress : ScheduleFits schedule date referenceDate →
      Progresses schedule date referenceDate := by
    intro hfits
    have hadvances : ∀ count, schedule.intervalCount = some count →
        Advances (intervalStep (normalizeDateUTC (ofTime date)) count schedule.intervalUnit)
          (normalizeDateUTC (ofTime date)) (normalizeDateUTC (ofTime referenceDate)) := by
      intro count hcount
      obtain ⟨hpos, hunit⟩ := schedule_interval hnorm hcount
      exact advances_of_fits (normalizeDateUTC_inRange _) (normalizeDateUTC_inRange _) hpos hunit
        (hfits count hcount)
    refine ⟨hadvances, fun count hcount => nextIntervalOccurrence_ends (hadvances count hcount), ?_⟩
    rintro sub rfl
    refine nextRecurringBillingDateOnOrAfter_ends fun _ stored count hstored hcount _ _ => ?_
    obtain rfl : date = stored := Option.some.inj (hnorm.nextBillingDate.symm.trans hstored)
    exact nextIntervalOccurrence_ends (hadvances count hcount)
  refine ⟨hprogress, fun hunit => ⟨fun hp count hcount => ?_, hprogress⟩⟩
  by_cases hab : normalizeDateUTC (ofTime date) < normalizeDateUTC (ofTime referenceDate)
  · have hvalid := (schedule_interval hnorm hcount).2
    simp only [isValidIntervalUnit, decide_eq_true_eq] at hvalid
    exact (advances_days_iff (normalizeDateUTC_inRange _) (normalizeDateUTC_inRange _) hab (by tauto)).1
      (hp.advances count hcount)
  · exact .inl (not_lt.1 hab)

/-- An interval of `2 ^ 57` days: its seconds are a multiple of `2 ^ 64`. -/
def stuckDraft : BillingDraft where
  billingType := "recurring"
  recurrenceType := "interval"
  intervalCount := some (2 ^ 57)
  intervalUnit := "day"
  nextBillingDate := some (dateUTC 2025 1 31)
  monthlyDay := none
  yearlyMonth := none
  yearlyDay := none

/-- The draft is accepted, and from the day after its date on the loop never ends. -/
theorem nextIntervalOccurrence_stuck :
    normalizeBillingDraft stuckDraft = .ok (stuckDraft, dateUTC 2025 1 31) ∧
      ¬ Progresses stuckDraft (dateUTC 2025 1 31) (dateUTC 2025 2 1) ∧
      ∀ fuel, nextIntervalOccurrence fuel (ofTime (dateUTC 2025 1 31)) (ofTime (dateUTC 2025 2 1))
        (2 ^ 57) "day" = none := by
  have hanchor : normalizeDateUTC (ofTime (dateUTC 2025 1 31)) = 63873878400 := by decide +kernel
  have hbound : normalizeDateUTC (ofTime (dateUTC 2025 2 1)) = 63873964800 := by decide +kernel
  have hstep : intervalStep 63873878400 (2 ^ 57) "day" 63873878400 = 63873878400 := by decide +kernel
  refine ⟨by decide +kernel, fun hp => ?_, fun fuel => ?_⟩
  · have hup := hp.advances (2 ^ 57) rfl 0 fun j hj => by
      rw [Nat.le_zero.1 hj, hanchor, hbound]
      decide
    rw [hanchor] at hup
    simp only [Function.iterate_zero, id] at hup
    exact absurd (hstep ▸ hup) (lt_irrefl _)
  · have hwalk : ∀ fuel,
        walk (intervalStep 63873878400 (2 ^ 57) "day") 63873964800 fuel 63873878400 = none := by
      intro fuel
      induction fuel with
      | zero => rfl
      | succ fuel ih => rw [walk, if_pos (by decide), hstep, ih]
    simp only [nextIntervalOccurrence, hanchor, hbound]
    rw [if_neg (by decide), if_pos (by decide)]
    exact hwalk fuel

/-- Every month from January 31 on. -/
def monthlyDraft : BillingDraft := { stuckDraft with intervalCount := some 1, intervalUnit := "month" }

theorem nextIntervalOccurrence_progresses_monthly :
    Progresses monthlyDraft (dateUTC 2025 1 31) (dateUTC 2025 3 1) := by
  have haccepted : normalizeBillingDraft monthlyDraft = .ok (monthlyDraft, dateUTC 2025 1 31) := by
    decide +kernel
  refine (nextIntervalOccurrence_progresses haccepted (dateUTC 2025 3 1)).1 fun count hcount => ?_
  obtain rfl : (1 : Int) = count := Option.some.inj hcount
  exact .inr (by decide +kernel)

end Schedules

end Subdux.WordTime
