import Subdux.Lifecycle
/-!
# The schedule of a row, by the calendar

What the recurrence columns mean in years, months and days, with the usual lengths of the
months: `referenceSchedule` is the set of billing dates from an anchor on. It is the rule
of the row (`referenceSchedule_eq`), so a roll goes to its first date.
-/

namespace Subdux
open Gregorian

/-! ## Dates of the calendar -/

def monthLength (year month : Int) : Int :=
  if month = 2 then (if isLeap year then 29 else 28) else if month = 4 ∨ month = 6 ∨ month = 9 ∨
    month = 11 then 30 else 31

/-- A day of a month, or the last day of a month that lacks it. -/
def clampedDate (year month day : Int) : Time := dateUTC year month (min day (monthLength year month))

/-- The month that is `n` months after a month of a year. -/
def addMonths (year month n : Int) : Int × Int :=
  ((12 * year + (month - 1) + n) / 12, (12 * year + (month - 1) + n) % 12 + 1)

/-- The billing dates of a row from `anchor` on. -/
def referenceSchedule (sub : Subscription) (anchor : Time) : Set Time :=
  if sub.recurrenceType = recurrenceTypeInterval then
    match sub.intervalCount with
    | none => ∅
    | some count =>
      if sub.intervalUnit = intervalUnitDay then {t | ∃ k : Nat, t = anchor.addDays (k * count)}
      else if sub.intervalUnit = intervalUnitWeek then
        {t | ∃ k : Nat, t = anchor.addDays (7 * (k * count))}
      else if sub.intervalUnit = intervalUnitMonth then
        {t | ∃ k : Nat, ∃ date, date = addMonths anchor.year anchor.month (k * count) ∧
          t = clampedDate date.1 date.2 anchor.dayOfMonth}
      else if sub.intervalUnit = intervalUnitYear then
        {t | ∃ k : Nat, t = clampedDate (anchor.year + k * count) anchor.month anchor.dayOfMonth}
      else ∅
  else if sub.recurrenceType = recurrenceTypeMonthlyDate then
    match sub.monthlyDay with
    | none => ∅
    | some day => {t | ∃ year month : Int, (1 ≤ month ∧ month ≤ 12) ∧ t = clampedDate year month day}
  else if sub.recurrenceType = recurrenceTypeYearlyDate then
    match sub.yearlyMonth, sub.yearlyDay with
    | some month, some day => {t | ∃ year : Int, t = clampedDate year month day}
    | _, _ => ∅
  else ∅

/-- `next` is the least date of a set that is not before `today`. -/
structure IsLeastFrom (dates : Set Time) (today next : Time) : Prop where
  mem : next ∈ dates
  notBefore : next.before today = false
  least : ∀ t ∈ dates, t.before today = false → t.before next = false

/-! ## The schedule is the rule -/

section Schedule
variable {sub : Subscription} {r : Rule}

theorem clampedDate_eq {year month : Int} (h : 1 ≤ month ∧ month ≤ 12) (day : Int) :
    clampedDate year month day = midnight (onMonth (12 * year + (month - 1)) day) := by
  rw [clampedDate, monthLength, ← monthLen_eq year month h.1 h.2, dateUTC, onMonth]
  congr 1
  omega

/-- The date `n` months on. -/
theorem clampedDate_addMonths (year month n day : Int) :
    clampedDate (addMonths year month n).1 (addMonths year month n).2 day = midnight
    (onMonth (12 * year + (month - 1) + n) day) := by
  rw [clampedDate_eq (by simp only [addMonths]; omega)]
  congr 2
  simp only [addMonths]
  omega

/-- The month of a date counts from 1 to 12. -/
theorem month_bounds (t : Time) : 1 ≤ t.month ∧ t.month ≤ 12 := by
  unfold Time.month
  omega

theorem interval_schedule {count : Int} {unit : String} (hr : intervalRule count unit = some r)
    (htype : sub.recurrenceType = recurrenceTypeInterval) (hcount : sub.intervalCount = some count)
    (hunit : sub.intervalUnit = unit) (anchor : Int) :
    referenceSchedule sub (midnight anchor) = midnight '' r.dates anchor := by
  have hindex : 12 * (midnight anchor).year + ((midnight anchor).month - 1) = monthOf anchor := by
    rw [Time.monthIndex, midnight_day]
  have hday : (midnight anchor).dayOfMonth = dayOf anchor := by rw [Time.dayOfMonth, midnight_day]
  simp only [referenceSchedule, htype, hcount, hunit, if_true]
  unfold intervalRule at hr
  ext t
  split_ifs at hr ⊢ <;> obtain rfl :=
    Option.some.inj hr <;> simp only [Rule.dates, Set.mem_image, Set.mem_ofPred_eq]
  · constructor
    · rintro ⟨k, rfl⟩
      exact ⟨_, ⟨k, rfl⟩, by rw [midnight_addDays, mul_comm]⟩
    · rintro ⟨_, ⟨k, rfl⟩, rfl⟩
      exact ⟨k, by rw [midnight_addDays, mul_comm]⟩
  · constructor
    · rintro ⟨k, rfl⟩
      exact ⟨_, ⟨k, rfl⟩, by rw [midnight_addDays]; congr 2; ring⟩
    · rintro ⟨_, ⟨k, rfl⟩, rfl⟩
      exact ⟨k, by rw [midnight_addDays]; congr 2; ring⟩
  · constructor
    · rintro ⟨k, _, rfl, rfl⟩
      exact ⟨_, ⟨k, rfl⟩, by rw [clampedDate_addMonths, hindex, hday, monthDate, mul_comm]⟩
    · rintro ⟨_, ⟨k, rfl⟩, rfl⟩
      exact ⟨k, _, rfl, by rw [clampedDate_addMonths, hindex, hday, monthDate, mul_comm]⟩
  · have hyears : ∀ k : Nat, clampedDate ((midnight anchor).year + k * count)
        (midnight anchor).month (midnight anchor).dayOfMonth =
        midnight (monthDate (12 * count) anchor k) := by
      intro k
      rw [clampedDate_eq (month_bounds _), hday, monthDate, ← hindex]
      congr 2
      ring
    constructor
    · rintro ⟨k, rfl⟩
      exact ⟨_, ⟨k, rfl⟩, (hyears k).symm⟩
    · rintro ⟨_, ⟨k, rfl⟩, rfl⟩
      exact ⟨k, (hyears k).symm⟩

/-- The billing dates of a row with a valid schedule are those of its rule. -/
theorem referenceSchedule_eq (hr : sub.rule = some r) (anchor : Int) :
    referenceSchedule sub (midnight anchor) = midnight '' r.dates anchor := by
  unfold Subscription.rule at hr
  split_ifs at hr with htype hmonthly hyearly
  · obtain ⟨count, hcount, hr⟩ := Option.bind_eq_some_iff.1 hr
    exact interval_schedule hr htype hcount rfl anchor
  · cases hday : sub.monthlyDay with
    | none => simp [hday] at hr
    | some day =>
      simp only [hday] at hr
      split at hr <;> cases hr
      simp only [referenceSchedule, if_neg htype, if_pos hmonthly, hday]
      ext t
      constructor
      · rintro ⟨year, month, hmonth, rfl⟩
        exact ⟨_, ⟨12 * year + (month - 1), rfl⟩, (clampedDate_eq hmonth day).symm⟩
      · rintro ⟨_, ⟨M, rfl⟩, rfl⟩
        refine ⟨M / 12, M % 12 + 1, by omega, ?_⟩
        rw [clampedDate_eq (by omega)]
        congr 2
        omega
  · cases hmonth : sub.yearlyMonth <;> cases hday : sub.yearlyDay <;> simp only
      [hmonth, hday, reduceCtorEq] at hr
    rename_i month day
    split at hr <;> cases hr
    rename_i h
    simp only [referenceSchedule, if_neg htype, if_neg hmonthly, if_pos hyearly, hmonth, hday]
    ext t
    constructor
    · rintro ⟨year, rfl⟩
      exact ⟨_, ⟨year, rfl⟩, (clampedDate_eq h.1 day).symm⟩
    · rintro ⟨_, ⟨year, rfl⟩, rfl⟩
      exact ⟨year, (clampedDate_eq h.1 day).symm⟩

/-- The first date of the rule is the least one of the schedule. -/
theorem isLeastFrom_iff (hr : sub.rule = some r) (anchor today : Int) (next : Time) :
    IsLeastFrom (referenceSchedule sub (midnight anchor)) (midnight today) next ↔
    ∃ n, r.IsNext anchor today n ∧ next = midnight n := by
  rw [referenceSchedule_eq hr]
  constructor
  · rintro ⟨⟨n, hn, rfl⟩, hbefore, hleast⟩
    refine ⟨n, ⟨⟨hn, by simpa using hbefore⟩, fun m hm => ?_⟩, rfl⟩
    simpa using hleast _ ⟨m, hm.1, rfl⟩ (by simpa using hm.2)
  · rintro ⟨n, hnext, rfl⟩
    refine ⟨⟨n, hnext.1.1, rfl⟩, by simpa using hnext.1.2, ?_⟩
    rintro _ ⟨m, hm, rfl⟩ hbefore
    simpa using hnext.2 ⟨hm, by simpa using hbefore⟩

end Schedule

/-! ## Rolling -/

/-- A row without a valid schedule does not roll. -/
theorem nextRecurringBillingDateOnOrAfter_invalid {sub : Subscription}
    (h : isRecurringScheduleValid sub = false) (t : Time) :
    nextRecurringBillingDateOnOrAfter sub t = none := by
  unfold nextRecurringBillingDateOnOrAfter
  cases sub.nextBillingDate with
  | none => simp
  | some date => simp [checkedOccurrence_eq, h]

/-- A recurring row rolls exactly when its billing date is past and its schedule valid, and
then to the least date of its schedule that is not before today. -/
theorem billing_date_rolls_to_least {sub : Subscription} {date : Time}
    (hb : sub.billingType = billingTypeRecurring) (hdate : sub.nextBillingDate = some date)
    (referenceDate : Time) :
    let anchor := normalizeDateUTC date
    let today := normalizeDateUTC referenceDate
    (anchor.before today = true → isRecurringScheduleValid sub = true →
      ∃ next, nextRecurringBillingDateOnOrAfter sub referenceDate = some next ∧
        IsLeastFrom (referenceSchedule sub anchor) today next) ∧
      (nextRecurringBillingDateOnOrAfter sub referenceDate = none ↔
        anchor.before today = false ∨ isRecurringScheduleValid sub = false) := by
  simp only [normalizeDateUTC_eq, midnight_before, decide_eq_true_eq, decide_eq_false_iff_not]
  cases hvalid : isRecurringScheduleValid sub with
  | false => simp [nextRecurringBillingDateOnOrAfter_invalid hvalid]
  | true =>
    obtain ⟨r, hr⟩ := (isRecurringScheduleValid_iff sub).1 hvalid
    rcases nextRecurringBillingDateOnOrAfter_spec hb hdate hr referenceDate with ⟨x, hlt, hx, he⟩ |
      ⟨hle, he⟩
    · refine ⟨fun _ _ => ⟨midnight x, he, (isLeastFrom_iff hr _ _ _).2 ⟨x, hx, rfl⟩⟩, ?_⟩
      simp [he, hlt]
    · refine ⟨fun hlt => absurd hlt (not_lt.2 hle), ?_⟩
      simp [he, hle]

/-- A row due on 31 January rolls on 10 February to the end of that month. -/
theorem billing_date_rolls_to_least_monthEnd :
    nextRecurringBillingDateOnOrAfter monthEndRow (dateUTC 2025 2 10) = some (dateUTC 2025 2 28) ∧
      IsLeastFrom (referenceSchedule monthEndRow (normalizeDateUTC (dateUTC 2025 1 31)))
        (normalizeDateUTC (dateUTC 2025 2 10))
        (dateUTC 2025 2 28) := by
  have hroll : nextRecurringBillingDateOnOrAfter monthEndRow (dateUTC 2025 2 10) = some
      (dateUTC 2025 2 28) := by
    decide +kernel
  obtain ⟨next, hnext, hleast⟩ :=
    (@billing_date_rolls_to_least monthEndRow _ rfl rfl (dateUTC 2025 2 10)).1 (by decide +kernel)
      (by decide)
  rw [hroll] at hnext
  exact ⟨hroll, Option.some.inj hnext ▸ hleast⟩

end Subdux
