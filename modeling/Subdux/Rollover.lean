import Subdux.Recurrence
import Subdux.Subscription
/-!
# Rolling billing dates forward

`internal/service/subscription_rollover.go` and the two occurrence functions of
`subscription_dashboard.go`, over unbounded integers. `Subscription.rule` reads a
row's recurrence columns as a `Rule`; `nextRecurringOccurrenceOnOrAfter_spec` and
`nextRecurringBillingDateOnOrAfter_spec` say that the code returns the first date
of that rule.
-/

namespace Subdux
open Gregorian Loop

/-! ## Dates with a preferred day -/

/-- Day 0 of the next month is the last day of this one. -/
def daysInMonth (year month : Int) : Int := (dateUTC year (month + 1) 0).dayOfMonth

def clampDay (year month day : Int) : Int :=
  if day < 1 then 1
  else
    let maxDay := daysInMonth year month
    if day > maxDay then maxDay else day

def buildDate (year month preferredDay : Int) : Time :=
  dateUTC year month (clampDay year month preferredDay)

/-- Go's `/` and `%` round towards zero. -/
def addMonthsPreservePreferredDay (base : Time) (months preferredDay : Int) : Time :=
  let base := normalizeDateUTC base
  let targetMonthIndex := base.month - 1 + months
  let targetYear := base.year + targetMonthIndex.tdiv 12
  let targetMonth := targetMonthIndex.tmod 12
  if targetMonth < 0 then buildDate (targetYear - 1) (targetMonth + 12 + 1) preferredDay
  else buildDate targetYear (targetMonth + 1) preferredDay

def addYearsPreservePreferredDate (base : Time) (years preferredMonth preferredDay : Int) : Time :=
  let base := normalizeDateUTC base
  buildDate (base.year + years) preferredMonth preferredDay

/-! ## Occurrences -/

/-- The loops `for current.Before(from)` over unbounded integers, for counts and dates
whose arithmetic does not wrap: a round then moves `current` at least one day on, so the
days from `anchor` to `from` bound the rounds. `WordTime.nextIntervalOccurrence` is the
loop on 64-bit words, which may not end; `WordTime.nextIntervalOccurrence_eq` says that
the two agree up to the end of Go's times. -/
def nextIntervalOccurrence (anchor fromDate : Time) (intervalCount : Int)
    (intervalUnit : String) : Time :=
  let anchor := normalizeDateUTC anchor
  let bound := normalizeDateUTC fromDate
  if !bound.after anchor then anchor
  else
    let rounds := (bound.day - anchor.day).toNat
    let preferredDay := anchor.dayOfMonth
    let preferredMonth := anchor.month
    if intervalUnit = intervalUnitDay then
      run (·.before bound) (·.addDays intervalCount) rounds anchor
    else if intervalUnit = intervalUnitWeek then
      run (·.before bound) (·.addDays (intervalCount * 7)) rounds anchor
    else if intervalUnit = intervalUnitMonth then
      run (·.before bound) (addMonthsPreservePreferredDay · intervalCount preferredDay) rounds anchor
    else if intervalUnit = intervalUnitYear then
      run (·.before bound)
        (addYearsPreservePreferredDate · intervalCount preferredMonth preferredDay) rounds anchor
    else anchor

def nextMonthlyDayOccurrence (fromDate : Time) (day : Int) : Time :=
  let bound := normalizeDateUTC fromDate
  let candidate := buildDate bound.year bound.month day
  if candidate.before bound then addMonthsPreservePreferredDay candidate 1 day else candidate

def nextYearlyDateOccurrence (fromDate : Time) (month day : Int) : Time :=
  let bound := normalizeDateUTC fromDate
  let candidate := buildDate bound.year month day
  if candidate.before bound then buildDate (bound.year + 1) month day else candidate

/-- The `switch` of `nextRecurringBillingDateOnOrAfter`, with its checks. -/
def checkedOccurrence (sub : Subscription) (current today : Time) : Option Time :=
  if sub.recurrenceType = recurrenceTypeInterval then
    match sub.intervalCount with
    | none => none
    | some count =>
      if count < 1 ∨ ¬ isValidIntervalUnit sub.intervalUnit then none
      else some (nextIntervalOccurrence current today count sub.intervalUnit)
  else if sub.recurrenceType = recurrenceTypeMonthlyDate then
    match sub.monthlyDay with
    | none => none
    | some day => if day < 1 ∨ day > 31 then none else some (nextMonthlyDayOccurrence today day)
  else if sub.recurrenceType = recurrenceTypeYearlyDate then
    match sub.yearlyMonth, sub.yearlyDay with
    | some month, some day =>
      if month < 1 ∨ month > 12 ∨ day < 1 ∨ day > 31 then none
        else some (nextYearlyDateOccurrence today month day)
    | _, _ => none
  else none

/-- The next billing date to roll to: `none` is the code's `nil, false`. -/
def nextRecurringBillingDateOnOrAfter (sub : Subscription) (referenceDate : Time) : Option Time :=
  if sub.billingType ≠ billingTypeRecurring then none
  else
    match sub.nextBillingDate with
    | none => none
    | some nextBillingDate =>
      let today := normalizeDateUTC referenceDate
      let current := normalizeDateUTC nextBillingDate
      if !current.before today then none
      else
        match checkedOccurrence sub current today with
        | none => none
        | some next =>
          let next := normalizeDateUTC next
          if !next.after current then none else some next

/-- `subscription_dashboard.go`. The code dereferences the recurrence columns; its
callers have checked `isRecurringScheduleValid`, and `none` stands for a nil there. -/
def nextRecurringOccurrenceOnOrAfter (sub : Subscription) (anchor fromDate : Time) : Option Time :=
  let anchor := normalizeDateUTC anchor
  let bound := normalizeDateUTC fromDate
  if sub.recurrenceType = recurrenceTypeInterval then
    sub.intervalCount.map fun count => nextIntervalOccurrence anchor bound count sub.intervalUnit
  else if sub.recurrenceType = recurrenceTypeMonthlyDate then
    sub.monthlyDay.map fun day => nextMonthlyDayOccurrence bound day
  else if sub.recurrenceType = recurrenceTypeYearlyDate then
    match sub.yearlyMonth, sub.yearlyDay with
    | some month, some day => some (nextYearlyDateOccurrence bound month day)
    | _, _ => none
  else none

def nextRecurringOccurrenceAfter (sub : Subscription) (current : Time) : Option Time :=
  nextRecurringOccurrenceOnOrAfter sub current ((normalizeDateUTC current).addDays 1)

/-! ## The dates that the arithmetic builds -/

theorem daysInMonth_eq (year month : Int) :
    daysInMonth year month = monthLen (12 * year + (month - 1)) := by
  have hM : 12 * year + (month + 1 - 1) = 12 * year + (month - 1) + 1 := by omega
  generalize 12 * year + (month - 1) = M at hM
  have hlen := monthLen_bounds M
  have hsucc := monthStart_succ M
  have hmonth : monthOf (monthStart (M + 1) + (0 - 1)) = M := monthOf_eq (by omega) (by omega)
  rw [daysInMonth, dateUTC, Time.dayOfMonth, midnight_day, hM, dayOf, hmonth]
  omega

theorem buildDate_eq (year month : Int) {d : Int} (hd : 1 ≤ d) :
    buildDate year month d = midnight (onMonth (12 * year + (month - 1)) d) := by
  have hclamp : clampDay year month d = min d (monthLen (12 * year + (month - 1))) := by
    simp only [clampDay, daysInMonth_eq, if_neg (not_lt.2 hd)]
    omega
  rw [buildDate, hclamp, dateUTC, onMonth]
  congr 1; omega

theorem addMonthsPreservePreferredDay_eq (n : Int) {months d : Int} (hm : 0 ≤ months) (hd : 1 ≤ d) :
    addMonthsPreservePreferredDay (midnight n) months d = midnight (onMonth (monthOf n + months) d) := by
  have hindex : (midnight n).month - 1 + months = monthOf n % 12 + months := by simp [Time.month]
  have h0 : 0 ≤ monthOf n % 12 + months := by omega
  have hmod : ¬ (monthOf n % 12 + months) % 12 < 0 := by omega
  simp only [addMonthsPreservePreferredDay, normalizeDateUTC_eq, midnight_day, hindex,
    Int.tdiv_eq_ediv_of_nonneg h0, Int.tmod_eq_emod_of_nonneg h0, hmod, if_false, buildDate_eq _ _ hd]
  congr 2
  simp only [Time.year, midnight_day]; omega

theorem addYearsPreservePreferredDate_eq (n years : Int) {month d : Int} (hd : 1 ≤ d)
    (hmonth : month = monthOf n % 12 + 1) :
    addYearsPreservePreferredDate (midnight n) years month d = midnight
    (onMonth (monthOf n + 12 * years) d) := by
  simp only [addYearsPreservePreferredDate, normalizeDateUTC_eq, midnight_day, buildDate_eq _ _ hd]
  congr 2
  simp only [Time.year, midnight_day]; omega

/-! ## The rule of a row -/

/-- The rule of an interval: weeks are seven days, and years twelve months. -/
def intervalRule (count : Int) (unit : String) : Option Rule :=
  if h : 0 < count then
    if unit = intervalUnitDay then some (.days count h)
    else if unit = intervalUnitWeek then some (.days (count * 7) (by omega))
    else if unit = intervalUnitMonth then some (.months count h)
    else if unit = intervalUnitYear then some (.months (12 * count) (by omega))
    else none
  else none

/-- The recurrence columns of a row as a rule, when they make a valid schedule. -/
def Subscription.rule (sub : Subscription) : Option Rule :=
  if sub.recurrenceType = recurrenceTypeInterval then
    sub.intervalCount.bind (intervalRule · sub.intervalUnit)
  else if sub.recurrenceType = recurrenceTypeMonthlyDate then
    match sub.monthlyDay with
    | none => none
    | some day => if h : 1 ≤ day ∧ day ≤ 31 then some (.monthDay day h.1) else none
  else if sub.recurrenceType = recurrenceTypeYearlyDate then
    match sub.yearlyMonth, sub.yearlyDay with
    | some month, some day =>
      if h : (1 ≤ month ∧ month ≤ 12) ∧ 1 ≤ day ∧ day ≤ 31 then some (.yearDay month day h.2.1) else none
    | _, _ => none
  else none

theorem intervalRule_isSome (count : Int) (unit : String) :
    (∃ r, intervalRule count unit = some r) ↔ 1 ≤ count ∧ isValidIntervalUnit unit = true := by
  unfold intervalRule isValidIntervalUnit
  split_ifs <;> simp_all <;> omega

/-- A row has a rule exactly when its schedule is valid. -/
theorem isRecurringScheduleValid_iff (sub : Subscription) :
    isRecurringScheduleValid sub = true ↔ ∃ r, sub.rule = some r := by
  unfold isRecurringScheduleValid Subscription.rule
  split
  · cases sub.intervalCount with
    | none => simp
    | some count => simp [intervalRule_isSome]
  · split
    · cases sub.monthlyDay <;> simp
    · split
      · cases sub.yearlyMonth <;> cases sub.yearlyDay <;> simp
      · simp

/-! ## The loops find the first date -/

/-- A loop over midnights whose rounds follow a strictly increasing sequence of
days ends at the first day that reaches the bound. -/
theorem run_midnight (step : Time → Time) {f : Nat → Int} (hf : StrictMono f)
    (hstep : ∀ k, step (midnight (f k)) = midnight (f (k + 1))) (b : Int) :
    ∃ k, First f b k ∧ run (·.before (midnight b)) step (b - f 0).toNat (midnight (f 0)) = midnight
    (f k) := by
  obtain ⟨k, hk⟩ := exists_first hf b
  have hiter : ∀ n, step^[n] (midnight (f 0)) = midnight (f n) := by
    intro n
    induction n with
    | zero => rfl
    | succ n ih => rw [Function.iterate_succ_apply', ih, hstep]
  have hheight : ∀ n, (midnight (f n)).nanos / nsPerDay = f n := fun n =>
    Int.mul_ediv_cancel _ (by decide)
  refine ⟨k, hk, ?_⟩
  rw [run_eq (fun t : Time => t.nanos / nsPerDay) (b := b) (k := k) ?_ ?_
    (first_le_fuel hf hk (by omega)), hiter]
  · intro t
    have : t.before (midnight b) = true ↔ t.nanos < b * nsPerDay := decide_eq_true_iff
    rw [this]
    unfold nsPerDay; omega
  · simpa only [hiter, hheight] using hk

theorem run_days {step : Int} (pos : 0 < step) (a b : Int) :
    ∃ x, (Rule.days step pos).IsNext a b x ∧
      run (·.before (midnight b)) (·.addDays step) (b - a).toNat (midnight a) = midnight x := by
  obtain ⟨k, hk, hrun⟩ := run_midnight (·.addDays step) (Rule.dayDate_strictMono (a := a) pos)
    (fun k => by simp only [midnight_addDays]; congr 1; push_cast; ring) b
  exact ⟨_, Rule.isNext_days.2 ⟨k, hk, rfl⟩, by simpa using hrun⟩

/-- A loop whose rounds move `stride` months on and clamp the anchor's day. -/
theorem run_months {stride : Int} (pos : 0 < stride) (a b : Int) {step : Time → Time}
    (hstep : ∀ k : Nat, step (midnight (monthDate stride a k)) =
      midnight (onMonth (monthOf (monthDate stride a k) + stride) (dayOf a))) :
    ∃ x, (Rule.months stride pos).IsNext a b x ∧ run (·.before (midnight b)) step (b - a).toNat
    (midnight a) = midnight x := by
  obtain ⟨k, hk, hrun⟩ := run_midnight step (Rule.monthDate_strictMono (a := a) pos)
    (fun k => by rw [hstep, Rule.monthOf_monthDate, monthDate]; congr 2; push_cast; ring) b
  exact ⟨_, Rule.isNext_months.2 ⟨k, hk, rfl⟩, by simpa using hrun⟩

/-- The loop of each unit, from a bound ahead of the anchor. -/
theorem nextIntervalOccurrence_lt {a b : Int} (h : a < b) (count : Int) (unit : String) :
    nextIntervalOccurrence (midnight a) (midnight b) count unit =
      let rounds := (b - a).toNat
      if unit = intervalUnitDay then run (·.before (midnight b)) (·.addDays count) rounds (midnight a)
      else if unit = intervalUnitWeek then
        run (·.before (midnight b)) (·.addDays (count * 7)) rounds (midnight a)
      else if unit = intervalUnitMonth then
        run (·.before (midnight b)) (addMonthsPreservePreferredDay · count (dayOf a)) rounds (midnight a)
      else if unit = intervalUnitYear then
        run (·.before (midnight b))
          (addYearsPreservePreferredDate · count (monthOf a % 12 + 1) (dayOf a)) rounds (midnight a)
      else midnight a := by
  simp [nextIntervalOccurrence, h, Time.dayOfMonth, Time.month]

theorem intervalRule_self {count : Int} {unit : String} {r : Rule}
    (hr : intervalRule count unit = some r) {a b : Int} (h : b ≤ a) : r.IsNext a b a := by
  unfold intervalRule at hr
  split_ifs at hr <;> cases hr
  · exact Rule.isNext_days_self h
  · exact Rule.isNext_days_self h
  · exact Rule.isNext_months_self h
  · exact Rule.isNext_months_self h

/-- The loops return the first date of the interval's rule. -/
theorem nextIntervalOccurrence_spec {count : Int} {unit : String} {r : Rule}
    (hr : intervalRule count unit = some r) (a b : Int) :
    ∃ x, r.IsNext a b x ∧ nextIntervalOccurrence (midnight a) (midnight b) count unit = midnight x := by
  by_cases hab : a < b
  · rw [nextIntervalOccurrence_lt hab]
    have hd := (dayOf_bounds a).1
    unfold intervalRule at hr
    split_ifs at hr with hpos h1 h2 h3 h4 <;> cases hr
    · rw [if_pos h1]
      exact run_days hpos a b
    · rw [if_neg h1, if_pos h2]
      exact run_days (show 0 < count * 7 by omega) a b
    · rw [if_neg h1, if_neg h2, if_pos h3]
      exact run_months hpos a b fun k => addMonthsPreservePreferredDay_eq _ hpos.le hd
    · rw [if_neg h1, if_neg h2, if_neg h3, if_pos h4]
      refine run_months (show 0 < 12 * count by omega) a b fun k =>
        addYearsPreservePreferredDate_eq _ _ hd ?_
      rw [Rule.monthOf_monthDate, mul_assoc]; omega
  · exact ⟨a, intervalRule_self hr (not_lt.1 hab), by simp [nextIntervalOccurrence, not_lt.1 hab]⟩

/-! ## Dates on a fixed day -/

theorem nextMonthlyDayOccurrence_spec {day : Int} (hd : 1 ≤ day) (a b : Int) :
    ∃ x, (Rule.monthDay day hd).IsNext a b x ∧ nextMonthlyDayOccurrence
    (midnight b) day = midnight x := by
  have hcand : buildDate (midnight b).year (midnight b).month day = midnight
      (onMonth (monthOf b) day) := by
    rw [buildDate_eq _ _ hd, Time.monthIndex, midnight_day]
  have hnext : addMonthsPreservePreferredDay (midnight (onMonth (monthOf b) day)) 1 day =
      midnight (onMonth (monthOf b + 1) day) := by
    rw [addMonthsPreservePreferredDay_eq _ (by decide) hd, monthOf_onMonth hd]
  have hday := dayOf_bounds b
  simp only [nextMonthlyDayOccurrence, normalizeDateUTC_eq, midnight_day, hcand, hnext, midnight_before,
    decide_eq_true_eq]
  by_cases h : onMonth (monthOf b) day < b
  · refine ⟨_, Rule.isNext_monthDay (M := monthOf b + 1) ?_ (by simpa using h), by simp [h]⟩
    have := onMonth_lt (d := dayOf b) (show monthOf b < monthOf b + 1 by omega) hd
    simpa using this.le
  · refine ⟨_, Rule.isNext_monthDay (M := monthOf b) (not_lt.1 h) ?_, by simp [h]⟩
    have := onMonth_lt (d := day) (show monthOf b - 1 < monthOf b by omega) hday.1
    simpa using this

theorem nextYearlyDateOccurrence_spec {month day : Int} (hm : 1 ≤ month ∧ month ≤ 12) (hd : 1 ≤ day)
    (a b : Int) :
    ∃ x, (Rule.yearDay month day hd).IsNext a b x ∧ nextYearlyDateOccurrence
    (midnight b) month day = midnight x := by
  have hyear : 12 * (midnight b).year ≤ monthOf b ∧ monthOf b < 12 * (midnight b).year + 12 := by
    simp only [Time.year, midnight_day]; omega
  have hday := dayOf_bounds b
  simp only [nextYearlyDateOccurrence, normalizeDateUTC_eq, midnight_day, buildDate_eq _ _ hd,
    midnight_before,
    decide_eq_true_eq]
  generalize (midnight b).year = y at hyear
  by_cases h : onMonth (12 * y + (month - 1)) day < b
  · refine ⟨_, Rule.isNext_yearDay (y := y + 1) ?_ (by simpa using h), by simp [h]⟩
    have := onMonth_lt (d := dayOf b) (show monthOf b < 12 * (y + 1) + (month - 1) by omega) hd
    simpa using this.le
  · refine ⟨_, Rule.isNext_yearDay (y := y) (not_lt.1 h) ?_, by simp [h]⟩
    have := onMonth_lt (d := day) (show 12 * (y - 1) + (month - 1) < monthOf b by omega) hday.1
    simpa using this

/-! ## The code returns the first date of the row's rule -/

theorem nextRecurringOccurrenceOnOrAfter_spec {sub : Subscription} {r : Rule} (hr : sub.rule = some r)
    (anchor bound : Time) :
    ∃ x, r.IsNext anchor.day bound.day x ∧ nextRecurringOccurrenceOnOrAfter sub anchor bound = some
    (midnight x) := by
  simp only [nextRecurringOccurrenceOnOrAfter, normalizeDateUTC_eq]
  unfold Subscription.rule at hr
  split_ifs at hr ⊢
  · obtain ⟨count, hc, hr⟩ := Option.bind_eq_some_iff.1 hr
    obtain ⟨x, hx, he⟩ := nextIntervalOccurrence_spec hr anchor.day bound.day
    exact ⟨x, hx, by rw [hc, Option.map_some, he]⟩
  · cases hday : sub.monthlyDay with
    | none => simp [hday] at hr
    | some day =>
      simp only [hday] at hr
      split at hr <;> cases hr
      rename_i h
      obtain ⟨x, hx, he⟩ := nextMonthlyDayOccurrence_spec h.1 anchor.day bound.day
      exact ⟨x, hx, by rw [Option.map_some, he]⟩
  · cases hmonth : sub.yearlyMonth <;> cases hday : sub.yearlyDay <;> simp only
      [hmonth, hday, reduceCtorEq] at hr
    rename_i month day
    split at hr <;> cases hr
    rename_i h
    obtain ⟨x, hx, he⟩ := nextYearlyDateOccurrence_spec h.1 h.2.1 anchor.day bound.day
    exact ⟨x, hx, by simp only [he]⟩

/-- Occurrences after a date come strictly later. -/
theorem nextRecurringOccurrenceAfter_spec {sub : Subscription} {r : Rule} (hr : sub.rule = some r)
    (n : Int) :
    ∃ x, r.IsNext n (n + 1) x ∧ nextRecurringOccurrenceAfter sub (midnight n) = some (midnight x) := by
  have h := nextRecurringOccurrenceOnOrAfter_spec hr (midnight n) ((midnight n).addDays 1)
  simpa [nextRecurringOccurrenceAfter] using h

/-- The checks of the roll are those of `isRecurringScheduleValid`. -/
theorem checkedOccurrence_eq (sub : Subscription) (a b : Int) :
    checkedOccurrence sub (midnight a) (midnight b) =
      if isRecurringScheduleValid sub then nextRecurringOccurrenceOnOrAfter sub (midnight a)
        (midnight b) else none := by
  unfold checkedOccurrence isRecurringScheduleValid nextRecurringOccurrenceOnOrAfter
  simp only [normalizeDateUTC_eq, midnight_day]
  by_cases h1 : sub.recurrenceType = recurrenceTypeInterval
  · simp only [if_pos h1]
    cases sub.intervalCount with
    | none => simp
    | some count => grind
  · simp only [if_neg h1]
    by_cases h2 : sub.recurrenceType = recurrenceTypeMonthlyDate
    · simp only [if_pos h2]
      cases sub.monthlyDay with
      | none => simp
      | some day => grind
    · simp only [if_neg h2]
      by_cases h3 : sub.recurrenceType = recurrenceTypeYearlyDate
      · simp only [if_pos h3]
        cases sub.yearlyMonth <;> cases sub.yearlyDay <;> grind
      · simp [if_neg h3]

/-- The roll of a stored date: it stays while it is not past or the schedule is
not valid, and otherwise moves to the first date of the rule from `referenceDate`. -/
theorem nextRecurringBillingDateOnOrAfter_spec {sub : Subscription}
    (hb : sub.billingType = billingTypeRecurring) {date : Time}
    (hdate : sub.nextBillingDate = some date) {r : Rule} (hr : sub.rule = some r)
    (referenceDate : Time) : (∃ x, date.day < referenceDate.day ∧ r.IsNext date.day referenceDate.day x ∧
        nextRecurringBillingDateOnOrAfter sub referenceDate = some (midnight x)) ∨
      (referenceDate.day ≤ date.day ∧ nextRecurringBillingDateOnOrAfter sub referenceDate = none) := by
  have hvalid := (isRecurringScheduleValid_iff sub).2 ⟨r, hr⟩
  simp only [nextRecurringBillingDateOnOrAfter, hb, hdate, ne_eq, not_true_eq_false, if_false,
    normalizeDateUTC_eq,
    midnight_before, checkedOccurrence_eq, hvalid, if_true]
  by_cases hlt : date.day < referenceDate.day
  · obtain ⟨x, hx, he⟩ :=
      nextRecurringOccurrenceOnOrAfter_spec hr (midnight date.day) (midnight referenceDate.day)
    simp only [midnight_day] at hx
    have := hx.le
    exact .inl ⟨x, hlt, hx, by simp [hlt, he, show date.day < x by omega]⟩
  · exact .inr ⟨not_lt.1 hlt, by simp [hlt]⟩

end Subdux
