import Subdux.Rollover
/-!
# Billing drafts

`internal/service/subscription_billing.go`: what a request may say about a schedule,
and the schedule that is stored. `normalizeBillingDraft_ok` is what holds of every
schedule that was normalized.
-/

namespace Subdux
open GoStrings

/-! ## The code -/

structure BillingDraft where
  billingType : String
  recurrenceType : String
  intervalCount : Option Int
  intervalUnit : String
  nextBillingDate : Option Time
  monthlyDay : Option Int
  yearlyMonth : Option Int
  yearlyDay : Option Int
  deriving DecidableEq

/-- The schedule columns of a row. -/
def Subscription.billing (sub : Subscription) : BillingDraft where
  billingType := sub.billingType
  recurrenceType := sub.recurrenceType
  intervalCount := sub.intervalCount
  intervalUnit := sub.intervalUnit
  nextBillingDate := sub.nextBillingDate
  monthlyDay := sub.monthlyDay
  yearlyMonth := sub.yearlyMonth
  yearlyDay := sub.yearlyDay

def normalizeBillingDraft (draft : BillingDraft) : Except String (BillingDraft × Time) :=
  let billingType := orDefault billingTypeRecurring (normalizeBillingType draft.billingType)
  match draft.nextBillingDate with
  | none => .error "next_billing_date is required for recurring subscriptions"
  | some date =>
    if billingType = billingTypeRecurring then
      let recurrenceType :=
        orDefault recurrenceTypeInterval (normalizeRecurrenceType draft.recurrenceType)
      let nextBillingDate := normalizeDateUTC date
      let draft := { draft with
        billingType := billingType, recurrenceType := recurrenceType,
        nextBillingDate := some nextBillingDate }
      if recurrenceType = recurrenceTypeInterval then
        if !draft.intervalCount.any (1 ≤ ·) then
          .error "interval_count must be at least 1 for interval recurrence"
        else
          let intervalUnit := normalizeIntervalUnit draft.intervalUnit
          if !isValidIntervalUnit intervalUnit then
            .error "interval_unit must be one of: day, week, month, year"
          else
            let draft :=
              { draft with
                intervalUnit := intervalUnit, monthlyDay := none, yearlyMonth := none,
                yearlyDay := none }
            .ok (draft, nextBillingDate)
      else if recurrenceType = recurrenceTypeMonthlyDate then
        if !draft.monthlyDay.any (fun d => 1 ≤ d ∧ d ≤ 31) then
          .error "monthly_day must be between 1 and 31 for monthly date recurrence"
        else
          let draft :=
            { draft with
              intervalCount := none, intervalUnit := "", yearlyMonth := none, yearlyDay := none }
          .ok (draft, nextBillingDate)
      else if recurrenceType = recurrenceTypeYearlyDate then
        if !draft.yearlyMonth.any (fun m => 1 ≤ m ∧ m ≤ 12) then
          .error "yearly_month must be between 1 and 12 for yearly date recurrence"
        else if !draft.yearlyDay.any (fun d => 1 ≤ d ∧ d ≤ 31) then
          .error "yearly_day must be between 1 and 31 for yearly date recurrence"
        else .ok ({ draft with intervalCount := none, intervalUnit := "", monthlyDay := none },
          nextBillingDate)
      else .error "recurrence_type must be one of: interval, monthly_date, yearly_date"
    else .error "billing_type must be recurring"

/-- The number that a list of digits spells. -/
def digitsValue (digits : List Char) : Option Int :=
  digits.foldl (fun n c => n.bind fun n => if c.isDigit
    then some (10 * n + (c.toNat - '0'.toNat : Nat)) else none) (some 0)

/-- `time.Parse("2006-01-02", value)`. -/
def parseDate (value : String) : Option Time :=
  match value.toList with
  | [y₁, y₂, y₃, y₄, '-', m₁, m₂, '-', d₁, d₂] =>
    match digitsValue [y₁, y₂, y₃, y₄], digitsValue [m₁, m₂], digitsValue [d₁, d₂] with
    | some year, some month, some day =>
      if 1 ≤ month ∧ month ≤ 12 ∧ 1 ≤ day ∧ day ≤ daysInMonth year month
        then some (dateUTC year month day) else none
    | _, _, _ => none
  | _ => none

example : parseDate "2024-02-29" = some (dateUTC 2024 2 29) ∧ parseDate "2025-02-29" = none := by
  decide +kernel

def parseOptionalDateString (value : String) : Except String (Option Time) :=
  let trimmed := trimSpace value
  if trimmed = "" then .ok none
  else
    match parseDate trimmed with
    | none => .error "invalid date format, expected YYYY-MM-DD"
    | some parsed => .ok (some (normalizeDateUTC parsed))

/-! ## Normalized schedules -/

/-- Exactly the fields of the recurrence type are set, and in range. -/
inductive BillingDraft.Fields : BillingDraft → Prop where
  | interval {draft : BillingDraft} {count : Int} (type : draft.recurrenceType = recurrenceTypeInterval)
      (intervalCount : draft.intervalCount = some count) (pos : 1 ≤ count)
        (unit : isValidIntervalUnit draft.intervalUnit = true)
      (monthlyDay : draft.monthlyDay = none) (yearlyMonth : draft.yearlyMonth = none)
        (yearlyDay : draft.yearlyDay = none) :
      Fields draft
  | monthlyDate {draft : BillingDraft} {day : Int}
    (type : draft.recurrenceType = recurrenceTypeMonthlyDate)
      (monthlyDay : draft.monthlyDay = some day) (range : 1 ≤ day ∧ day ≤ 31)
        (intervalCount : draft.intervalCount = none)
      (unit : draft.intervalUnit = "") (yearlyMonth : draft.yearlyMonth = none)
        (yearlyDay : draft.yearlyDay = none) :
      Fields draft
  | yearlyDate {draft : BillingDraft} {month day : Int}
    (type : draft.recurrenceType = recurrenceTypeYearlyDate)
      (yearlyMonth : draft.yearlyMonth = some month) (yearlyDay : draft.yearlyDay = some day)
        (months : 1 ≤ month ∧ month ≤ 12)
      (days : 1 ≤ day ∧ day ≤ 31) (intervalCount : draft.intervalCount = none)
        (unit : draft.intervalUnit = "")
      (monthlyDay : draft.monthlyDay = none) : Fields draft

/-- The next billing date is not among the fields. -/
theorem BillingDraft.Fields.setDate {draft : BillingDraft} (h : draft.Fields) (date : Option Time) :
    BillingDraft.Fields { draft with nextBillingDate := date } := by
  cases h with
  | interval type count pos unit day month yearDay =>
    exact .interval type count pos unit day month yearDay
  | monthlyDate type day range count unit month yearDay =>
    exact .monthlyDate type day range count unit month yearDay
  | yearlyDate type month yearDay months days count unit day =>
    exact .yearlyDate type month yearDay months days count unit day

/-- What is stored of a schedule. -/
structure BillingDraft.Normalized (draft : BillingDraft) (date : Time) : Prop where
  billingType : draft.billingType = billingTypeRecurring
  fields : draft.Fields
  nextBillingDate : draft.nextBillingDate = some date
  isMidnight : normalizeDateUTC date = date

theorem normalizeDateUTC_idem (t : Time) :
    normalizeDateUTC (normalizeDateUTC t) = normalizeDateUTC t := by simp

theorem normalizeBillingDraft_ok {draft normalized : BillingDraft} {date : Time}
    (h : normalizeBillingDraft draft = .ok (normalized, date)) : normalized.Normalized date := by
  unfold normalizeBillingDraft at h
  cases hdate : draft.nextBillingDate with
  | none => simp [hdate] at h
  | some stored =>
    simp only [hdate] at h
    have hmidnight := normalizeDateUTC_idem stored
    -- What the normalizers return does not matter, only the checks on it.
    generalize normalizeDateUTC stored = midnight at h hmidnight
    generalize orDefault billingTypeRecurring (normalizeBillingType draft.billingType) = billingType at h
    generalize orDefault recurrenceTypeInterval
      (normalizeRecurrenceType draft.recurrenceType) = recurrenceType at h
    generalize normalizeIntervalUnit draft.intervalUnit = intervalUnit at h
    split at h
    case isFalse => simp at h
    rename_i hbilling
    split at h
    · rename_i htype
      split at h
      · simp at h
      rename_i hcount
      split at h
      · simp at h
      rename_i hunit
      obtain ⟨count, hcount, hpos⟩ : ∃ count, draft.intervalCount = some count ∧ 1 ≤ count := by
        simpa [Option.any_eq_true] using hcount
      simp only [Except.ok.injEq, Prod.mk.injEq] at h
      obtain ⟨rfl, rfl⟩ := h
      exact ⟨hbilling, .interval htype hcount hpos (by simpa using hunit) rfl rfl rfl, rfl, hmidnight⟩
    · split at h
      · rename_i htype
        split at h
        · simp at h
        rename_i hday
        obtain ⟨day, hday, hrange⟩ : ∃ day, draft.monthlyDay = some day ∧ 1 ≤ day ∧ day ≤ 31 := by
          simpa [Option.any_eq_true] using hday
        simp only [Except.ok.injEq, Prod.mk.injEq] at h
        obtain ⟨rfl, rfl⟩ := h
        exact ⟨hbilling, .monthlyDate htype hday hrange rfl rfl rfl rfl, rfl, hmidnight⟩
      · split at h
        case isFalse => simp at h
        rename_i htype
        split at h
        · simp at h
        rename_i hmonth
        split at h
        · simp at h
        rename_i hday
        obtain ⟨month, hmonth, hmonths⟩ : ∃ month, draft.yearlyMonth = some month ∧ 1 ≤ month ∧
            month ≤ 12 := by
          simpa [Option.any_eq_true] using hmonth
        obtain ⟨day, hday, hdays⟩ : ∃ day, draft.yearlyDay = some day ∧ 1 ≤ day ∧ day ≤ 31 := by
          simpa [Option.any_eq_true] using hday
        simp only [Except.ok.injEq, Prod.mk.injEq] at h
        obtain ⟨rfl, rfl⟩ := h
        exact ⟨hbilling, .yearlyDate htype hmonth hday hmonths hdays rfl rfl rfl, rfl, hmidnight⟩

/-- Storing the date does not change it. -/
theorem BillingDraft.Normalized.copy {draft : BillingDraft} {date : Time} (h : draft.Normalized date) :
    { draft with nextBillingDate := copyTimePointer (some date) } = draft := by
  rw [copyTimePointer, Option.map_some, h.isMidnight, ← h.nextBillingDate]

theorem BillingDraft.Normalized.exists_midnight {draft : BillingDraft} {date : Time}
    (h : draft.Normalized date) :
    ∃ n, date = midnight n :=
  ⟨date.day, by rw [← normalizeDateUTC_eq, h.isMidnight]⟩

/-- A normalized schedule is normalized to itself. -/
theorem BillingDraft.Normalized.fixed {draft : BillingDraft} {date : Time} (h : draft.Normalized date) :
    normalizeBillingDraft draft = .ok (draft, date) := by
  obtain ⟨hbilling, hfields, hdate, hmidnight⟩ := h
  obtain ⟨billingType, recurrenceType, intervalCount, intervalUnit, nextBillingDate, monthlyDay,
      yearlyMonth, yearlyDay⟩ := draft
  dsimp only at hbilling hdate
  subst hbilling hdate
  have hbillingType : orDefault billingTypeRecurring
      (normalizeBillingType billingTypeRecurring) = billingTypeRecurring := by decide
  unfold normalizeBillingDraft
  dsimp only
  rw [hbillingType, if_pos rfl, hmidnight]
  cases hfields with
  | interval type count pos unit day month yearDay =>
    dsimp only at type count unit day month yearDay
    subst type count day month yearDay
    have htype : orDefault recurrenceTypeInterval
        (normalizeRecurrenceType recurrenceTypeInterval) = recurrenceTypeInterval := by decide
    have hunit : normalizeIntervalUnit intervalUnit = intervalUnit := by
      simp only [isValidIntervalUnit, decide_eq_true_eq] at unit
      rcases unit with rfl | rfl | rfl | rfl <;> exact lowerTrimmed_const _ (by decide)
    rw [htype, if_pos rfl, hunit, unit]
    simp [pos]
  | monthlyDate type day range count unit month yearDay =>
    dsimp only at type day count unit month yearDay
    subst type day count unit month yearDay
    have htype : orDefault recurrenceTypeInterval
        (normalizeRecurrenceType recurrenceTypeMonthlyDate) = recurrenceTypeMonthlyDate := by
      decide
    rw [htype, if_neg (by decide), if_pos rfl]
    simp [range]
  | yearlyDate type month yearDay months days count unit day =>
    dsimp only at type month yearDay count unit day
    subst type month yearDay count unit day
    have htype : orDefault recurrenceTypeInterval
        (normalizeRecurrenceType recurrenceTypeYearlyDate) = recurrenceTypeYearlyDate := by
      decide
    rw [htype, if_neg (by decide), if_neg (by decide), if_pos rfl]
    simp [months, days]

/-- Trimming and lower-casing the texts of a schedule first changes nothing. -/
theorem normalizeBillingDraft_lowered {draft : BillingDraft} {result : BillingDraft × Time}
    (h : normalizeBillingDraft draft = .ok result) :
    normalizeBillingDraft { draft with
      billingType := lowerTrimmed draft.billingType
      recurrenceType := lowerTrimmed draft.recurrenceType
      intervalUnit := lowerTrimmed draft.intervalUnit
      nextBillingDate := copyTimePointer draft.nextBillingDate } = .ok result := by
  have hconst : ∀ s ∈
      ["", billingTypeRecurring, recurrenceTypeInterval, recurrenceTypeMonthlyDate,
       recurrenceTypeYearlyDate,
      intervalUnitDay, intervalUnitWeek, intervalUnitMonth, intervalUnitYear],
        lowerTrimmed s = s := by decide
  unfold normalizeBillingDraft at h ⊢
  simp only [normalizeBillingType, normalizeRecurrenceType, normalizeIntervalUnit] at h ⊢
  obtain ⟨billingType, hbillingType⟩ : ∃ s, lowerTrimmed draft.billingType = s := ⟨_, rfl⟩
  obtain ⟨recurrenceType, hrecurrenceType⟩ : ∃ s, lowerTrimmed draft.recurrenceType = s := ⟨_, rfl⟩
  obtain ⟨intervalUnit, hintervalUnit⟩ : ∃ s, lowerTrimmed draft.intervalUnit = s := ⟨_, rfl⟩
  simp only [hbillingType, hrecurrenceType, hintervalUnit] at h ⊢
  cases hdate : draft.nextBillingDate with
  | none =>
    rw [hdate] at h
    simp only [reduceCtorEq] at h
  | some date =>
    rw [hdate] at h
    simp only [copyTimePointer, Option.map_some, normalizeDateUTC_idem] at h ⊢
    -- The texts are constants of the code, or blank, wherever the schedule is accepted.
    by_cases hbilling : orDefault billingTypeRecurring billingType = billingTypeRecurring
    case neg =>
      rw [if_neg hbilling] at h
      simp only [reduceCtorEq] at h
    have hbilling' : lowerTrimmed billingType = billingType := by
      rcases orDefault_cases hbilling with ⟨rfl, -⟩ | rfl <;> exact hconst _ (by simp)
    rw [if_pos hbilling] at h
    rw [hbilling', if_pos hbilling]
    by_cases htype : orDefault recurrenceTypeInterval recurrenceType = recurrenceTypeInterval
    · have htype' : lowerTrimmed recurrenceType = recurrenceType := by
        rcases orDefault_cases htype with ⟨rfl, -⟩ | rfl <;> exact hconst _ (by simp)
      rw [htype', if_pos htype]
      rw [if_pos htype] at h
      split at h
      · simp only [reduceCtorEq] at h
      rename_i hcount
      rw [if_neg hcount]
      by_cases hunit : isValidIntervalUnit intervalUnit = true
      · have hunit' : lowerTrimmed intervalUnit = intervalUnit := by
          simp only [isValidIntervalUnit, decide_eq_true_eq] at hunit
          rcases hunit with rfl | rfl | rfl | rfl <;> exact hconst _ (by simp)
        rw [hunit']
        exact h
      · rw [Bool.not_eq_true] at hunit
        rw [hunit] at h
        simp only [Bool.not_false, if_true, reduceCtorEq] at h
    · have htype' : orDefault recurrenceTypeInterval recurrenceType = recurrenceTypeMonthlyDate ∨
          orDefault recurrenceTypeInterval recurrenceType = recurrenceTypeYearlyDate := by
        by_contra hneither
        rw [not_or] at hneither
        rw [if_neg htype, if_neg hneither.1, if_neg hneither.2] at h
        simp only [reduceCtorEq] at h
      have hlowered : lowerTrimmed recurrenceType = recurrenceType := by
        rcases htype' with htype' | htype' <;> rcases orDefault_cases htype'
          with ⟨rfl, -⟩ | rfl <;> exact hconst _ (by simp)
      rw [if_neg htype] at h
      rw [hlowered, if_neg htype]
      exact h

end Subdux
