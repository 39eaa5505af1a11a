import Mathlib.Data.Rat.Defs
import Subdux.Lib.GoStrings
import Subdux.Time
/-!
# Subscription rows

The row type of `internal/model/subscription_models.go` and the constants and
normalizations that the service layer shares. Text columns stay strings: rows
written by older versions and request bodies may hold any text, and the code
compares it only after `normalizeStatus` and its siblings.
-/

namespace Subdux
open GoStrings

/-! ## Constants -/

def billingTypeRecurring : String := "recurring"

def subscriptionStatusActive : String := "active"
def subscriptionStatusEnded : String := "ended"

def renewalModeAutoRenew : String := "auto_renew"
def renewalModeManualRenew : String := "manual_renew"
def renewalModeCancelAtPeriodEnd : String := "cancel_at_period_end"

def recurrenceTypeInterval : String := "interval"
def recurrenceTypeMonthlyDate : String := "monthly_date"
def recurrenceTypeYearlyDate : String := "yearly_date"

def intervalUnitDay : String := "day"
def intervalUnitWeek : String := "week"
def intervalUnitMonth : String := "month"
def intervalUnitYear : String := "year"

/-! ## Rows -/

/-- A row of `subscriptions`, without the two time stamps that GORM keeps. Amounts
are exact rationals; `negativeZero` tells the float `-0` of an import file from `0`. -/
structure Subscription where
  id : Nat
  userID : Nat
  name : String
  amount : Rat
  currency : String
  enabled : Bool
  status : String
  renewalMode : String
  endsAt : Option Time
  billingType : String
  recurrenceType : String
  intervalCount : Option Int
  intervalUnit : String
  monthlyDay : Option Int
  yearlyMonth : Option Int
  yearlyDay : Option Int
  nextBillingDate : Option Time
  category : String
  categoryID : Option Nat
  paymentMethodID : Option Nat
  notifyEnabled : Option Bool
  notifyDaysBefore : Option Int
  icon : String
  url : String
  notes : String
  negativeZero : Bool := false
  deriving DecidableEq

/-! ## Normalization of text columns -/

/-- The body that `normalizeStatus` and the other four normalizers share. -/
def lowerTrimmed (value : String) : String := toLower (trimSpace value)

def normalizeStatus (value : String) : String := lowerTrimmed value
def normalizeRenewalMode (value : String) : String := lowerTrimmed value
def normalizeBillingType (value : String) : String := lowerTrimmed value
def normalizeRecurrenceType (value : String) : String := lowerTrimmed value
def normalizeIntervalUnit (value : String) : String := lowerTrimmed value

/-- `if value == "" { value = fallback }`. -/
def orDefault (fallback value : String) : String := if value = "" then fallback else value

def isValidSubscriptionStatus (value : String) : Bool :=
  value = subscriptionStatusActive ∨ value = subscriptionStatusEnded

def isValidRenewalMode (value : String) : Bool :=
  value = renewalModeAutoRenew ∨ value = renewalModeManualRenew ∨ value = renewalModeCancelAtPeriodEnd

def isValidIntervalUnit (unit : String) : Bool :=
  unit = intervalUnitDay ∨ unit = intervalUnitWeek ∨ unit = intervalUnitMonth ∨ unit = intervalUnitYear

/-- Normalizing a constant of the code leaves it alone. -/
theorem lowerTrimmed_const :
    ∀ s ∈ [subscriptionStatusActive, subscriptionStatusEnded, renewalModeAutoRenew,
      renewalModeManualRenew,
      renewalModeCancelAtPeriodEnd, billingTypeRecurring, recurrenceTypeInterval,
        recurrenceTypeMonthlyDate,
      recurrenceTypeYearlyDate, intervalUnitDay, intervalUnitWeek, intervalUnitMonth, intervalUnitYear],
      lowerTrimmed s = s := by
  decide

@[simp] theorem normalizeStatus_active :
    normalizeStatus subscriptionStatusActive = subscriptionStatusActive :=
  lowerTrimmed_const _ (by decide)

@[simp] theorem normalizeStatus_ended :
    normalizeStatus subscriptionStatusEnded = subscriptionStatusEnded :=
  lowerTrimmed_const _ (by decide)

theorem orDefault_of_ne {fallback value : String} (h : value ≠ "") :
    orDefault fallback value = value := if_neg h

theorem orDefault_cases {fallback value result : String} (h : orDefault fallback value = result) :
    (value = "" ∧ fallback = result) ∨ value = result := by
  unfold orDefault at h
  split at h
  · exact .inl ⟨‹_›, h⟩
  · exact .inr h

theorem isValid_active : isValidSubscriptionStatus subscriptionStatusActive = true := by decide

theorem isValid_ended : isValidSubscriptionStatus subscriptionStatusEnded = true := by decide

theorem isValid_manualRenew : isValidRenewalMode renewalModeManualRenew = true := by decide

theorem manualRenew_ne_cancel : renewalModeManualRenew ≠ renewalModeCancelAtPeriodEnd := by decide

theorem autoRenew_ne_cancel : renewalModeAutoRenew ≠ renewalModeCancelAtPeriodEnd := by decide

theorem active_ne_ended : subscriptionStatusActive ≠ subscriptionStatusEnded := by decide

theorem normalizeStatus_valid {s : String} (h : isValidSubscriptionStatus s = true) :
    normalizeStatus s = s := by
  simp only [isValidSubscriptionStatus, decide_eq_true_eq] at h
  rcases h with rfl | rfl
  · exact normalizeStatus_active
  · exact normalizeStatus_ended

theorem status_ne_empty {s : String} (h : isValidSubscriptionStatus s = true) : s ≠ "" := by
  rintro rfl
  exact absurd h (by decide)

theorem renewalMode_ne_empty {s : String} (h : isValidRenewalMode s = true) : s ≠ "" := by
  rintro rfl
  exact absurd h (by decide)

theorem normalizeRenewalMode_valid {s : String} (h : isValidRenewalMode s = true) :
    normalizeRenewalMode s = s := by
  simp only [isValidRenewalMode, decide_eq_true_eq] at h
  rcases h with rfl | rfl | rfl <;> exact lowerTrimmed_const _ (by decide)

/-! ## Checks on a row -/

def subscriptionIsActive (sub : Subscription) : Bool :=
  normalizeStatus sub.status = subscriptionStatusActive

def syncLegacyEnabledForLifecycle (sub : Subscription) : Subscription :=
  { sub with enabled := subscriptionIsActive sub }

/-- `internal/service/notification_scheduler.go`. -/
def cancelAtPeriodEndBoundary (sub : Subscription) : Option Time :=
  match sub.endsAt with
  | some endsAt => some endsAt
  | none => sub.nextBillingDate

def copyTimePointer (value : Option Time) : Option Time := value.map normalizeDateUTC

/-- `internal/service/subscription_dashboard.go`. -/
def isRecurringScheduleValid (sub : Subscription) : Bool :=
  if sub.recurrenceType = recurrenceTypeInterval then
    sub.intervalCount.any (1 ≤ ·) && isValidIntervalUnit sub.intervalUnit
  else if sub.recurrenceType = recurrenceTypeMonthlyDate then
    sub.monthlyDay.any fun d => 1 ≤ d ∧ d ≤ 31
  else if sub.recurrenceType = recurrenceTypeYearlyDate then
    (sub.yearlyMonth.any fun m => 1 ≤ m ∧ m ≤ 12) && (sub.yearlyDay.any fun d => 1 ≤ d ∧ d ≤ 31)
  else false

end Subdux
