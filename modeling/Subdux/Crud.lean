import Subdux.Billing
import Subdux.Lifecycle
/-!
# Writing a subscription

`Create` and `Update` of `internal/service/subscription_crud.go` and
`MarkManualRenewed` of `internal/service/subscription_actions.go`. A call reads the
clock more than once, and each reading is an argument. What a request computes from
the row it loaded (`subscriptionUpdates`, `manualRenewal`) is kept apart from the
statements around it, which other calls may come between.
-/

namespace Subdux
open GoStrings Rows

/-! ## Requests -/

structure CreateSubscriptionInput where
  name : String
  amount : Rat
  currency : String
  status : String
  renewalMode : String
  endsAt : String
  billingType : String
  recurrenceType : String
  intervalCount : Option Int
  intervalUnit : String
  nextBillingDate : String
  monthlyDay : Option Int
  yearlyMonth : Option Int
  yearlyDay : Option Int
  category : String
  categoryID : Option Nat
  paymentMethodID : Option Nat
  notifyEnabled : Option Bool
  notifyDaysBefore : Option Int
  icon : String
  url : String
  notes : String

/-- The flags are set for a field that was sent as null. -/
structure UpdateSubscriptionInput where
  name : Option String := none
  amount : Option Rat := none
  currency : Option String := none
  status : Option String := none
  renewalMode : Option String := none
  endsAt : Option String := none
  billingType : Option String := none
  recurrenceType : Option String := none
  intervalCount : Option Int := none
  intervalUnit : Option String := none
  nextBillingDate : Option String := none
  monthlyDay : Option Int := none
  yearlyMonth : Option Int := none
  yearlyDay : Option Int := none
  category : Option String := none
  categoryID : Option Nat := none
  paymentMethodID : Option Nat := none
  notifyEnabled : Option Bool := none
  notifyDaysBefore : Option Int := none
  icon : Option String := none
  url : Option String := none
  notes : Option String := none
  categoryIDSet : Bool := false
  paymentMethodIDSet : Bool := false
  notifyEnabledSet : Bool := false
  notifyDaysBeforeSet : Bool := false

def UpdateSubscriptionInput.hasScheduleUpdate (input : UpdateSubscriptionInput) : Bool :=
  input.billingType.isSome || input.recurrenceType.isSome || input.intervalCount.isSome ||
    input.intervalUnit.isSome ||
    input.nextBillingDate.isSome || input.monthlyDay.isSome || input.yearlyMonth.isSome ||
      input.yearlyDay.isSome

def UpdateSubscriptionInput.hasLifecycleUpdate (input : UpdateSubscriptionInput) : Bool :=
  input.status.isSome || input.renewalMode.isSome || input.endsAt.isSome || input.hasScheduleUpdate

/-! ## Checks of single fields -/

/-- What `url.Parse` returns, as far as it is looked at. -/
structure ParsedURL where
  scheme : String
  host : String
  hostname : String
  text : String

/-- What a request finds outside the table: the URL parser, and the categories and
payment methods of the user. -/
structure Lookups where
  parseURL : String → Option ParsedURL
  hasCategory : Nat → Bool
  hasPaymentMethod : Nat → Bool

def errInvalidSubscriptionURL : String := "subscription url must be a valid http or https URL"

/-- `unicode.IsControl`. -/
def isControl (c : Char) : Bool := c.toNat < 0x20 || (0x7F ≤ c.toNat && c.toNat < 0xA0)

/-- `internal/service/subscription_url.go`. -/
def normalizeSubscriptionURL (parseURL : String → Option ParsedURL) (raw : String) :
    Except String String :=
  let trimmed := trimSpace raw
  if trimmed = "" then .ok ""
  else if trimmed.toList.any isSpace || trimmed.toList.any isControl then
    .error errInvalidSubscriptionURL
  else
    match parseURL trimmed with
    | none => .error errInvalidSubscriptionURL
    | some parsed =>
      if (parsed.scheme ≠ "http" ∧ parsed.scheme ≠ "https") ∨ parsed.host = "" ∨
        parsed.hostname = "" then
        .error errInvalidSubscriptionURL
      else .ok parsed.text

/-- `validateCategory` and `validatePaymentMethod`; the id 0 clears the column. -/
def ownedRef (owns : Nat → Bool) (missing : String) : Option Nat → Except String (Option Nat)
  | none | some 0 => .ok none
  | some id => if owns id then .ok (some id) else .error missing

def maxNotificationDaysBefore : Int := 10

def validateNotifyDaysBefore (value : Option Int) : Except String (Option Int) :=
  if value.any fun days => days < 0 ∨ maxNotificationDaysBefore < days then
    .error s!"notify_days_before must be between 0 and {maxNotificationDaysBefore}"
  else .ok value

/-! ## The table -/

/-- Ids are handed out once (`AUTOINCREMENT`). -/
structure SubscriptionTable where
  rows : List Subscription
  nextID : Nat

/-- The `CHECK` constraints of the table. -/
def Subscription.meetsChecks (sub : Subscription) : Bool :=
  decide (0 ≤ sub.amount) && isValidSubscriptionStatus sub.status &&
    isValidRenewalMode sub.renewalMode &&
    sub.notifyDaysBefore.all fun days => decide (0 ≤ days ∧ days ≤ maxNotificationDaysBefore)

/-- `tx.Create`. A zero value in a column with a default is replaced by the default,
which makes every new row `enabled`. The database stores `-0` as `0`. -/
def insertSubscription (sub : Subscription) (table : SubscriptionTable) :
    Option (Subscription × SubscriptionTable) :=
  let sub := { sub with
    id := table.nextID
    currency := orDefault "USD" sub.currency
    enabled := true
    status := orDefault subscriptionStatusActive sub.status
    renewalMode := orDefault renewalModeAutoRenew sub.renewalMode
    billingType := orDefault billingTypeRecurring sub.billingType
    negativeZero := false }
  if sub.meetsChecks then some (sub, ⟨table.rows ++ [sub], table.nextID + 1⟩) else none

def isRow (userID id : Nat) (row : Subscription) : Bool := row.id = id && row.userID = userID

/-- `Updates` of the row with this id and owner; `none` when a check fails. -/
def updateSubscription (userID id : Nat) (set : Subscription → Subscription) (rows : List Subscription) :
    Option (List Subscription) :=
  if rows.all fun row => !isRow userID id row || (set row).meetsChecks then
    some (updateWhere (isRow userID id) set rows)
  else none

def errConstraintFailed : String := "CHECK constraint failed"
def errRecordNotFound : String := "record not found"

/-! ## Create -/

/-- The row that a request asks for. -/
def newSubscription (lookups : Lookups) (userID : Nat) (input : CreateSubscriptionInput) (now : Time) :
    Except String Subscription := do
  let subscriptionURL ← normalizeSubscriptionURL lookups.parseURL input.url
  let nextBillingDate ← parseOptionalDateString input.nextBillingDate
  let endsAt ← parseOptionalDateString input.endsAt
  let (draft, nextBillingDate) ← normalizeBillingDraft
    { billingType := input.billingType, recurrenceType := input.recurrenceType,
      intervalCount := input.intervalCount
      intervalUnit := input.intervalUnit, nextBillingDate := nextBillingDate, monthlyDay :=
        input.monthlyDay
      yearlyMonth := input.yearlyMonth, yearlyDay := input.yearlyDay }
  let lifecycle ← normalizeLifecycleDraft ⟨input.status, input.renewalMode, endsAt⟩
    (some nextBillingDate) now
  let categoryID ← ownedRef lookups.hasCategory "category not found" input.categoryID
  let paymentMethodID ← ownedRef lookups.hasPaymentMethod "payment method not found"
    input.paymentMethodID
  let notifyDaysBefore ← validateNotifyDaysBefore input.notifyDaysBefore
  return syncLegacyEnabledForLifecycle
    { id := 0
      userID := userID
      name := input.name
      amount := input.amount
      currency := orDefault "USD" (trimSpace input.currency)
      enabled := false
      status := lifecycle.status
      renewalMode := lifecycle.renewalMode
      endsAt := copyTimePointer lifecycle.endsAt
      billingType := draft.billingType
      recurrenceType := draft.recurrenceType
      intervalCount := draft.intervalCount
      intervalUnit := draft.intervalUnit
      monthlyDay := draft.monthlyDay
      yearlyMonth := draft.yearlyMonth
      yearlyDay := draft.yearlyDay
      nextBillingDate := copyTimePointer (some nextBillingDate)
      category := input.category
      categoryID := categoryID
      paymentMethodID := paymentMethodID
      notifyEnabled := input.notifyEnabled
      notifyDaysBefore := notifyDaysBefore
      icon := input.icon
      url := subscriptionURL
      notes := input.notes }

def create (lookups : Lookups) (userID : Nat) (input : CreateSubscriptionInput) (now : Time)
    (table : SubscriptionTable) :
    Except String Subscription × SubscriptionTable :=
  match newSubscription lookups userID input now with
  | .error err => (.error err, table)
  | .ok sub =>
    match insertSubscription sub table with
    | none => (.error errConstraintFailed, table)
    | some (sub, table) => (.ok sub, table)

/-! ## Update -/

/-- The `updates` map: a column that is `none` is not written. -/
structure SubscriptionUpdates where
  name : Option String
  amount : Option Rat
  currency : Option String
  category : Option String
  categoryID : Option (Option Nat)
  paymentMethodID : Option (Option Nat)
  icon : Option String
  url : Option String
  notes : Option String
  notifyEnabled : Option (Option Bool)
  notifyDaysBefore : Option (Option Int)
  schedule : Option BillingDraft
  lifecycle : Option LifecycleDraft

/-- A column that is written when the request has its field. -/
def optionalColumn {α : Type} (isSet : Bool) (column : Except String α) : Except String (Option α) :=
  if isSet then column.map some else .ok none

/-- A date of a request, or the stored one. -/
def dateColumn (value : Option String) (stored : Option Time) : Except String (Option Time) :=
  match value with
  | none => .ok (copyTimePointer stored)
  | some value => parseOptionalDateString value

/-- The schedule columns of an update, `nextBillingDate` among them. -/
def scheduleUpdate (input : UpdateSubscriptionInput) (sub : Subscription) :
    Except String BillingDraft := do
  let nextBillingDate ← dateColumn input.nextBillingDate sub.nextBillingDate
  let (draft, date) ← normalizeBillingDraft
    { billingType := input.billingType.getD sub.billingType
      recurrenceType := input.recurrenceType.getD sub.recurrenceType
      intervalCount := input.intervalCount.or sub.intervalCount
      intervalUnit := input.intervalUnit.getD sub.intervalUnit
      nextBillingDate := nextBillingDate
      monthlyDay := input.monthlyDay.or sub.monthlyDay
      yearlyMonth := input.yearlyMonth.or sub.yearlyMonth
      yearlyDay := input.yearlyDay.or sub.yearlyDay }
  return { draft with nextBillingDate := copyTimePointer (some date) }

/-- The lifecycle columns of an update; `enabled` follows from the status. -/
def lifecycleUpdate (input : UpdateSubscriptionInput) (sub : Subscription)
    (schedule : Option BillingDraft) (now : Time) :
    Except String LifecycleDraft := do
  let nextBillingDate := schedule.elim sub.nextBillingDate (·.nextBillingDate)
  let endsAt ← dateColumn input.endsAt sub.endsAt
  let lifecycle ← normalizeLifecycleDraft
    ⟨input.status.getD sub.status, input.renewalMode.getD sub.renewalMode, endsAt⟩ nextBillingDate now
  return { lifecycle with endsAt := copyTimePointer lifecycle.endsAt }

/-- The map that `Update` builds from the row it loaded. -/
def subscriptionUpdates (lookups : Lookups) (input : UpdateSubscriptionInput) (sub : Subscription)
    (now : Time) :
    Except String SubscriptionUpdates := do
  let categoryID ← optionalColumn (input.categoryIDSet || input.categoryID.isSome)
    (ownedRef lookups.hasCategory "category not found" input.categoryID)
  let paymentMethodID ← optionalColumn (input.paymentMethodIDSet || input.paymentMethodID.isSome)
    (ownedRef lookups.hasPaymentMethod "payment method not found" input.paymentMethodID)
  let url ← optionalColumn input.url.isSome
    (normalizeSubscriptionURL lookups.parseURL (input.url.getD ""))
  let notifyDaysBefore ← optionalColumn (input.notifyDaysBeforeSet || input.notifyDaysBefore.isSome)
    (validateNotifyDaysBefore input.notifyDaysBefore)
  let schedule ← optionalColumn input.hasScheduleUpdate (scheduleUpdate input sub)
  let lifecycle ← optionalColumn input.hasLifecycleUpdate (lifecycleUpdate input sub schedule now)
  return {
    name := input.name
    amount := input.amount
    currency := input.currency.map trimSpace
    category := input.category
    categoryID := categoryID
    paymentMethodID := paymentMethodID
    icon := input.icon
    url := url
    notes := input.notes
    notifyEnabled :=
      if input.notifyEnabledSet || input.notifyEnabled.isSome then some input.notifyEnabled else none
    notifyDaysBefore := notifyDaysBefore
    schedule := schedule
    lifecycle := lifecycle }

def Subscription.setSchedule (row : Subscription) : Option BillingDraft → Subscription
  | none => row
  | some draft => { row with
      billingType := draft.billingType, recurrenceType := draft.recurrenceType, intervalCount :=
        draft.intervalCount
      intervalUnit := draft.intervalUnit, monthlyDay := draft.monthlyDay, yearlyMonth :=
        draft.yearlyMonth
      yearlyDay := draft.yearlyDay, nextBillingDate := draft.nextBillingDate }

def Subscription.setLifecycle (row : Subscription) : Option LifecycleDraft → Subscription
  | none => row
  | some lifecycle => { row with
      status := lifecycle.status, renewalMode := lifecycle.renewalMode, endsAt := lifecycle.endsAt
      enabled := lifecycle.status = subscriptionStatusActive }

def SubscriptionUpdates.setDetails (updates : SubscriptionUpdates) (row : Subscription) : Subscription :=
  { row with
    name := updates.name.getD row.name
    amount := updates.amount.getD row.amount
    currency := updates.currency.getD row.currency
    category := updates.category.getD row.category
    categoryID := updates.categoryID.getD row.categoryID
    paymentMethodID := updates.paymentMethodID.getD row.paymentMethodID
    icon := updates.icon.getD row.icon
    url := updates.url.getD row.url
    notes := updates.notes.getD row.notes
    notifyEnabled := updates.notifyEnabled.getD row.notifyEnabled
    notifyDaysBefore := updates.notifyDaysBefore.getD row.notifyDaysBefore }

/-- `Updates(updates)` on one row. -/
def SubscriptionUpdates.apply (updates : SubscriptionUpdates) (row : Subscription) : Subscription :=
  ((updates.setDetails row).setSchedule updates.schedule).setLifecycle updates.lifecycle

/-- The clock readings of a call: for `reconcileSubscriptionForWrite`, for `GetByID`
and for `normalizeLifecycleDraft`; and the row's `updated_at` before and after. -/
structure Readings where
  reconcile : Time
  read : Time
  lifecycle : Time
  updatedBefore : Time
  updatedAfter : Time

/-- The transaction that ends `Update` and `MarkManualRenewed`. -/
def commitUpdates (userID id : Nat) (set : Subscription → Subscription) (updatedAt : Time)
    (rows : List Subscription) :
    Except String Subscription × List Subscription :=
  match updateSubscription userID id set rows with
  | none => (.error errConstraintFailed, rows)
  | some rows =>
    match findSubscription userID id rows with
    | none => (.error errRecordNotFound, rows)
    | some updated => (.ok (normalizeSubscriptionForResponse updated updatedAt), rows)

def update (lookups : Lookups) (userID id : Nat) (input : UpdateSubscriptionInput) (readings : Readings)
    (rows : List Subscription) : Except String Subscription × List Subscription :=
  let rows := reconcileSubscriptionForWrite userID id readings.reconcile rows
  match findSubscription userID id rows with
  | none => (.error errRecordNotFound, rows)
  | some sub =>
    let sub := presentSubscriptionForResponse sub readings.updatedBefore readings.read
    match subscriptionUpdates lookups input sub readings.lifecycle with
    | .error err => (.error err, rows)
    | .ok updates => commitUpdates userID id updates.apply readings.updatedAfter rows

/-! ## MarkManualRenewed -/

/-- The next billing date that a manual renewal sets. -/
def manualRenewal (sub : Subscription) : Except String Time :=
  if normalizeStatus sub.status ≠ subscriptionStatusActive then
    .error "only active subscriptions can be marked as renewed"
  else if normalizeRenewalMode sub.renewalMode ≠ renewalModeManualRenew then
    .error "only manual_renew subscriptions can be marked as renewed"
  else if normalizeBillingType sub.billingType ≠ billingTypeRecurring then
    .error "only recurring subscriptions can be marked as renewed"
  else
    match sub.nextBillingDate with
    | none => .error "next_billing_date is required to mark subscription as renewed"
    | some current =>
      if !isRecurringScheduleValid sub then .error "subscription recurrence settings are invalid"
      else
        match nextRecurringOccurrenceAfter sub current with
        | none => .error "failed to calculate next billing date"
        | some nextBillingDate => .ok (normalizeDateUTC nextBillingDate)

/-- The five columns that a manual renewal writes. -/
def manualRenewed (nextBillingDate : Time) (row : Subscription) : Subscription :=
  { row with
    nextBillingDate := some nextBillingDate, status := subscriptionStatusActive, renewalMode :=
      renewalModeManualRenew
    endsAt := none, enabled := true }

def markManualRenewed (userID id : Nat) (readings : Readings) (rows : List Subscription) :
    Except String Subscription × List Subscription :=
  let rows := reconcileSubscriptionForWrite userID id readings.reconcile rows
  match findSubscription userID id rows with
  | none => (.error errRecordNotFound, rows)
  | some sub =>
    let sub := presentSubscriptionForResponse sub readings.updatedBefore readings.read
    match manualRenewal sub with
    | .error err => (.error err, rows)
    | .ok nextBillingDate =>
      commitUpdates userID id (manualRenewed nextBillingDate) readings.updatedAfter rows

/-! ## Keys -/

theorem SubscriptionUpdates.apply_id (updates : SubscriptionUpdates) (row : Subscription) :
    (updates.apply row).id = row.id := by
  unfold SubscriptionUpdates.apply
  cases updates.schedule <;> cases updates.lifecycle <;> rfl

theorem SubscriptionUpdates.apply_userID (updates : SubscriptionUpdates) (row : Subscription) :
    (updates.apply row).userID = row.userID := by
  unfold SubscriptionUpdates.apply
  cases updates.schedule <;> cases updates.lifecycle <;> rfl

theorem manualRenewed_id (date : Time) (row : Subscription) : (manualRenewed date row).id = row.id := rfl

theorem manualRenewed_userID (date : Time) (row : Subscription) :
    (manualRenewed date row).userID = row.userID := rfl

end Subdux
