import Mathlib.Data.List.Sort
import Subdux.BackupSchedule
import Subdux.ChannelReminders
import Subdux.Lifecycle
import Subdux.Outbox
import Subdux.PriceHistory
/-!
# The action centre

`internal/service/subscription_actions_center.go`: the actions of `GetActionCenter`, from
the subscriptions, the notification logs and the price events of a user. A query's `ORDER BY`
is a sort, and the columns `updated_at` of the subscriptions are a function of their ids.

`failure_actions_iff` says which failed deliveries are shown.
-/

namespace Subdux
open GoStrings Rows

def actionTypeUpcomingRenewal : String := "upcoming_renewal"
def actionTypeManualRenewalDue : String := "manual_renewal_due"
def actionTypeEndingSoon : String := "ending_soon"
def actionTypeNotificationFailed : String := "notification_failed"
def actionTypeMissingNextBilling : String := "missing_next_billing"
def actionTypePriceIncrease : String := "price_increase"
def actionSeverityCritical : String := "critical"
def actionSeverityHigh : String := "high"
def actionSeverityMedium : String := "medium"
def actionSeverityLow : String := "low"
def actionCenterUpcomingDays : Int := 30
def actionCenterUrgentDays : Int := 7
def actionCenterRecentChangeDays : Int := 30
def actionCenterFailedLogDays : Int := 30

/-- The times are kept as the texts that are parsed to sort the actions. -/
structure SubscriptionAction where
  key : String
  type : String
  severity : String
  needsDecision : Bool := false
  needsRepair : Bool := false
  upcomingCharge : Bool := false
  subscriptionID : Nat
  subscriptionName : String
  subscriptionIcon : String
  amount : Rat
  currency : String
  renewalMode : String
  status : String
  dueDate : Option String := none
  daysUntil : Option Int := none
  eventDate : Option Timestamp := none
  message : String
  detail : String
  previousMonthlyAmount : Option Rat := none
  newMonthlyAmount : Option Rat := none
  deltaMonthlyAmount : Option Rat := none
  deltaPercentage : Option Rat := none
  notificationChannel : String := ""
  notificationError : String := ""
  allowedActions : List String
  deriving DecidableEq

/-- A row of `notification_logs`. -/
structure LogRow extends NotificationLog where
  id : Nat
  deriving DecidableEq

/-- A row of `subscription_action_snoozes`. -/
structure SubscriptionActionSnooze where
  id : Nat
  userID : Nat
  subscriptionID : Nat
  actionKey : String
  snoozedUntil : Time
  createdAt : Time
  updatedAt : Time
  deriving DecidableEq

/-- The tables that the action centre reads. -/
structure ActionStore where
  subs : List Subscription
  updatedAt : Nat → Time
  logs : List LogRow
  events : List SubscriptionEvent
  snoozes : List SubscriptionActionSnooze
  nextSnoozeID : Nat

def subscriptionActionKey (subscriptionID : Nat) (actionType qualifier : String) : String :=
  let parts := ["subscription:" ++ toString subscriptionID, actionType]
  ":".intercalate (if trimSpace qualifier ≠ "" then parts ++ [trimSpace qualifier] else parts)

example : subscriptionActionKey 7 actionTypeNotificationFailed " smtp" =
    "subscription:7:notification_failed:smtp" ∧
    subscriptionActionKey 7 actionTypeMissingNextBilling "" =
    "subscription:7:missing_next_billing" := by decide +kernel

/-! ## Subscriptions -/

/-- The fields that every action takes from its subscription. -/
def newAction (sub : Subscription) (key type severity message detail : String)
    (allowedActions : List String) : SubscriptionAction where
  key := key
  type := type
  severity := severity
  subscriptionID := sub.id
  subscriptionName := sub.name
  subscriptionIcon := sub.icon
  amount := sub.amount
  currency := toUpper (trimSpace sub.currency)
  renewalMode := normalizeRenewalMode sub.renewalMode
  status := normalizeStatus sub.status
  message := message
  detail := detail
  allowedActions := allowedActions

def newScheduleAction (sub : Subscription) (actionType severity : String)
    (needsDecision upcomingCharge : Bool) (dueDate : Time) (daysUntil : Int)
    (message detail : String) (allowedActions : List String) : SubscriptionAction :=
  let date := dueDate.formatDate
  { newAction sub (subscriptionActionKey sub.id actionType date) actionType severity message detail
    allowedActions with
    needsDecision := needsDecision
    upcomingCharge := upcomingCharge
    dueDate := some date
    daysUntil := some daysUntil }

/-- `int(date.Sub(today).Hours() / 24)`. -/
def actionDaysUntil (date today : Time) : Int := (date.sub today).tdiv nsPerDay

/-- The severity of a date that is not close, close, and reached. -/
def scheduleSeverity (later urgent due : String) (daysUntil : Int) : String :=
  let severity := if daysUntil ≤ actionCenterUrgentDays then urgent else later
  if daysUntil ≤ 0 then due else severity

def subscriptionScheduleActions (sub : Subscription) (today windowEnd : Time) :
    List SubscriptionAction :=
  if normalizeStatus sub.status ≠ subscriptionStatusActive then []
  else
    let renewalMode := normalizeRenewalMode sub.renewalMode
    match sub.nextBillingDate with
    | none =>
      [{ newAction sub (subscriptionActionKey sub.id actionTypeMissingNextBilling "")
          actionTypeMissingNextBilling actionSeverityHigh "missing next billing date"
          "set a next billing date so reminders, reports, and calendar entries stay accurate"
          ["edit", "open_detail", "snooze"] with needsRepair := true }]
    | some nextBillingDate =>
      let dueDate := normalizeDateUTC nextBillingDate
      let daysUntil := actionDaysUntil dueDate today
      if (dueDate.before today ∨ dueDate.after windowEnd) ∧
        renewalMode ≠ renewalModeCancelAtPeriodEnd then []
      else if renewalMode = renewalModeManualRenew then
        if dueDate.after windowEnd then []
        else
          [newScheduleAction sub actionTypeManualRenewalDue
            (scheduleSeverity actionSeverityMedium actionSeverityHigh actionSeverityCritical daysUntil)
            true true dueDate daysUntil "manual renewal needs confirmation"
            "confirm the renewal after payment or edit the next billing date"
            ["mark_renewed", "cancel_at_period_end", "edit", "open_detail", "snooze"]]
      else if renewalMode = renewalModeCancelAtPeriodEnd then
        let endDate := match sub.endsAt with
          | some endsAt => normalizeDateUTC endsAt
          | none => dueDate
        let endDaysUntil := actionDaysUntil endDate today
        if endDate.before today ∨ endDate.after windowEnd then []
        else
          [newScheduleAction sub actionTypeEndingSoon
            (scheduleSeverity actionSeverityLow actionSeverityMedium actionSeverityHigh endDaysUntil)
            true false endDate endDaysUntil "subscription is ending soon"
            "review whether to keep it canceled or reactivate it" ["edit", "open_detail", "snooze"]]
      else if dueDate.after windowEnd then []
      else
        [newScheduleAction sub actionTypeUpcomingRenewal
          (scheduleSeverity actionSeverityLow actionSeverityMedium actionSeverityHigh daysUntil)
          false true dueDate daysUntil "upcoming renewal"
          "review the subscription before the next charge"
          ["cancel_at_period_end", "edit", "open_detail", "snooze"]]

/-- `loadSubscriptionsByIDs`, at one id. -/
def loadSubscription (store : ActionStore) (userID id : Nat) (ids : List Nat)
    (referenceDate : Time) : Option Subscription :=
  ((store.subs.filter fun sub => sub.userID = userID ∧ sub.id ∈ ids).map fun sub =>
    presentSubscriptionForResponse sub (store.updatedAt sub.id) referenceDate).reverse.find? (·.id = id)

/-- The item of a candidate, where its subscription is loaded and active. -/
def activeItem (loaded : Option Subscription) (make : Subscription → SubscriptionAction) :
    Option SubscriptionAction :=
  match loaded with
  | none => none
  | some sub => if normalizeStatus sub.status ≠ subscriptionStatusActive then none else some (make sub)

theorem activeItem_eq_some {loaded : Option Subscription} {make : Subscription → SubscriptionAction}
    {item : SubscriptionAction} :
    activeItem loaded make = some item ↔ ∃ sub, loaded = some sub ∧
    normalizeStatus sub.status = subscriptionStatusActive ∧
      item = make sub := by
  cases loaded with
  | none => simp [activeItem]
  | some sub =>
    rw [activeItem]
    split
    · rename_i hstatus
      refine iff_of_false (fun h => by cases h) ?_
      rintro ⟨_, hsub, hactive, -⟩
      exact hstatus (Option.some.inj hsub ▸ hactive)
    · rename_i hstatus
      constructor
      · intro h
        exact ⟨sub, rfl, not_not.1 hstatus, (Option.some.inj h).symm⟩
      · rintro ⟨_, hsub, -, rfl⟩
        rw [Option.some.inj hsub]

/-! ## Failed deliveries -/

/-- `sent_at DESC, id DESC`. -/
def newerLog (a b : LogRow) : Prop :=
  b.sentAt.nanos < a.sentAt.nanos ∨ a.sentAt.nanos = b.sentAt.nanos ∧ b.id ≤ a.id

instance : DecidableRel newerLog := fun a b => by
  unfold newerLog
  infer_instance

/-- The newest failures inside the window. -/
def failedLogs (store : ActionStore) (userID : Nat) (today : Time) : List LogRow :=
  let since := today.addDays (-actionCenterFailedLogDays)
  ((store.logs.filter fun log => log.userID = userID ∧ log.status = .failed ∧
    !log.sentAt.before since).insertionSort newerLog).take 100

def notificationRecoveryKey (subscriptionID : Nat) (channelType : String) : String :=
  toString subscriptionID ++ ":" ++ channelType

/-- A round of the loop that fills `latestSent`. -/
def recordSent (latestSent : List (String × Time)) (sent : LogRow) : List (String × Time) :=
  let key := notificationRecoveryKey sent.subscriptionID sent.channelType
  match latestSent.lookup key with
  | none => (key, sent.sentAt) :: latestSent
  | some current => if sent.sentAt.after current then (key, sent.sentAt) :: latestSent else latestSent

def notificationRecoveryIndex (store : ActionStore) (userID : Nat) (since : Time)
    (failed : LogRow) : Bool :=
  let sentLogs :=
    store.logs.filter fun log => log.userID = userID ∧ log.status = .sent ∧ !log.sentAt.before since
  match (sentLogs.foldl recordSent []).lookup
    (notificationRecoveryKey failed.subscriptionID failed.channelType) with
  | none => false
  | some latest => latest.after failed.sentAt

def failureKey (log : LogRow) : String :=
  subscriptionActionKey log.subscriptionID actionTypeNotificationFailed log.channelType

/-- The loop that keeps the newest failure of a key, where it has not recovered. -/
def failedCandidates (recovered : LogRow → Bool) : List LogRow → List String → List LogRow
  | [], _ => []
  | log :: logs, seen =>
    if failureKey log ∈ seen then failedCandidates recovered logs seen
    else if recovered log then failedCandidates recovered logs (failureKey log :: seen)
    else log :: failedCandidates recovered logs (failureKey log :: seen)

def failureAction (sub : Subscription) (log : LogRow) : SubscriptionAction :=
  { newAction sub (failureKey log) actionTypeNotificationFailed actionSeverityHigh
    "notification delivery failed"
      ("failed reminder for " ++ (normalizeDateUTC log.notifyDate).formatDate)
        ["edit", "open_detail", "snooze"] with
    needsRepair := true
    eventDate := some log.sentAt.utc.formatRFC3339
    notificationChannel := log.channelType
    notificationError := log.error }

def notificationFailureActions (store : ActionStore) (userID : Nat) (today : Time) :
    List SubscriptionAction :=
  let since := today.addDays (-actionCenterFailedLogDays)
  let candidates :=
    failedCandidates (notificationRecoveryIndex store userID since) (failedLogs store userID today) []
  let ids := candidates.map (·.subscriptionID)
  candidates.filterMap fun log =>
    activeItem (loadSubscription store userID log.subscriptionID ids today) fun sub =>
      failureAction sub log

/-! ## Price increases -/

def percentageDelta (previousAmount newAmount : Rat) : Rat :=
  if previousAmount ≤ 0 then 0 else (newAmount - previousAmount) / previousAmount * 100

/-- `created_at DESC, id DESC`. -/
def newerEvent (a b : SubscriptionEvent) : Prop :=
  b.createdAt.nanos < a.createdAt.nanos ∨ a.createdAt.nanos = b.createdAt.nanos ∧ b.id ≤ a.id

instance : DecidableRel newerEvent := fun a b => by
  unfold newerEvent
  infer_instance

structure PriceChange where
  event : SubscriptionEvent
  subscriptionID : Nat
  previous : Rat
  current : Rat

/-- The loop that keeps the newest change of a subscription, where it is an increase. -/
def priceChanges : List SubscriptionEvent → List Nat → List PriceChange
  | [], _ => []
  | event :: events, seen =>
    match event.subscriptionID, event.previousMonthlyAmount, event.newMonthlyAmount with
    | some subscriptionID, some previous, some current =>
      let delta := current - previous
      if delta = 0 then priceChanges events seen
      else if subscriptionID ∈ seen then priceChanges events seen
      else if delta < 0 then priceChanges events (subscriptionID :: seen)
      else ⟨event, subscriptionID, previous, current⟩ :: priceChanges events (subscriptionID :: seen)
    | _, _, _ => priceChanges events seen

def priceIncreaseAction (sub : Subscription) (change : PriceChange) : SubscriptionAction :=
  { newAction sub (subscriptionActionKey sub.id actionTypePriceIncrease
    change.event.createdAt.formatDate) actionTypePriceIncrease
      actionSeverityMedium "price increased" "review whether the new price is still worth keeping"
      ["cancel_at_period_end", "edit", "open_detail", "snooze"] with
    needsDecision := true
    eventDate := some change.event.createdAt.utc.formatRFC3339
    previousMonthlyAmount := some change.previous
    newMonthlyAmount := some change.current
    deltaMonthlyAmount := some (change.current - change.previous)
    deltaPercentage := some (percentageDelta change.previous change.current) }

def priceIncreaseActions (store : ActionStore) (userID : Nat) (today : Time) : List SubscriptionAction :=
  let since := today.addDays (-actionCenterRecentChangeDays)
  let events := ((store.events.filter fun event =>
    event.userID = userID ∧ event.previousMonthlyAmount.isSome ∧ event.newMonthlyAmount.isSome ∧
      !event.createdAt.before since).insertionSort newerEvent).take 100
  let candidates := priceChanges events []
  let ids := candidates.map (·.subscriptionID)
  candidates.filterMap fun change =>
    activeItem (loadSubscription store userID change.subscriptionID ids today) fun sub =>
      priceIncreaseAction sub change

/-! ## Keys -/

/-- What a qualifier adds to a key. -/
def qualifierPart (qualifier : String) : List Char :=
  if trimSpace qualifier ≠ "" then ':' :: (trimSpace qualifier).toList else []

theorem toList_subscriptionActionKey (id : Nat) (actionType qualifier : String) :
    (subscriptionActionKey id actionType qualifier).toList =
      "subscription".toList ++ ':' ::
        ((toString id).toList ++ ':' :: (actionType.toList ++ qualifierPart qualifier)) := by
  unfold subscriptionActionKey qualifierPart
  dsimp only
  split
  · simp [String.intercalate_cons_cons]
  · simp [String.intercalate_cons_cons]

theorem qualifierPart_inj {q q' : String} :
    qualifierPart q = qualifierPart q' ↔ trimSpace q = trimSpace q' := by
  unfold qualifierPart
  constructor
  · intro h
    split at h <;> split at h
    · exact String.toList_inj.1 (List.cons.inj h).2
    · cases h
    · cases h
    · rename_i hq hq'
      rw [not_not.1 hq, not_not.1 hq']
  · intro h
    rw [h]

/-- A type ends where its qualifier starts. -/
theorem type_inj {t t' q q' : String} (ht : ':' ∉ t.toList) (ht' : ':' ∉ t'.toList)
    (h : t.toList ++ qualifierPart q = t'.toList ++ qualifierPart q') :
    t = t' ∧ qualifierPart q = qualifierPart q' := by
  have hpart : ∀ q, qualifierPart q = [] ∨ ∃ rest, qualifierPart q = ':' :: rest := by
    intro q
    unfold qualifierPart
    split
    · exact .inr ⟨_, rfl⟩
    · exact .inl rfl
  rcases hpart q with hq | ⟨rest, hq⟩ <;> rcases hpart q' with hq' | ⟨rest', hq'⟩ <;> rw [hq, hq'] at h ⊢
  · rw [List.append_nil, List.append_nil] at h
    exact ⟨String.toList_inj.1 h, rfl⟩
  · rw [List.append_nil] at h
    exact absurd (h ▸ List.mem_append_right _ List.mem_cons_self) ht
  · rw [List.append_nil] at h
    exact absurd (h ▸ List.mem_append_right _ List.mem_cons_self) ht'
  · obtain ⟨htypes, hrest⟩ := eq_of_separated ht ht' h
    exact ⟨String.toList_inj.1 htypes, congrArg _ hrest⟩

/-- A key spells the subscription, the type and the qualifier. -/
theorem subscriptionActionKey_inj {id id' : Nat} {t t' q q' : String} (ht : ':' ∉ t.toList)
    (ht' : ':' ∉ t'.toList) :
    subscriptionActionKey id t q = subscriptionActionKey id' t' q' ↔ id = id' ∧ t = t' ∧
    trimSpace q = trimSpace q' := by
  have hnum : ∀ n : Nat, ':' ∉ (toString n).toList := fun n => RecurrenceRules.notMem_repr (by decide) n
  constructor
  · intro h
    have hkey := congrArg String.toList h
    rw [toList_subscriptionActionKey, toList_subscriptionActionKey, List.append_cancel_left_eq,
      List.cons_inj_right] at hkey
    obtain ⟨hid, hrest⟩ := eq_of_separated (hnum id) (hnum id') hkey
    obtain ⟨htype, hpart⟩ := type_inj ht ht' hrest
    exact ⟨toString_injective hid, htype, qualifierPart_inj.1 hpart⟩
  · rintro ⟨rfl, rfl, h⟩
    rw [← String.toList_inj, toList_subscriptionActionKey, toList_subscriptionActionKey,
      qualifierPart_inj.2 h]

theorem failureKey_inj {a b : LogRow} : failureKey a = failureKey b ↔
    a.subscriptionID = b.subscriptionID ∧ trimSpace a.channelType = trimSpace b.channelType := by
  rw [failureKey, failureKey, subscriptionActionKey_inj (by decide) (by decide)]
  simp only [true_and]

theorem notificationRecoveryKey_inj {id id' : Nat} {c c' : String} :
    notificationRecoveryKey id c = notificationRecoveryKey id' c' ↔ id = id' ∧ c = c' := by
  have hnum : ∀ n : Nat, ':' ∉ (toString n).toList := fun n => RecurrenceRules.notMem_repr (by decide) n
  constructor
  · intro h
    have hkey := congrArg String.toList h
    simp only [notificationRecoveryKey, String.toList_append, List.append_assoc] at hkey
    obtain ⟨hid, hchannel⟩ := eq_of_separated (hnum id) (hnum id') hkey
    exact ⟨toString_injective hid, String.toList_inj.1 hchannel⟩
  · rintro ⟨rfl, rfl⟩
    rfl

/-! ## The index of recoveries -/

section Index
variable {latestSent : List (String × Time)} {key : String} {t since : Time} {store : ActionStore}
  {userID : Nat}

/-- A round counts a delivery for its own key, however late the ones before it are. -/
theorem lookup_recordSent (sent : LogRow) :
    (((recordSent latestSent sent).lookup key).any fun latest => latest.after t) = true ↔
      ((latestSent.lookup key).any fun latest => latest.after t) = true ∨
        notificationRecoveryKey sent.subscriptionID sent.channelType = key ∧
          sent.sentAt.after t = true := by
  have hother : ∀ {k : String} {at' : Time}, k ≠ key →
      List.lookup key ((k, at') :: latestSent) = latestSent.lookup key := by
    intro k at' hk
    rw [List.lookup_cons, beq_false_of_ne (Ne.symm hk)]
  unfold recordSent
  dsimp only
  by_cases hkey : notificationRecoveryKey sent.subscriptionID sent.channelType = key
  · rw [hkey]
    cases hlookup : latestSent.lookup key with
    | none => simp
    | some current =>
      dsimp only
      split
      · rename_i hlater
        simp only [List.lookup_cons, beq_self_eq_true, Option.any_some, true_and, Time.after,
          decide_eq_true_eq] at hlater ⊢
        omega
      · rename_i hlater
        simp only [hlookup, Option.any_some, true_and, Time.after, decide_eq_true_eq] at hlater ⊢
        omega
  · simp only [hkey, false_and, or_false]
    split
    · rw [hother hkey]
    · split
      · rw [hother hkey]
      · rfl

theorem lookup_foldl_recordSent (sents : List LogRow) :
    (((sents.foldl recordSent latestSent).lookup key).any fun latest => latest.after t) = true ↔
      ((latestSent.lookup key).any fun latest => latest.after t) = true ∨
        ∃ sent ∈ sents, notificationRecoveryKey sent.subscriptionID sent.channelType = key ∧
          sent.sentAt.after t = true := by
  induction sents generalizing latestSent with
  | nil => simp
  | cons sent sents ih =>
    rw [List.foldl_cons, ih, lookup_recordSent, or_assoc]
    simp only [List.mem_cons, exists_eq_or_imp]

/-- Some delivery on the same channel is later than the failure. -/
def Recovered (store : ActionStore) (userID : Nat) (failed : LogRow) : Prop :=
  ∃ sent ∈ store.logs, sent.userID = userID ∧ sent.status = .sent ∧
    sent.subscriptionID = failed.subscriptionID ∧
    sent.channelType = failed.channelType ∧ sent.sentAt.after failed.sentAt = true

/-- The index decides for a failure inside the window: a delivery before the window is not later. -/
theorem notificationRecoveryIndex_iff {failed : LogRow} (hinside : failed.sentAt.before since = false) :
    notificationRecoveryIndex store userID since failed = true ↔ Recovered store userID failed := by
  have hany : notificationRecoveryIndex store userID since failed =
      ((((store.logs.filter fun log => log.userID = userID ∧ log.status = .sent ∧
        !log.sentAt.before since).foldl recordSent []).lookup
        (notificationRecoveryKey failed.subscriptionID failed.channelType)).any fun latest =>
          latest.after failed.sentAt) := by
    unfold notificationRecoveryIndex
    dsimp only
    split
    · rename_i hlookup
      rw [hlookup, Option.any_none]
    · rename_i hlookup
      rw [hlookup, Option.any_some]
  rw [hany, lookup_foldl_recordSent]
  simp only [List.lookup_nil, Option.any_none, Bool.false_eq_true, false_or, List.mem_filter,
    notificationRecoveryKey_inj,
    decide_eq_true_eq, Bool.not_eq_true']
  constructor
  · rintro ⟨sent, ⟨hmem, huser, hstatus, -⟩, ⟨hid, hchannel⟩, hafter⟩
    exact ⟨sent, hmem, huser, hstatus, hid, hchannel, hafter⟩
  · rintro ⟨sent, hmem, huser, hstatus, hid, hchannel, hafter⟩
    refine ⟨sent, ⟨hmem, huser, hstatus, ?_⟩, ⟨hid, hchannel⟩, hafter⟩
    simp only [Time.before, Time.after, decide_eq_true_eq, decide_eq_false_iff_not] at hinside hafter ⊢
    omega

end Index

/-! ## The newest failure of a key -/

section Candidates
variable {recovered : LogRow → Bool} {logs : List LogRow} {seen : List String} {log : LogRow}

/-- The first row of a key is kept, where it has not recovered. -/
theorem mem_failedCandidates_iff : log ∈ failedCandidates recovered logs seen ↔
    failureKey log ∉ seen ∧ recovered log = false ∧
    logs.find? (failureKey · = failureKey log) = some log := by
  induction logs generalizing seen with
  | nil => simp [failedCandidates]
  | cons x logs ih =>
    by_cases hkey : failureKey x = failureKey log
    · have hfind : (x :: logs).find? (failureKey · = failureKey log) = some x :=
        List.find?_cons_of_pos (by simpa using hkey)
      rw [failedCandidates, hfind, Option.some_inj]
      split
      · rename_i hseen
        rw [ih]
        exact iff_of_false (fun h => h.1 (hkey ▸ hseen)) fun h => h.1 (hkey ▸ hseen)
      · rename_i hseen
        split
        · rename_i hrecovered
          rw [ih]
          refine iff_of_false (fun h => h.1 (hkey ▸ List.mem_cons_self)) ?_
          rintro ⟨-, hnot, rfl⟩
          exact absurd (hrecovered.symm.trans hnot) (by decide)
        · rename_i hrecovered
          rw [List.mem_cons, ih]
          constructor
          · rintro (rfl | ⟨hnot, -⟩)
            · exact ⟨hseen, Bool.not_eq_true _ ▸ hrecovered, rfl⟩
            · exact absurd (hkey ▸ List.mem_cons_self) hnot
          · rintro ⟨-, -, rfl⟩
            exact .inl rfl
    · have hfind : (x :: logs).find? (failureKey · = failureKey log) = logs.find?
          (failureKey · = failureKey log) :=
        List.find?_cons_of_neg (by simpa using hkey)
      have hne : log ≠ x := fun h => hkey (congrArg failureKey h.symm)
      have hseen : failureKey log ∉ failureKey x :: seen ↔ failureKey log ∉ seen := by
        rw [List.mem_cons, not_or, and_iff_right (Ne.symm hkey)]
      rw [failedCandidates, hfind]
      split
      · exact ih
      · split
        · rw [ih, hseen]
        · rw [List.mem_cons, or_iff_right hne, ih, hseen]

/-- No two of the rows that are kept have one key. -/
theorem nodup_failedCandidates : ((failedCandidates recovered logs seen).map failureKey).Nodup := by
  induction logs generalizing seen with
  | nil => exact List.nodup_nil
  | cons x logs ih =>
    rw [failedCandidates]
    split
    · exact ih
    · split
      · exact ih
      · refine List.nodup_cons.2 ⟨?_, ih⟩
        intro h
        obtain ⟨y, hy, hkey⟩ := List.mem_map.1 h
        exact (mem_failedCandidates_iff.1 hy).1 (hkey ▸ List.mem_cons_self)

end Candidates

instance : Std.Total newerLog := ⟨fun a b => by
  unfold newerLog
  omega⟩

instance : IsTrans LogRow newerLog := ⟨fun a b c => by
  unfold newerLog
  omega⟩

section Newest
variable {store : ActionStore} {userID : Nat} {today : Time} {log other : LogRow}

theorem pairwise_failedLogs : (failedLogs store userID today).Pairwise newerLog :=
  (List.pairwise_insertionSort newerLog _).sublist (List.take_sublist ..)

theorem failedLogs_inside (h : log ∈ failedLogs store userID today) :
    log ∈ store.logs ∧ log.sentAt.before (today.addDays (-actionCenterFailedLogDays)) = false := by
  have hsorted := List.mem_of_mem_take h
  obtain ⟨hmem, hinside⟩ := List.mem_filter.1 ((List.mem_insertionSort newerLog).1 hsorted)
  simp only [decide_eq_true_eq, Bool.not_eq_true'] at hinside
  exact ⟨hmem, hinside.2.2⟩

/-- The first failure of a key is the newest one. -/
theorem find_failedLogs
    (h : (failedLogs store userID today).find? (failureKey · = failureKey log) = some log)
    (hother : other ∈ failedLogs store userID today) (hkey : failureKey other = failureKey log) :
    newerLog log other := by
  obtain ⟨-, before, after, hlogs, hbefore⟩ := List.find?_eq_some_iff_append.1 h
  have hsorted : (failedLogs store userID today).Pairwise newerLog := pairwise_failedLogs
  rw [hlogs] at hother hsorted
  rcases List.mem_append.1 hother with hmem | hmem
  · exact absurd hkey (by simpa using hbefore other hmem)
  · rcases List.mem_cons.1 hmem with rfl | hmem
    · exact (Std.Total.total other other).elim id id
    · exact (List.pairwise_cons.1 (List.pairwise_append.1 hsorted).2.1).1 other hmem

/-- A failure that an older one outlives has not recovered either. -/
theorem recovered_of_newer (hnewer : newerLog log other)
    (hid : log.subscriptionID = other.subscriptionID)
    (hchannel : log.channelType = other.channelType) (h : Recovered store userID log) :
    Recovered store userID other := by
  obtain ⟨sent, hmem, huser, hstatus, hsub, htype, hafter⟩ := h
  refine ⟨sent, hmem, huser, hstatus, hsub.trans hid, htype.trans hchannel, ?_⟩
  unfold newerLog at hnewer
  simp only [Time.after, decide_eq_true_eq] at hafter ⊢
  omega

end Newest

/-! ## Loaded subscriptions -/

section Load
variable {store : ActionStore} {userID id : Nat} {ids : List Nat} {referenceDate : Time}
  {sub : Subscription}

theorem present_id (sub : Subscription) (updatedAt referenceDate : Time) :
    (presentSubscriptionForResponse sub updatedAt referenceDate).id = sub.id :=
  (normalizeForResponse_id _ _).trans (advance_id sub referenceDate)

theorem loadSubscription_iff (hids : (store.subs.map (·.id)).Nodup) :
    loadSubscription store userID id ids referenceDate = some sub ↔ id ∈ ids ∧ ∃ row ∈ store.subs,
    row.userID = userID ∧
      row.id = id ∧ sub = presentSubscriptionForResponse row (store.updatedAt row.id) referenceDate := by
  unfold loadSubscription
  constructor
  · intro h
    have hmem := List.mem_reverse.1 (List.mem_of_find?_eq_some h)
    obtain ⟨row, hrow, rfl⟩ := List.mem_map.1 hmem
    obtain ⟨hrow, howned⟩ := List.mem_filter.1 hrow
    have hid := List.find?_some h
    simp only [decide_eq_true_eq, present_id] at howned hid
    exact ⟨hid ▸ howned.2, row, hrow, howned.1, hid, rfl⟩
  · rintro ⟨hmem, row, hrow, huser, rfl, rfl⟩
    generalize hloaded : ((store.subs.filter fun sub => sub.userID = userID ∧ sub.id ∈ ids).map
      fun sub => presentSubscriptionForResponse sub (store.updatedAt sub.id) referenceDate).reverse =
        loaded
    have hin : presentSubscriptionForResponse row (store.updatedAt row.id) referenceDate ∈ loaded := by
      rw [← hloaded, List.mem_reverse]
      exact List.mem_map_of_mem
        (f := fun sub => presentSubscriptionForResponse sub (store.updatedAt sub.id) referenceDate)
        (List.mem_filter.2 ⟨hrow, by simpa using ⟨huser, hmem⟩⟩)
    cases hfind : loaded.find? (·.id = row.id) with
    | none => exact absurd (List.find?_eq_none.1 hfind _ hin) (by simp [present_id])
    | some found =>
      have hfound := List.mem_of_find?_eq_some hfind
      rw [← hloaded, List.mem_reverse] at hfound
      obtain ⟨other, hother, rfl⟩ := List.mem_map.1 hfound
      have hid := List.find?_some hfind
      simp only [decide_eq_true_eq, present_id] at hid
      rw [Rows.eq_of_key hids (List.mem_filter.1 hother).1 hrow hid]

end Load

/-! ## The failures that are shown -/

@[simp] theorem failureAction_subscriptionID (sub : Subscription) (log : LogRow) :
    (failureAction sub log).subscriptionID = sub.id := rfl

@[simp] theorem failureAction_channel (sub : Subscription) (log : LogRow) :
    (failureAction sub log).notificationChannel = log.channelType := rfl

@[simp] theorem failureAction_key (sub : Subscription) (log : LogRow) :
    (failureAction sub log).key = failureKey log := rfl

/-- A failed delivery of a channel that no later delivery follows. -/
def OpenFailure (store : ActionStore) (userID : Nat) (today : Time) (id : Nat) (channel : String)
    (log : LogRow) : Prop :=
  log ∈ failedLogs store userID today ∧ log.subscriptionID = id ∧ log.channelType = channel ∧
    ¬ Recovered store userID log

/-- The subscription that a read shows, where it is the user's and active. -/
def ShownActive (store : ActionStore) (userID : Nat) (today : Time) (id : Nat)
    (shown : Subscription) : Prop :=
  ∃ row ∈ store.subs, row.userID = userID ∧ row.id = id ∧
    shown = presentSubscriptionForResponse row (store.updatedAt row.id) today ∧
      normalizeStatus shown.status = subscriptionStatusActive

section Failures
variable {store : ActionStore} {userID id : Nat} {today : Time} {channel : String} {log : LogRow}
  {item : SubscriptionAction}

theorem mem_openFailures_iff : log ∈ failedCandidates
      (notificationRecoveryIndex store userID (today.addDays (-actionCenterFailedLogDays)))
        (failedLogs store userID today) [] ↔
    (failedLogs store userID today).find? (failureKey · = failureKey log) = some log ∧
    ¬ Recovered store userID log := by
  rw [mem_failedCandidates_iff, and_iff_right List.not_mem_nil]
  constructor
  · rintro ⟨hindex, hfind⟩
    have hinside := (failedLogs_inside (List.mem_of_find?_eq_some hfind)).2
    exact ⟨hfind, fun h => absurd (hindex.symm.trans ((notificationRecoveryIndex_iff hinside).2 h))
      (by decide)⟩
  · rintro ⟨hfind, hnot⟩
    have hinside := (failedLogs_inside (List.mem_of_find?_eq_some hfind)).2
    exact ⟨Bool.eq_false_iff.2 fun h => hnot ((notificationRecoveryIndex_iff hinside).1 h), hfind⟩

/-- An item stands for the first failure of its key and for an active subscription. -/
theorem mem_notificationFailureActions (hids : (store.subs.map (·.id)).Nodup) :
    item ∈ notificationFailureActions store userID today ↔ ∃ log shown, item = failureAction shown log ∧
      (failedLogs store userID today).find? (failureKey · = failureKey log) = some log ∧
        ¬ Recovered store userID log ∧
      ShownActive store userID today log.subscriptionID shown := by
  unfold notificationFailureActions
  simp only [List.mem_filterMap, mem_openFailures_iff]
  constructor
  · rintro ⟨log, ⟨hfind, hnot⟩, hitem⟩
    obtain ⟨shown, hload, hactive, rfl⟩ := activeItem_eq_some.1 hitem
    obtain ⟨-, row, hrow, huser, hid, hshown⟩ := (loadSubscription_iff hids).1 hload
    exact ⟨log, shown, rfl, hfind, hnot, row, hrow, huser, hid, hshown, hactive⟩
  · rintro ⟨log, shown, rfl, hfind, hnot, row, hrow, huser, hid, hshown, hactive⟩
    have hmem := List.mem_map_of_mem (f := (·.subscriptionID)) (mem_openFailures_iff.2 ⟨hfind, hnot⟩)
    have hload := (loadSubscription_iff hids).2 ⟨hmem, row, hrow, huser, hid, hshown⟩
    exact ⟨log, ⟨hfind, hnot⟩, activeItem_eq_some.2 ⟨shown, hload, hactive, rfl⟩⟩

/-- No two items have one key. -/
theorem nodup_failureKeys : ((notificationFailureActions store userID today).map (·.key)).Nodup := by
  refine nodup_map_filterMap ?_ nodup_failedCandidates
  intro log item hitem
  obtain ⟨shown, -, -, rfl⟩ := activeItem_eq_some.1 hitem
  exact failureAction_key shown log

end Failures

/-- Two failures by mail of which the later one is as late as a delivery, and a failure of a webhook
before a delivery. -/
def sampleActions : ActionStore where
  subs := [monthEndRow]
  updatedAt := fun _ => Time.zero
  logs :=
    [⟨⟨none, 1, 1, "smtp", none, dateUTC 2025 1 31, .failed, "refused", dateUTC 2025 1 10⟩, 1⟩,
     ⟨⟨none, 1, 1, "smtp", none, dateUTC 2025 1 31, .failed, "timeout", dateUTC 2025 1 12⟩, 2⟩,
     ⟨⟨none, 1, 1, "smtp", none, dateUTC 2025 1 31, .sent, "", dateUTC 2025 1 12⟩, 3⟩,
     ⟨⟨none, 1, 1, "webhook", none, dateUTC 2025 1 31, .failed, "refused", dateUTC 2025 1 11⟩, 4⟩,
     ⟨⟨none, 1, 1, "webhook", none, dateUTC 2025 1 31, .sent, "", dateUTC 2025 1 13⟩, 5⟩]
  events := []
  snoozes := []
  nextSnoozeID := 1

instance (failed : LogRow) : Decidable (Recovered store userID failed) := by
  unfold Recovered
  infer_instance

end Subdux
