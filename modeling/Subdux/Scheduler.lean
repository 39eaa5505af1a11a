import Subdux.Dashboard
import Subdux.Outbox
import Subdux.Lib.Binary64
/-!
# Scanning for notifications

`processUserNotifications` of `internal/service/notification_scheduler.go`, which
enqueues a user's reminders, and the check of `notification_outbox.go` that a
claimed job goes through before it is sent. Both run at an instant `now` in the
system location `loc`. Template rendering is a parameter: it decides the text of a
message, or that there is none.
-/

namespace Subdux

/-! ## Tables -/

structure NotificationPolicy where
  userID : Nat
  daysBefore : Int
  notifyOnDueDay : Bool
  notifyManualRenewDaily : Bool

structure NotificationUser where
  id : Nat
  email : String

structure PaymentMethod where
  id : Nat
  userID : Nat
  name : String

/-- The tables that a scan and a dispatch read. -/
structure NotificationDB where
  subscriptions : List Subscription
  policies : List NotificationPolicy
  channels : List NotificationChannel
  users : List NotificationUser
  paymentMethods : List PaymentMethod
  outbox : OutboxStore

def getPolicy (userID : Nat) (policies : List NotificationPolicy) : NotificationPolicy :=
  match policies.find? (·.userID = userID) with
  | some policy => policy
  | none =>
    { userID := userID, daysBefore := 3, notifyOnDueDay := true, notifyManualRenewDaily := false }

/-! ## Trigger types -/

def notificationTriggerTypes (daysUntilBilling daysBefore : Int) (notifyOnDueDay : Bool) :
    List Trigger :=
  (if daysUntilBilling = daysBefore ∧ daysBefore > 0 then [.daysBefore] else []) ++
    if daysUntilBilling = 0 ∧ notifyOnDueDay then [.dueDay] else []

def notificationTriggerTypesForSubscription (renewalMode : String) (daysUntilBilling daysBefore : Int)
    (notifyOnDueDay notifyManualRenewDaily : Bool) : List Trigger :=
  notificationTriggerTypes daysUntilBilling daysBefore notifyOnDueDay ++
    if normalizeRenewalMode renewalMode = renewalModeManualRenew ∧ notifyManualRenewDaily ∧
      daysBefore > 0 ∧
        daysUntilBilling ≥ 0 ∧ daysUntilBilling < daysBefore ∧
          (daysUntilBilling ≠ 0 ∨ !notifyOnDueDay) then
      [.manualDaily]
    else []

/-! ## Messages -/

structure TemplateData where
  subscriptionName : String
  billingDate : String
  amount : Binary64
  currency : String
  daysUntil : Int
  eventType : String
  renewalMode : String
  status : String
  category : String
  paymentMethod : String
  url : String
  remark : String
  userEmail : String

def notificationEventTypeForSubscription (sub : Subscription) : String :=
  let mode := normalizeRenewalMode sub.renewalMode
  if mode = renewalModeManualRenew then "manual_renew_reminder"
  else if mode = renewalModeCancelAtPeriodEnd then "ending_soon"
  else "auto_renew_reminder"

def buildTemplateData (paymentMethods : List PaymentMethod) (sub : Subscription)
    (user : NotificationUser) (billingDate : Time) (daysUntil : Int) (eventType : String) :
    TemplateData :=
  let paymentMethod := sub.paymentMethodID.bind fun id => paymentMethods.find? fun p => p.id = id ∧
    p.userID = sub.userID
  { subscriptionName := sub.name
    billingDate := billingDate.formatDate
    amount := Binary64.ofValue sub.amount
    currency := sub.currency
    daysUntil := daysUntil
    eventType := eventType
    renewalMode := normalizeRenewalMode sub.renewalMode
    status := normalizeStatus sub.status
    category := sub.category
    paymentMethod := (paymentMethod.map (·.name)).getD ""
    url := sub.url
    remark := sub.notes
    userEmail := user.email }

/-! ## The scan -/

/-- The five values in the key of `shouldScheduleNotificationOutbox`. -/
structure ScheduleKey where
  subscriptionID : Nat
  channelType : String
  triggerType : Trigger
  notifyDate : Int
  dedupeDate : Int
  deriving DecidableEq

structure ScanState where
  scheduled : List ScheduleKey
  outbox : OutboxStore

section Scan
variable (loc : Location) (render : Nat → String → TemplateData → Option String) (now : Time)

/-- The body that the three loops over channels share. -/
def enqueueReminder (db : NotificationDB) (user : NotificationUser) (sub : Subscription)
    (triggerType : Trigger) (notifyDate dedupeDate : Time) (daysUntil : Int) (eventType : String)
    (channel : NotificationChannel) (st : ScanState) :
    ScanState :=
  let dedupe := if dedupeDate.isZero then notifyDate else dedupeDate
  let key : ScheduleKey := ⟨sub.id, channel.type, triggerType, notifyDate.nanos, dedupe.nanos⟩
  if key ∈ st.scheduled then st
  else
    let st := { st with scheduled := key :: st.scheduled }
    match render user.id channel.type
      (buildTemplateData db.paymentMethods sub user notifyDate daysUntil eventType) with
    | none => st
    | some message =>
      let job : NotificationOutboxJob :=
        { userID := user.id, subscriptionID := sub.id, channel := channel,
          triggerType := triggerType, notifyDate := notifyDate
          dedupeDate := dedupeDate, message := message, targetEmail := user.email,
          subscriptionURL := sub.url }
      { st with outbox := enqueueNotificationOutbox loc now job st.outbox }

def manualRenewEndedNotificationAlreadySent (logs : List NotificationLog) (subscriptionID : Nat)
    (endedAt : Time) : Bool :=
  logs.any fun log =>
    log.subscriptionID = subscriptionID ∧ log.triggerType = some .manualEnded ∧
      log.notifyDate = normalizeDateUTC endedAt ∧
      log.status = .sent

def manualRenewEndedNotificationCandidates (db : NotificationDB) (userID : Nat)
    (referenceDate : Time) : List Subscription :=
  let today := normalizeDateUTC referenceDate
  let subs := db.subscriptions.filter fun sub =>
    sub.userID = userID ∧ sub.status = subscriptionStatusEnded ∧
      sub.renewalMode = renewalModeManualRenew ∧
      sub.billingType = billingTypeRecurring ∧ sub.endsAt.any (·.before today)
  let earlier (s₁ s₂ : Subscription) : Prop :=
    (s₁.endsAt.map (·.nanos)).getD 0 < (s₂.endsAt.map (·.nanos)).getD 0 ∨
      ((s₁.endsAt.map (·.nanos)).getD 0 = (s₂.endsAt.map (·.nanos)).getD 0 ∧ s₁.id ≤ s₂.id)
  (subs.insertionSort earlier).filter fun sub =>
    sub.endsAt.any fun endsAt => !manualRenewEndedNotificationAlreadySent db.outbox.logs sub.id
      (normalizeDateUTC endsAt)

/-- One ended row, for every channel. -/
def scanEnded (db : NotificationDB) (user : NotificationUser) (channels : List NotificationChannel)
    (st : ScanState) (sub : Subscription) : ScanState :=
  match sub.endsAt with
  | none => st
  | some endsAt =>
    if !sub.notifyEnabled.getD true then st
    else
      let endedAt := normalizeDateInTimezone endsAt loc
      channels.foldl (fun st channel =>
        enqueueReminder loc render now db user sub .manualEnded endedAt endedAt 0
          "manual_renew_ended" channel st) st

/-- One row that is cancelled at its period's end. -/
def scanEnding (db : NotificationDB) (user : NotificationUser) (policy : NotificationPolicy)
    (channels : List NotificationChannel) (st : ScanState) (sub : Subscription) : ScanState :=
  if normalizeRenewalMode sub.renewalMode ≠ renewalModeCancelAtPeriodEnd then st
  else
    match cancelAtPeriodEndBoundary sub with
    | none => st
    | some boundary =>
      if !sub.notifyEnabled.getD true then st
      else
        let daysBefore := sub.notifyDaysBefore.getD policy.daysBefore
        let endDate := normalizeDateInTimezone boundary loc
        let scanDate := normalizeDateInTimezone now loc
        let daysUntilEnd := daysUntilFrom now endDate loc
        if notificationTriggerTypes daysUntilEnd daysBefore policy.notifyOnDueDay = [] then st
        else
          channels.foldl (fun st channel =>
            enqueueReminder loc render now db user sub .endingSoon endDate scanDate daysUntilEnd
              "ending_soon" channel st) st

/-- One row with a charge ahead, for every channel and trigger. -/
def scanBilling (db : NotificationDB) (user : NotificationUser) (policy : NotificationPolicy)
    (channels : List NotificationChannel) (st : ScanState) (sub : Subscription) : ScanState :=
  match sub.nextBillingDate with
  | none => st
  | some nextBillingDate =>
    if !subscriptionHasFutureCharge sub ∨ !sub.notifyEnabled.getD true then st
    else
      let daysBefore := sub.notifyDaysBefore.getD policy.daysBefore
      let billingDate := normalizeDateInTimezone nextBillingDate loc
      let scanDate := normalizeDateInTimezone now loc
      let daysUntilBilling := daysUntilFrom now nextBillingDate loc
      let triggerTypes :=
        notificationTriggerTypesForSubscription sub.renewalMode daysUntilBilling daysBefore
        policy.notifyOnDueDay policy.notifyManualRenewDaily
      channels.foldl (fun st channel =>
        triggerTypes.foldl (fun st triggerType =>
          let dedupeDate := if triggerType = .manualDaily then scanDate else billingDate
          enqueueReminder loc render now db user sub triggerType billingDate dedupeDate daysUntilBilling
            (notificationEventTypeForSubscription sub) channel st) st) st

/-- The rows that the two loops over active rows read. -/
def activeSubscriptions (userID : Nat) (rows : List Subscription) : List Subscription :=
  rows.filter fun sub =>
    sub.userID = userID ∧ sub.status = subscriptionStatusActive ∧
      sub.billingType = billingTypeRecurring ∧
      (sub.nextBillingDate.isSome ∨ sub.endsAt.isSome)

/-- `pkg.NowInSystemTimezone()` is `now` in `loc`. A user without a row ends the scan. -/
def processUserNotifications (userID : Nat) (db : NotificationDB) : NotificationDB :=
  let today := now.inLoc loc
  let db :=
    { db with subscriptions := reconcileSubscriptionLifecycleForUser userID today db.subscriptions }
  let policy := getPolicy userID db.policies
  let subs := activeSubscriptions userID db.subscriptions
  let enabledChannels := db.channels.filter fun channel => channel.userID = userID ∧ channel.enabled
  if enabledChannels = [] then db
  else
    match db.users.find? (·.id = userID) with
    | none => db
    | some user =>
      let st : ScanState := ⟨[], db.outbox⟩
      let endedSubs := manualRenewEndedNotificationCandidates db userID today
      let st := endedSubs.foldl (scanEnded loc render now db user enabledChannels) st
      let st := subs.foldl (scanEnding loc render now db user policy enabledChannels) st
      let st := subs.foldl (scanBilling loc render now db user policy enabledChannels) st
      { db with outbox := st.outbox }

end Scan

/-! ## The check before a send -/

section Check
variable (loc : Location) (now : Time)

/-- `none` when the job still matches, or the reason that it does not. -/
def outboxMatchesCurrentReminder (policies : List NotificationPolicy) (job : NotificationOutbox)
    (sub : Subscription) (nextBillingDate : Time) : Option String :=
  let policy := getPolicy job.userID policies
  let daysBefore := sub.notifyDaysBefore.getD policy.daysBefore
  let billingDate := normalizeDateInTimezone nextBillingDate loc
  if !(normalizeDateUTC job.notifyDate).equal (normalizeDateUTC billingDate) then
    some "queued reminder no longer matches billing date"
  else if job.triggerType = .manualDaily ∧
      !(normalizeDateInTimezone job.scheduledFor loc).equal (normalizeDateInTimezone now loc) then
    some "queued daily manual-renew reminder is stale"
  else if job.triggerType ∈ notificationTriggerTypesForSubscription sub.renewalMode
    (daysUntilFrom now nextBillingDate loc)
      daysBefore policy.notifyOnDueDay policy.notifyManualRenewDaily then none
  else some "queued reminder no longer matches reminder timing"

def outboxMatchesCurrentEndingSoonReminder (policies : List NotificationPolicy)
    (job : NotificationOutbox) (sub : Subscription) :
    Option String :=
  let policy := getPolicy job.userID policies
  let daysBefore := sub.notifyDaysBefore.getD policy.daysBefore
  match cancelAtPeriodEndBoundary sub with
  | none => some "queued ending reminder no longer has an ending date"
  | some boundary =>
    let endDate := normalizeDateInTimezone boundary loc
    if !(normalizeDateUTC job.notifyDate).equal (normalizeDateUTC endDate) then
      some "queued ending reminder no longer matches ending date"
    else if notificationTriggerTypes
      (daysUntilFrom now endDate loc) daysBefore policy.notifyOnDueDay = [] then
      some "queued ending reminder no longer matches reminder timing"
    else if !(normalizeDateInTimezone job.scheduledFor loc).equal (normalizeDateInTimezone now loc) then
      some "queued ending reminder is stale"
    else none

/-- `none` when the job may be sent, or the final update that it gets instead. The
branches for a failed query, which release the job, are left out. -/
def cancelOutboxIfNoLongerDeliverable (db : NotificationDB) (job : NotificationOutbox) :
    Option TerminalUpdate :=
  if job.expiresAt.any fun expiresAt => !expiresAt.after now then some .expired
  else
    match findSubscription job.userID job.subscriptionID db.subscriptions with
    | none => some (.cancelled "subscription not found")
    | some sub =>
      let notifyEnabled := sub.notifyEnabled.getD true
      if job.triggerType = .manualEnded then
        if normalizeStatus sub.status ≠ subscriptionStatusEnded ∨
            normalizeRenewalMode sub.renewalMode ≠ renewalModeManualRenew ∨
              sub.billingType ≠ billingTypeRecurring ∨
            !notifyEnabled ∨ !sub.endsAt.any fun endsAt => (normalizeDateUTC job.notifyDate).equal
              (normalizeDateUTC endsAt) then
          some (.cancelled "manual-renew end notification no longer deliverable")
        else none
      else if job.triggerType = .endingSoon then
        if normalizeStatus sub.status ≠ subscriptionStatusActive ∨
            normalizeRenewalMode sub.renewalMode ≠ renewalModeCancelAtPeriodEnd ∨
              sub.billingType ≠ billingTypeRecurring ∨
            !notifyEnabled ∨ cancelAtPeriodEndBoundary sub = none then
          some (.cancelled "ending notification no longer deliverable")
        else (outboxMatchesCurrentEndingSoonReminder loc now db.policies job sub).map
          TerminalUpdate.cancelled
      else
        match sub.nextBillingDate with
        | none => some (.cancelled "notification no longer deliverable")
        | some nextBillingDate =>
          if normalizeStatus sub.status ≠ subscriptionStatusActive ∨
            sub.billingType ≠ billingTypeRecurring ∨
              !notifyEnabled ∨ !subscriptionHasFutureCharge sub then
            some (.cancelled "notification no longer deliverable")
          else (outboxMatchesCurrentReminder loc now db.policies job sub nextBillingDate).map
            TerminalUpdate.cancelled

/-- The channel of a job, or the final update that it gets without one. -/
def loadOutboxChannel (channels : List NotificationChannel) (job : NotificationOutbox) :
    Except TerminalUpdate NotificationChannel :=
  match job.channelID with
  | none => .error (.cancelled "notification channel not found or disabled")
  | some id =>
    match channels.find? fun channel =>
      channel.id = id ∧ channel.userID = job.userID ∧ channel.type = job.channelType ∧
        channel.enabled with
    | none => .error (.cancelled "notification channel not found or disabled")
    | some channel => .ok channel

end Check

end Subdux
