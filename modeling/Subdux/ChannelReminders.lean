import Mathlib.Data.List.Basic
import Subdux.Deliverable
import Subdux.Lib.Loop
import Subdux.Lib.RecurrenceRules
/-!
# The reminders of every channel

A scan as one loop over pairs of a due reminder and an enabled channel. The key of a
row is made of the channel's type, not of the channel, so of the pairs with one key
the first decides: `processUserNotifications_serves_iff` says when every channel gets
its own row, or has been sent the reminder before.
-/

namespace Subdux

/-! ## Due reminders -/

def channelTypes : List String :=
  ["smtp", "resend", "telegram", "webhook", "gotify", "ntfy", "bark", "serverchan", "feishu",
   "wecom", "dingtalk", "pushdeer",
    "pushplus", "pushover", "napcat"]

def isValidChannelType (t : String) : Bool := t ∈ channelTypes

/-- What the three loops of a scan know of a reminder, before the channel. -/
structure Reminder where
  sub : Subscription
  triggerType : Trigger
  notifyDate : Time
  dedupeDate : Time
  daysUntil : Int
  eventType : String
  deriving DecidableEq

section Reminders
variable (loc : Location) (now : Time) (policy : NotificationPolicy)

/-- The rows of `manualRenewEndedNotificationCandidates`, before it looks at the logs. -/
def manualRenewEnded (userID : Nat) (today : Time) (sub : Subscription) : Bool :=
  sub.userID = userID ∧ sub.status = subscriptionStatusEnded ∧ sub.renewalMode = renewalModeManualRenew ∧
    sub.billingType = billingTypeRecurring ∧ sub.endsAt.any (·.before today)

def endedReminders (sub : Subscription) : List Reminder :=
  match sub.endsAt with
  | none => []
  | some endsAt =>
    if !sub.notifyEnabled.getD true then []
    else
      let endedAt := normalizeDateInTimezone endsAt loc
      [⟨sub, .manualEnded, endedAt, endedAt, 0, "manual_renew_ended"⟩]

def endingReminders (sub : Subscription) : List Reminder :=
  if normalizeRenewalMode sub.renewalMode ≠ renewalModeCancelAtPeriodEnd then []
  else
    match cancelAtPeriodEndBoundary sub with
    | none => []
    | some boundary =>
      if !sub.notifyEnabled.getD true then []
      else
        let daysBefore := sub.notifyDaysBefore.getD policy.daysBefore
        let endDate := normalizeDateInTimezone boundary loc
        let scanDate := normalizeDateInTimezone now loc
        let daysUntilEnd := daysUntilFrom now endDate loc
        if notificationTriggerTypes daysUntilEnd daysBefore policy.notifyOnDueDay = [] then []
        else [⟨sub, .endingSoon, endDate, scanDate, daysUntilEnd, "ending_soon"⟩]

def billingReminders (sub : Subscription) : List Reminder :=
  match sub.nextBillingDate with
  | none => []
  | some nextBillingDate =>
    if !subscriptionHasFutureCharge sub ∨ !sub.notifyEnabled.getD true then []
    else
      let daysBefore := sub.notifyDaysBefore.getD policy.daysBefore
      let billingDate := normalizeDateInTimezone nextBillingDate loc
      let scanDate := normalizeDateInTimezone now loc
      let daysUntilBilling := daysUntilFrom now nextBillingDate loc
      (notificationTriggerTypesForSubscription sub.renewalMode daysUntilBilling daysBefore
        policy.notifyOnDueDay
        policy.notifyManualRenewDaily).map fun triggerType =>
          ⟨sub, triggerType, billingDate, if triggerType = .manualDaily then scanDate
            else billingDate, daysUntilBilling,
            notificationEventTypeForSubscription sub⟩

/-- The reminders that are due for a user at `now`. -/
def dueReminders (userID : Nat) (db : NotificationDB) : List Reminder :=
  let today := now.inLoc loc
  let rows := reconcileSubscriptionLifecycleForUser userID today db.subscriptions
  let policy := getPolicy userID db.policies
  let subs := activeSubscriptions userID rows
  (rows.filter (manualRenewEnded userID (normalizeDateUTC today))).flatMap (endedReminders loc) ++
    (subs.flatMap (endingReminders loc now policy) ++ subs.flatMap (billingReminders loc now policy))

def enabledChannels (userID : Nat) (channels : List NotificationChannel) : List NotificationChannel :=
  channels.filter fun channel => channel.userID = userID ∧ channel.enabled

end Reminders

/-! ## Keys and logs of a reminder -/

namespace Reminder

/-- The date that `enqueueNotificationOutbox` puts in a key. -/
def keyDate (reminder : Reminder) : Time :=
  if reminder.dedupeDate.isZero then normalizeDateUTC reminder.notifyDate else reminder.dedupeDate

def outboxKey (userID : Nat) (channelType : String) (reminder : Reminder) : String :=
  notificationOutboxDedupeKeyForTrigger userID reminder.sub.id channelType reminder.triggerType
    (normalizeDateUTC reminder.notifyDate) reminder.keyDate

def scheduleKey (channelType : String) (reminder : Reminder) : ScheduleKey :=
  let dedupe := if reminder.dedupeDate.isZero then reminder.notifyDate else reminder.dedupeDate
  ⟨reminder.sub.id, channelType, reminder.triggerType, reminder.notifyDate.nanos, dedupe.nanos⟩

/-- A sent log of the channel's type. -/
def alreadySent (loc : Location) (logs : List NotificationLog) (channelType : String)
    (reminder : Reminder) : Bool :=
  notificationAlreadySent loc logs reminder.sub.id channelType reminder.triggerType
    (normalizeDateUTC reminder.notifyDate)
    reminder.notifyDate reminder.keyDate

/-- A sent log of the channel: one of its type, and not of another channel's row. -/
def SentTo (loc : Location) (outbox : OutboxStore) (channel : NotificationChannel)
    (reminder : Reminder) : Prop :=
  ∃ log ∈ outbox.logs, reminder.alreadySent loc [log] channel.type = true ∧
    ∀ id ∈ log.outboxID, ∃ row ∈ outbox.rows, row.id = id ∧ row.channelID = some channel.id

/-- The row of a reminder for a channel. -/
def HasRow (userID : Nat) (rows : List NotificationOutbox) (channel : NotificationChannel)
    (reminder : Reminder) : Prop :=
  ∃ row ∈ rows, row.dedupeKey = reminder.outboxKey userID channel.type ∧ row.channelID = some channel.id

/-- The text of a reminder for a type of channel. -/
def text (render : Nat → String → TemplateData → Option String)
    (paymentMethods : List PaymentMethod) (user : NotificationUser) (channelType : String)
    (reminder : Reminder) : Option String :=
  render user.id channelType
    (buildTemplateData paymentMethods reminder.sub user reminder.notifyDate reminder.daysUntil
      reminder.eventType)

end Reminder

/-! ## A scan as one loop -/

section Loop
variable {loc : Location} {render : Nat → String → TemplateData → Option String} {now : Time}
  {db : NotificationDB}
  {user : NotificationUser} {policy : NotificationPolicy} {channels : List NotificationChannel}
    {sub : Subscription}
  {st : ScanState}

/-- The reminders of a row, for every channel. -/
def pairs (channels : List NotificationChannel) (reminders : List Reminder) :
    List (Reminder × NotificationChannel) :=
  channels.flatMap fun channel => reminders.map fun reminder => (reminder, channel)

def enqueuePair (loc : Location) (render : Nat → String → TemplateData → Option String) (now : Time)
    (db : NotificationDB) (user : NotificationUser) (st : ScanState)
    (pair : Reminder × NotificationChannel) : ScanState :=
  enqueueReminder loc render now db user pair.1.sub pair.1.triggerType pair.1.notifyDate
    pair.1.dedupeDate pair.1.daysUntil
    pair.1.eventType pair.2 st

theorem mem_pairs {reminders : List Reminder} {pair : Reminder × NotificationChannel} :
    pair ∈ pairs channels reminders ↔ pair.1 ∈ reminders ∧ pair.2 ∈ channels := by
  obtain ⟨reminder, channel⟩ := pair
  simp only [pairs, List.mem_flatMap, List.mem_map, Prod.mk.injEq]
  constructor
  · rintro ⟨channel, hchannel, reminder, hreminder, rfl, rfl⟩
    exact ⟨hreminder, hchannel⟩
  · rintro ⟨hreminder, hchannel⟩
    exact ⟨channel, hchannel, reminder, hreminder, rfl, rfl⟩

theorem scanEnded_eq : scanEnded loc render now db user channels st sub =
    (pairs channels (endedReminders loc sub)).foldl (enqueuePair loc render now db user) st := by
  unfold scanEnded endedReminders pairs
  rw [List.foldl_flatMap]
  cases sub.endsAt with
  | none => simp
  | some endsAt =>
    cases henabled : sub.notifyEnabled.getD true with
    | false => simp
    | true => simp [enqueuePair]

theorem scanEnding_eq : scanEnding loc render now db user policy channels st sub =
    (pairs channels (endingReminders loc now policy sub)).foldl
    (enqueuePair loc render now db user) st := by
  unfold scanEnding endingReminders pairs
  rw [List.foldl_flatMap]
  split
  · simp
  · cases cancelAtPeriodEndBoundary sub with
    | none => simp
    | some boundary =>
      cases henabled : sub.notifyEnabled.getD true with
      | false => simp
      | true =>
        simp only [Bool.not_true, Bool.false_eq_true, if_false]
        split
        · simp
        · simp [enqueuePair]

theorem scanBilling_eq : scanBilling loc render now db user policy channels st sub =
    (pairs channels (billingReminders loc now policy sub)).foldl
    (enqueuePair loc render now db user) st := by
  unfold scanBilling billingReminders pairs
  rw [List.foldl_flatMap]
  cases sub.nextBillingDate with
  | none => simp
  | some nextBillingDate =>
    dsimp only
    split
    · simp
    · simp [List.foldl_map, enqueuePair]

theorem foldl_scanEnded (subs : List Subscription) (st : ScanState) :
    subs.foldl (scanEnded loc render now db user channels) st =
      (subs.flatMap fun sub => pairs channels (endedReminders loc sub)).foldl
        (enqueuePair loc render now db user) st := by
  have hscan : scanEnded loc render now db user channels = fun st sub => _ :=
    funext₂ fun _ _ => scanEnded_eq
  rw [List.foldl_flatMap, hscan]

theorem foldl_scanEnding (subs : List Subscription) (st : ScanState) :
    subs.foldl (scanEnding loc render now db user policy channels) st =
      (subs.flatMap fun sub => pairs channels (endingReminders loc now policy sub)).foldl
        (enqueuePair loc render now db user) st := by
  have hscan : scanEnding loc render now db user policy channels = fun st sub => _ :=
    funext₂ fun _ _ => scanEnding_eq
  rw [List.foldl_flatMap, hscan]

theorem foldl_scanBilling (subs : List Subscription) (st : ScanState) :
    subs.foldl (scanBilling loc render now db user policy channels) st =
      (subs.flatMap fun sub => pairs channels (billingReminders loc now policy sub)).foldl
        (enqueuePair loc render now db user) st := by
  have hscan : scanBilling loc render now db user policy channels = fun st sub => _ :=
    funext₂ fun _ _ => scanBilling_eq
  rw [List.foldl_flatMap, hscan]

/-- The pairs of a scan, in its order. -/
def scanPairs (loc : Location) (now : Time) (userID : Nat) (db : NotificationDB) :
    List (Reminder × NotificationChannel) :=
  let today := now.inLoc loc
  let db :=
    { db with subscriptions := reconcileSubscriptionLifecycleForUser userID today db.subscriptions }
  let policy := getPolicy userID db.policies
  let subs := activeSubscriptions userID db.subscriptions
  let channels := enabledChannels userID db.channels
  ((manualRenewEndedNotificationCandidates db userID today).flatMap fun sub =>
    pairs channels (endedReminders loc sub)) ++
    ((subs.flatMap fun sub => pairs channels (endingReminders loc now policy sub)) ++
      subs.flatMap fun sub => pairs channels (billingReminders loc now policy sub))

theorem processUserNotifications_outbox {userID : Nat}
    (hchannels : enabledChannels userID db.channels ≠ [])
    (huser : db.users.find? (·.id = userID) = some user) :
    (processUserNotifications loc render now userID db).outbox =
      ((scanPairs loc now userID db).foldl (enqueuePair loc render now
        { db with
          subscriptions := reconcileSubscriptionLifecycleForUser userID
            (now.inLoc loc) db.subscriptions } user)
        ⟨[], db.outbox⟩).outbox := by
  unfold processUserNotifications scanPairs
  dsimp only
  rw [show (db.channels.filter fun channel => channel.userID = userID ∧ channel.enabled) =
    enabledChannels userID db.channels
    from rfl, if_neg hchannels, huser]
  dsimp only
  rw [foldl_scanEnded, foldl_scanEnding, foldl_scanBilling, List.foldl_append, List.foldl_append]

end Loop

/-! ## Keys tell reminders apart -/

section Keys
variable {loc : Location} {now : Time} {userID : Nat} {db : NotificationDB} {r₁ r₂ : Reminder}
  {type₁ type₂ : String}

/-- What stands before the first separator, and what stands after it. -/
theorem eq_of_separated {α : Type*} {sep : α} {xs ys xs' ys' : List α} (hxs : sep ∉ xs) (hys : sep ∉ ys)
    (h : xs ++ sep :: xs' = ys ++ sep :: ys') : xs = ys ∧ xs' = ys' := by
  induction xs generalizing ys with
  | nil =>
    cases ys with
    | nil => simpa using h
    | cons y ys =>
      obtain ⟨rfl, -⟩ := List.cons.inj h
      exact absurd List.mem_cons_self hys
  | cons x xs ih =>
    cases ys with
    | nil =>
      obtain ⟨rfl, -⟩ := List.cons.inj h
      exact absurd List.mem_cons_self hxs
    | cons y ys =>
      obtain ⟨rfl, htail⟩ := List.cons.inj h
      obtain ⟨rfl, rfl⟩ :=
        ih (fun hmem => hxs (List.mem_cons_of_mem _ hmem))
          (fun hmem => hys (List.mem_cons_of_mem _ hmem)) htail
      exact ⟨rfl, rfl⟩

theorem Trigger.text_injective {t₁ t₂ : Trigger} (h : t₁.text.toList = t₂.text.toList) : t₁ = t₂ := by
  revert h
  cases t₁ <;> cases t₂ <;> decide

theorem colon_notMem_trigger (t : Trigger) : ':' ∉ t.text.toList := by cases t <;> decide

theorem colon_notMem_type {t : String} (h : isValidChannelType t = true) : ':' ∉ t.toList := by
  have hall : ∀ t ∈ channelTypes, ':' ∉ t.toList := by decide
  exact hall t (by simpa [isValidChannelType] using h)

theorem outboxKey_toList (userID : Nat) (channelType : String) (reminder : Reminder) :
    ∃ dates, (reminder.outboxKey userID channelType).toList =
      "v1".toList ++ ':' :: ((toString userID).toList ++ ':' :: ((toString reminder.sub.id).toList ++
        ':' :: (channelType.toList ++ ':' :: (reminder.triggerType.text.toList ++ ':' :: dates)))) := by
  unfold Reminder.outboxKey notificationOutboxDedupeKeyForTrigger notificationOutboxVersion
  dsimp only
  split
  · exact ⟨_, by simp [String.toList_append]; rfl⟩
  · exact ⟨_, by simp [String.toList_append]; rfl⟩

theorem toString_injective {m n : Nat} (h : (toString m).toList = (toString n).toList) : m = n := by
  have hnumber : RecurrenceRules.number m.repr.toList = RecurrenceRules.number n.repr.toList :=
    congrArg _ h
  rw [RecurrenceRules.number_repr, RecurrenceRules.number_repr] at hnumber
  exact Option.some.inj hnumber

/-- A key spells the row, the type and the trigger. -/
theorem outboxKey_injective (h₁ : isValidChannelType type₁ = true) (h₂ : isValidChannelType type₂ = true)
    (h : r₁.outboxKey userID type₁ = r₂.outboxKey userID type₂) :
    r₁.sub.id = r₂.sub.id ∧ type₁ = type₂ ∧ r₁.triggerType = r₂.triggerType := by
  obtain ⟨dates₁, hkey₁⟩ := outboxKey_toList userID type₁ r₁
  obtain ⟨dates₂, hkey₂⟩ := outboxKey_toList userID type₂ r₂
  have hnum : ∀ n : Nat, ':' ∉ (toString n).toList := fun n => RecurrenceRules.notMem_repr (by decide) n
  rw [h, hkey₂, List.append_cancel_left_eq, List.cons_inj_right, List.append_cancel_left_eq,
    List.cons_inj_right] at hkey₁
  obtain ⟨hid, hrest⟩ := eq_of_separated (hnum _) (hnum _) hkey₁
  obtain ⟨htype, hrest⟩ := eq_of_separated (colon_notMem_type h₂) (colon_notMem_type h₁) hrest
  obtain ⟨htrigger, -⟩ := eq_of_separated (colon_notMem_trigger _) (colon_notMem_trigger _) hrest
  exact ⟨(toString_injective hid).symm, (String.toList_inj.1 htype).symm,
    (Trigger.text_injective htrigger).symm⟩

theorem mem_endedReminders {loc : Location} {sub : Subscription} {r : Reminder}
    (h : r ∈ endedReminders loc sub) :
    r.sub = sub ∧ r.triggerType = .manualEnded ∧ endedReminders loc sub = [r] := by
  unfold endedReminders at h ⊢
  split at h
  · simp at h
  · split at h
    · simp at h
    · rename_i hends henabled
      obtain rfl := List.mem_singleton.1 h
      simp [henabled]

theorem mem_endingReminders {policy : NotificationPolicy} {sub : Subscription} {r : Reminder}
    (h : r ∈ endingReminders loc now policy sub) :
    r.sub = sub ∧ r.triggerType = .endingSoon ∧ endingReminders loc now policy sub = [r] := by
  obtain ⟨l, hl⟩ : ∃ l, endingReminders loc now policy sub = l := ⟨_, rfl⟩
  rw [hl] at h ⊢
  unfold endingReminders at hl
  dsimp only at hl
  split at hl
  · simp [← hl] at h
  · split at hl
    · simp [← hl] at h
    · split at hl
      · simp [← hl] at h
      · split at hl
        · simp [← hl] at h
        · subst hl
          obtain rfl := List.mem_singleton.1 h
          exact ⟨rfl, rfl, rfl⟩

theorem mem_billingReminders {policy : NotificationPolicy} {sub : Subscription} {r : Reminder}
    (h : r ∈ billingReminders loc now policy sub) :
    r.sub = sub ∧ (r.triggerType = .daysBefore ∨ r.triggerType = .dueDay ∨
      r.triggerType = .manualDaily) ∧
      ∀ r' ∈ billingReminders loc now policy sub, r'.triggerType = r.triggerType → r' = r := by
  unfold billingReminders at h ⊢
  split at h
  · simp at h
  · dsimp only at h ⊢
    split at h
    · simp at h
    · rename_i hcheck
      obtain ⟨t, ht, rfl⟩ := List.mem_map.1 h
      refine ⟨rfl, mem_triggerTypes ht, ?_⟩
      intro r' hr' htrigger
      rw [if_neg hcheck] at hr'
      obtain ⟨t', -, rfl⟩ := List.mem_map.1 hr'
      obtain rfl : t' = t := htrigger
      rfl

/-- Where a due reminder comes from. -/
theorem mem_dueReminders {r : Reminder} (h : r ∈ dueReminders loc now userID db) :
    ∃ sub ∈ reconcileSubscriptionLifecycleForUser userID (now.inLoc loc) db.subscriptions,
    r ∈ endedReminders loc sub ∨
      r ∈ endingReminders loc now (getPolicy userID db.policies) sub ∨
      r ∈ billingReminders loc now (getPolicy userID db.policies) sub := by
  unfold dueReminders at h
  dsimp only at h
  rcases List.mem_append.1 h with h | h
  · obtain ⟨sub, hsub, hr⟩ := List.mem_flatMap.1 h
    exact ⟨sub, (List.mem_filter.1 hsub).1, .inl hr⟩
  · rcases List.mem_append.1 h with h | h
    · obtain ⟨sub, hsub, hr⟩ := List.mem_flatMap.1 h
      exact ⟨sub, (mem_activeSubscriptions hsub).1, .inr (.inl hr)⟩
    · obtain ⟨sub, hsub, hr⟩ := List.mem_flatMap.1 h
      exact ⟨sub, (mem_activeSubscriptions hsub).1, .inr (.inr hr)⟩

/-- Of one row, no two due reminders have one trigger. -/
theorem dueReminders_unique (hids : (db.subscriptions.map (·.id)).Nodup)
    (h₁ : r₁ ∈ dueReminders loc now userID db) (h₂ : r₂ ∈ dueReminders loc now userID db)
    (hid : r₁.sub.id = r₂.sub.id) (htrigger : r₁.triggerType = r₂.triggerType) :
    r₁ = r₂ := by
  obtain ⟨sub₁, hsub₁, h₁⟩ := mem_dueReminders h₁
  obtain ⟨sub₂, hsub₂, h₂⟩ := mem_dueReminders h₂
  rw [← reconcile_ids userID (now.inLoc loc) db.subscriptions] at hids
  have hrow₁ : r₁.sub = sub₁ := by
    rcases h₁ with h | h | h
    exacts [(mem_endedReminders h).1, (mem_endingReminders h).1, (mem_billingReminders h).1]
  have hrow₂ : r₂.sub = sub₂ := by
    rcases h₂ with h | h | h
    exacts [(mem_endedReminders h).1, (mem_endingReminders h).1, (mem_billingReminders h).1]
  obtain rfl : sub₁ = sub₂ := Rows.eq_of_key hids hsub₁ hsub₂ (by rw [← hrow₁, ← hrow₂]; exact hid)
  -- The loops' triggers are apart, and within one loop the trigger gives the reminder.
  rcases h₁ with h₁ | h₁ | h₁
  · obtain ⟨-, ht₁, hlist⟩ := mem_endedReminders h₁
    rcases h₂ with h₂ | h₂ | h₂
    · simpa [hlist, eq_comm] using h₂
    · simp [htrigger, (mem_endingReminders h₂).2.1] at ht₁
    · rcases (mem_billingReminders h₂).2.1 with ht₂ | ht₂ | ht₂ <;> simp [htrigger, ht₂] at ht₁
  · obtain ⟨-, ht₁, hlist⟩ := mem_endingReminders h₁
    rcases h₂ with h₂ | h₂ | h₂
    · simp [htrigger, (mem_endedReminders h₂).2.1] at ht₁
    · simpa [hlist, eq_comm] using h₂
    · rcases (mem_billingReminders h₂).2.1 with ht₂ | ht₂ | ht₂ <;> simp [htrigger, ht₂] at ht₁
  · obtain ⟨-, ht₂, hlist⟩ := mem_billingReminders h₁
    rcases h₂ with h₂ | h₂ | h₂
    · rcases ht₂ with ht₂ | ht₂ | ht₂ <;> simp [htrigger, (mem_endedReminders h₂).2.1] at ht₂
    · rcases ht₂ with ht₂ | ht₂ | ht₂ <;> simp [htrigger, (mem_endingReminders h₂).2.1] at ht₂
    · exact (hlist _ h₂ htrigger.symm).symm

end Keys

/-! ## The first pair of a key decides -/

section Run
variable {loc : Location} {render : Nat → String → TemplateData → Option String} {now : Time}
  {db : NotificationDB}
  {user : NotificationUser} {st : ScanState} {pair : Reminder × NotificationChannel} {key : String}

theorem enqueuePair_scheduled (h : pair.1.scheduleKey pair.2.type ∈ st.scheduled) :
    enqueuePair loc render now db user st pair = st := by
  unfold enqueuePair enqueueReminder
  exact if_pos h

/-- The job of a pair. -/
def pairJob (user : NotificationUser) (message : String) (pair : Reminder × NotificationChannel) :
    NotificationOutboxJob :=
  { userID := user.id, subscriptionID := pair.1.sub.id, channel := pair.2,
    triggerType := pair.1.triggerType
    notifyDate := pair.1.notifyDate, dedupeDate := pair.1.dedupeDate, message :=
      message, targetEmail := user.email
    subscriptionURL := pair.1.sub.url }

theorem enqueuePair_new (h : pair.1.scheduleKey pair.2.type ∉ st.scheduled) :
    enqueuePair loc render now db user st pair =
      { scheduled := pair.1.scheduleKey pair.2.type :: st.scheduled
        outbox := match pair.1.text render db.paymentMethods user pair.2.type with
          | none => st.outbox
          | some message =>
            enqueueNotificationOutbox loc now (pairJob user message pair) st.outbox } := by
  unfold enqueuePair enqueueReminder Reminder.text
  refine (if_neg h).trans ?_
  dsimp only
  cases render user.id pair.2.type
      (buildTemplateData db.paymentMethods pair.1.sub user pair.1.notifyDate pair.1.daysUntil
        pair.1.eventType) with
  | none => rfl
  | some message => rfl

theorem enqueueNotificationOutbox_logs {job : NotificationOutboxJob} {s : OutboxStore} :
    (enqueueNotificationOutbox loc now job s).logs = s.logs := by
  unfold enqueueNotificationOutbox insertOutbox
  split
  · rfl
  · split <;> rfl

theorem enqueuePair_logs :
    (enqueuePair loc render now db user st pair).outbox.logs = st.outbox.logs := by
  by_cases h : pair.1.scheduleKey pair.2.type ∈ st.scheduled
  · rw [enqueuePair_scheduled h]
  · rw [enqueuePair_new h]
    dsimp only
    split
    · rfl
    · exact enqueueNotificationOutbox_logs

theorem enqueuePair_key {k : ScheduleKey} :
    k ∈ (enqueuePair loc render now db user st pair).scheduled ↔ k ∈ st.scheduled ∨
    k = pair.1.scheduleKey pair.2.type := by
  by_cases h : pair.1.scheduleKey pair.2.type ∈ st.scheduled
  · rw [enqueuePair_scheduled h]
    constructor
    · exact .inl
    · rintro (hk | rfl)
      · exact hk
      · exact h
  · rw [enqueuePair_new h]
    simp [or_comm]

theorem insertOutbox_filter {row : NotificationOutbox} {s : OutboxStore} (h : row.dedupeKey ≠ key) :
    (insertOutbox row s).rows.filter (·.dedupeKey = key) = s.rows.filter (·.dedupeKey = key) := by
  unfold insertOutbox
  split
  · rfl
  · simp [List.filter_append, h]

/-- A pair leaves the rows of the other keys alone. -/
theorem enqueuePair_filter (h : pair.1.outboxKey user.id pair.2.type ≠ key) :
    (enqueuePair loc render now db user st pair).outbox.rows.filter (·.dedupeKey = key) =
      st.outbox.rows.filter (·.dedupeKey = key) := by
  by_cases hscheduled : pair.1.scheduleKey pair.2.type ∈ st.scheduled
  · rw [enqueuePair_scheduled hscheduled]
  · rw [enqueuePair_new hscheduled]
    dsimp only
    cases pair.1.text render db.paymentMethods user pair.2.type with
    | none => rfl
    | some message =>
      dsimp only
      unfold enqueueNotificationOutbox
      split
      · rfl
      · exact insertOutbox_filter h

/-- The row with a key and a channel. -/
def KeyedTo (key : String) (channelID : Nat) (rows : List NotificationOutbox) : Prop :=
  ∃ row ∈ rows, row.dedupeKey = key ∧ row.channelID = some channelID

theorem keyedTo_congr {rows rows' : List NotificationOutbox} {channelID : Nat}
    (h : rows.filter (·.dedupeKey = key) = rows'.filter (·.dedupeKey = key)) :
    KeyedTo key channelID rows ↔ KeyedTo key channelID rows' := by
  have hiff : ∀ rows : List NotificationOutbox, KeyedTo key channelID rows ↔
      ∃ row ∈ rows.filter (·.dedupeKey = key), row.channelID = some channelID := by
    intro rows
    simp [KeyedTo, and_assoc]
  rw [hiff, hiff, h]

theorem insertOutbox_keyedTo {row : NotificationOutbox} {s : OutboxStore} {channelID : Nat} :
    KeyedTo row.dedupeKey channelID (insertOutbox row s).rows ↔ KeyedTo row.dedupeKey channelID s.rows ∨
      (∀ r ∈ s.rows, r.dedupeKey ≠ row.dedupeKey) ∧ row.channelID = some channelID := by
  unfold insertOutbox
  split
  · rename_i htaken
    simp only [List.any_eq_true, decide_eq_true_eq] at htaken
    obtain ⟨r, hr, hkey⟩ := htaken
    constructor
    · exact .inl
    · rintro (h | ⟨hfree, -⟩)
      · exact h
      · exact absurd hkey (hfree r hr)
  · rename_i hfree
    simp only [List.any_eq_true, decide_eq_true_eq, not_exists, not_and] at hfree
    simp only [KeyedTo, List.mem_append, List.mem_singleton, or_and_right, exists_or]
    refine or_congr_right ?_
    constructor
    · rintro ⟨r, rfl, -, hid⟩
      exact ⟨hfree, hid⟩
    · rintro ⟨-, hid⟩
      exact ⟨_, rfl, rfl, hid⟩

/-- What the deciding pair leaves. -/
theorem enqueuePair_keyedTo (h : pair.1.scheduleKey pair.2.type ∉ st.scheduled) {channelID : Nat} :
    KeyedTo (pair.1.outboxKey user.id pair.2.type) channelID
    (enqueuePair loc render now db user st pair).outbox.rows ↔
      KeyedTo (pair.1.outboxKey user.id pair.2.type) channelID st.outbox.rows ∨
        (∀ row ∈ st.outbox.rows, row.dedupeKey ≠ pair.1.outboxKey user.id pair.2.type) ∧
          pair.1.alreadySent loc st.outbox.logs pair.2.type = false ∧
          (pair.1.text render db.paymentMethods user pair.2.type).isSome = true ∧
            pair.2.id = channelID := by
  rw [enqueuePair_new h]
  dsimp only
  cases pair.1.text render db.paymentMethods user pair.2.type with
  | none => simp
  | some message =>
    dsimp only
    unfold enqueueNotificationOutbox
    rw [show enqueueSkips loc
      (pairJob user message pair) st.outbox = pair.1.alreadySent loc st.outbox.logs pair.2.type from rfl]
    cases hsent : pair.1.alreadySent loc st.outbox.logs pair.2.type with
    | true => simp
    | false =>
      have hkey : pair.1.outboxKey user.id pair.2.type =
          (enqueueRow (pairJob user message pair) now).dedupeKey := rfl
      rw [if_neg (by simp), hkey, insertOutbox_keyedTo]
      simp [enqueueRow, pairJob]

theorem keyFree_iff {rows : List NotificationOutbox} :
    (∀ row ∈ rows, row.dedupeKey ≠ key) ↔ rows.filter (·.dedupeKey = key) = [] := by
  simp [List.filter_eq_nil_iff]

/-- The same, from tables where nothing with the key has changed. -/
theorem firstPair_keyedTo {db' : NotificationDB} {reminder : Reminder} {first : NotificationChannel}
    {t : String} {channelID : Nat} (htype : first.type = t)
    (hnew : reminder.scheduleKey t ∉ st.scheduled) (hlogs : st.outbox.logs = db'.outbox.logs)
    (hrows : st.outbox.rows.filter (·.dedupeKey = reminder.outboxKey user.id t) =
      db'.outbox.rows.filter (·.dedupeKey = reminder.outboxKey user.id t)) :
    KeyedTo (reminder.outboxKey user.id t) channelID
    (enqueuePair loc render now db user st (reminder, first)).outbox.rows ↔
      KeyedTo (reminder.outboxKey user.id t) channelID db'.outbox.rows ∨
        (∀ row ∈ db'.outbox.rows, row.dedupeKey ≠ reminder.outboxKey user.id t) ∧
          reminder.alreadySent loc db'.outbox.logs t = false ∧
          (reminder.text render db.paymentMethods user t).isSome = true ∧ first.id = channelID := by
  subst htype
  rw [← keyedTo_congr hrows, keyFree_iff, ← hrows, ← hlogs, ← keyFree_iff]
  exact enqueuePair_keyedTo hnew

/-- The pair that a reminder is decided by, when it is in the list. -/
def DecidedBy (reminder : Reminder) (first : NotificationChannel)
    (l : List (Reminder × NotificationChannel)) : Prop :=
  (∃ x ∈ l, x.1 = reminder) → l.find? (fun x => x.1 = reminder ∧ x.2.type = first.type) = some
    (reminder, first)

variable {reminder : Reminder} {first : NotificationChannel}

theorem decidedBy_append {l₁ l₂ : List (Reminder × NotificationChannel)}
    (h₁ : DecidedBy reminder first l₁) (h₂ : DecidedBy reminder first l₂) :
    DecidedBy reminder first (l₁ ++ l₂) := by
  rintro ⟨x, hx, hreminder⟩
  rw [List.find?_append]
  by_cases hl₁ : ∃ x ∈ l₁, x.1 = reminder
  · rw [h₁ hl₁, Option.some_or]
  · have hnone : l₁.find? (fun x => x.1 = reminder ∧ x.2.type = first.type) = none := by
      rw [List.find?_eq_none]
      intro y hy hp
      exact hl₁ ⟨y, hy, (of_decide_eq_true hp).1⟩
    have hl₂ : ∃ x ∈ l₂, x.1 = reminder := by
      rcases List.mem_append.1 hx with hx | hx
      · exact absurd ⟨x, hx, hreminder⟩ hl₁
      · exact ⟨x, hx, hreminder⟩
    rw [hnone, h₂ hl₂, Option.none_or]

theorem decidedBy_flatMap {subs : List Subscription}
    {f : Subscription → List (Reminder × NotificationChannel)}
    (h : ∀ sub, DecidedBy reminder first (f sub)) : DecidedBy reminder first (subs.flatMap f) := by
  induction subs with
  | nil =>
    rintro ⟨x, hx, -⟩
    simp at hx
  | cons sub subs ih =>
    rw [List.flatMap_cons]
    exact decidedBy_append (h sub) ih

theorem decidedBy_pairs {channels : List NotificationChannel} {reminders : List Reminder} {t : String}
    (hfirst : channels.find? (·.type = t) = some first) :
    DecidedBy reminder first (pairs channels reminders) := by
  rintro ⟨x, hx, rfl⟩
  have hmem := (mem_pairs.1 hx).1
  obtain rfl : first.type = t := by simpa using List.find?_some hfirst
  clear hx
  induction channels with
  | nil => simp at hfirst
  | cons channel channels ih =>
    rw [pairs, List.flatMap_cons, List.find?_append, List.find?_map]
    rw [List.find?_cons] at hfirst
    cases htype : decide (channel.type = first.type) with
    | true =>
      rw [htype] at hfirst
      obtain rfl : channel = first := Option.some.inj hfirst
      cases hfind : reminders.find?
        ((fun y : Reminder × NotificationChannel => decide (y.1 = x.1 ∧ y.2.type = channel.type)) ∘
          fun r => (r, channel)) with
      | none => exact absurd (by simp) (List.find?_eq_none.1 hfind x.1 hmem)
      | some r =>
        have hp := List.find?_some hfind
        obtain rfl : r = x.1 := by simpa using hp
        rfl
    | false =>
      rw [htype] at hfirst
      have hnone : reminders.find?
          ((fun y : Reminder × NotificationChannel => decide (y.1 = x.1 ∧ y.2.type = first.type)) ∘
          fun r => (r, channel)) = none := by
        rw [List.find?_eq_none]
        intro r _ hp
        exact absurd (of_decide_eq_true hp).2 (of_decide_eq_false htype)
      rw [hnone]
      exact ih hfirst

end Run

/-! ## Every channel is served -/

/-- The log check of an ended row. -/
def NotEndedBefore (db : NotificationDB) (reminder : Reminder) : Prop :=
  reminder.triggerType = .manualEnded → ∀ endsAt ∈ reminder.sub.endsAt,
    manualRenewEndedNotificationAlreadySent db.outbox.logs reminder.sub.id
      (normalizeDateUTC endsAt) = false

/-- Nothing keeps a reminder from a channel: its key is free, no log stands for it, it
has a text, and the channel is the first of its type. -/
def Reaches (loc : Location) (render : Nat → String → TemplateData → Option String)
    (user : NotificationUser) (db : NotificationDB) (channel : NotificationChannel)
    (reminder : Reminder) : Prop :=
  (∀ row ∈ db.outbox.rows, row.dedupeKey ≠ reminder.outboxKey user.id channel.type) ∧
    reminder.alreadySent loc db.outbox.logs channel.type = false ∧
    NotEndedBefore db reminder ∧
    (reminder.text render db.paymentMethods user channel.type).isSome = true ∧
    ((enabledChannels user.id db.channels).find? (·.type = channel.type)).map (·.id) = some channel.id

/-- Every enabled channel has its row of every reminder due, or was sent it before. -/
def EveryChannelServed (loc : Location) (now : Time) (userID : Nat)
    (before after : NotificationDB) : Prop :=
  ∀ reminder ∈ dueReminders loc now userID before, ∀ channel ∈ enabledChannels userID before.channels,
    reminder.SentTo loc before.outbox channel ∨ reminder.HasRow userID after.outbox.rows channel

section Served
variable {loc : Location} {render : Nat → String → TemplateData → Option String} {now : Time}
  {db : NotificationDB}
  {user : NotificationUser} {reminder : Reminder} {channel first : NotificationChannel}

theorem mem_candidates_iff {userID : Nat} {t : Time} {sub : Subscription} :
    sub ∈ manualRenewEndedNotificationCandidates db userID t ↔
      sub ∈ db.subscriptions.filter (manualRenewEnded userID (normalizeDateUTC t)) ∧
        ∀ endsAt ∈ sub.endsAt, manualRenewEndedNotificationAlreadySent db.outbox.logs sub.id
          (normalizeDateUTC endsAt) = false := by
  unfold manualRenewEndedNotificationCandidates
  simp only [List.mem_filter, List.mem_insertionSort, manualRenewEnded, decide_eq_true_eq]
  cases hends : sub.endsAt with
  | none => simp
  | some endsAt => simp

/-- The pairs of a scan: the due reminders that the log check leaves. -/
theorem mem_scanPairs_iff {userID : Nat} {pair : Reminder × NotificationChannel} :
    pair ∈ scanPairs loc now userID db ↔
      pair.1 ∈ dueReminders loc now userID db ∧ NotEndedBefore db pair.1 ∧
        pair.2 ∈ enabledChannels userID db.channels := by
  have hother : ∀ r sub, r ∈ endingReminders loc now (getPolicy userID db.policies) sub ∨
      r ∈ billingReminders loc now (getPolicy userID db.policies) sub → NotEndedBefore db r := by
    intro r sub hr htrigger
    rcases hr with hr | hr
    · simp [(mem_endingReminders hr).2.1] at htrigger
    · rcases (mem_billingReminders hr).2.1 with h | h | h <;> simp [h] at htrigger
  unfold scanPairs dueReminders
  simp only [List.mem_append, List.mem_flatMap, mem_pairs, mem_candidates_iff]
  constructor
  · rintro (⟨sub, ⟨hsub, hlogs⟩, hr, hc⟩ | ⟨sub, hsub, hr, hc⟩ | ⟨sub, hsub, hr, hc⟩)
    · refine ⟨.inl ⟨sub, hsub, hr⟩, ?_, hc⟩
      intro _
      rw [(mem_endedReminders hr).1]
      exact hlogs
    · exact ⟨.inr (.inl ⟨sub, hsub, hr⟩), hother _ sub (.inl hr), hc⟩
    · exact ⟨.inr (.inr ⟨sub, hsub, hr⟩), hother _ sub (.inr hr), hc⟩
  · rintro ⟨⟨sub, hsub, hr⟩ | ⟨sub, hsub, hr⟩ | ⟨sub, hsub, hr⟩, hlogs, hc⟩
    · obtain ⟨hrow, htrigger, -⟩ := mem_endedReminders hr
      refine .inl ⟨sub, ⟨hsub, ?_⟩, hr, hc⟩
      rw [← hrow]
      exact hlogs htrigger
    · exact .inr (.inl ⟨sub, hsub, hr, hc⟩)
    · exact .inr (.inr ⟨sub, hsub, hr, hc⟩)

theorem scanPairs_decidedBy {userID : Nat}
    (hfirst : (enabledChannels userID db.channels).find? (·.type = channel.type) = some first) :
    DecidedBy reminder first (scanPairs loc now userID db) :=
  decidedBy_append (decidedBy_flatMap fun _ => decidedBy_pairs hfirst)
    (decidedBy_append (decidedBy_flatMap fun _ => decidedBy_pairs hfirst)
      (decidedBy_flatMap fun _ => decidedBy_pairs hfirst))

/-- A channel has its row after a scan when it had it before, or nothing kept the reminder from it. -/
theorem scan_hasRow_iff (hids : (db.subscriptions.map (·.id)).Nodup)
    (huser : db.users.find? (·.id = user.id) = some user)
    (htypes : ∀ c ∈ enabledChannels user.id db.channels, isValidChannelType c.type = true)
    (hdue : reminder ∈ dueReminders loc now user.id db)
    (hchannel : channel ∈ enabledChannels user.id db.channels) :
    reminder.HasRow user.id (processUserNotifications loc render now user.id db).outbox.rows channel ↔
      reminder.HasRow user.id db.outbox.rows channel ∨ Reaches loc render user db channel reminder := by
  obtain ⟨first, hfirst⟩ : ∃ first, (enabledChannels user.id db.channels).find?
      (·.type = channel.type) = some first := by
    refine Option.isSome_iff_exists.1 (List.find?_isSome.2 ⟨channel, hchannel, by simp⟩)
  have htype : first.type = channel.type := by simpa using List.find?_some hfirst
  let p : Reminder × NotificationChannel → Bool := fun x => x.1 = reminder ∧ x.2.type = first.type
  let key := reminder.outboxKey user.id channel.type
  -- A pair with the key, in memory or in the table, has the reminder and the type.
  have hother : ∀ x ∈ scanPairs loc now user.id db, p x = false →
      x.1.scheduleKey x.2.type ≠ reminder.scheduleKey channel.type ∧
        x.1.outboxKey user.id x.2.type ≠ key := by
    intro x hx hp
    obtain ⟨hxdue, -, hxchannel⟩ := mem_scanPairs_iff.1 hx
    have hp' : ¬ (x.1 = reminder ∧ x.2.type = first.type) := of_decide_eq_false hp
    constructor
    · intro hkey
      obtain ⟨hid, ht, htrigger, -⟩ := ScheduleKey.mk.inj hkey
      exact hp' ⟨dueReminders_unique hids hxdue hdue hid htrigger, ht.trans htype.symm⟩
    · intro hkey
      obtain ⟨hid, ht, htrigger⟩ := outboxKey_injective (htypes _ hxchannel) (htypes _ hchannel) hkey
      exact hp' ⟨dueReminders_unique hids hxdue hdue hid htrigger, ht.trans htype.symm⟩
  have hne : enabledChannels user.id db.channels ≠ [] := List.ne_nil_of_mem hchannel
  rw [processUserNotifications_outbox hne huser]
  -- The rows of the key stay what they were until a pair of the reminder and the type comes.
  let before : ScanState → Prop := fun st => reminder.scheduleKey channel.type ∉ st.scheduled ∧
    st.outbox.logs = db.outbox.logs ∧
    st.outbox.rows.filter (·.dedupeKey = key) = db.outbox.rows.filter (·.dedupeKey = key)
  let scanned :=
    { db with
      subscriptions := reconcileSubscriptionLifecycleForUser user.id (now.inLoc loc) db.subscriptions }
  have hbefore : ∀ st, ∀ x ∈ scanPairs loc now user.id db, p x = false → before st →
      before (enqueuePair loc render now scanned user st x) := by
    rintro st x hx hp ⟨hscheduled, hlogs, hrows⟩
    obtain ⟨hk, hkey⟩ := hother x hx hp
    refine ⟨?_, enqueuePair_logs.trans hlogs, (enqueuePair_filter hkey).trans hrows⟩
    rw [enqueuePair_key, not_or]
    exact ⟨hscheduled, hk.symm⟩
  have hstart : before ⟨[], db.outbox⟩ := ⟨by simp, rfl, rfl⟩
  by_cases hended : NotEndedBefore db reminder
  · have hdecided : (scanPairs loc now user.id db).find? p = some (reminder, first) :=
      scanPairs_decidedBy hfirst ⟨(reminder, channel), mem_scanPairs_iff.2 ⟨hdue, hended, hchannel⟩, rfl⟩
    let after : ScanState → Prop := fun st => reminder.scheduleKey channel.type ∈ st.scheduled ∧
      (KeyedTo key channel.id st.outbox.rows ↔
        reminder.HasRow user.id db.outbox.rows channel ∨ Reaches loc render user db channel reminder)
    refine (Loop.foldl_first before after hdecided hstart hbefore ?_ ?_).2
    · rintro st ⟨hscheduled, hlogs, hrows⟩
      refine ⟨enqueuePair_key.2 (.inr (by rw [htype])),
        (firstPair_keyedTo htype hscheduled hlogs hrows).trans ?_⟩
      unfold Reaches Reminder.HasRow
      rw [hfirst, Option.map_some, Option.some.injEq]
      simp only [hended, true_and]
      rfl
    · rintro st x hx ⟨hscheduled, hiff⟩
      refine ⟨enqueuePair_key.2 (.inl hscheduled), ?_⟩
      cases hp : p x with
      | true =>
        obtain ⟨hreminder, ht⟩ := of_decide_eq_true hp
        rw [enqueuePair_scheduled (by rw [hreminder, ht, htype]; exact hscheduled)]
        exact hiff
      | false => exact (keyedTo_congr (enqueuePair_filter (hother x hx hp).2)).trans hiff
  · -- The log check keeps the reminder out of the loop.
    have hout : ∀ x ∈ scanPairs loc now user.id db, p x = false := by
      intro x hx
      refine decide_eq_false fun hp => hended ?_
      rw [← hp.1]
      exact (mem_scanPairs_iff.1 hx).2.1
    have hrows :=
      (List.foldlRecOn (motive := before) (scanPairs loc now user.id db)
        (enqueuePair loc render now scanned user)
      hstart fun st hst x hx => hbefore st x hx (hout x hx) hst).2.2
    refine (keyedTo_congr hrows).trans ?_
    constructor
    · exact .inl
    · rintro (h | h)
      · exact h
      · exact absurd h.2.2.1 hended

/-- Every channel is served exactly when, for each due reminder, a channel that was not
sent it has its row already or nothing keeps the reminder from it. -/
theorem channels_served_iff {userID : Nat} (hids : (db.subscriptions.map (·.id)).Nodup)
    (huser : db.users.find? (·.id = userID) = some user)
    (htypes : ∀ c ∈ enabledChannels userID db.channels, isValidChannelType c.type = true) :
    EveryChannelServed loc now userID db (processUserNotifications loc render now userID db) ↔
      ∀ reminder ∈ dueReminders loc now userID db, ∀ channel ∈ enabledChannels userID db.channels,
        reminder.SentTo loc db.outbox channel ∨ reminder.HasRow userID db.outbox.rows channel ∨
          Reaches loc render user db channel reminder := by
  obtain rfl : user.id = userID := by simpa using List.find?_some huser
  unfold EveryChannelServed
  constructor
  · intro h reminder hdue channel hchannel
    rw [← scan_hasRow_iff hids huser htypes hdue hchannel]
    exact h reminder hdue channel hchannel
  · intro h reminder hdue channel hchannel
    rw [scan_hasRow_iff hids huser htypes hdue hchannel]
    exact h reminder hdue channel hchannel

end Served

section Instances
variable (loc : Location) (render : Nat → String → TemplateData → Option String) (now : Time)
  (user : NotificationUser)
  (userID : Nat) (db after : NotificationDB) (channel : NotificationChannel) (reminder : Reminder)

instance : Decidable (reminder.SentTo loc db.outbox channel) := by unfold Reminder.SentTo; infer_instance

instance : Decidable (reminder.HasRow userID db.outbox.rows channel) := by
  unfold Reminder.HasRow; infer_instance

instance : Decidable (Reaches loc render user db channel reminder) := by
  unfold Reaches NotEndedBefore; infer_instance

instance : Decidable (EveryChannelServed loc now userID db after) := by
  unfold EveryChannelServed; infer_instance

end Instances

/-- One webhook gets the row of an ended subscription. -/
theorem channels_served_sample :
    dueReminders (Location.fixed 0) sampleNow 1 sampleDB ≠ [] ∧
      EveryChannelServed (Location.fixed 0) sampleNow 1 sampleDB (sampleScan 0) :=
  ⟨by decide +kernel, (channels_served_iff (by decide)
    (show sampleDB.users.find? (·.id = 1) = some ⟨1, "user@example.com"⟩ from rfl) (by decide)).2
      (by decide +kernel)⟩

/-- Two webhooks with different settings. -/
def twoWebhooks : NotificationDB :=
  { sampleDB with channels := [⟨1, 1, "webhook", true, "one"⟩, ⟨2, 1, "webhook", true, "two"⟩] }

/-- Of two webhooks, the second has no row. -/
theorem channels_served_fails :
    ¬ ∀ (loc : Location) (render : Nat → String → TemplateData → Option String) (now : Time)
    (userID : Nat) (db : NotificationDB)
      (user : NotificationUser), (db.subscriptions.map (·.id)).Nodup →
        db.users.find? (·.id = userID) = some user →
      (∀ c ∈ enabledChannels userID db.channels, isValidChannelType c.type = true) →
      EveryChannelServed loc now userID db (processUserNotifications loc render now userID db) := by
  intro h
  have hserved :=
    h (Location.fixed 0) (fun _ _ data => some data.subscriptionName) sampleNow 1 twoWebhooks
      ⟨1, "user@example.com"⟩
    (by decide) rfl (by decide)
  revert hserved
  decide +kernel

end Subdux
