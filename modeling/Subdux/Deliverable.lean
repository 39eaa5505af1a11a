import Subdux.Scheduler
/-!
# A scanned job at dispatch

A job that the scan enqueues, claimed at the same instant, goes through
`cancelOutboxIfNoLongerDeliverable`. `Scanned` is what the scan knew of the row when
it enqueued the job; `scanned_deliverable_iff` compares that with what the check
asks. Both sides read a row's date in the system timezone, except that the check of
an ended row compares the stored date itself.
-/

namespace Subdux

/-! ## What the scan knows -/

/-- The date of a row that a trigger is about. -/
def reminderDate (triggerType : Trigger) (sub : Subscription) : Option Time :=
  match triggerType with
  | .manualEnded => sub.endsAt
  | .endingSoon => cancelAtPeriodEndBoundary sub
  | _ => sub.nextBillingDate

section
variable (o : Int) (now : Time) (policy : NotificationPolicy)

/-- The state and timing that a trigger stands for. -/
def triggerHolds (triggerType : Trigger) (sub : Subscription) (date : Time) : Prop :=
  let daysBefore := sub.notifyDaysBefore.getD policy.daysBefore
  match triggerType with
  | .manualEnded => sub.status = subscriptionStatusEnded ∧ sub.renewalMode = renewalModeManualRenew
  | .endingSoon =>
    sub.status = subscriptionStatusActive ∧
      normalizeRenewalMode sub.renewalMode = renewalModeCancelAtPeriodEnd ∧
      notificationTriggerTypes
        (daysUntilFrom now (normalizeDateInTimezone date (Location.fixed o)) (Location.fixed o))
        daysBefore policy.notifyOnDueDay ≠ []
  | triggerType =>
    sub.status = subscriptionStatusActive ∧ subscriptionHasFutureCharge sub = true ∧
      triggerType ∈ notificationTriggerTypesForSubscription sub.renewalMode
        (daysUntilFrom now date (Location.fixed o))
        daysBefore policy.notifyOnDueDay policy.notifyManualRenewDaily

/-- A row of the outbox that a scan at `now` enqueued for `sub`. -/
structure Scanned (sub : Subscription) (row : NotificationOutbox) : Prop where
  user : row.userID = sub.userID
  subscription : row.subscriptionID = sub.id
  scheduled : row.scheduledFor = now
  expires : row.expiresAt =
    some ((if row.triggerType = .manualEnded then now else row.notifyDate).add
      notificationOutboxExpiryWindow)
  billing : sub.billingType = billingTypeRecurring
  enabled : sub.notifyEnabled.getD true = true
  date : ∃ date, reminderDate row.triggerType sub = some date ∧ row.notifyDate = midnight
    (localDay o date) ∧
    triggerHolds o now policy row.triggerType sub date

/-- When scan and check agree on a date: an ended row's date is its own date in the
system timezone, and for the other triggers the 36 hours from midnight UTC of the
local date are not over. -/
def DateAgrees (triggerType : Trigger) (date : Time) : Prop :=
  if triggerType = .manualEnded then localDay o date = date.day
  else now.nanos < (midnight (localDay o date)).nanos + notificationOutboxExpiryWindow

instance (triggerType : Trigger) (date : Time) : Decidable (DateAgrees o now triggerType date) := by
  unfold DateAgrees; infer_instance

end

/-- A midnight UTC, as the code stores dates, is on its own date in the zones from
Greenwich east. -/
theorem dateAgrees_midnight {o : Int} {now : Time} (n : Int) :
    DateAgrees o now .manualEnded (midnight n) ↔ 0 ≤ o ∧ o < 24 * 3600 := by
  rw [DateAgrees, if_pos rfl, midnight_day, localDay, midnight]
  simp only [nsPerDay, nsPerSecond]
  omega

/-- No job of another trigger expires on its local date, down to twelve hours west. -/
theorem dateAgrees_of_offset {o : Int} {now : Time} {triggerType : Trigger} {date : Time}
    (htrigger : triggerType ≠ .manualEnded) (ho : -12 * 3600 ≤ o)
    (hdate : localDay o now ≤ localDay o date) :
    DateAgrees o now triggerType date := by
  simp only [DateAgrees, if_neg htrigger, midnight, localDay, notificationOutboxExpiryWindow,
    nsPerDay, nsPerSecond,
    nsPerHour] at *
  omega

/-! ## The check agrees with the scan -/

section Check
variable {o : Int} {now : Time} {db : NotificationDB} {sub : Subscription}
  {row : NotificationOutbox} {date : Time}

theorem normalizeStatus_of_ended (h : sub.status = subscriptionStatusEnded) :
    normalizeStatus sub.status = subscriptionStatusEnded := by
  rw [h, normalizeStatus_ended]

theorem normalizeStatus_of_active (h : sub.status = subscriptionStatusActive) :
    normalizeStatus sub.status = subscriptionStatusActive := by
  rw [h, normalizeStatus_active]

/-- The reminder check passes on what the scan saw. -/
theorem outboxMatchesCurrentReminder_of_scanned (policies : List NotificationPolicy)
    {nextBillingDate : Time} (hscheduled : row.scheduledFor = now)
    (hnotify : row.notifyDate = midnight (localDay o nextBillingDate))
    (hmem : row.triggerType ∈ notificationTriggerTypesForSubscription sub.renewalMode
      (daysUntilFrom now nextBillingDate (Location.fixed o))
      (sub.notifyDaysBefore.getD (getPolicy row.userID policies).daysBefore)
      (getPolicy row.userID policies).notifyOnDueDay
        (getPolicy row.userID policies).notifyManualRenewDaily) :
    outboxMatchesCurrentReminder (Location.fixed o) now policies row sub nextBillingDate = none := by
  simp [outboxMatchesCurrentReminder, hnotify, hscheduled, hmem, Time.equal]

theorem outboxMatchesCurrentEndingSoonReminder_of_scanned (policies : List NotificationPolicy)
    (hscheduled : row.scheduledFor = now) (hboundary : cancelAtPeriodEndBoundary sub = some date)
    (hnotify : row.notifyDate = midnight (localDay o date))
    (htypes : notificationTriggerTypes
      (daysUntilFrom now (normalizeDateInTimezone date (Location.fixed o)) (Location.fixed o))
      (sub.notifyDaysBefore.getD (getPolicy row.userID policies).daysBefore)
      (getPolicy row.userID policies).notifyOnDueDay ≠ []) :
    outboxMatchesCurrentEndingSoonReminder (Location.fixed o) now policies row sub = none := by
  simp [outboxMatchesCurrentEndingSoonReminder, hboundary, hnotify, hscheduled, htypes, Time.equal]

/-- A row enqueued now is not expired, unless its date's 36 hours are over. -/
theorem expired_iff (hexpires : row.expiresAt =
      some ((if row.triggerType = .manualEnded then now else row.notifyDate).add
        notificationOutboxExpiryWindow))
    (hnotify : row.notifyDate = midnight (localDay o date)) :
    (row.expiresAt.any fun expiresAt => !expiresAt.after now) = true ↔
      row.triggerType ≠ .manualEnded ∧
        (midnight (localDay o date)).nanos + notificationOutboxExpiryWindow ≤ now.nanos := by
  rw [hexpires, hnotify]
  split <;> simp [Time.after, Time.add, notificationOutboxExpiryWindow, nsPerHour, *]

/-- For a scanned row, the check passes exactly when the dates agree. -/
theorem scanned_deliverable_iff (h : Scanned o now (getPolicy row.userID db.policies) sub row)
    (hfind : findSubscription row.userID row.subscriptionID db.subscriptions = some sub)
    (hdate : reminderDate row.triggerType sub = some date) :
    cancelOutboxIfNoLongerDeliverable (Location.fixed o) now db row = none ↔
    DateAgrees o now row.triggerType date := by
  obtain ⟨date', hdate', hnotify, hholds⟩ := h.date
  obtain rfl : date' = date := Option.some.inj (hdate'.symm.trans hdate)
  have hexpired := expired_iff h.expires hnotify
  unfold cancelOutboxIfNoLongerDeliverable
  cases htrigger : row.triggerType with
  | manualEnded =>
    simp only [htrigger, reminderDate] at hdate
    simp only [htrigger, triggerHolds] at hholds
    have hnot : ¬ (row.expiresAt.any fun expiresAt => !expiresAt.after now) = true := by
      simp [hexpired, htrigger]
    have hmode : normalizeRenewalMode sub.renewalMode = renewalModeManualRenew := by
      rw [hholds.2]; decide
    simp [hnot, hfind, normalizeStatus_of_ended hholds.1, hmode, h.billing, h.enabled, hdate,
      hnotify, DateAgrees]
  | endingSoon =>
    simp only [htrigger, reminderDate] at hdate
    simp only [htrigger, triggerHolds] at hholds
    have hmatch :=
      outboxMatchesCurrentEndingSoonReminder_of_scanned db.policies h.scheduled hdate hnotify hholds.2.2
    by_cases hlate : (row.expiresAt.any fun expiresAt => !expiresAt.after now) = true
    · simpa [hlate, DateAgrees] using (hexpired.1 hlate).2
    · have hearly : now.nanos < (midnight (localDay o date')).nanos +
          notificationOutboxExpiryWindow := by
        simpa [hexpired, htrigger] using hlate
      simp [hlate, hfind, normalizeStatus_of_active hholds.1, hholds.2.1, h.billing, h.enabled,
        hdate, hmatch, DateAgrees, hearly]
  | daysBefore | dueDay | manualDaily =>
    simp only [htrigger, reminderDate] at hdate
    simp only [htrigger, triggerHolds] at hholds
    have hmatch :=
      outboxMatchesCurrentReminder_of_scanned db.policies h.scheduled hnotify (htrigger ▸ hholds.2.2)
    by_cases hlate : (row.expiresAt.any fun expiresAt => !expiresAt.after now) = true
    · simpa [hlate, DateAgrees] using (hexpired.1 hlate).2
    · have hearly : now.nanos < (midnight (localDay o date')).nanos +
          notificationOutboxExpiryWindow := by
        simpa [hexpired, htrigger] using hlate
      simp [hlate, hfind, normalizeStatus_of_active hholds.1, hholds.2.1, h.billing, h.enabled,
        hdate, hmatch, DateAgrees, hearly]

end Check

/-! ## Every row that a scan adds is scanned -/

section Scan
variable {o : Int} {render : Nat → String → TemplateData → Option String} {now : Time}
  {db : NotificationDB}
  {user : NotificationUser} {policy : NotificationPolicy} {channels : List NotificationChannel}
    {sub : Subscription}
  {st : ScanState} {old : List NotificationOutbox} {subs : List Subscription}

/-- Every row is one of `old`, or scanned for one of `subs`. -/
def AllScanned (o : Int) (now : Time) (policy : NotificationPolicy) (old : List NotificationOutbox)
    (subs : List Subscription) (rows : List NotificationOutbox) : Prop :=
  ∀ row ∈ rows, row ∈ old ∨ ∃ sub ∈ subs, Scanned o now policy sub row

/-- A row of the tables with a reminder due. -/
structure ReminderDue (o : Int) (now : Time) (policy : NotificationPolicy) (user : NotificationUser)
    (subs : List Subscription) (triggerType : Trigger) (sub : Subscription) (day : Time) : Prop where
  mem : sub ∈ subs
  user : user.id = sub.userID
  billing : sub.billingType = billingTypeRecurring
  enabled : sub.notifyEnabled.getD true = true
  date : reminderDate triggerType sub = some day
  holds : triggerHolds o now policy triggerType sub day

/-- A reminder adds at most the row of its job. -/
theorem enqueueReminder_outbox {loc : Location} {triggerType : Trigger}
    {notifyDate dedupeDate : Time} {daysUntil : Int} {eventType : String}
    {channel : NotificationChannel} {row : NotificationOutbox}
    (h : row ∈ (enqueueReminder loc render now db user sub triggerType notifyDate dedupeDate
      daysUntil eventType channel
      st).outbox.rows) :
    row ∈ st.outbox.rows ∨ ∃ message, row = { enqueueRow
      { userID := user.id, subscriptionID := sub.id, channel := channel, triggerType := triggerType,
        notifyDate := notifyDate
        dedupeDate := dedupeDate, message := message, targetEmail := user.email,
        subscriptionURL := sub.url } now with
      id := st.outbox.nextID } := by
  unfold enqueueReminder at h
  dsimp only at h
  generalize ScheduleKey.mk sub.id _ _ _ _ = key at h
  by_cases hkey : key ∈ st.scheduled
  · rw [if_pos hkey] at h
    exact .inl h
  · rw [if_neg hkey] at h
    cases hrender : render user.id channel.type
      (buildTemplateData db.paymentMethods sub user notifyDate daysUntil eventType) with
    | none =>
      rw [hrender] at h
      exact .inl h
    | some message =>
      rw [hrender] at h
      exact (mem_enqueueNotificationOutbox h).imp_right fun h => ⟨message, h⟩

theorem enqueueReminder_scanned {triggerType : Trigger} {date : Time}
    (hdue : ReminderDue o now policy user subs triggerType sub date) (dedupeDate : Time)
    (daysUntil : Int) (eventType : String) (channel : NotificationChannel)
    (h : AllScanned o now policy old subs st.outbox.rows) :
    AllScanned o now policy old subs
    (enqueueReminder (Location.fixed o) render now db user sub triggerType
      (normalizeDateInTimezone date (Location.fixed o)) dedupeDate daysUntil eventType channel
        st).outbox.rows := by
  intro row hrow
  rcases enqueueReminder_outbox hrow with hrow | ⟨message, rfl⟩
  · exact h row hrow
  · -- The new row, with the fields that the job gave it.
    refine .inr ⟨sub, hdue.mem, hdue.user, rfl, rfl, ?_, hdue.billing, hdue.enabled, date,
      hdue.date, ?_, hdue.holds⟩
    · simp only [enqueueRow]
      split <;> rfl
    · simp [enqueueRow]

theorem scanEnded_scanned (hmem : sub ∈ subs) (huser : user.id = sub.userID)
    (hst : sub.status = subscriptionStatusEnded) (hmode : sub.renewalMode = renewalModeManualRenew)
    (hbilling : sub.billingType = billingTypeRecurring)
    (h : AllScanned o now policy old subs st.outbox.rows) :
    AllScanned o now policy old subs
    (scanEnded (Location.fixed o) render now db user channels st sub).outbox.rows := by
  unfold scanEnded
  split
  · exact h
  · rename_i endsAt hends
    split
    · exact h
    · rename_i henabled
      have hdue : ReminderDue o now policy user subs .manualEnded sub endsAt :=
        ⟨hmem, huser, hbilling, by simpa using henabled, hends, hst, hmode⟩
      exact List.foldlRecOn
        (motive := fun st : ScanState => AllScanned o now policy old subs st.outbox.rows) channels _ h
        fun st hst channel _ => enqueueReminder_scanned hdue _ _ _ channel hst

/-- The reminders of a charge have three triggers. -/
theorem mem_triggerTypes {renewalMode : String} {daysUntil daysBefore : Int}
    {notifyOnDueDay notifyManualRenewDaily : Bool} {triggerType : Trigger}
    (h : triggerType ∈ notificationTriggerTypesForSubscription renewalMode daysUntil daysBefore
      notifyOnDueDay notifyManualRenewDaily) :
    triggerType = .daysBefore ∨ triggerType = .dueDay ∨ triggerType = .manualDaily := by
  unfold notificationTriggerTypesForSubscription notificationTriggerTypes at h
  rcases List.mem_append.1 h with h | h
  · rcases List.mem_append.1 h with h | h <;> split at h <;> simp_all
  · split at h <;> simp_all

section Active
variable (hmem : sub ∈ subs) (huser : user.id = sub.userID) (hst : sub.status = subscriptionStatusActive)
  (hbilling : sub.billingType = billingTypeRecurring)
include hmem huser hst hbilling

theorem scanEnding_scanned (h : AllScanned o now policy old subs st.outbox.rows) :
    AllScanned o now policy old subs
      (scanEnding (Location.fixed o) render now db user policy channels st sub).outbox.rows := by
  unfold scanEnding
  split
  · exact h
  · rename_i hmode
    split
    · exact h
    · rename_i boundary hboundary
      split
      · exact h
      · rename_i henabled
        dsimp only
        split
        · exact h
        · rename_i htypes
          have hdue : ReminderDue o now policy user subs .endingSoon sub boundary :=
            ⟨hmem, huser, hbilling, by simpa using henabled, hboundary, hst, not_not.1 hmode, htypes⟩
          exact List.foldlRecOn
            (motive := fun st : ScanState => AllScanned o now policy old subs st.outbox.rows)
            channels _ h
            fun st hst channel _ => enqueueReminder_scanned hdue _ _ _ channel hst

theorem scanBilling_scanned (h : AllScanned o now policy old subs st.outbox.rows) :
    AllScanned o now policy old subs
      (scanBilling (Location.fixed o) render now db user policy channels st sub).outbox.rows := by
  unfold scanBilling
  split
  · exact h
  · rename_i nextBillingDate hdate
    split
    · exact h
    · rename_i hcheck
      simp only [Bool.not_eq_true', not_or, Bool.not_eq_false] at hcheck
      dsimp only
      refine List.foldlRecOn
        (motive := fun st : ScanState => AllScanned o now policy old subs st.outbox.rows) channels _ h
        fun st hst' channel _ => ?_
      refine List.foldlRecOn
        (motive := fun st : ScanState => AllScanned o now policy old subs st.outbox.rows) _ _ hst'
        fun st hst'' triggerType htrigger => ?_
      have hdue : ReminderDue o now policy user subs triggerType sub nextBillingDate := by
        have hkind : triggerType = .daysBefore ∨ triggerType = .dueDay ∨ triggerType = .manualDaily :=
          mem_triggerTypes htrigger
        refine ⟨hmem, huser, hbilling, hcheck.2, ?_, ?_⟩
        · rcases hkind with rfl | rfl | rfl <;> exact hdate
        · rcases hkind with rfl | rfl | rfl <;> exact ⟨hst, hcheck.1, htrigger⟩
      exact enqueueReminder_scanned hdue _ _ _ channel hst''

end Active

theorem mem_manualRenewEndedNotificationCandidates {userID : Nat} {t : Time}
    (h : sub ∈ manualRenewEndedNotificationCandidates db userID t) :
    sub ∈ db.subscriptions ∧ sub.userID = userID ∧ sub.status = subscriptionStatusEnded ∧
      sub.renewalMode = renewalModeManualRenew ∧ sub.billingType = billingTypeRecurring := by
  unfold manualRenewEndedNotificationCandidates at h
  have hmem := (List.mem_insertionSort _).1 (List.mem_filter.1 h).1
  simp only [List.mem_filter, decide_eq_true_eq] at hmem
  exact ⟨hmem.1, hmem.2.1, hmem.2.2.1, hmem.2.2.2.1, hmem.2.2.2.2.1⟩

theorem mem_activeSubscriptions {userID : Nat} {rows : List Subscription}
    (h : sub ∈ activeSubscriptions userID rows) :
    sub ∈ rows ∧ sub.userID = userID ∧ sub.status = subscriptionStatusActive ∧
    sub.billingType = billingTypeRecurring := by
  unfold activeSubscriptions at h
  simp only [List.mem_filter, decide_eq_true_eq] at h
  exact ⟨h.1, h.2.1, h.2.2.1, h.2.2.2.1⟩

/-- Every row that the scan adds is scanned for a row of the reconciled table. -/
theorem processUserNotifications_scanned {userID : Nat} {row : NotificationOutbox}
    (hrow : row ∈ (processUserNotifications (Location.fixed o) render now userID db).outbox.rows)
    (hnew : row ∉ db.outbox.rows) :
    ∃ sub ∈ reconcileSubscriptionLifecycleForUser userID (now.inLoc (Location.fixed o)) db.subscriptions,
      sub.userID = userID ∧ Scanned o now (getPolicy userID db.policies) sub row := by
  unfold processUserNotifications at hrow
  dsimp only at hrow
  generalize reconcileSubscriptionLifecycleForUser userID
    (now.inLoc (Location.fixed o)) db.subscriptions = subs at hrow ⊢
  split at hrow
  · exact absurd hrow hnew
  · split at hrow
    · exact absurd hrow hnew
    · rename_i user huser
      obtain rfl : user.id = userID := by simpa using List.find?_some huser
      let P : ScanState → Prop :=
        fun st => AllScanned o now (getPolicy user.id db.policies) db.outbox.rows
        (subs.filter (·.userID = user.id)) st.outbox.rows
      have howned : ∀ sub ∈ subs, sub.userID = user.id → sub ∈ subs.filter (·.userID = user.id) :=
        fun sub hsub hid => List.mem_filter.2 ⟨hsub, by simpa using hid⟩
      have hended : ∀ db' channels st, db'.subscriptions = subs → P st →
          P ((manualRenewEndedNotificationCandidates db' user.id (now.inLoc (Location.fixed o))).foldl
            (scanEnded (Location.fixed o) render now db' user channels) st) := by
        intro db' channels st hdb h
        refine List.foldlRecOn (motive := P) _ _ h fun st hst sub hsub => ?_
        obtain ⟨hmem, hid, hstatus, hmode, hbilling⟩ := mem_manualRenewEndedNotificationCandidates hsub
        exact scanEnded_scanned (howned sub (hdb ▸ hmem) hid) hid.symm hstatus hmode hbilling hst
      have hending : ∀ db' channels st, P st → P ((activeSubscriptions user.id subs).foldl
          (scanEnding (Location.fixed o) render now db' user
            (getPolicy user.id db.policies) channels) st) := by
        intro db' channels st h
        refine List.foldlRecOn (motive := P) _ _ h fun st hst sub hsub => ?_
        obtain ⟨hmem, hid, hstatus, hbilling⟩ := mem_activeSubscriptions hsub
        exact scanEnding_scanned (howned sub hmem hid) hid.symm hstatus hbilling hst
      have hbilling : ∀ db' channels st, P st → P ((activeSubscriptions user.id subs).foldl
          (scanBilling (Location.fixed o) render now db' user
            (getPolicy user.id db.policies) channels) st) := by
        intro db' channels st h
        refine List.foldlRecOn (motive := P) _ _ h fun st hst sub hsub => ?_
        obtain ⟨hmem, hid, hstatus, hbilling⟩ := mem_activeSubscriptions hsub
        exact scanBilling_scanned (howned sub hmem hid) hid.symm hstatus hbilling hst
      rcases hbilling _ _ _ (hending _ _ _ (hended _ _ _ rfl fun row hrow => .inl hrow)) row hrow
        with h | ⟨sub, hsub, hscanned⟩
      · exact absurd h hnew
      · obtain ⟨hsub, hid⟩ := List.mem_filter.1 hsub
        exact ⟨sub, hsub, by simpa using hid, hscanned⟩

theorem processUserNotifications_subscriptions (o : Int)
    (render : Nat → String → TemplateData → Option String) (now : Time) (db : NotificationDB)
    (userID : Nat) : (processUserNotifications (Location.fixed o) render now userID db).subscriptions =
        reconcileSubscriptionLifecycleForUser userID (now.inLoc (Location.fixed o)) db.subscriptions ∧
      (processUserNotifications (Location.fixed o) render now userID db).policies = db.policies := by
  unfold processUserNotifications
  dsimp only
  split
  · exact ⟨rfl, rfl⟩
  · split <;> exact ⟨rfl, rfl⟩

end Scan

/-! ## Scan and dispatch -/

/-- The date that a row is about, in the tables `subs`, agrees. -/
def ScanAgrees (o : Int) (now : Time) (subs : List Subscription) (row : NotificationOutbox) : Prop :=
  ∀ sub ∈ subs, sub.id = row.subscriptionID → ∀ date ∈ reminderDate row.triggerType sub,
    DateAgrees o now row.triggerType date

/-- A claim changes nothing that the check reads. -/
theorem cancelOutbox_claimRow (loc : Location) (now : Time) (db : NotificationDB) (ownerID : String)
    (t leaseUntil : Time) (row : NotificationOutbox) :
    cancelOutboxIfNoLongerDeliverable loc now db (claimRow ownerID t leaseUntil row) =
      cancelOutboxIfNoLongerDeliverable loc now db row :=
  rfl

/-- A job that a scan enqueues is found deliverable when it is claimed at the same
instant, exactly when its row's date agrees. -/
theorem scan_deliverable_iff {o : Int} {render : Nat → String → TemplateData → Option String}
    {now : Time} {userID : Nat} {db : NotificationDB} (hids : (db.subscriptions.map (·.id)).Nodup)
    {row : NotificationOutbox}
    (hrow : row ∈ (processUserNotifications (Location.fixed o) render now userID db).outbox.rows)
    (hnew : row ∉ db.outbox.rows) (ownerID : String) :
    cancelOutboxIfNoLongerDeliverable (Location.fixed o) now
    (processUserNotifications (Location.fixed o) render now userID db)
        (claimRow ownerID now (now.add notificationOutboxLeaseTTL) row) = none ↔
      ScanAgrees o now (reconcileSubscriptionLifecycleForUser userID
        (now.inLoc (Location.fixed o)) db.subscriptions) row := by
  obtain ⟨sub, hsub, hid, hscanned⟩ := processUserNotifications_scanned hrow hnew
  obtain ⟨hsubs, hpolicies⟩ := processUserNotifications_subscriptions o render now db userID
  have hnodup :
      ((reconcileSubscriptionLifecycleForUser userID (now.inLoc (Location.fixed o)) db.subscriptions).map
      (·.id)).Nodup := by
    rw [reconcile_ids]; exact hids
  have hfind : findSubscription row.userID row.subscriptionID
      (processUserNotifications (Location.fixed o) render now userID db).subscriptions = some sub := by
    rw [hsubs]
    exact findSubscription_eq hnodup hsub hscanned.subscription.symm hscanned.user.symm
  have huser : row.userID = userID := hscanned.user.trans hid
  rw [← huser, ← hpolicies] at hscanned
  obtain ⟨date, hdate, -, -⟩ := hscanned.date
  rw [cancelOutbox_claimRow, scanned_deliverable_iff hscanned hfind hdate]
  constructor
  · intro hagrees sub' hsub' hid' date' hdate'
    obtain rfl := Rows.eq_of_key hnodup hsub hsub' (hscanned.subscription.symm.trans hid'.symm)
    obtain rfl : date = date' := Option.some.inj (hdate.symm.trans hdate')
    exact hagrees
  · exact fun h => h sub hsub hscanned.subscription.symm date hdate

/-! ## West of Greenwich -/

/-- A manually renewed row that was due on 9 March 2025. -/
def endedRow : Subscription :=
  { monthEndRow with renewalMode := renewalModeManualRenew, nextBillingDate := some (dateUTC 2025 3 9) }

def sampleDB : NotificationDB where
  subscriptions := [endedRow]
  policies := []
  channels := [⟨1, 1, "webhook", true, "{}"⟩]
  users := [⟨1, "user@example.com"⟩]
  paymentMethods := []
  outbox := ⟨[], [], 1⟩

/-- The next day at noon. -/
def sampleNow : Time := ⟨(dateUTC 2025 3 10).nanos + 12 * nsPerHour, 0⟩

/-- The scan of `sampleDB` at an offset enqueues one job. -/
def sampleScan (o : Int) : NotificationDB :=
  processUserNotifications (Location.fixed o)
    (fun _ _ data => some data.subscriptionName) sampleNow 1 sampleDB

/-- Five hours west, the job of an ended row is cancelled. -/
theorem scan_deliverable_fails :
    ¬ ∀ (o : Int) (render : Nat → String → TemplateData → Option String) (now : Time) (userID : Nat)
    (db : NotificationDB),
      (db.subscriptions.map (·.id)).Nodup →
      ∀ row ∈ (processUserNotifications (Location.fixed o) render now userID db).outbox.rows,
        row ∉ db.outbox.rows →
      ∀ ownerID, cancelOutboxIfNoLongerDeliverable (Location.fixed o) now
        (processUserNotifications (Location.fixed o) render now userID db)
        (claimRow ownerID now (now.add notificationOutboxLeaseTTL) row) = none := by
  intro h
  have hcancelled : ∀ row ∈ (sampleScan (-5 * 3600)).outbox.rows, cancelOutboxIfNoLongerDeliverable
      (Location.fixed (-5 * 3600))
      sampleNow (sampleScan (-5 * 3600))
        (claimRow "a" sampleNow (sampleNow.add notificationOutboxLeaseTTL) row) ≠ none := by
    decide +kernel
  obtain ⟨row, hrow⟩ : ∃ row, row ∈ (sampleScan (-5 * 3600)).outbox.rows :=
    List.exists_mem_of_length_pos (by decide +kernel)
  exact hcancelled row hrow
    (h (-5 * 3600) (fun _ _ data => some data.subscriptionName) sampleNow 1 sampleDB (by decide) row hrow
    (by simp [sampleDB]) "a")

/-- At UTC the same job is delivered. -/
theorem scan_deliverable_sample :
    ∃ row ∈ (sampleScan 0).outbox.rows,
      cancelOutboxIfNoLongerDeliverable (Location.fixed 0) sampleNow (sampleScan 0)
        (claimRow "a" sampleNow (sampleNow.add notificationOutboxLeaseTTL) row) = none := by
  obtain ⟨row, hrow⟩ : ∃ row, row ∈ (sampleScan 0).outbox.rows :=
    List.exists_mem_of_ne_nil _ (by decide +kernel)
  have hdates : ∀ row ∈ (sampleScan 0).outbox.rows, row.triggerType = .manualEnded ∧
      ∀ sub ∈ reconcileSubscriptionLifecycleForUser 1
        (sampleNow.inLoc (Location.fixed 0)) sampleDB.subscriptions,
        reminderDate row.triggerType sub = some (dateUTC 2025 3 9) := by
    decide +kernel
  refine ⟨row, hrow, (scan_deliverable_iff (by decide) hrow (by simp [sampleDB]) "a").2
    fun sub hsub _ date hdate => ?_⟩
  obtain ⟨htrigger, hdate'⟩ := hdates row hrow
  obtain rfl : dateUTC 2025 3 9 = date := Option.some.inj ((hdate' sub hsub).symm.trans hdate)
  rw [htrigger]
  exact (dateAgrees_midnight _).2 (by decide)

end Subdux
