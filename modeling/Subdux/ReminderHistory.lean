import Subdux.Attempts
import Subdux.ChannelReminders
/-!
# Histories of scans, dispatches and edits

Scans and dispatchers on one store, between edits of the tables that they read. A row
keeps its key whatever becomes of it, and an insert gives way to it, so a row that
ended without a send stands in the way of the next reminder with that key.
`rearmed_iff` says at which scans that happens.
-/

namespace Subdux
open Runs Rows

/-! ## The system -/

/-- `tables` holds everything but the outbox. -/
structure HistorySystem where
  attempts : AttemptSystem
  tables : NotificationDB

/-- The rows of a deleted subscription, which the database deletes with it, stay: no
other subscription's reminder has their key. -/
inductive HistoryEvent where
  | tick (nanos : Nat)
  | edit (tables : NotificationDB)
  | scan (userID : Nat)
  | start (i : Nat) (ownerID : String)
  | act (i : Nat) (action : DispatchAction)
  | crash (i : Nat)
  | release (i j : Nat) (sanitizedErr : String)
  | unsaved (i j : Nat)

namespace HistorySystem

def store (s : HistorySystem) : OutboxStore := s.attempts.dispatch.store

def now (s : HistorySystem) : Time := s.attempts.dispatch.now

def db (s : HistorySystem) : NotificationDB := { s.tables with outbox := s.store }

end HistorySystem

/-- Subscription ids are the primary key, and `CreateChannel` checks the type. -/
structure TablesOK (tables : NotificationDB) : Prop where
  ids : (tables.subscriptions.map (·.id)).Nodup
  types : ∀ channel ∈ tables.channels, isValidChannelType channel.type = true

instance (tables : NotificationDB) : Decidable (TablesOK tables) :=
  decidable_of_iff ((tables.subscriptions.map (·.id)).Nodup ∧ ∀ channel ∈ tables.channels,
    isValidChannelType channel.type = true)
    ⟨fun h => ⟨h.1, h.2⟩, fun h => ⟨h.ids, h.types⟩⟩

/-- A check reads what the tables hold. -/
def DispatchAction.reading (tables : NotificationDB) : DispatchAction → DispatchAction
  | .check j _ => .check j tables
  | .load j _ => .load j tables.channels
  | action => action

def HistorySystem.step (loc : Location) (render : Nat → String → TemplateData → Option String)
    (s : HistorySystem) :
    HistoryEvent → Option HistorySystem
  | .tick nanos => (s.attempts.step loc (.run (.tick nanos))).map ({ s with attempts := · })
  | .edit tables => if TablesOK tables then some { s with tables := tables } else none
  | .scan userID =>
    let scanned := processUserNotifications loc render s.now userID s.db
    some
      { attempts :=
          { s.attempts with dispatch := { s.attempts.dispatch with store := scanned.outbox } }
        tables := scanned }
  | .start i ownerID => (s.attempts.step loc (.run (.start i ownerID))).map ({ s with attempts := · })
  | .act i action =>
    (s.attempts.step loc (.run (.act i (action.reading s.db)))).map ({ s with attempts := · })
  | .crash i => (s.attempts.step loc (.crash i)).map ({ s with attempts := · })
  | .release i j err => (s.attempts.step loc (.release i j err)).map ({ s with attempts := · })
  | .unsaved i j => (s.attempts.step loc (.unsaved i j)).map ({ s with attempts := · })

/-- No row yet, and no log that carries an id still to be handed out. -/
structure HistorySystem.Initial (s : HistorySystem) : Prop where
  empty : s.store.rows = []
  logged : ∀ log ∈ s.store.logs, ∀ id ∈ log.outboxID, id < s.store.nextID
  idle : s.attempts.dispatch.dispatchers = fun _ => none
  tables : TablesOK s.tables

/-! ## Rearming -/

/-- No log says that the reminder was sent: neither the two queries of a scan find one,
nor is there one of a row with its key. -/
def NoSentLog (loc : Location) (userID : Nat) (db : NotificationDB) (channel : NotificationChannel)
    (reminder : Reminder) : Prop :=
  reminder.alreadySent loc db.outbox.logs channel.type = false ∧ NotEndedBefore db reminder ∧
    ∀ log ∈ db.outbox.logs, log.status = .sent → ∀ row ∈ db.outbox.rows, log.outboxID = some row.id →
      row.dedupeKey ≠ reminder.outboxKey userID channel.type

/-- A row that is still to be sent, or was given up after real attempts. -/
def NotificationOutbox.Live (row : NotificationOutbox) : Prop :=
  row.status = .pending ∨ row.status = .processing ∨
    ((row.status = .failed ∨ row.status = .expired) ∧ 0 < row.attemptCount)

/-- Every reminder due that was not sent has a live row. -/
def Rearmed (loc : Location) (now : Time) (userID : Nat) (before after : NotificationDB) : Prop :=
  ∀ reminder ∈ dueReminders loc now userID before, ∀ channel ∈ enabledChannels userID before.channels,
    NoSentLog loc userID before channel reminder →
      ∃ row ∈ after.outbox.rows, row.dedupeKey = reminder.outboxKey userID channel.type ∧ row.Live

/-- No cancelled row, and no row that expired before its first attempt, has the key of
a reminder due; where no row has it, there is a text. -/
def NoDeadRow (loc : Location) (render : Nat → String → TemplateData → Option String) (now : Time)
    (user : NotificationUser) (db : NotificationDB) : Prop :=
  ∀ reminder ∈ dueReminders loc now user.id db, ∀ channel ∈ enabledChannels user.id db.channels,
    NoSentLog loc user.id db channel reminder →
      (∀ row ∈ db.outbox.rows, row.dedupeKey = reminder.outboxKey user.id channel.type →
        row.status ≠ .cancelled ∧ (row.status = .expired → 0 < row.attemptCount)) ∧
      ((∀ row ∈ db.outbox.rows, row.dedupeKey ≠ reminder.outboxKey user.id channel.type) →
        (reminder.text render db.paymentMethods user channel.type).isSome = true)

/-! ## What a history keeps -/

/-- A row was tried before it failed, and is being tried while it is processed. -/
def Tried (row : NotificationOutbox) : Prop :=
  0 ≤ row.attemptCount ∧ (row.status = .processing ∨ row.status = .failed → 0 < row.attemptCount)

structure HistoryInv (s : HistorySystem) : Prop where
  store : OutboxInv s.store
  tried : ∀ row ∈ s.store.rows, Tried row
  tables : TablesOK s.tables

section Tried
variable {s : OutboxStore} {p : NotificationOutbox → Bool} {f : NotificationOutbox → NotificationOutbox}

theorem tried_update (h : ∀ row ∈ s.rows, Tried row)
    (hf : ∀ row, p row = true → Tried row → Tried (f row)) :
    ∀ row ∈ updateWhere p f s.rows, Tried row := by
  intro row hrow
  rcases mem_updateWhere_cases hrow with ⟨hr, -⟩ | ⟨r, hr, hp, rfl⟩
  · exact h row hr
  · exact hf r hp (h r hr)

/-- A held row has been claimed. -/
theorem Tried.held {row : NotificationOutbox} {ownerID : String} {id : Nat} (h : Tried row)
    (hp : heldBy ownerID id row = true) :
    0 < row.attemptCount := by
  simp only [heldBy, Bool.and_eq_true, decide_eq_true_eq] at hp
  exact h.2 (.inl hp.2)

end Tried

/-- What one statement of a dispatcher leaves. -/
theorem Dispatcher.act_store {loc : Location} {clock : Time} {s store : OutboxStore}
    {d : Dispatcher} {action : DispatchAction} {d' : Option Dispatcher} {handed : List Nat}
    (hact : d.act loc clock s action = some (d', store, handed)) (h : OutboxInv s)
    (htried : ∀ row ∈ s.rows, Tried row) : OutboxInv store ∧ ∀ row ∈ store.rows, Tried row := by
  obtain ⟨ownerID, leaseUntil, phase⟩ := d
  cases action with
  | next cancelled =>
    cases phase with
    | expiring now =>
      cases hact
      exact ⟨h.expire now, tried_update htried fun row _ hrow => ⟨hrow.1, by simp [expireRow]⟩⟩
    | selecting now =>
      simp only [Dispatcher.act] at hact
      split at hact <;> cases hact <;> exact ⟨h, htried⟩
    | claiming now candidates claimedIDs =>
      cases candidates with
      | nil =>
        cases hact
        exact ⟨h, htried⟩
      | cons id candidates =>
        simp only [Dispatcher.act] at hact
        split at hact <;> cases hact
        · exact ⟨h, htried⟩
        · refine ⟨h.claim ownerID now leaseUntil id, tried_update htried fun row _ hrow => ?_⟩
          -- a claim counts the attempt before it is made
          have := hrow.1
          exact ⟨by simp only [claimRow]; omega, fun _ => by simp only [claimRow]; omega⟩
    | working => cases hact
  | cancel j =>
    simp only [Dispatcher.act] at hact
    split at hact
    · split at hact <;> cases hact
      rename_i update _
      have hne : ¬ (update.status = .processing ∨ update.status = .failed) := by
        rcases update.terminal with ht | ht <;> simp [ht]
      exact ⟨h.terminal ownerID _ _ _, tried_update htried fun row _ hrow =>
        ⟨hrow.1, fun hst => absurd hst hne⟩⟩
    · cases hact
  | mark j =>
    simp only [Dispatcher.act] at hact
    split at hact
    · split at hact <;> cases hact
      · refine ⟨h.markSent ownerID _ _, fun row hrow => ?_⟩
        rw [markNotificationOutboxSent, updateHeldAndLog_rows] at hrow
        refine tried_update htried ?_ row hrow
        intro r _ hr
        exact ⟨hr.1, by simp [sentRow]⟩
      · refine ⟨h.markFailed ownerID _ _ _, fun row hrow => ?_⟩
        rw [markNotificationOutboxFailed, updateHeldAndLog_rows] at hrow
        refine tried_update htried ?_ row hrow
        intro r hp hr
        -- a row that fails was held, and a row is held only after its attempt was counted
        exact ⟨hr.1, fun _ => hr.held hp⟩
    · cases hact
  | _ =>
    simp only [Dispatcher.act] at hact
    repeat' split at hact
    all_goals cases hact <;> exact ⟨h, htried⟩

/-- What a step of the dispatchers leaves. -/
theorem AttemptSystem.step_store {loc : Location} {s t : AttemptSystem} {e : AttemptEvent}
    (hstep : s.step loc e = some t) (h : OutboxInv s.dispatch.store)
    (htried : ∀ row ∈ s.dispatch.store.rows, Tried row) :
    OutboxInv t.dispatch.store ∧ ∀ row ∈ t.dispatch.store.rows, Tried row := by
  cases e with
  | run e =>
    obtain ⟨dispatch, hdispatch, rfl⟩ := Option.map_eq_some_iff.1 hstep
    cases e with
    | tick nanos => cases hdispatch; exact ⟨h, htried⟩
    | enqueue job =>
      cases hdispatch
      refine ⟨?_, fun row hrow => ?_⟩
      · simp only [enqueueNotificationOutbox]
        split
        · exact h
        · exact h.insert rfl rfl
      · rcases mem_enqueueNotificationOutbox hrow with hrow | rfl
        · exact htried row hrow
        · exact ⟨le_rfl, by simp [enqueueRow]⟩
    | start i ownerID =>
      simp only [DispatchSystem.step] at hdispatch
      split at hdispatch <;> cases hdispatch
      exact ⟨h, htried⟩
    | act i action =>
      obtain ⟨d, -, hdispatch⟩ := Option.bind_eq_some_iff.1 hdispatch
      obtain ⟨⟨d', store, handed⟩, hact, rfl⟩ := Option.map_eq_some_iff.1 hdispatch
      exact Dispatcher.act_store hact h htried
  | crash i => cases hstep; exact ⟨h, htried⟩
  | release i j err =>
    simp only [AttemptSystem.step] at hstep
    repeat' split at hstep
    all_goals cases hstep
    exact ⟨h.release _ _ _ err, tried_update htried fun row _ hrow => ⟨hrow.1, by simp⟩⟩
  | unsaved i j =>
    simp only [AttemptSystem.step] at hstep
    repeat' split at hstep
    all_goals cases hstep
    exact ⟨h, htried⟩

/-! ## What a scan leaves -/

section Scan
variable {loc : Location} {render : Nat → String → TemplateData → Option String} {now : Time}
  {db : NotificationDB}
  {userID : Nat} {user : NotificationUser} {st : ScanState} {pair : Reminder × NotificationChannel}
    {row : NotificationOutbox}

/-- A row that a pair adds. -/
theorem mem_enqueuePair (h : row ∈ (enqueuePair loc render now db user st pair).outbox.rows) :
    row ∈ st.outbox.rows ∨ ∃ message,
    pair.1.text render db.paymentMethods user pair.2.type = some message ∧
      row = { enqueueRow (pairJob user message pair) now with id := st.outbox.nextID } := by
  by_cases hscheduled : pair.1.scheduleKey pair.2.type ∈ st.scheduled
  · rw [enqueuePair_scheduled hscheduled] at h
    exact .inl h
  · rw [enqueuePair_new hscheduled] at h
    dsimp only at h
    cases htext : pair.1.text render db.paymentMethods user pair.2.type with
    | none =>
      rw [htext] at h
      exact .inl h
    | some message =>
      rw [htext] at h
      exact (mem_enqueueNotificationOutbox h).imp_right fun h => ⟨message, rfl, h⟩

theorem mem_enqueuePair_of (h : row ∈ st.outbox.rows) :
    row ∈ (enqueuePair loc render now db user st pair).outbox.rows := by
  by_cases hscheduled : pair.1.scheduleKey pair.2.type ∈ st.scheduled
  · rwa [enqueuePair_scheduled hscheduled]
  · rw [enqueuePair_new hscheduled]
    dsimp only
    split
    · exact h
    · unfold enqueueNotificationOutbox
      split
      · exact h
      · exact mem_insertOutbox_of h

theorem OutboxInv.enqueuePair (h : OutboxInv st.outbox) :
    OutboxInv (enqueuePair loc render now db user st pair).outbox := by
  by_cases hscheduled : pair.1.scheduleKey pair.2.type ∈ st.scheduled
  · rwa [enqueuePair_scheduled hscheduled]
  · rw [enqueuePair_new hscheduled]
    dsimp only
    split
    · exact h
    · unfold enqueueNotificationOutbox
      split
      · exact h
      · exact h.insert rfl rfl

/-- A scan without a channel or a user leaves the outbox alone. -/
theorem processUserNotifications_idle
    (h : enabledChannels userID db.channels = [] ∨ db.users.find? (·.id = userID) = none) :
    (processUserNotifications loc render now userID db).outbox = db.outbox := by
  unfold processUserNotifications
  dsimp only
  split
  · rfl
  · rename_i hne
    rcases h with h | h
    · exact absurd h hne
    · rw [h]

/-- A property of the outbox that every pair of a scan keeps. -/
theorem scan_keeps (P : OutboxStore → Prop) (h : P db.outbox)
    (hkeep : ∀ user db' st, ∀ pair ∈ scanPairs loc now userID db,
      db.users.find? (·.id = userID) = some user →
      db'.paymentMethods = db.paymentMethods → P st.outbox →
        P (enqueuePair loc render now db' user st pair).outbox) :
    P (processUserNotifications loc render now userID db).outbox := by
  by_cases hchannels : enabledChannels userID db.channels = []
  · rwa [processUserNotifications_idle (.inl hchannels)]
  · cases huser : db.users.find? (·.id = userID) with
    | none => rwa [processUserNotifications_idle (.inr huser)]
    | some user =>
      rw [processUserNotifications_outbox hchannels huser]
      exact List.foldlRecOn (motive := fun st : ScanState => P st.outbox) _ _ h
        fun st hst pair hpair => hkeep user _ st pair hpair huser rfl hst

/-- A row that a scan adds: it is the job of a pair with a text. -/
def Added (loc : Location) (render : Nat → String → TemplateData → Option String) (now : Time)
    (userID : Nat) (db : NotificationDB) (row : NotificationOutbox) : Prop :=
  ∃ user message, ∃ pair ∈ scanPairs loc now userID db, db.users.find? (·.id = userID) = some user ∧
    pair.1.text render db.paymentMethods user pair.2.type = some message ∧
    ∃ id, row = { enqueueRow (pairJob user message pair) now with id := id }

theorem scan_rows : ∀ row ∈ (processUserNotifications loc render now userID db).outbox.rows,
    row ∈ db.outbox.rows ∨ Added loc render now userID db row := by
  refine scan_keeps (fun outbox => ∀ row ∈ outbox.rows, row ∈ db.outbox.rows ∨
    Added loc render now userID db row)
    (fun row hrow => .inl hrow) ?_
  intro user db' st pair hpair huser hmethods hst row hrow
  rcases mem_enqueuePair hrow with hrow | ⟨message, htext, rfl⟩
  · exact hst row hrow
  · rw [Reminder.text, hmethods] at htext
    exact .inr ⟨user, message, pair, hpair, huser, htext, _, rfl⟩

theorem Added.pending (h : Added loc render now userID db row) :
    row.status = .pending ∧ row.attemptCount = 0 := by
  obtain ⟨user, message, pair, -, -, -, id, rfl⟩ := h
  exact ⟨rfl, rfl⟩

theorem scan_mem_of (hrow : row ∈ db.outbox.rows) :
    row ∈ (processUserNotifications loc render now userID db).outbox.rows :=
  scan_keeps (fun outbox => row ∈ outbox.rows) hrow fun _ _ _ _ _ _ _ h => mem_enqueuePair_of h

theorem OutboxInv.scan (h : OutboxInv db.outbox) :
    OutboxInv (processUserNotifications loc render now userID db).outbox :=
  scan_keeps OutboxInv h fun _ _ _ _ _ _ _ h => h.enqueuePair

theorem TablesOK.scan (h : TablesOK db) :
    TablesOK (processUserNotifications loc render now userID db) := by
  have hids : ((reconcileSubscriptionLifecycleForUser userID (now.inLoc loc) db.subscriptions).map
      (·.id)).Nodup := by
    rw [reconcile_ids]
    exact h.ids
  unfold processUserNotifications
  dsimp only
  split
  · exact ⟨hids, h.types⟩
  · split <;> exact ⟨hids, h.types⟩

end Scan

/-! ## Runs -/

theorem HistorySystem.step_inv {loc : Location}
    {render : Nat → String → TemplateData → Option String} {s t : HistorySystem} {e : HistoryEvent}
    (h : HistoryInv s) (hstep : s.step loc render e = some t) : HistoryInv t := by
  have hattempt : ∀ e, (s.attempts.step loc e).map ({ s with attempts := · }) = some t →
    HistoryInv t := by
    intro e he
    obtain ⟨attempts, ha, rfl⟩ := Option.map_eq_some_iff.1 he
    obtain ⟨hstore, htried⟩ := AttemptSystem.step_store ha h.store h.tried
    exact ⟨hstore, htried, h.tables⟩
  cases e with
  | edit tables =>
    simp only [HistorySystem.step] at hstep
    split at hstep <;> cases hstep
    rename_i htables
    exact ⟨h.store, h.tried, htables⟩
  | scan userID =>
    cases hstep
    have hstore : OutboxInv s.db.outbox := h.store
    have htables : TablesOK s.db := ⟨h.tables.ids, h.tables.types⟩
    refine ⟨hstore.scan, fun row hrow => ?_, htables.scan⟩
    rcases scan_rows row hrow with hrow | hadded
    · exact h.tried row hrow
    · obtain ⟨hst, hcount⟩ := hadded.pending
      exact ⟨by rw [hcount], by simp [hst]⟩
  | tick nanos => exact hattempt (.run (.tick nanos)) hstep
  | start i ownerID => exact hattempt (.run (.start i ownerID)) hstep
  | act i action => exact hattempt (.run (.act i (action.reading s.db))) hstep
  | crash i => exact hattempt (.crash i) hstep
  | release i j err => exact hattempt (.release i j err) hstep
  | unsaved i j => exact hattempt (.unsaved i j) hstep

theorem HistorySystem.Initial.inv {s : HistorySystem} (h : s.Initial) : HistoryInv s :=
  ⟨.empty h.empty h.logged, by simp [h.empty], h.tables⟩

/-- A sent row has its log. -/
theorem OutboxInv.exists_log {s : OutboxStore} (h : OutboxInv s) {row : NotificationOutbox}
    (hrow : row ∈ s.rows) (hst : row.status = .sent) :
    ∃ log ∈ s.logs, log.status = .sent ∧ log.outboxID = some row.id := by
  have hone : sentLogs s row.id = 1 := by rw [h.sent row hrow, if_pos hst]
  have hpos : 0 < s.logs.countP fun log => log.outboxID = some row.id ∧ log.status = .sent := by
    rw [sentLogs] at hone
    omega
  obtain ⟨log, hlog, hp⟩ := List.countP_pos_iff.1 hpos
  obtain ⟨hid, hst'⟩ := of_decide_eq_true hp
  exact ⟨log, hlog, hst', hid⟩

/-- A row is live, sent, cancelled, or expired before its first attempt. -/
theorem Tried.live {row : NotificationOutbox} (h : Tried row) (hsent : row.status ≠ .sent)
    (hcancelled : row.status ≠ .cancelled)
    (hexpired : row.status = .expired → 0 < row.attemptCount) : row.Live := by
  cases hst : row.status with
  | pending => exact .inl hst
  | processing => exact .inr (.inl hst)
  | sent => exact absurd hst hsent
  | failed => exact .inr (.inr ⟨.inl hst, h.2 (.inr hst)⟩)
  | cancelled => exact absurd hst hcancelled
  | expired => exact .inr (.inr ⟨.inr hst, hexpired hst⟩)

/-- In every history, a scan leaves a live row of every reminder due that was not sent,
exactly when none of them has a dead row's key. -/
theorem rearmed_iff {loc : Location} {render : Nat → String → TemplateData → Option String}
    {s t : HistorySystem} (hs : s.Initial) (hpath : Path (HistorySystem.step loc render) Always s t)
    {userID : Nat} {user : NotificationUser} (huser : t.tables.users.find? (·.id = userID) = some user) :
    Rearmed loc t.now userID t.db (processUserNotifications loc render t.now userID t.db) ↔
      NoDeadRow loc render t.now user t.db := by
  have ht := hpath.invariant HistoryInv (fun _ _ _ h _ hstep => HistorySystem.step_inv h hstep) hs.inv
  obtain rfl : user.id = userID := by simpa using List.find?_some huser
  have hstore : OutboxInv t.db.outbox := ht.store
  have htypes : ∀ c ∈ enabledChannels user.id t.db.channels, isValidChannelType c.type = true :=
    fun c hc => ht.tables.types c (List.mem_filter.1 hc).1
  constructor
  · intro h reminder hdue channel hchannel hunsent
    obtain ⟨row, hrow, hkey, hlive⟩ := h reminder hdue channel hchannel hunsent
    constructor
    · -- The row of the key is the live one.
      intro old hold hkey'
      obtain rfl : old = row :=
        eq_of_key hstore.scan.keys (scan_mem_of hold) hrow (hkey'.trans hkey.symm)
      rcases hlive with hst | hst | ⟨hst, hcount⟩
      · simp [hst]
      · simp [hst]
      · refine ⟨?_, fun _ => hcount⟩
        rcases hst with hst | hst <;> simp [hst]
    · -- The row is new, so its pair had a text.
      intro hfree
      rcases scan_rows row hrow with hold | ⟨user', message, pair, hpair, huser', htext, id, rfl⟩
      · exact absurd hkey (hfree row hold)
      · obtain rfl : user = user' := Option.some.inj (huser.symm.trans huser')
        obtain ⟨hpairDue, -, hpairChannel⟩ := mem_scanPairs_iff.1 hpair
        obtain ⟨hid, htype, htrigger⟩ :=
          outboxKey_injective (htypes _ hpairChannel) (htypes _ hchannel) hkey
        obtain rfl := dueReminders_unique ht.tables.ids hpairDue hdue hid htrigger
        rw [← htype, htext]
        rfl
  · intro h reminder hdue channel hchannel hunsent
    obtain ⟨hdead, htext⟩ := h reminder hdue channel hchannel hunsent
    by_cases hfree : ∀ row ∈ t.db.outbox.rows, row.dedupeKey ≠ reminder.outboxKey user.id channel.type
    · -- The first channel of the type gets a new row.
      obtain ⟨first, hfirst⟩ : ∃ first, (enabledChannels user.id t.db.channels).find?
          (·.type = channel.type) = some first :=
        Option.isSome_iff_exists.1 (List.find?_isSome.2 ⟨channel, hchannel, by simp⟩)
      have htype : first.type = channel.type := by simpa using List.find?_some hfirst
      have hreaches : Reaches loc render user t.db first reminder := by
        unfold Reaches
        rw [htype, hfirst]
        exact ⟨hfree, hunsent.1, hunsent.2.1, htext hfree, rfl⟩
      have hids : (t.db.subscriptions.map (·.id)).Nodup := ht.tables.ids
      obtain ⟨row, hrow, hkey, -⟩ : reminder.HasRow user.id
          (processUserNotifications loc render t.now user.id t.db).outbox.rows first :=
        (scan_hasRow_iff hids huser htypes hdue (List.mem_of_find?_eq_some hfirst)).2 (.inr hreaches)
      rw [htype] at hkey
      refine ⟨row, hrow, hkey, ?_⟩
      rcases scan_rows row hrow with hold | hadded
      · exact absurd hkey (hfree row hold)
      · exact .inl hadded.pending.1
    · push Not at hfree
      obtain ⟨row, hrow, hkey⟩ := hfree
      obtain ⟨hcancelled, hexpired⟩ := hdead row hrow hkey
      refine ⟨row, scan_mem_of hrow, hkey, (ht.tried row hrow).live ?_ hcancelled hexpired⟩
      intro hsent
      obtain ⟨log, hlog, hst, hid⟩ := hstore.exists_log hrow hsent
      exact hunsent.2.2 log hlog hst row hrow hid hkey

section Instances
variable (loc : Location) (render : Nat → String → TemplateData → Option String) (now : Time)
  (user : NotificationUser)
  (userID : Nat) (db after : NotificationDB) (channel : NotificationChannel) (reminder : Reminder)
    (row : NotificationOutbox)

instance : Decidable (NoSentLog loc userID db channel reminder) := by
  unfold NoSentLog NotEndedBefore; infer_instance

instance : Decidable row.Live := by unfold NotificationOutbox.Live; infer_instance

instance : Decidable (Rearmed loc now userID db after) := by unfold Rearmed; infer_instance

instance : Decidable (NoDeadRow loc render now user db) := by unfold NoDeadRow; infer_instance

instance (s : HistorySystem) (e : HistoryEvent) : Decidable (Always s e) :=
  inferInstanceAs (Decidable True)

end Instances

/-! ## A reminder switched off and on -/

def sampleHistory : HistorySystem := ⟨sampleAttempts, sampleView⟩

def sampleRender (_ : Nat) (_ : String) (data : TemplateData) : Option String :=
  some data.subscriptionName

/-- `sampleView` with its reminders off. -/
def mutedView : NotificationDB :=
  { sampleView with
    subscriptions := sampleView.subscriptions.map fun sub => { sub with notifyEnabled := some false } }

/-- A scan, a dispatch while the reminders are off, and the reminders on again. -/
def mutedEvents : List HistoryEvent :=
  [.scan 1, .edit mutedView, .start 0 "a", .act 0 (.next false), .act 0 (.next false),
   .act 0 (.next false), .act 0 (.next false),
    .act 0 (.take false), .act 0 (.check 0 sampleView), .act 0 (.cancel 0), .act 0 .finish,
      .edit sampleView]

theorem sampleHistory_initial : sampleHistory.Initial :=
  ⟨rfl, by simp [sampleHistory, sampleAttempts, sampleDispatch, HistorySystem.store], rfl, by decide⟩

theorem rearmed_fails :
    ¬ ∀ (loc : Location) (render : Nat → String → TemplateData → Option String)
    (s t : HistorySystem), s.Initial →
      Path (HistorySystem.step loc render) Always s t → ∀ userID,
        Rearmed loc t.now userID t.db (processUserNotifications loc render t.now userID t.db) := by
  intro h
  have hrun : (exec (HistorySystem.step (Location.fixed 0) sampleRender) Always sampleHistory
      mutedEvents).any (fun t =>
      ¬ Rearmed (Location.fixed 0) t.now 1 t.db
        (processUserNotifications (Location.fixed 0) sampleRender t.now 1 t.db)) = true := by
    decide +kernel
  obtain ⟨t, ht, hp⟩ := (Option.any_eq_true _ _).1 hrun
  exact of_decide_eq_true hp (h _ _ _ t sampleHistory_initial (Path.of_exec ht) 1)

/-- A second scan finds the row of the first. -/
theorem rearmed_sample :
    ∃ t, exec (HistorySystem.step (Location.fixed 0) sampleRender) Always sampleHistory
    [.scan 1, .tick nsPerHour.toNat] = some t ∧
      dueReminders (Location.fixed 0) t.now 1 t.db ≠ [] ∧
      Rearmed (Location.fixed 0) t.now 1 t.db
        (processUserNotifications (Location.fixed 0) sampleRender t.now 1 t.db) := by
  have hrun : (exec (HistorySystem.step (Location.fixed 0) sampleRender) Always sampleHistory
      [.scan 1, .tick nsPerHour.toNat]).any
      (fun t => dueReminders (Location.fixed 0) t.now 1 t.db ≠ [] ∧
        (t.tables.users.find? (·.id = 1)).any (·.email = "user@example.com") ∧
        NoDeadRow (Location.fixed 0) sampleRender t.now ⟨1, "user@example.com"⟩ t.db) = true := by
    decide +kernel
  obtain ⟨t, ht, hp⟩ := (Option.any_eq_true _ _).1 hrun
  obtain ⟨hdue, huser, hdead⟩ := of_decide_eq_true hp
  obtain ⟨⟨id, email⟩, hfind, hemail⟩ := (Option.any_eq_true _ _).1 huser
  obtain rfl : id = 1 := by simpa using List.find?_some hfind
  obtain rfl : email = "user@example.com" := of_decide_eq_true hemail
  exact ⟨t, ht, hdue, (rearmed_iff sampleHistory_initial (Path.of_exec ht) hfind).2 hdead⟩

end Subdux
