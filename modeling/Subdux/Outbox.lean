import Mathlib.Data.List.Sort
import Subdux.Lib.Rows
import Subdux.Subscription
/-!
# The notification outbox

The tables `notification_outboxes` and `notification_logs` and the statements of
`internal/service/notification_outbox.go` on them. A function that the code runs as
one statement or one `DB.Transaction` is one function on `OutboxStore` here; the
clock reading that the code takes before it is an argument.

`OutboxInv` is what every statement keeps, and `Frozen` relates a store to a later
one: rows stay, and a row in a final status keeps it.
-/

namespace Subdux
open Rows

/-! ## Rows -/

inductive OutboxStatus where
  | pending | processing | sent | failed | cancelled | expired
  deriving DecidableEq, Repr

/-- The statuses that `expire` and `claim` still select. -/
def OutboxStatus.isOpen : OutboxStatus → Bool
  | pending | processing => true
  | _ => false

inductive LogStatus where
  | sent | failed
  deriving DecidableEq, Repr

inductive Trigger where
  | daysBefore | dueDay | manualDaily | manualEnded | endingSoon
  deriving DecidableEq, Repr

/-- The text of a trigger in the database. -/
def Trigger.text : Trigger → String
  | daysBefore => "days_before"
  | dueDay => "due_day"
  | manualDaily => "manual_renew_daily"
  | manualEnded => "manual_renew_ended"
  | endingSoon => "ending_soon"

structure NotificationChannel where
  id : Nat
  userID : Nat
  type : String
  enabled : Bool
  config : String
  deriving DecidableEq

structure NotificationOutbox where
  id : Nat
  dedupeKey : String
  userID : Nat
  subscriptionID : Nat
  channelID : Option Nat
  channelType : String
  triggerType : Trigger
  notifyDate : Time
  scheduledFor : Time
  expiresAt : Option Time
  status : OutboxStatus
  attemptCount : Int
  maxAttempts : Int
  nextAttemptAt : Time
  lockedBy : String
  lockedUntil : Option Time
  lastAttemptAt : Option Time
  sentAt : Option Time
  lastError : String
  message : String
  targetEmail : String
  subscriptionURL : String
  updatedAt : Time
  deriving DecidableEq

/-- Logs older than the trigger column have no trigger. -/
structure NotificationLog where
  outboxID : Option Nat
  userID : Nat
  subscriptionID : Nat
  channelType : String
  triggerType : Option Trigger
  notifyDate : Time
  status : LogStatus
  error : String
  sentAt : Time
  deriving DecidableEq

/-- The two tables. Ids are handed out once (`AUTOINCREMENT`). -/
structure OutboxStore where
  rows : List NotificationOutbox
  logs : List NotificationLog
  nextID : Nat
  deriving DecidableEq

/-- `notificationOutboxJob`. -/
structure NotificationOutboxJob where
  userID : Nat
  subscriptionID : Nat
  channel : NotificationChannel
  triggerType : Trigger
  notifyDate : Time
  dedupeDate : Time
  message : String
  targetEmail : String
  subscriptionURL : String

/-! ## Enqueueing -/

def notificationOutboxVersion : String := "v1"
def notificationOutboxLeaseTTL : Int := 5 * 60 * nsPerSecond
def notificationOutboxExpiryWindow : Int := 36 * nsPerHour
def notificationOutboxDefaultMaxAttempts : Int := 5
def maxNotificationOutboxClaimBatch : Int := 20

def notificationTriggerUsesDedupeDate : Trigger → Bool
  | .manualDaily | .endingSoon => true
  | _ => false

def notificationTriggerRequiresExactSentLog : Trigger → Bool
  | .manualEnded | .endingSoon => true
  | _ => false

def notificationOutboxDedupeKeyForTrigger (userID subscriptionID : Nat) (channelType : String)
    (triggerType : Trigger) (notifyDate dedupeDate : Time) : String :=
  let key :=
    notificationOutboxVersion ++ ":" ++ toString userID ++ ":" ++ toString subscriptionID ++ ":" ++
    channelType ++ ":" ++ triggerType.text ++ ":" ++ (normalizeDateUTC notifyDate).formatDate
  if notificationTriggerUsesDedupeDate triggerType
    then key ++ ":" ++ (normalizeDateUTC dedupeDate).formatDate else key

def appendUniqueNotificationDate (dates : List Time) (candidate : Time) : List Time :=
  if dates.any (·.equal candidate) then dates else dates ++ [candidate]

/-- `originalNotifyDate` is in the system location `loc`. -/
def notificationSentDateCandidates (loc : Location) (notifyDate originalNotifyDate : Time) : List Time :=
  let candidates := appendUniqueNotificationDate [] (normalizeDateUTC notifyDate)
  if !originalNotifyDate.isZero then
    appendUniqueNotificationDate candidates (normalizeDateInTimezone originalNotifyDate loc)
  else candidates

/-- The dates of the query compare as they are stored, with their offset. -/
def notificationAlreadySent (loc : Location) (logs : List NotificationLog) (subscriptionID : Nat)
    (channelType : String) (triggerType : Trigger)
    (notifyDate originalNotifyDate dedupeDate : Time) : Bool :=
  let notifyDates := notificationSentDateCandidates loc notifyDate originalNotifyDate
  let sentDateStart := normalizeDateInTimezone dedupeDate loc
  let sentDateEnd := sentDateStart.addDaysIn 1 loc
  logs.any fun log =>
    log.subscriptionID = subscriptionID ∧ log.channelType = channelType ∧
      log.notifyDate ∈ notifyDates ∧ log.status = .sent ∧
      (if notificationTriggerRequiresExactSentLog triggerType then log.triggerType = some triggerType
        else log.triggerType = some triggerType ∨ log.triggerType = none) ∧
      (notificationTriggerUsesDedupeDate triggerType = true →
        log.sentAt.before sentDateStart = false ∧ log.sentAt.before sentDateEnd = true)

/-- The first statement of `enqueueNotificationOutbox`: whether the job was sent before. -/
def enqueueSkips (loc : Location) (job : NotificationOutboxJob) (s : OutboxStore) : Bool :=
  let notifyDate := normalizeDateUTC job.notifyDate
  let dedupeDate := if job.dedupeDate.isZero then notifyDate else job.dedupeDate
  notificationAlreadySent loc s.logs job.subscriptionID job.channel.type job.triggerType notifyDate
    job.notifyDate dedupeDate

/-- The row of a job; the database sets its id. -/
def enqueueRow (job : NotificationOutboxJob) (now : Time) : NotificationOutbox :=
  let notifyDate := normalizeDateUTC job.notifyDate
  let dedupeDate := if job.dedupeDate.isZero then notifyDate else job.dedupeDate
  let expiresAt :=
    if job.triggerType = .manualEnded then now.add notificationOutboxExpiryWindow
    else notifyDate.add notificationOutboxExpiryWindow
  { id := 0
    dedupeKey :=
      notificationOutboxDedupeKeyForTrigger job.userID job.subscriptionID job.channel.type
        job.triggerType
      notifyDate dedupeDate
    userID := job.userID
    subscriptionID := job.subscriptionID
    channelID := some job.channel.id
    channelType := job.channel.type
    triggerType := job.triggerType
    notifyDate := notifyDate
    scheduledFor := now
    expiresAt := some expiresAt
    status := .pending
    attemptCount := 0
    maxAttempts := notificationOutboxDefaultMaxAttempts
    nextAttemptAt := now
    lockedBy := ""
    lockedUntil := none
    lastAttemptAt := none
    sentAt := none
    lastError := ""
    message := job.message
    targetEmail := job.targetEmail
    subscriptionURL := job.subscriptionURL
    updatedAt := now }

/-- `INSERT ... ON CONFLICT DO NOTHING`, under the unique index on `dedupe_key`. -/
def insertOutbox (row : NotificationOutbox) (s : OutboxStore) : OutboxStore :=
  if s.rows.any (·.dedupeKey = row.dedupeKey) then s
  else { s with rows := s.rows ++ [{ row with id := s.nextID }], nextID := s.nextID + 1 }

def enqueueNotificationOutbox (loc : Location) (now : Time) (job : NotificationOutboxJob)
    (s : OutboxStore) : OutboxStore :=
  if enqueueSkips loc job s then s else insertOutbox (enqueueRow job now) s

/-! ## Expiring and claiming -/

def expirable (now : Time) (row : NotificationOutbox) : Bool :=
  row.status.isOpen && row.expiresAt.any fun expiresAt => !expiresAt.after now

def expireRow (now : Time) (row : NotificationOutbox) : NotificationOutbox :=
  { row with status := .expired, lockedBy := "", lockedUntil := none, updatedAt := now }

def expireNotificationOutbox (now : Time) (s : OutboxStore) : OutboxStore :=
  { s with rows := updateWhere (expirable now) (expireRow now) s.rows }

def claimable (now : Time) (row : NotificationOutbox) : Bool :=
  row.status.isOpen && !row.nextAttemptAt.after now && row.expiresAt.all (·.after now) &&
    row.lockedUntil.all fun lockedUntil => !lockedUntil.after now

/-- The candidates of a claim, by `next_attempt_at` and `id`. -/
def claimCandidates (now : Time) (batchSize : Int) (s : OutboxStore) : List Nat :=
  let earlier (r₁ r₂ : NotificationOutbox) : Prop :=
    r₁.nextAttemptAt.nanos < r₂.nextAttemptAt.nanos ∨
      (r₁.nextAttemptAt.nanos = r₂.nextAttemptAt.nanos ∧ r₁.id ≤ r₂.id)
  ((s.rows.filter (claimable now)).insertionSort earlier).take batchSize.toNat |>.map (·.id)

def claimRow (ownerID : String) (now leaseUntil : Time) (row : NotificationOutbox) :
    NotificationOutbox :=
  { row with
    status := .processing, lockedBy := ownerID, lockedUntil := some leaseUntil, lastAttemptAt := some now
    attemptCount := row.attemptCount + 1, updatedAt := now }

/-- The update of one candidate. -/
def claimOne (ownerID : String) (now leaseUntil : Time) (id : Nat) (s : OutboxStore) : OutboxStore :=
  { s with
    rows := updateWhere (fun row => row.id = id && claimable now row)
      (claimRow ownerID now leaseUntil) s.rows }

/-- `RowsAffected` of that update. -/
def claimAffected (now : Time) (id : Nat) (s : OutboxStore) : Nat :=
  affected (fun row => row.id = id && claimable now row) s.rows

/-- The jobs of a claim, by `id`. -/
def loadClaimed (ownerID : String) (claimedIDs : List Nat) (s : OutboxStore) : List NotificationOutbox :=
  (s.rows.filter fun row => row.id ∈ claimedIDs ∧ row.lockedBy = ownerID ∧
    row.status = .processing).insertionSort
    (·.id ≤ ·.id)

/-! ## Finishing a job

Four functions end a job with an update `WHERE id = ? AND locked_by = ? AND
status = 'processing'`. The text of an error has been through
`sanitizeNotificationError`. -/

def heldBy (ownerID : String) (id : Nat) (row : NotificationOutbox) : Bool :=
  row.id = id && row.lockedBy = ownerID && row.status = .processing

def updateHeld (ownerID : String) (id : Nat) (set : NotificationOutbox → NotificationOutbox)
    (s : OutboxStore) : OutboxStore :=
  { s with rows := updateWhere (heldBy ownerID id) set s.rows }

/-- The transaction of the two `mark` functions: no log when no row was affected. -/
def updateHeldAndLog (ownerID : String) (id : Nat) (set : NotificationOutbox → NotificationOutbox)
    (log : NotificationLog) (s : OutboxStore) : OutboxStore :=
  let updated := updateHeld ownerID id set s
  if affected (heldBy ownerID id) s.rows = 0 then updated
    else { updated with logs := updated.logs ++ [log] }

def effectiveNotificationOutboxMaxAttempts (job : NotificationOutbox) : Int :=
  if job.maxAttempts ≤ 0 then notificationOutboxDefaultMaxAttempts else job.maxAttempts

def notificationOutboxBackoff (attemptCount : Int) : Int :=
  if attemptCount ≤ 1 then 15 * 60 * nsPerSecond
  else if attemptCount = 2 then 30 * 60 * nsPerSecond
  else if attemptCount = 3 then nsPerHour
  else 3 * nsPerHour

def sentRow (now : Time) (row : NotificationOutbox) : NotificationOutbox :=
  { row with
    status := .sent, sentAt := some now, lastError := "", lockedBy := "", lockedUntil := none,
    updatedAt := now }

def markNotificationOutboxSent (ownerID : String) (now : Time) (job : NotificationOutbox)
    (s : OutboxStore) : OutboxStore :=
  updateHeldAndLog ownerID job.id (sentRow now)
    { outboxID := some job.id, userID := job.userID, subscriptionID := job.subscriptionID,
      channelType := job.channelType
      triggerType := some job.triggerType, notifyDate := job.notifyDate, status := .sent,
      error := "", sentAt := now } s

def failedRow (now : Time) (job : NotificationOutbox) (sanitizedErr : String)
    (row : NotificationOutbox) : NotificationOutbox :=
  let nextAttemptAt := now.add (notificationOutboxBackoff job.attemptCount)
  let status :=
    if job.attemptCount ≥ effectiveNotificationOutboxMaxAttempts job then OutboxStatus.failed
      else .pending
  { row with
    status := status, lastError := sanitizedErr, lockedBy := "", lockedUntil := none, updatedAt := now
    nextAttemptAt := if status = .pending then nextAttemptAt else row.nextAttemptAt }

def markNotificationOutboxFailed (ownerID : String) (now : Time) (job : NotificationOutbox)
    (sanitizedErr : String) (s : OutboxStore) : OutboxStore :=
  updateHeldAndLog ownerID job.id (failedRow now job sanitizedErr)
    { outboxID := some job.id, userID := job.userID, subscriptionID := job.subscriptionID,
      channelType := job.channelType
      triggerType := some job.triggerType, notifyDate := job.notifyDate, status := .failed, error :=
        sanitizedErr
      sentAt := now } s

/-- The status and reason of a final update without a send. The code gives two statuses. -/
structure TerminalUpdate where
  status : OutboxStatus
  reason : String
  terminal : status = .cancelled ∨ status = .expired

def TerminalUpdate.cancelled (reason : String) : TerminalUpdate := ⟨.cancelled, reason, .inl rfl⟩

def TerminalUpdate.expired : TerminalUpdate := ⟨.expired, "", .inr rfl⟩

def updateNotificationOutboxTerminal (ownerID : String) (now : Time) (job : NotificationOutbox)
    (update : TerminalUpdate) (s : OutboxStore) : OutboxStore :=
  updateHeld ownerID job.id
    (fun row =>
      { row with
        status := update.status, lastError := update.reason, lockedBy := "", lockedUntil := none,
        updatedAt := now }) s

def releaseNotificationOutboxForRetry (ownerID : String) (now : Time) (job : NotificationOutbox)
    (sanitizedErr : String) (s : OutboxStore) : OutboxStore :=
  updateHeld ownerID job.id
    (fun row =>
      { row with
        status := .pending, lastError := sanitizedErr, nextAttemptAt :=
          now.add (notificationOutboxBackoff job.attemptCount)
        lockedBy := "", lockedUntil := none, updatedAt := now }) s

/-! ## What every statement keeps -/

def sentLogs (s : OutboxStore) (id : Nat) : Nat :=
  s.logs.countP fun log => log.outboxID = some id ∧ log.status = .sent

structure OutboxInv (s : OutboxStore) : Prop where
  ids : (s.rows.map (·.id)).Nodup
  fresh : ∀ row ∈ s.rows, row.id < s.nextID
  keys : (s.rows.map (·.dedupeKey)).Nodup
  logged : ∀ log ∈ s.logs, ∀ id ∈ log.outboxID, id < s.nextID
  sent : ∀ row ∈ s.rows, sentLogs s row.id = if row.status = .sent then 1 else 0
  lock : ∀ row ∈ s.rows, row.lockedUntil ≠ none → row.status = .processing

/-- No rows yet, and no log that carries an id still to be handed out. -/
theorem OutboxInv.empty {s : OutboxStore} (hrows : s.rows = [])
    (hlogged : ∀ log ∈ s.logs, ∀ id ∈ log.outboxID, id < s.nextID) :
    OutboxInv s := by
  have hnone : ∀ row, row ∉ s.rows := by simp [hrows]
  exact ⟨by simp [hrows], fun row hrow => absurd hrow (hnone row), by simp [hrows], hlogged,
    fun row hrow => absurd hrow (hnone row), fun row hrow => absurd hrow (hnone row)⟩

/-- The rows of `s` are still in `t`, those in a final status with that status. -/
def Frozen (s t : OutboxStore) : Prop :=
  ∀ row ∈ s.rows, ∃ row' ∈ t.rows, row'.id = row.id ∧
    (row.status.isOpen = false → row'.status = row.status)

theorem Frozen.refl (s : OutboxStore) : Frozen s s := fun row h => ⟨row, h, rfl, fun _ => rfl⟩

theorem Frozen.trans {s t u : OutboxStore} (h₁ : Frozen s t) (h₂ : Frozen t u) : Frozen s u := by
  intro row hrow
  obtain ⟨row', hrow', hid, hst⟩ := h₁ row hrow
  obtain ⟨row'', hrow'', hid', hst'⟩ := h₂ row' hrow'
  refine ⟨row'', hrow'', hid'.trans hid, fun hopen => ?_⟩
  rw [hst' (by rw [hst hopen]; exact hopen), hst hopen]

section Statements
variable {s : OutboxStore} {p : NotificationOutbox → Bool} {f : NotificationOutbox → NotificationOutbox}

theorem frozen_update (hid : ∀ row, (f row).id = row.id)
    (hopen : ∀ row, p row = true → row.status.isOpen = true) :
    Frozen s { s with rows := updateWhere p f s.rows } := by
  intro row hrow
  cases hp : p row with
  | false => exact ⟨row, mem_updateWhere_of_not hrow hp, rfl, fun _ => rfl⟩
  | true =>
    refine ⟨f row, mem_updateWhere_of hrow hp, hid row, fun h => ?_⟩
    rw [hopen row hp] at h
    cases h

/-- An update of open rows that does not send and locks only for processing. -/
theorem OutboxInv.update (h : OutboxInv s) (hid : ∀ row, (f row).id = row.id)
    (hkey : ∀ row, (f row).dedupeKey = row.dedupeKey)
    (hopen : ∀ row, p row = true → row.status.isOpen = true) (hsent : ∀ row, (f row).status ≠ .sent)
    (hlock : ∀ row, (f row).lockedUntil ≠ none → (f row).status = .processing) :
    OutboxInv { s with rows := updateWhere p f s.rows } where
  ids := (map_updateWhere NotificationOutbox.id hid).symm ▸ h.ids
  fresh := by
    intro row hrow
    rcases mem_updateWhere_cases hrow with ⟨hr, -⟩ | ⟨r, hr, -, rfl⟩
    · exact h.fresh row hr
    · rw [hid]; exact h.fresh r hr
  keys := (map_updateWhere NotificationOutbox.dedupeKey hkey).symm ▸ h.keys
  logged := h.logged
  sent := by
    intro row hrow
    rcases mem_updateWhere_cases hrow with ⟨hr, -⟩ | ⟨r, hr, hp, rfl⟩
    · exact h.sent row hr
    · have hne : r.status ≠ .sent := by
        intro he
        have := hopen r hp
        simp [he, OutboxStatus.isOpen] at this
      have hr' := h.sent r hr
      rw [if_neg hne] at hr'
      rw [hid, if_neg (hsent r)]
      exact hr'
  lock := by
    intro row hrow
    rcases mem_updateWhere_cases hrow with ⟨hr, -⟩ | ⟨r, -, -, rfl⟩
    · exact h.lock row hr
    · exact hlock r

theorem sentLogs_append (s : OutboxStore) (rows : List NotificationOutbox) (log : NotificationLog)
    (id : Nat) :
    sentLogs { s with rows := rows, logs := s.logs ++ [log] } id =
      sentLogs s id + if log.outboxID = some id ∧ log.status = .sent then 1 else 0 := by
  simp [sentLogs, List.countP_append, List.countP_singleton]

/-- A failure logged for a row. -/
theorem OutboxInv.logFailed (h : OutboxInv s) {log : NotificationLog} (hst : log.status = .failed)
    (hlog : ∀ id ∈ log.outboxID, id < s.nextID) : OutboxInv { s with logs := s.logs ++ [log] } where
  ids := h.ids
  fresh := h.fresh
  keys := h.keys
  logged := by
    intro l hl
    rcases List.mem_append.1 hl with hl | hl
    · exact h.logged l hl
    · rw [List.mem_singleton.1 hl]; exact hlog
  sent := by
    intro row hrow
    rw [sentLogs_append s s.rows, h.sent row hrow]
    simp [hst]
  lock := h.lock

theorem heldBy_open {ownerID : String} {id : Nat} (row : NotificationOutbox)
    (h : heldBy ownerID id row = true) :
    row.status.isOpen = true := by
  simp only [heldBy, Bool.and_eq_true, decide_eq_true_eq] at h
  simp [h.2, OutboxStatus.isOpen]

theorem heldBy_id {ownerID : String} {id : Nat} {row : NotificationOutbox}
    (h : heldBy ownerID id row = true) :
    row.id = id := by
  simp only [heldBy, Bool.and_eq_true, decide_eq_true_eq] at h
  exact h.1.1

/-! ## The statements keep the invariant -/

theorem OutboxInv.insert (h : OutboxInv s) {row : NotificationOutbox} (hst : row.status = .pending)
    (hlock : row.lockedUntil = none) : OutboxInv (insertOutbox row s) := by
  unfold insertOutbox
  split
  · exact h
  · rename_i hkey
    have hkey : ∀ r ∈ s.rows, r.dedupeKey ≠ row.dedupeKey := by simpa using hkey
    have hcases : ∀ r ∈ s.rows ++ [{ row with id := s.nextID }], r ∈ s.rows ∨
      r = { row with id := s.nextID } := by simp
    have hnolog : sentLogs s s.nextID = 0 := by
      simp only [sentLogs, List.countP_eq_zero, decide_eq_true_eq, not_and]
      intro log hlog hid
      exact absurd (h.logged log hlog s.nextID hid) (lt_irrefl _)
    constructor
    case ids =>
      simp only [List.map_append, List.map_cons, List.map_nil]
      refine List.nodup_append.2 ⟨h.ids, by simp, ?_⟩
      intro a ha b hb
      obtain ⟨r, hr, rfl⟩ := List.mem_map.1 ha
      rw [List.mem_singleton.1 hb]
      exact (h.fresh r hr).ne
    case fresh =>
      intro r hr
      rcases hcases r hr with hr | rfl
      · exact (h.fresh r hr).trans (Nat.lt_succ_self _)
      · exact Nat.lt_succ_self _
    case keys =>
      simp only [List.map_append, List.map_cons, List.map_nil]
      refine List.nodup_append.2 ⟨h.keys, by simp, ?_⟩
      intro a ha b hb
      obtain ⟨r, hr, rfl⟩ := List.mem_map.1 ha
      rw [List.mem_singleton.1 hb]
      exact hkey r hr
    case logged =>
      intro log hlog id hid
      exact (h.logged log hlog id hid).trans (Nat.lt_succ_self _)
    case sent =>
      intro r hr
      rcases hcases r hr with hr | rfl
      · exact h.sent r hr
      · simpa [hst, sentLogs] using hnolog
    case lock =>
      intro r hr
      rcases hcases r hr with hr | rfl
      · exact h.lock r hr
      · simp [hlock]

theorem mem_insertOutbox {row r : NotificationOutbox} (h : r ∈ (insertOutbox row s).rows) :
    r ∈ s.rows ∨ r = { row with id := s.nextID } := by
  unfold insertOutbox at h
  split at h
  · exact .inl h
  · simpa using h

theorem mem_insertOutbox_of {row r : NotificationOutbox} (h : r ∈ s.rows) :
    r ∈ (insertOutbox row s).rows := by
  unfold insertOutbox
  split
  · exact h
  · exact List.mem_append_left _ h

theorem mem_enqueueNotificationOutbox {loc : Location} {now : Time} {job : NotificationOutboxJob}
    {r : NotificationOutbox} (h : r ∈ (enqueueNotificationOutbox loc now job s).rows) :
    r ∈ s.rows ∨ r = { enqueueRow job now with id := s.nextID } := by
  unfold enqueueNotificationOutbox at h
  split at h
  · exact .inl h
  · exact mem_insertOutbox h

theorem frozen_insert (row : NotificationOutbox) : Frozen s (insertOutbox row s) :=
  fun r hr => ⟨r, mem_insertOutbox_of hr, rfl, fun _ => rfl⟩

theorem OutboxInv.expire (h : OutboxInv s) (now : Time) : OutboxInv (expireNotificationOutbox now s) :=
  h.update (fun _ => rfl) (fun _ => rfl)
    (fun row hp => by simp only [expirable, Bool.and_eq_true] at hp; exact hp.1)
    (fun _ => by simp [expireRow]) (fun _ => by simp [expireRow])

theorem frozen_expire (now : Time) : Frozen s (expireNotificationOutbox now s) :=
  frozen_update (fun _ => rfl) fun row hp => by simp only [expirable, Bool.and_eq_true] at hp; exact hp.1

theorem claimable_open {now : Time} {row : NotificationOutbox} (h : claimable now row = true) :
    row.status.isOpen = true := by
  simp only [claimable, Bool.and_eq_true] at h
  exact h.1.1.1

theorem OutboxInv.claim (h : OutboxInv s) (ownerID : String) (now leaseUntil : Time) (id : Nat) :
    OutboxInv (claimOne ownerID now leaseUntil id s) :=
  h.update (fun _ => rfl) (fun _ => rfl)
    (fun row hp => by simp only [Bool.and_eq_true] at hp; exact claimable_open hp.2)
    (fun _ => by simp [claimRow]) (fun _ _ => rfl)

theorem frozen_claim (ownerID : String) (now leaseUntil : Time) (id : Nat) :
    Frozen s (claimOne ownerID now leaseUntil id s) :=
  frozen_update (fun _ => rfl)
    fun row hp => by simp only [Bool.and_eq_true] at hp; exact claimable_open hp.2

theorem OutboxInv.terminal (h : OutboxInv s) (ownerID : String) (now : Time)
    (job : NotificationOutbox) (update : TerminalUpdate) :
    OutboxInv (updateNotificationOutboxTerminal ownerID now job update s) :=
  h.update (fun _ => rfl) (fun _ => rfl) heldBy_open
    (fun _ => by rcases update.terminal with h | h <;> simp [h])
    (fun _ => by simp)

theorem OutboxInv.release (h : OutboxInv s) (ownerID : String) (now : Time)
    (job : NotificationOutbox) (err : String) :
    OutboxInv (releaseNotificationOutboxForRetry ownerID now job err s) :=
  h.update (fun _ => rfl) (fun _ => rfl) heldBy_open (fun _ => by simp) (fun _ => by simp)

/-- A log is written only for a row of the table. -/
theorem OutboxInv.held_lt (h : OutboxInv s) {ownerID : String} {id : Nat}
    (haff : affected (heldBy ownerID id) s.rows ≠ 0) :
    ∃ row ∈ s.rows, heldBy ownerID id row = true ∧ id < s.nextID := by
  obtain ⟨row, hrow, hp⟩ : ∃ row ∈ s.rows, heldBy ownerID id row = true := by
    simpa [affected_eq_zero] using haff
  exact ⟨row, hrow, hp, heldBy_id hp ▸ h.fresh row hrow⟩

theorem updateHeldAndLog_rows (ownerID : String) (id : Nat)
    (f : NotificationOutbox → NotificationOutbox) (log : NotificationLog) (s : OutboxStore) :
    (updateHeldAndLog ownerID id f log s).rows = updateWhere (heldBy ownerID id) f s.rows := by
  unfold updateHeldAndLog
  split <;> rfl

theorem frozen_updateHeldAndLog {ownerID : String} {id : Nat} {log : NotificationLog}
    (hid : ∀ row, (f row).id = row.id) :
    Frozen s (updateHeldAndLog ownerID id f log s) := by
  unfold updateHeldAndLog
  split
  · exact frozen_update hid heldBy_open
  · exact frozen_update hid heldBy_open

theorem OutboxInv.markFailed (h : OutboxInv s) (ownerID : String) (now : Time)
    (job : NotificationOutbox) (err : String) :
    OutboxInv (markNotificationOutboxFailed ownerID now job err s) := by
  have hup : OutboxInv (updateHeld ownerID job.id (failedRow now job err) s) :=
    h.update (fun _ => rfl) (fun _ => rfl) heldBy_open
      (fun _ => by simp only [failedRow]; split <;> simp)
      (fun _ => by simp [failedRow])
  unfold markNotificationOutboxFailed updateHeldAndLog
  dsimp only
  split
  · exact hup
  · rename_i haff
    obtain ⟨-, -, -, hlt⟩ := h.held_lt haff
    exact hup.logFailed rfl (by simpa [updateHeld] using hlt)

/-- The row is the only one with its id, and had no sent log before. -/
theorem OutboxInv.markSent (h : OutboxInv s) (ownerID : String) (now : Time) (job : NotificationOutbox) :
    OutboxInv (markNotificationOutboxSent ownerID now job s) := by
  unfold markNotificationOutboxSent updateHeldAndLog
  dsimp only
  split
  · rename_i haff
    rw [updateHeld, updateWhere_of_affected_zero haff]
    exact h
  · rename_i haff
    obtain ⟨held, hheld, hp, hlt⟩ := h.held_lt haff
    have hid := heldBy_id hp
    have hzero : sentLogs s job.id = 0 := by
      have := h.sent held hheld
      simp only [heldBy, Bool.and_eq_true, decide_eq_true_eq] at hp
      simpa [hid, hp.2] using this
    constructor
    case ids =>
      exact (map_updateWhere NotificationOutbox.id (f := sentRow now) fun _ => rfl).symm ▸ h.ids
    case fresh =>
      intro row hrow
      rcases mem_updateWhere_cases hrow with ⟨hr, -⟩ | ⟨r, hr, -, rfl⟩
      · exact h.fresh row hr
      · exact h.fresh r hr
    case keys =>
      exact (map_updateWhere NotificationOutbox.dedupeKey (f := sentRow now) fun _ => rfl).symm ▸ h.keys
    case logged =>
      intro log hlog
      rcases List.mem_append.1 hlog with hlog | hlog
      · exact h.logged log hlog
      · rw [List.mem_singleton.1 hlog]; simpa [updateHeld] using hlt
    case sent =>
      intro row hrow
      simp only [updateHeld] at hrow ⊢
      rw [sentLogs_append s]
      rcases mem_updateWhere_cases hrow with ⟨hr, hnot⟩ | ⟨r, hr, hpr, rfl⟩
      · -- Another row: the log is not its own.
        have hne : job.id ≠ row.id := by
          intro he
          rw [eq_of_key h.ids hr hheld (he.symm.trans hid.symm), hp] at hnot
          cases hnot
        rw [h.sent row hr]
        simp [hne]
      · simp [sentRow, heldBy_id hpr, hzero]
    case lock =>
      intro row hrow
      rcases mem_updateWhere_cases hrow with ⟨hr, -⟩ | ⟨r, -, -, rfl⟩
      · exact h.lock row hr
      · simp [sentRow]

end Statements

end Subdux
