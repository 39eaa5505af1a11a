import Subdux.Lib.Runs
import Subdux.Outbox
/-!
# Interleavings of the outbox operations

Any number of processes, each running one operation of
`internal/service/notification_outbox.go` at a time, on one store. A process takes
one statement or transaction per step; the clock moves in between, a process may
die at any point, and owner ids are arguments, so that two processes may share one.
-/

namespace Subdux
open Runs

/-- An operation and its arguments. -/
inductive OutboxRequest where
  | enqueue (job : NotificationOutboxJob)
  | expire
  | claim (ownerID : String) (batchSize leaseTTL : Int)
  | markSent (ownerID : String) (job : NotificationOutbox)
  | markFailed (ownerID : String) (job : NotificationOutbox) (sanitizedErr : String)
  | terminal (ownerID : String) (job : NotificationOutbox) (update : TerminalUpdate)
  | release (ownerID : String) (job : NotificationOutbox) (sanitizedErr : String)

/-- Where a process stands. -/
inductive OutboxCall where
  /-- Called at `now`, nothing done yet. -/
  | begun (request : OutboxRequest) (now : Time)
  /-- `enqueueNotificationOutbox` past its check. -/
  | enqueueInsert (job : NotificationOutboxJob) (now : Time)
  /-- The loop of `claimDueNotificationOutbox` over its candidates. -/
  | claimNext (ownerID : String) (now leaseUntil : Time) (candidates claimedIDs : List Nat)

/-- The next statement of a process at `clock`. `cancelled` is what the loop of
a claim reads from its context. -/
def OutboxCall.exec (loc : Location) (clock : Time) (cancelled : Bool) (s : OutboxStore) :
    OutboxCall → Option OutboxCall × OutboxStore
  | .begun (.enqueue job) _ =>
    if enqueueSkips loc job s then (none, s) else (some (.enqueueInsert job clock), s)
  | .enqueueInsert job now => (none, insertOutbox (enqueueRow job now) s)
  | .begun .expire now => (none, expireNotificationOutbox now s)
  | .begun (.claim ownerID batchSize leaseTTL) now =>
    (some (.claimNext ownerID now (now.add leaseTTL) (claimCandidates now batchSize s) []), s)
  | .claimNext ownerID now leaseUntil (id :: candidates) claimedIDs =>
    if cancelled then (some (.claimNext ownerID now leaseUntil [] claimedIDs), s)
    else
      let claimedIDs := if claimAffected now id s = 1 then claimedIDs ++ [id] else claimedIDs
      (some (.claimNext ownerID now leaseUntil candidates claimedIDs),
        claimOne ownerID now leaseUntil id s)
  -- The query of the jobs writes nothing.
  | .claimNext _ _ _ [] _ => (none, s)
  | .begun (.markSent ownerID job) now => (none, markNotificationOutboxSent ownerID now job s)
  | .begun (.markFailed ownerID job err) now =>
    (none, markNotificationOutboxFailed ownerID now job err s)
  | .begun (.terminal ownerID job update) now =>
    (none, updateNotificationOutboxTerminal ownerID now job update s)
  | .begun (.release ownerID job err) now =>
    (none, releaseNotificationOutboxForRetry ownerID now job err s)

structure OutboxSystem where
  clock : Int
  store : OutboxStore
  calls : Nat → Option OutboxCall

/-- `pkg.NowUTC()`. -/
def OutboxSystem.now (s : OutboxSystem) : Time := ⟨s.clock, 0⟩

inductive OutboxEvent where
  | tick (nanos : Nat)
  | start (i : Nat) (request : OutboxRequest)
  | exec (i : Nat) (cancelled : Bool)
  | crash (i : Nat)

def OutboxSystem.step (loc : Location) (s : OutboxSystem) : OutboxEvent → Option OutboxSystem
  | .tick nanos => some { s with clock := s.clock + nanos }
  | .start i request =>
    match s.calls i with
    | some _ => none
    | none => some { s with calls := set s.calls i (some (.begun request s.now)) }
  | .exec i cancelled =>
    match s.calls i with
    | none => none
    | some call =>
      let (call, store) := call.exec loc s.now cancelled s.store
      some { s with store := store, calls := set s.calls i call }
  | .crash i => some { s with calls := set s.calls i none }

/-- No rows yet, and no log that carries an id still to be handed out. -/
structure OutboxSystem.Initial (s : OutboxSystem) : Prop where
  empty : s.store.rows = []
  logged : ∀ log ∈ s.store.logs, ∀ id ∈ log.outboxID, id < s.store.nextID
  idle : s.calls = fun _ => none

theorem OutboxSystem.Initial.inv {s : OutboxSystem} (h : s.Initial) : OutboxInv s.store :=
  .empty h.empty h.logged

/-- A statement keeps the invariant, and every row in a final status. -/
theorem OutboxCall.exec_inv {loc : Location} {clock : Time} {cancelled : Bool} {s : OutboxStore}
    (h : OutboxInv s) (call : OutboxCall) :
    OutboxInv (call.exec loc clock cancelled s).2 ∧ Frozen s (call.exec loc clock cancelled s).2 := by
  cases call with
  | enqueueInsert job now => exact ⟨h.insert rfl rfl, frozen_insert _⟩
  | claimNext ownerID now leaseUntil candidates claimedIDs =>
    cases candidates with
    | nil => exact ⟨h, Frozen.refl s⟩
    | cons id candidates =>
      simp only [OutboxCall.exec]
      split
      · exact ⟨h, Frozen.refl s⟩
      · exact ⟨h.claim ownerID now leaseUntil id, frozen_claim ownerID now leaseUntil id⟩
  | begun request now =>
    cases request with
    | enqueue job =>
      simp only [OutboxCall.exec]
      split <;> exact ⟨h, Frozen.refl s⟩
    | expire => exact ⟨h.expire now, frozen_expire now⟩
    | claim => exact ⟨h, Frozen.refl s⟩
    | markSent ownerID job => exact ⟨h.markSent ownerID now job, frozen_updateHeldAndLog fun _ => rfl⟩
    | markFailed ownerID job err =>
      exact ⟨h.markFailed ownerID now job err, frozen_updateHeldAndLog fun _ => rfl⟩
    | terminal ownerID job update =>
      exact ⟨h.terminal ownerID now job update, frozen_update (fun _ => rfl) heldBy_open⟩
    | release ownerID job err =>
      exact ⟨h.release ownerID now job err, frozen_update (fun _ => rfl) heldBy_open⟩

theorem OutboxSystem.step_inv {loc : Location} {s t : OutboxSystem} {e : OutboxEvent}
    (h : OutboxInv s.store) (hstep : s.step loc e = some t) :
    OutboxInv t.store ∧ Frozen s.store t.store := by
  cases e with
  | tick nanos => cases hstep; exact ⟨h, Frozen.refl _⟩
  | start i request =>
    simp only [OutboxSystem.step] at hstep
    split at hstep <;> cases hstep
    exact ⟨h, Frozen.refl _⟩
  | exec i cancelled =>
    simp only [OutboxSystem.step] at hstep
    split at hstep <;> cases hstep
    exact OutboxCall.exec_inv h _
  | crash i => cases hstep; exact ⟨h, Frozen.refl _⟩

theorem OutboxSystem.path_inv {loc : Location} {s t : OutboxSystem} (h : OutboxInv s.store)
    (hpath : Path (OutboxSystem.step loc) Always s t) : OutboxInv t.store ∧ Frozen s.store t.store :=
  ⟨hpath.invariant (fun s => OutboxInv s.store) (fun _ _ _ h _ hstep => (step_inv h hstep).1) h,
    hpath.relates (fun s => OutboxInv s.store) (fun s t => Frozen s.store t.store)
      (fun _ => Frozen.refl _)
      (fun _ _ _ => Frozen.trans) (fun _ _ _ h _ hstep => step_inv h hstep) h⟩

/-- In every state that any interleaving reaches from an empty outbox: dedupe keys
are unique, a row in a final status keeps it from then on, a row is sent exactly
when it has its one sent log, and only rows in processing are locked. -/
theorem outbox_state_machine {loc : Location} {s t : OutboxSystem} (hs : s.Initial)
    (hpath : Path (OutboxSystem.step loc) Always s t) :
    (t.store.rows.map (·.dedupeKey)).Nodup ∧
    (∀ u, Path (OutboxSystem.step loc) Always t u → ∀ row ∈ t.store.rows, row.status.isOpen = false →
      (∃ row' ∈ u.store.rows, row'.id = row.id) ∧
        ∀ row' ∈ u.store.rows, row'.id = row.id → row'.status = row.status) ∧
    (∀ row ∈ t.store.rows, (row.status = .sent ↔ sentLogs t.store row.id = 1) ∧
      (row.status ≠ .sent → sentLogs t.store row.id = 0)) ∧
    ∀ row ∈ t.store.rows, row.lockedUntil ≠ none → row.status = .processing := by
  have ht := (OutboxSystem.path_inv hs.inv hpath).1
  refine ⟨ht.keys, fun u hu row hrow hopen => ?_, fun row hrow => ?_, ht.lock⟩
  · obtain ⟨hu, hfrozen⟩ := OutboxSystem.path_inv ht hu
    obtain ⟨row', hrow', hid, hst⟩ := hfrozen row hrow
    refine ⟨⟨row', hrow', hid⟩, fun r hr hrid => ?_⟩
    rw [Rows.eq_of_key hu.ids hr hrow' (hrid.trans hid.symm), hst hopen]
  · have := ht.sent row hrow
    split at this <;> simp_all

/-! ## A run -/

def sampleChannel : NotificationChannel := ⟨1, 1, "webhook", true, "{}"⟩

/-- A reminder of subscription 1, due on 9 March 2025. -/
def sampleJob : NotificationOutboxJob where
  userID := 1
  subscriptionID := 1
  channel := sampleChannel
  triggerType := .dueDay
  notifyDate := dateUTC 2025 3 9
  dedupeDate := dateUTC 2025 3 9
  message := "Rent is due"
  targetEmail := "user@example.com"
  subscriptionURL := ""

def sampleSystem : OutboxSystem := ⟨(dateUTC 2025 3 9).nanos, ⟨[], [], 1⟩, fun _ => none⟩

/-- The row of `sampleJob` once it is claimed by `a`. -/
def sampleClaimed : NotificationOutbox :=
  claimRow "a" (dateUTC 2025 3 9) ((dateUTC 2025 3 9).add notificationOutboxLeaseTTL)
    { enqueueRow sampleJob (dateUTC 2025 3 9) with id := 1 }

/-- Two claims race for the row; `a` wins and marks it sent. -/
def sampleEvents : List OutboxEvent :=
  [.start 0 (.enqueue sampleJob), .exec 0 false, .exec 0 false,
   .start 1 (.claim "a" 20 notificationOutboxLeaseTTL),
     .start 2 (.claim "b" 20 notificationOutboxLeaseTTL),
   .exec 1 false, .exec 2 false, .exec 1 false, .exec 2 false, .exec 1 false, .crash 2,
   .start 1 (.markSent "a" sampleClaimed), .exec 1 false]

instance (s : OutboxSystem) (e : OutboxEvent) : Decidable (Always s e) :=
  inferInstanceAs (Decidable True)

theorem outbox_state_machine_sample :
    ∃ t, exec (OutboxSystem.step (Location.fixed 0)) Always sampleSystem sampleEvents = some t ∧
      t.store.rows.map (·.status) = [.sent] ∧ sentLogs t.store 1 = 1 ∧
      ∀ row ∈ t.store.rows, row.lockedUntil ≠ none → row.status = .processing := by
  obtain ⟨t, ht, hsent⟩ : ∃ t,
      exec (OutboxSystem.step (Location.fixed 0)) Always sampleSystem sampleEvents = some t ∧
      t.store.rows.map (·.status) = [.sent] ∧ sentLogs t.store 1 = 1 :=
    ⟨_, rfl, by decide +kernel, by decide +kernel⟩
  exact ⟨t, ht, hsent.1, hsent.2,
    (outbox_state_machine ⟨rfl, by simp [sampleSystem], rfl⟩ (Path.of_exec ht)).2.2.2⟩

end Subdux
