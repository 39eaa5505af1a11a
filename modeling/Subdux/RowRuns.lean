import Mathlib.Data.List.Permutation
import Subdux.Lib.Runs
import Subdux.Crud
/-!
# Interleavings of writes to one subscription

`Update`, `MarkManualRenewed` and the sweep's `persistAdvancedSubscriptionLifecycle`
on one stored row. A call takes one step per reading of the clock, per statement and
per transaction. `RowRequest.run` is a call without interruption, with the readings
that the call took.

A call computes what it writes from the row it has seen. In an `Undisturbed` run the
schedule and lifecycle columns are as it has seen them whenever it goes on, and the
row is then always what the finished calls leave when they run one after another, in
the order in which they finished (`RowInv`).
-/

namespace Subdux
open Runs Rows

/-! ## Calls -/

inductive RowRequest where
  | update (lookups : Lookups) (input : UpdateSubscriptionInput)
  | markManualRenewed
  | sweep

/-- The returned row; a sweep returns none. -/
abbrev RowOutcome := Except String (Option Subscription)

/-- Where a call stands. `seen` is the row as the call last read or wrote it, and
`persisted` says that it wrote a due transition. -/
inductive RowPhase where
  | begun
  | reading
  | persisting (seen : Subscription)
  | loading (seen : Subscription) (persisted : Bool)
  | presenting (seen : Subscription) (persisted : Bool)
  | computing (seen : Subscription) (persisted : Bool)
  | committing (seen : Subscription) (persisted : Bool) (write : Subscription → Subscription)
  | finished (outcome : RowOutcome)

structure RowCall where
  request : RowRequest
  readings : Readings
  phase : RowPhase

/-- The rows that the query of the sweep selects. -/
def sweepSelects (row : Subscription) : Bool :=
  row.status = subscriptionStatusActive ∧ row.billingType = billingTypeRecurring

/-- What a request writes, computed from the row it is shown. -/
def RowRequest.compute (request : RowRequest) (sub : Subscription) (now : Time) :
    Except String (Subscription → Subscription) :=
  match request with
  | .update lookups input => (subscriptionUpdates lookups input sub now).map SubscriptionUpdates.apply
  | .markManualRenewed => (manualRenewal sub).map manualRenewed
  | .sweep => .ok id

def commitRow (write : Subscription → Subscription) (updatedAt : Time) (row : Subscription) :
    RowOutcome × Subscription :=
  if (write row).meetsChecks then
    (.ok (some (normalizeSubscriptionForResponse (write row) updatedAt)), write row)
  else (.error errConstraintFailed, row)

/-- The next step of a call. `updatedAt` is the row's `updated_at`, as a statement
loads or sets it. -/
def RowCall.exec (clock updatedAt : Time) (row : Subscription) (call : RowCall) :
    Option (RowCall × Subscription) :=
  match call.phase with
  | .begun =>
    some ({ call with readings := { call.readings with reconcile := clock }, phase := .reading }, row)
  | .reading =>
    match call.request with
    | .sweep =>
      if sweepSelects row ∧ (advanceSubscriptionLifecycle row call.readings.reconcile).2 = true then
        some ({ call with phase := .persisting row }, row)
      else some ({ call with phase := .finished (.ok none) }, row)
    | _ =>
      if (advanceSubscriptionLifecycle row call.readings.reconcile).2 then
        some ({ call with phase := .persisting row }, row)
      else some ({ call with phase := .loading row false }, row)
  | .persisting seen =>
    let row := lifecycleWrite (advanceSubscriptionLifecycle seen call.readings.reconcile).1 row
    match call.request with
    | .sweep => some ({ call with phase := .finished (.ok none) }, row)
    | _ => some ({ call with phase := .loading row true }, row)
  | .loading _ persisted =>
    some
      ({ call with
        readings := { call.readings with updatedBefore := updatedAt },
        phase := .presenting row persisted }, row)
  | .presenting seen persisted =>
    some
      ({ call with
        readings := { call.readings with read := clock }, phase := .computing seen persisted }, row)
  | .computing seen persisted =>
    let readings := { call.readings with lifecycle := clock }
    let sub := presentSubscriptionForResponse seen readings.updatedBefore readings.read
    match call.request.compute sub clock with
    | .error err => some ({ call with readings := readings, phase := .finished (.error err) }, row)
    | .ok write =>
      some ({ call with readings := readings, phase := .committing seen persisted write }, row)
  | .committing _ _ write =>
    let (outcome, row) := commitRow write updatedAt row
    some
      ({ call with
        readings := { call.readings with updatedAfter := updatedAt }, phase := .finished outcome }, row)
  | .finished _ => none

/-- The transition that a row is due, as `reconcileSubscriptionForWrite` persists it. -/
def persistRow (reconcile : Time) (row : Subscription) : Subscription :=
  let advanced := advanceSubscriptionLifecycle row reconcile
  if advanced.2 then lifecycleWrite advanced.1 row else row

/-- A call that nothing comes between. -/
def RowRequest.run (request : RowRequest) (readings : Readings) (row : Subscription) :
    RowOutcome × Subscription :=
  match request with
  | .sweep => (.ok none, if sweepSelects row then persistRow readings.reconcile row else row)
  | _ =>
    let row := persistRow readings.reconcile row
    let sub := presentSubscriptionForResponse row readings.updatedBefore readings.read
    match request.compute sub readings.lifecycle with
    | .error err => (.error err, row)
    | .ok write => commitRow write readings.updatedAfter row

/-! ## The system -/

/-- `done` lists the calls that have finished, in order. -/
structure RowSystem where
  clock : Int
  row : Subscription
  calls : List RowCall
  done : List Nat

inductive RowEvent where
  | tick (nanos : Nat)
  | exec (i : Nat) (updatedAt : Time)

def RowCall.isFinished (call : RowCall) : Bool :=
  match call.phase with
  | .finished _ => true
  | _ => false

def RowSystem.step (loc : Location) (s : RowSystem) : RowEvent → Option RowSystem
  | .tick nanos => some { s with clock := s.clock + nanos }
  | .exec i updatedAt =>
    (s.calls[i]?).bind fun call =>
      (call.exec (Time.inLoc ⟨s.clock, 0⟩ loc) updatedAt s.row).map fun (call, row) =>
        { s with
          row := row, calls := s.calls.set i call, done := if call.isFinished then s.done ++ [i]
            else s.done }

structure RowSystem.Initial (s : RowSystem) : Prop where
  begun : ∀ call ∈ s.calls, call.phase = .begun
  done : s.done = []

/-- The calls one after another. -/
def serialRow (calls : List RowCall) (row : Subscription) (order : List Nat) : Subscription :=
  order.foldl (fun row i => (calls[i]?).elim row fun call => (call.request.run call.readings row).2) row

/-! ## Undisturbed runs -/

/-- The columns that decide what a call writes: the schedule, the lifecycle and the
old `enabled` flag. -/
def Subscription.core (sub : Subscription) : BillingDraft × LifecycleDraft × Bool :=
  (sub.billing, ⟨sub.status, sub.renewalMode, sub.endsAt⟩, sub.enabled)

def RowCall.seen (call : RowCall) : Option Subscription :=
  match call.phase with
  | .persisting seen | .loading seen _ | .presenting seen _ | .computing seen _ | .committing seen
    _ _ => some seen
  | _ => none

/-- The call has written a due transition and is not finished. -/
def RowCall.persisted (call : RowCall) : Bool :=
  match call.phase with
  | .loading _ persisted | .presenting _ persisted | .computing _ persisted | .committing
    _ persisted _ => persisted
  | _ => false

def RowCall.hasBegun (call : RowCall) : Bool :=
  match call.phase with
  | .begun => false
  | _ => true

/-- Where a call has begun and goes on, no other call is between its two writes, and
the columns are as the call has seen them. -/
def Undisturbed (s : RowSystem) : RowEvent → Prop
  | .tick _ => True
  | .exec i _ =>
    ∀ call ∈ s.calls[i]?, call.hasBegun = true →
      (∀ j, j < s.calls.length → s.calls[j]?.any RowCall.persisted = true → j = i) ∧
        ∀ seen ∈ call.seen, s.row.core = seen.core

/-! ## What decides a write -/

/-- A row with these columns and nothing else. -/
def bareRow (core : BillingDraft × LifecycleDraft × Bool) : Subscription where
  id := 0
  userID := 0
  name := ""
  amount := 0
  currency := ""
  enabled := core.2.2
  status := core.2.1.status
  renewalMode := core.2.1.renewalMode
  endsAt := core.2.1.endsAt
  billingType := core.1.billingType
  recurrenceType := core.1.recurrenceType
  intervalCount := core.1.intervalCount
  intervalUnit := core.1.intervalUnit
  monthlyDay := core.1.monthlyDay
  yearlyMonth := core.1.yearlyMonth
  yearlyDay := core.1.yearlyDay
  nextBillingDate := core.1.nextBillingDate
  category := ""
  categoryID := none
  paymentMethodID := none
  notifyEnabled := none
  notifyDaysBefore := none
  icon := ""
  url := ""
  notes := ""

section Core
variable {sub sub' : Subscription}

theorem nextBillingDate_bare (sub : Subscription) (t : Time) :
    nextRecurringBillingDateOnOrAfter
    (bareRow sub.core) t = nextRecurringBillingDateOnOrAfter sub t := rfl

/-- Whether a transition is due, and what it writes, is decided by these columns. -/
theorem advance_bare (sub : Subscription) (t : Time) :
    (advanceSubscriptionLifecycle (bareRow sub.core) t).2 = (advanceSubscriptionLifecycle sub t).2 ∧
      (advanceSubscriptionLifecycle (bareRow sub.core) t).1.core =
        (advanceSubscriptionLifecycle sub t).1.core := by
  have hactive : subscriptionIsActive (bareRow sub.core) = subscriptionIsActive sub := rfl
  have hbound : endBoundary (bareRow sub.core) = endBoundary sub := rfl
  by_cases ha : subscriptionIsActive sub = true
  · by_cases hb : sub.billingType = billingTypeRecurring
    · by_cases hm : normalizeRenewalMode sub.renewalMode = renewalModeAutoRenew
      · rw [advance_autoRenew ha hb hm, advance_autoRenew (hactive.trans ha) hb hm, nextBillingDate_bare]
        cases nextRecurringBillingDateOnOrAfter sub (midnight t.day) <;> exact ⟨rfl, rfl⟩
      · rw [advance_ends ha hb hm, advance_ends (hactive.trans ha) hb hm, hbound]
        cases endBoundary sub with
        | none => exact ⟨rfl, rfl⟩
        | some boundary =>
          dsimp only
          split <;> exact ⟨rfl, rfl⟩
    · rw [advance_not_recurring hb, advance_not_recurring
        (show (bareRow sub.core).billingType ≠ _ from hb)]
      exact ⟨rfl, rfl⟩
  · rw [Bool.not_eq_true] at ha
    rw [advance_inactive ha, advance_inactive (hactive.trans ha)]
    exact ⟨rfl, rfl⟩

theorem advance_congr (h : sub.core = sub'.core) (t : Time) :
    (advanceSubscriptionLifecycle sub t).2 = (advanceSubscriptionLifecycle sub' t).2 ∧
      (advanceSubscriptionLifecycle sub t).1.core = (advanceSubscriptionLifecycle sub' t).1.core :=
  ⟨by rw [← (advance_bare sub t).1, h, (advance_bare sub' t).1],
    by rw [← (advance_bare sub t).2, h, (advance_bare sub' t).2]⟩

/-- The columns that a transition writes are among them. -/
theorem lifecycleWrite_congr (h : sub.core = sub'.core) (row : Subscription) :
    lifecycleWrite sub row = lifecycleWrite sub' row := by
  simp only [Subscription.core, Subscription.billing, Prod.mk.injEq, BillingDraft.mk.injEq,
    LifecycleDraft.mk.injEq] at h
  simp only [lifecycleWrite, h]

theorem sweepSelects_congr (h : sub.core = sub'.core) : sweepSelects sub = sweepSelects sub' := by
  have hbare : ∀ sub : Subscription, sweepSelects (bareRow sub.core) = sweepSelects sub := fun _ => rfl
  rw [← hbare, h, hbare]

theorem normalize_bare (sub : Subscription) (updatedAt : Time) :
    (normalizeSubscriptionForResponse (bareRow sub.core) updatedAt).core =
      (normalizeSubscriptionForResponse sub updatedAt).core := by
  have hstatus : (bareRow sub.core).status = sub.status := rfl
  have hmode : (bareRow sub.core).renewalMode = sub.renewalMode := rfl
  unfold normalizeSubscriptionForResponse
  rw [hstatus, hmode]
  by_cases hlegacy : (!isValidSubscriptionStatus (normalizeStatus sub.status)) = true ∨
      (!isValidRenewalMode (normalizeRenewalMode sub.renewalMode)) = true
  · rw [if_pos hlegacy, if_pos hlegacy]
    rfl
  · rw [if_neg hlegacy, if_neg hlegacy]
    rfl

theorem present_congr (h : sub.core = sub'.core) (updatedAt t : Time) :
    (presentSubscriptionForResponse sub updatedAt t).core =
    (presentSubscriptionForResponse sub' updatedAt t).core := by
  unfold presentSubscriptionForResponse
  rw [← normalize_bare, (advance_congr h t).2, normalize_bare]

theorem compute_bare (request : RowRequest) (sub : Subscription) (now : Time) :
    request.compute (bareRow sub.core) now = request.compute sub now := by
  cases request with
  | sweep => rfl
  | markManualRenewed => rfl
  | update lookups input =>
    have hschedule : scheduleUpdate input (bareRow sub.core) = scheduleUpdate input sub := rfl
    have hlifecycle : ∀ schedule, lifecycleUpdate input
        (bareRow sub.core) schedule now = lifecycleUpdate input sub schedule now :=
      fun _ => rfl
    simp only [RowRequest.compute, subscriptionUpdates, hschedule, hlifecycle]

theorem compute_congr (h : sub.core = sub'.core) (request : RowRequest) (now : Time) :
    request.compute sub now = request.compute sub' now := by
  rw [← compute_bare, h, compute_bare]

end Core

/-! ## Calls without interruption

On a table that holds just the row, the three operations are the uninterrupted calls. -/

section Single
variable {userID id : Nat} {row : Subscription} {t : Time}

theorem isRow_congr {row' : Subscription} (hid : row'.id = row.id) (huser : row'.userID = row.userID) :
    isRow userID id row' = isRow userID id row := by
  rw [isRow, isRow, hid, huser]

theorem persistRow_isRow (t : Time) (row : Subscription) :
    isRow userID id (persistRow t row) = isRow userID id row := by
  unfold persistRow
  dsimp only
  split
  · exact isRow_congr (lifecycleWrite_id _ _) (lifecycleWrite_userID _ _)
  · rfl

theorem find_single (h : isRow userID id row = true) : findSubscription userID id [row] = some row := by
  simp only [isRow, Bool.and_eq_true, decide_eq_true_eq] at h
  simp [findSubscription, h]

theorem persist_single (h : isRow userID id row = true) :
    persistAdvancedSubscriptionLifecycle userID row t [row] = [persistRow t row] := by
  simp only [isRow, Bool.and_eq_true, decide_eq_true_eq] at h
  unfold persistAdvancedSubscriptionLifecycle persistRow
  dsimp only
  rw [advance_id]
  cases hdue : (advanceSubscriptionLifecycle row t).2 <;> simp [updateWhere, h.2]

theorem reconcile_single (h : isRow userID id row = true) :
    reconcileSubscriptionForWrite userID id t [row] = [persistRow t row] := by
  rw [reconcileSubscriptionForWrite, find_single h]
  exact persist_single h

theorem commit_single (h : isRow userID id row = true) {write : Subscription → Subscription}
    (hwrite : isRow userID id (write row) = true) (updatedAt : Time) :
    ((commitUpdates userID id write updatedAt [row]).1.map some,
      (commitUpdates userID id write updatedAt [row]).2) =
      ((commitRow write updatedAt row).1, [(commitRow write updatedAt row).2]) := by
  unfold commitUpdates updateSubscription commitRow
  cases hchecks : (write row).meetsChecks with
  | false => simp [h, hchecks, Except.map]
  | true => simp [h, hchecks, updateWhere, find_single hwrite, Except.map]

theorem update_single (h : isRow userID id row = true) (lookups : Lookups)
    (input : UpdateSubscriptionInput) (readings : Readings) :
    ((update lookups userID id input readings [row]).1.map some,
      (update lookups userID id input readings [row]).2) =
      (((RowRequest.update lookups input).run readings row).1,
        [((RowRequest.update lookups input).run readings row).2]) := by
  have hpersisted : isRow userID id (persistRow readings.reconcile row) = true :=
    (persistRow_isRow _ row).trans h
  simp only [update, reconcile_single h, find_single hpersisted, RowRequest.run, RowRequest.compute]
  generalize persistRow readings.reconcile row = row at hpersisted ⊢
  generalize subscriptionUpdates lookups input _ readings.lifecycle = computed
  cases computed with
  | error err => simp [Except.map]
  | ok updates =>
    simp only [Except.map]
    exact commit_single hpersisted
      ((isRow_congr (updates.apply_id row) (updates.apply_userID row)).trans hpersisted) _

theorem markManualRenewed_single (h : isRow userID id row = true) (readings : Readings) :
    ((markManualRenewed userID id readings [row]).1.map some,
      (markManualRenewed userID id readings [row]).2) =
      ((RowRequest.markManualRenewed.run readings row).1,
        [(RowRequest.markManualRenewed.run readings row).2]) := by
  have hpersisted : isRow userID id (persistRow readings.reconcile row) = true :=
    (persistRow_isRow _ row).trans h
  simp only [markManualRenewed, reconcile_single h, find_single hpersisted, RowRequest.run,
    RowRequest.compute]
  generalize persistRow readings.reconcile row = row at hpersisted ⊢
  generalize manualRenewal _ = computed
  cases computed with
  | error err => simp [Except.map]
  | ok date =>
    simp only [Except.map]
    exact commit_single hpersisted
      ((isRow_congr (manualRenewed_id date row) (manualRenewed_userID date row)).trans hpersisted) _

theorem sweep_single (h : row.userID = userID) (readings : Readings) :
    reconcileSubscriptionLifecycleForUser userID readings.reconcile [row] =
    [(RowRequest.sweep.run readings row).2] := by
  have hrow : isRow userID row.id row = true := by simp [isRow, h]
  cases hselects : sweepSelects row with
  | false =>
    have hnot : ¬ (row.status = subscriptionStatusActive ∧
        row.billingType = billingTypeRecurring) := of_decide_eq_false hselects
    simp [reconcileSubscriptionLifecycleForUser, RowRequest.run, hselects, h, hnot]
  | true =>
    obtain ⟨hstatus, hbilling⟩ : row.status = subscriptionStatusActive ∧
        row.billingType = billingTypeRecurring :=
      of_decide_eq_true hselects
    simp [reconcileSubscriptionLifecycleForUser, RowRequest.run, hselects, h, hstatus, hbilling,
      persist_single hrow]

end Single

/-! ## What a run keeps -/

/-- The row seen and the `persisted` flag of a call that has reconciled the row. -/
def RowCall.settled (call : RowCall) : Option (Subscription × Bool) :=
  match call.phase with
  | .loading seen persisted | .presenting seen persisted | .computing seen persisted | .committing
    seen persisted _ =>
    some (seen, persisted)
  | _ => none

structure RowCall.OK (call : RowCall) : Prop where
  due : ∀ seen, call.phase = .persisting seen →
    (advanceSubscriptionLifecycle seen call.readings.reconcile).2 = true ∧
      (call.request = .sweep → sweepSelects seen = true)
  settled : ∀ seen persisted, call.settled = some (seen, persisted) →
    call.request ≠ .sweep ∧
      (persisted = false → (advanceSubscriptionLifecycle seen call.readings.reconcile).2 = false)
  computed : ∀ seen persisted write, call.phase = .committing seen persisted write →
    call.request.compute
      (presentSubscriptionForResponse seen call.readings.updatedBefore call.readings.read)
      call.readings.lifecycle = .ok write

/-- The finished calls, one after another from `row₀`, leave the row as it is, but for
the transition that one unfinished call has persisted. -/
structure RowInv (row₀ : Subscription) (s : RowSystem) : Prop where
  order : s.done.Nodup
  finished : ∀ i, i ∈ s.done ↔ ∃ call, s.calls[i]? = some call ∧ call.isFinished = true
  outcomes : ∀ (k i : Nat), s.done[k]? = some i → ∀ call, s.calls[i]? = some call →
    call.phase = .finished (call.request.run call.readings (serialRow s.calls row₀ (s.done.take k))).1
  one : ∀ (i j : Nat) (c d : RowCall), s.calls[i]? = some c → s.calls[j]? = some d →
    c.persisted = true → d.persisted = true → i = j
  dirty : ∀ (i : Nat) (c : RowCall), s.calls[i]? = some c → c.persisted = true →
    s.row = persistRow c.readings.reconcile (serialRow s.calls row₀ s.done)
  clean : (∀ (i : Nat) (c : RowCall), s.calls[i]? = some c → c.persisted = false) →
    s.row = serialRow s.calls row₀ s.done
  each : ∀ (i : Nat) (c : RowCall), s.calls[i]? = some c → c.OK

theorem getElem?_set_cases {α : Type} {l : List α} {i j : Nat} {a b : α} (h : (l.set i a)[j]? = some b) :
    (j = i ∧ b = a) ∨ (j ≠ i ∧ l[j]? = some b) := by
  by_cases hij : i = j
  · subst hij
    rw [List.getElem?_set] at h
    split at h <;> simp_all
  · rw [List.getElem?_set_ne hij] at h
    exact .inr ⟨Ne.symm hij, h⟩

/-- Calls that are not in the order do not matter. -/
theorem serialRow_set {calls : List RowCall} {order : List Nat} {i : Nat} (h : i ∉ order)
    (call : RowCall) (row : Subscription) :
    serialRow (calls.set i call) row order = serialRow calls row order := by
  induction order generalizing row with
  | nil => rfl
  | cons j order ih =>
    simp only [List.mem_cons, not_or] at h
    simp only [serialRow, List.foldl_cons, List.getElem?_set_ne h.1]
    exact ih h.2 _

section Moves
variable {row₀ row : Subscription} {s : RowSystem} {i : Nat} {call call' : RowCall}

theorem RowInv.notMem (h : RowInv row₀ s) (hi : s.calls[i]? = some call)
    (hnot : call.isFinished = false) : i ∉ s.done := by
  intro hmem
  obtain ⟨call', hi', hfinished⟩ := (h.finished i).1 hmem
  obtain rfl := Option.some.inj (hi.symm.trans hi')
  rw [hnot] at hfinished
  cases hfinished

/-- A call goes on and does not finish. -/
theorem RowInv.move (h : RowInv row₀ s) (hi : s.calls[i]? = some call) (hnot : call.isFinished = false)
    (hnot' : call'.isFinished = false) (hok : call'.OK)
    (hdirty : call'.persisted = true → row = persistRow call'.readings.reconcile
      (serialRow s.calls row₀ s.done) ∧
      ∀ (j : Nat) (d : RowCall), s.calls[j]? = some d → d.persisted = true → j = i)
    (hclean : call'.persisted = false → row = s.row ∧ call.persisted = false) :
    RowInv row₀ { s with row := row, calls := s.calls.set i call' } := by
  have hmem := h.notMem hi hnot
  have hlt : i < s.calls.length := (List.getElem?_eq_some_iff.1 hi).1
  have hserial : serialRow (s.calls.set i call') row₀ s.done = serialRow s.calls row₀ s.done :=
    serialRow_set hmem call' row₀
  constructor
  case order => exact h.order
  case finished =>
    intro j
    rw [h.finished j]
    by_cases hji : j = i
    · subst hji
      refine iff_of_false ?_ ?_
      · rintro ⟨c, hc, hfinished⟩
        obtain rfl := Option.some.inj (hi.symm.trans hc)
        simp [hnot] at hfinished
      · rintro ⟨c, hc, hfinished⟩
        rcases getElem?_set_cases hc with ⟨-, rfl⟩ | ⟨hne, -⟩
        · simp [hnot'] at hfinished
        · exact hne rfl
    · simp [List.getElem?_set_ne (Ne.symm hji)]
  case outcomes =>
    intro k j hk c hc
    rcases getElem?_set_cases hc with ⟨rfl, rfl⟩ | ⟨hji, hc⟩
    · exact absurd (List.mem_of_getElem? hk) hmem
    · rw [serialRow_set fun hin => hmem (List.mem_of_mem_take hin)]
      exact h.outcomes k j hk c hc
  case one =>
    intro j k c d hj hk hcp hdp
    rcases getElem?_set_cases hj with ⟨rfl, rfl⟩ | ⟨-, hj'⟩ <;> rcases getElem?_set_cases hk
      with ⟨rfl, rfl⟩ | ⟨-, hk'⟩
    · rfl
    · exact ((hdirty hcp).2 k d hk' hdp).symm
    · exact (hdirty hdp).2 j c hj' hcp
    · exact h.one j k c d hj' hk' hcp hdp
  case dirty =>
    intro j c hj hcp
    rw [hserial]
    rcases getElem?_set_cases hj with ⟨rfl, rfl⟩ | ⟨hji, hj⟩
    · exact (hdirty hcp).1
    · cases hp : call'.persisted with
      | true => exact absurd ((hdirty hp).2 j c hj hcp) hji
      | false =>
        rw [(hclean hp).1]
        exact h.dirty j c hj hcp
  case clean =>
    intro hall
    have hp : call'.persisted = false := hall i call' (by simp [hlt])
    rw [hserial, (hclean hp).1]
    refine h.clean fun j c hj => ?_
    by_cases hji : j = i
    · subst hji
      obtain rfl := Option.some.inj (hi.symm.trans hj)
      exact (hclean hp).2
    · exact hall j c (by rw [List.getElem?_set_ne (Ne.symm hji)]; exact hj)
  case each =>
    intro j c hj
    rcases getElem?_set_cases hj with ⟨rfl, rfl⟩ | ⟨hji, hj⟩
    · exact hok
    · exact h.each j c hj

/-- A call finishes: the next one in the order. -/
theorem RowInv.finish (h : RowInv row₀ s) (hi : s.calls[i]? = some call)
    (hnot : call.isFinished = false) {readings : Readings} {outcome : RowOutcome}
    (hothers : ∀ (j : Nat) (d : RowCall), s.calls[j]? = some d → d.persisted = true → j = i)
    (hrun : call.request.run readings (serialRow s.calls row₀ s.done) = (outcome, row)) :
    RowInv row₀ { s with
      row := row
      calls := s.calls.set i ⟨call.request, readings, .finished outcome⟩
      done := s.done ++ [i] } := by
  have hmem := h.notMem hi hnot
  have hlt : i < s.calls.length := (List.getElem?_eq_some_iff.1 hi).1
  generalize hcall : (⟨call.request, readings, .finished outcome⟩ : RowCall) = last
  have hlast : (s.calls.set i last)[i]? = some last := by simp [hlt]
  have hpersisted : last.persisted = false := by rw [← hcall]; rfl
  have hserial : serialRow (s.calls.set i last) row₀ (s.done ++ [i]) = row := by
    rw [serialRow, List.foldl_append, List.foldl_cons, List.foldl_nil, hlast, ← serialRow,
      serialRow_set hmem]
    rw [← hcall, Option.elim_some, hrun]
  have hnone : ∀ (j : Nat) (c : RowCall), (s.calls.set i last)[j]? = some c → c.persisted = false := by
    intro j c hj
    rcases getElem?_set_cases hj with ⟨rfl, rfl⟩ | ⟨hji, hj⟩
    · exact hpersisted
    · by_contra hp
      exact hji (hothers j c hj (by simpa using hp))
  constructor
  case order =>
    exact List.nodup_append.2
      ⟨h.order, by simp, fun j hj k hk => by rintro rfl; exact hmem (List.mem_singleton.1 hk ▸ hj)⟩
  case finished =>
    intro j
    rw [List.mem_append, h.finished j, List.mem_singleton]
    by_cases hji : j = i
    · subst hji
      exact iff_of_true (.inr rfl) ⟨last, hlast, by rw [← hcall]; rfl⟩
    · simp [hji, List.getElem?_set_ne (Ne.symm hji)]
  case outcomes =>
    intro k j hk c hc
    rcases lt_or_ge k s.done.length with hlt | hge
    · rw [List.getElem?_append_left hlt] at hk
      rcases getElem?_set_cases hc with ⟨rfl, rfl⟩ | ⟨hji, hc⟩
      · exact absurd (List.mem_of_getElem? hk) hmem
      · rw [List.take_append_of_le_length hlt.le, serialRow_set fun hin =>
          hmem (List.mem_of_mem_take hin)]
        exact h.outcomes k j hk c hc
    · rw [List.getElem?_append_right hge] at hk
      obtain ⟨hzero, rfl⟩ : k - s.done.length = 0 ∧ i = j := by simpa [List.getElem?_singleton] using hk
      obtain rfl : last = c := Option.some.inj (hlast.symm.trans hc)
      have hk : k = s.done.length := by omega
      rw [hk, List.take_left, serialRow_set hmem, ← hcall, hrun]
  case one =>
    intro j k c d hj _ hcp
    rw [hnone j c hj] at hcp
    cases hcp
  case dirty =>
    intro j c hj hcp
    rw [hnone j c hj] at hcp
    cases hcp
  case clean => exact fun _ => hserial.symm
  case each =>
    intro j c hj
    rcases getElem?_set_cases hj with ⟨rfl, rfl⟩ | ⟨hji, hj⟩
    · rw [← hcall]
      exact ⟨by simp, by simp [RowCall.settled], by simp⟩
    · exact h.each j c hj

theorem RowCall.settled_seen {seen : Subscription} {persisted : Bool}
    (h : call.settled = some (seen, persisted)) :
    call.persisted = persisted ∧ call.seen = some seen ∧ call.isFinished = false := by
  obtain ⟨request, readings, phase⟩ := call
  cases phase <;> cases h <;> exact ⟨rfl, rfl, rfl⟩

/-- Nobody is between two writes: the row is what the finished calls left. -/
theorem RowInv.row_eq (h : RowInv row₀ s) (hi : s.calls[i]? = some call) (hp : call.persisted = false)
    (hothers : ∀ (j : Nat) (d : RowCall), s.calls[j]? = some d → d.persisted = true → j = i) :
    s.row = serialRow s.calls row₀ s.done := by
  refine h.clean fun j c hj => ?_
  by_contra hc
  have hji := hothers j c hj (by simpa using hc)
  subst hji
  obtain rfl := Option.some.inj (hi.symm.trans hj)
  exact hc hp

/-- A call that has reconciled the row finds it as it would, alone, on what the
finished calls left. -/
theorem RowInv.settled_row (h : RowInv row₀ s) (hi : s.calls[i]? = some call) {seen : Subscription}
    {persisted : Bool} (hsettled : call.settled = some (seen, persisted))
    (hothers : ∀ (j : Nat) (d : RowCall), s.calls[j]? = some d → d.persisted = true → j = i)
    (hcore : s.row.core = seen.core) :
    persistRow call.readings.reconcile (serialRow s.calls row₀ s.done) = s.row := by
  obtain ⟨hp, -, -⟩ := RowCall.settled_seen hsettled
  cases persisted with
  | true => exact (h.dirty i call hi hp).symm
  | false =>
    rw [← h.row_eq hi hp hothers, persistRow]
    have hdue := ((h.each i call hi).settled seen false hsettled).2 rfl
    rw [← (advance_congr hcore _).1] at hdue
    simp [hdue]

theorem RowRequest.run_of_ne {request : RowRequest} (h : request ≠ .sweep) (readings : Readings)
    (row : Subscription) :
    request.run readings row =
      match request.compute
        (presentSubscriptionForResponse (persistRow readings.reconcile row) readings.updatedBefore
        readings.read) readings.lifecycle with
      | .error err => (.error err, persistRow readings.reconcile row)
      | .ok write => commitRow write readings.updatedAfter (persistRow readings.reconcile row) := by
  cases request with
  | sweep => exact absurd rfl h
  | update lookups input => simp only [RowRequest.run]
  | markManualRenewed => simp only [RowRequest.run]

theorem RowCall.exec_reading {request : RowRequest} (h : request ≠ .sweep) (clock updatedAt : Time)
    (row : Subscription) (readings : Readings) :
    RowCall.exec clock updatedAt row ⟨request, readings, .reading⟩ =
      if (advanceSubscriptionLifecycle row readings.reconcile).2 then
        some (⟨request, readings, .persisting row⟩, row)
      else some (⟨request, readings, .loading row false⟩, row) := by
  cases request with
  | sweep => exact absurd rfl h
  | update lookups input => simp only [RowCall.exec]
  | markManualRenewed => simp only [RowCall.exec]

theorem RowCall.exec_persisting {request : RowRequest} (h : request ≠ .sweep)
    (clock updatedAt : Time) (row seen : Subscription) (readings : Readings) :
    RowCall.exec clock updatedAt row ⟨request, readings, .persisting seen⟩ =
      some
        (⟨request, readings,
        .loading (lifecycleWrite (advanceSubscriptionLifecycle seen readings.reconcile).1 row) true⟩,
        lifecycleWrite (advanceSubscriptionLifecycle seen readings.reconcile).1 row) := by
  cases request with
  | sweep => exact absurd rfl h
  | update lookups input => simp only [RowCall.exec]
  | markManualRenewed => simp only [RowCall.exec]

/-- One step of a call. -/
theorem RowInv.exec (h : RowInv row₀ s) (hi : s.calls[i]? = some call) {clock updatedAt : Time}
    (hun : call.hasBegun = true →
      (∀ (j : Nat) (other : RowCall), s.calls[j]? = some other → other.persisted = true → j = i) ∧
        ∀ seen ∈ call.seen, s.row.core = seen.core)
    (hexec : call.exec clock updatedAt s.row = some (call', row)) :
    RowInv row₀ { s with
      row := row, calls := s.calls.set i call', done := if call'.isFinished then s.done ++ [i]
        else s.done } := by
  have hok := h.each i call hi
  obtain ⟨request, readings, phase⟩ := call
  cases phase with
  | begun =>
    cases hexec
    exact h.move hi rfl rfl ⟨by simp, by simp [RowCall.settled], by simp⟩ (fun hp => by cases hp)
      fun _ => ⟨rfl, rfl⟩
  | reading =>
    -- no other call under way has persisted, so the row read is the serial one
    obtain ⟨hothers, -⟩ := hun rfl
    have hrow := h.row_eq hi rfl hothers
    by_cases hsweep : request = .sweep
    · subst hsweep
      simp only [RowCall.exec] at hexec
      split at hexec <;> cases hexec
      · rename_i hdue
        refine h.move hi rfl rfl ⟨?_, by simp [RowCall.settled], by simp⟩ (fun hp => by cases hp)
          fun _ => ⟨rfl, rfl⟩
        rintro _ ⟨⟩
        exact ⟨hdue.2, fun _ => hdue.1⟩
      · rename_i hnot
        refine h.finish hi rfl hothers ?_
        -- the sweep selects nothing: it ends without a write, as alone
        rw [← hrow]
        simp only [RowRequest.run, persistRow, Prod.mk.injEq, true_and]
        split_ifs <;> simp_all
    · rw [RowCall.exec_reading hsweep] at hexec
      split at hexec <;> cases hexec
      · rename_i hdue
        refine h.move hi rfl rfl ⟨?_, by simp [RowCall.settled], by simp⟩ (fun hp => by cases hp)
          fun _ => ⟨rfl, rfl⟩
        rintro _ ⟨⟩
        exact ⟨hdue, fun he => absurd he hsweep⟩
      · rename_i hnot
        refine h.move hi rfl rfl ⟨by simp, ?_, by simp⟩ (fun hp => by cases hp) fun _ => ⟨rfl, rfl⟩
        rintro _ _ ⟨⟩
        exact ⟨hsweep, fun _ => by simpa using hnot⟩
  | persisting seen =>
    obtain ⟨hothers, hcore⟩ := hun rfl
    have hrow := h.row_eq hi rfl hothers
    obtain ⟨hdue, hselects⟩ := hok.due seen rfl
    -- what is written was computed from the row as read; its columns are still those
    have hpersist : persistRow readings.reconcile (serialRow s.calls row₀ s.done) =
        lifecycleWrite (advanceSubscriptionLifecycle seen readings.reconcile).1 s.row := by
      obtain ⟨hflag, hcolumns⟩ := advance_congr (hcore seen rfl) readings.reconcile
      rw [← hrow, persistRow, hflag, if_pos hdue, lifecycleWrite_congr hcolumns]
    by_cases hsweep : request = .sweep
    · subst hsweep
      cases hexec
      refine h.finish hi rfl hothers ?_
      -- the serial row is selected too, so the serial sweep makes this write
      have hbase : sweepSelects (serialRow s.calls row₀ s.done) = true := by
        rw [← hrow, sweepSelects_congr (hcore seen rfl)]
        exact hselects rfl
      simp only [RowRequest.run, hbase, if_true, hpersist]
    · rw [RowCall.exec_persisting hsweep] at hexec
      cases hexec
      refine h.move hi rfl rfl ⟨by simp, ?_, by simp⟩ (fun _ => ⟨hpersist.symm, hothers⟩)
        fun hp => by cases hp
      rintro _ _ ⟨⟩
      exact ⟨hsweep, fun he => by cases he⟩
  | loading seen persisted =>
    obtain ⟨hothers, hcore⟩ := hun rfl
    obtain ⟨hne, hnot⟩ := hok.settled seen persisted rfl
    have hdirty : persisted = true → s.row = persistRow readings.reconcile
        (serialRow s.calls row₀ s.done) := h.dirty i _ hi
    cases hexec
    refine h.move hi rfl rfl ⟨by simp, ?_, by simp⟩ (fun hp => ⟨hdirty hp, hothers⟩) fun hp => ⟨rfl, hp⟩
    -- not persisted: the flag of the row loaded is that of the row read before
    rintro _ _ ⟨⟩
    exact ⟨hne, fun hp => ((advance_congr (hcore seen rfl) _).1).trans (hnot hp)⟩
  | presenting seen persisted =>
    obtain ⟨hothers, -⟩ := hun rfl
    have hdirty : persisted = true → s.row = persistRow readings.reconcile
        (serialRow s.calls row₀ s.done) := h.dirty i _ hi
    cases hexec
    refine h.move hi rfl rfl ⟨by simp, ?_, by simp⟩ (fun hp => ⟨hdirty hp, hothers⟩) fun hp => ⟨rfl, hp⟩
    rintro _ _ ⟨⟩
    exact hok.settled seen persisted rfl
  | computing seen persisted =>
    obtain ⟨hothers, hcore⟩ := hun rfl
    obtain ⟨hne, hnot⟩ := hok.settled seen persisted rfl
    have hrow := h.settled_row hi rfl hothers (hcore seen rfl)
    have hdirty : persisted = true → s.row = persistRow readings.reconcile
        (serialRow s.calls row₀ s.done) := h.dirty i _ hi
    simp only [RowCall.exec] at hexec
    split at hexec <;> cases hexec
    · rename_i err herr
      refine h.finish hi rfl hothers ?_
      -- a refused request leaves the row as the serial one does
      rw [RowRequest.run_of_ne hne, hrow, compute_congr (present_congr (hcore seen rfl) _ _), herr]
    · rename_i write hwrite
      refine h.move hi rfl rfl ⟨by simp, ?_, ?_⟩ (fun hp => ⟨hdirty hp, hothers⟩) fun hp => ⟨rfl, hp⟩
      · rintro _ _ ⟨⟩
        exact ⟨hne, hnot⟩
      · rintro _ _ _ ⟨⟩
        exact hwrite
  | committing seen persisted write =>
    obtain ⟨hothers, hcore⟩ := hun rfl
    obtain ⟨hne, hnot⟩ := hok.settled seen persisted rfl
    have hrow := h.settled_row hi rfl hothers (hcore seen rfl)
    have hwrite := hok.computed seen persisted write rfl
    simp only [RowCall.exec, Option.some.injEq, Prod.mk.injEq] at hexec
    obtain ⟨rfl, rfl⟩ := hexec
    refine h.finish hi rfl hothers ?_
    rw [RowRequest.run_of_ne hne, hrow, compute_congr (present_congr (hcore seen rfl) _ _), hwrite]
  | finished outcome => cases hexec

end Moves

/-! ## Runs -/

theorem RowSystem.Initial.inv {s : RowSystem} (h : s.Initial) : RowInv s.row s := by
  have hbegun : ∀ (i : Nat) (c : RowCall), s.calls[i]? = some c → c.phase = .begun := fun i c hi =>
    h.begun c (List.mem_of_getElem? hi)
  have hnone : ∀ (i : Nat) (c : RowCall), s.calls[i]? = some c → c.persisted = false := fun i c hi => by
    rw [RowCall.persisted, hbegun i c hi]
  refine ⟨by simp [h.done], fun i => ?_, by simp [h.done], fun i j c d hi _ hc => ?_,
    fun i c hi hc => ?_, fun _ => ?_, fun i c hi => ?_⟩
  · refine iff_of_false (by simp [h.done]) ?_
    rintro ⟨c, hi, hfinished⟩
    rw [RowCall.isFinished, hbegun i c hi] at hfinished
    cases hfinished
  · simp [hnone i c hi] at hc
  · simp [hnone i c hi] at hc
  · simp [h.done, serialRow]
  · exact ⟨by simp [hbegun i c hi], by simp [RowCall.settled, hbegun i c hi], by simp [hbegun i c hi]⟩

theorem RowCall.exec_request {clock updatedAt : Time} {row row' : Subscription} {call call' : RowCall}
    (h : call.exec clock updatedAt row = some (call', row')) : call'.request = call.request := by
  unfold RowCall.exec at h
  dsimp only at h
  repeat' split at h
  all_goals cases h <;> rfl

theorem RowSystem.step_inv {loc : Location} {row₀ : Subscription} {requests : List RowRequest}
    {s t : RowSystem} {e : RowEvent} (h : RowInv row₀ s ∧ s.calls.map (·.request) = requests)
    (hun : Undisturbed s e) (hstep : s.step loc e = some t) :
    RowInv row₀ t ∧ t.calls.map (·.request) = requests := by
  obtain ⟨h, hrequests⟩ := h
  cases e with
  | tick nanos =>
    cases hstep
    exact ⟨⟨h.order, h.finished, h.outcomes, h.one, h.dirty, h.clean, h.each⟩, hrequests⟩
  | exec i updatedAt =>
    obtain ⟨call, hi, hstep⟩ := Option.bind_eq_some_iff.1 hstep
    obtain ⟨⟨call', row⟩, hexec, rfl⟩ := Option.map_eq_some_iff.1 hstep
    refine ⟨h.exec hi (fun hbegun => ?_) hexec, ?_⟩
    · obtain ⟨hothers, hcore⟩ := hun call hi hbegun
      refine ⟨fun j other hj hp => hothers j (List.getElem?_eq_some_iff.1 hj).1 ?_, hcore⟩
      simp [hj, hp]
    · have hlt : i < (s.calls.map (·.request)).length := by
        simpa using (List.getElem?_eq_some_iff.1 hi).1
      have hsame : call'.request = (s.calls.map (·.request))[i] := by
        simp [RowCall.exec_request hexec, (List.getElem?_eq_some_iff.1 hi).2]
      rw [← hrequests, List.map_set, hsame]
      exact List.set_getElem_self _

/-- An undisturbed interleaving of finitely many calls leaves the row that the calls
leave one after another, in the order in which they finished, and each call returns
what it returns there. -/
theorem writes_serializable {loc : Location} {s t : RowSystem} (hs : s.Initial)
    (hpath : Path (RowSystem.step loc) Undisturbed s t)
    (hfinished : ∀ call ∈ t.calls, call.isFinished = true) :
    t.calls.map (·.request) = s.calls.map (·.request) ∧
      ∃ order : List Nat, order.Perm (List.range t.calls.length) ∧
        serialRow t.calls s.row order = t.row ∧
        ∀ (k i : Nat), order[k]? = some i → ∀ call, t.calls[i]? = some call →
          call.phase = .finished
            (call.request.run call.readings (serialRow t.calls s.row (order.take k))).1 := by
  obtain ⟨h, hrequests⟩ :=
    hpath.invariant (fun t => RowInv s.row t ∧ t.calls.map (·.request) = s.calls.map (·.request))
    (fun _ _ _ h hun hstep => RowSystem.step_inv h hun hstep) ⟨hs.inv, rfl⟩
  refine ⟨hrequests, t.done, ?_, ?_, h.outcomes⟩
  · refine (List.perm_ext_iff_of_nodup h.order List.nodup_range).2 fun i => ?_
    rw [h.finished i, List.mem_range]
    constructor
    · rintro ⟨call, hi, -⟩
      exact (List.getElem?_eq_some_iff.1 hi).1
    · intro hi
      exact ⟨_, List.getElem?_eq_getElem hi, hfinished _ (List.getElem_mem hi)⟩
  · refine (h.clean fun i c hi => ?_).symm
    have hf := hfinished c (List.mem_of_getElem? hi)
    obtain ⟨request, readings, phase⟩ := c
    cases phase <;> first | rfl | cases hf

/-! ## Two manual renewals -/

/-- A manually renewed row, due on 10 January 2025. -/
def manualRow : Subscription :=
  { monthEndRow with renewalMode := renewalModeManualRenew, nextBillingDate := some (dateUTC 2025 1 10) }

def noReadings : Readings := ⟨Time.zero, Time.zero, Time.zero, Time.zero, Time.zero⟩

/-- Two calls of `MarkManualRenewed` on 5 January. -/
def twoRenewals : RowSystem where
  clock := (dateUTC 2025 1 5).nanos
  row := manualRow
  calls := [⟨.markManualRenewed, noReadings, .begun⟩, ⟨.markManualRenewed, noReadings, .begun⟩]
  done := []

/-- The steps of a call up to its transaction. -/
def computeSteps (i : Nat) : List RowEvent := List.replicate 5 (.exec i (dateUTC 2025 1 5))

instance (s : RowSystem) (e : RowEvent) : Decidable (Always s e) := inferInstanceAs (Decidable True)

instance (s : RowSystem) : (e : RowEvent) → Decidable (Undisturbed s e)
  | .tick _ => .isTrue trivial
  | .exec i _ => inferInstanceAs (Decidable (∀ call ∈ s.calls[i]?, _ → _))

/-- Both load the row before either writes it, and both succeed: the date moves on by
one month, and not by two. -/
theorem writes_not_serializable :
    ¬ ∀ (loc : Location) (s t : RowSystem), s.Initial → Path (RowSystem.step loc) Always s t →
      (∀ call ∈ t.calls, call.isFinished = true) →
      ∃ order : List Nat, order.Perm (List.range t.calls.length) ∧
        serialRow t.calls s.row order = t.row := by
  intro h
  have hrun : (exec (RowSystem.step (Location.fixed 0)) Always twoRenewals
      (computeSteps 0 ++ computeSteps 1 ++
        [.exec 0 (dateUTC 2025 1 5), .exec 1 (dateUTC 2025 1 5)])).any (fun t =>
      t.calls.all RowCall.isFinished && t.calls.length = 2 &&
        [[0, 1], [1, 0]].all fun order => serialRow t.calls manualRow order ≠ t.row) = true := by
    decide +kernel
  obtain ⟨t, ht, hbad⟩ := (Option.any_eq_true _ _).1 hrun
  simp only [Bool.and_eq_true, decide_eq_true_eq] at hbad
  obtain ⟨⟨hfinished, hlength⟩, hbad⟩ := hbad
  obtain ⟨order, hperm, horder⟩ :=
    h _ twoRenewals t ⟨by simp [twoRenewals], rfl⟩ (Path.of_exec ht) (List.all_eq_true.1 hfinished)
  rw [hlength] at hperm
  have hcases : order ∈ [[0, 1], [1, 0]] := by
    have hmem := List.mem_permutations'.2 hperm
    rwa [show (List.range 2).permutations' = [[0, 1], [1, 0]] by decide] at hmem
  have hne := List.all_eq_true.1 hbad order hcases
  exact (of_decide_eq_true hne) horder

/-- A rename and a manual renewal. -/
def renameAndRenewal : RowSystem where
  clock := (dateUTC 2025 1 5).nanos
  row := manualRow
  calls :=
    [⟨.update ⟨fun _ => none, fun _ => false, fun _ => false⟩ { name := some "Music" }, noReadings,
     .begun⟩,
      ⟨.markManualRenewed, noReadings, .begun⟩]
  done := []

/-- Here too both load the row before either writes it. The rename leaves the columns alone that the
renewal has seen, and neither write is lost. -/
theorem writes_serializable_sample :
    ∃ t, exec (RowSystem.step (Location.fixed 0)) Undisturbed renameAndRenewal
        (computeSteps 0 ++ computeSteps 1 ++
          [.exec 0 (dateUTC 2025 1 5), .exec 1 (dateUTC 2025 1 5)]) = some t ∧
      t.row.name = "Music" ∧ t.row.nextBillingDate = some (dateUTC 2025 2 10) ∧
      ∃ order : List Nat, order.Perm (List.range t.calls.length) ∧
        serialRow t.calls manualRow order = t.row := by
  have hrun : (exec (RowSystem.step (Location.fixed 0)) Undisturbed renameAndRenewal
      (computeSteps 0 ++ computeSteps 1 ++
        [.exec 0 (dateUTC 2025 1 5), .exec 1 (dateUTC 2025 1 5)])).any (fun t =>
        t.calls.all RowCall.isFinished && t.row.name = "Music" && t.row.nextBillingDate = some
          (dateUTC 2025 2 10)) = true := by
    decide +kernel
  obtain ⟨t, ht, hgood⟩ := (Option.any_eq_true _ _).1 hrun
  simp only [Bool.and_eq_true, decide_eq_true_eq] at hgood
  obtain ⟨⟨hfinished, hname⟩, hdate⟩ := hgood
  obtain ⟨-, order, hperm, hrow, -⟩ :=
    writes_serializable ⟨by simp [renameAndRenewal], rfl⟩ (Path.of_exec ht)
    (List.all_eq_true.1 hfinished)
  exact ⟨t, ht, hname, hdate, order, hperm, hrow⟩

end Subdux
