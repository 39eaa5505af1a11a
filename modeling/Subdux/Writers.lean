import Subdux.WellFormed
/-!
# Runs of the writers

One process that creates, updates, renews, sweeps and imports subscriptions, one
call after another, from an empty table. The clock moves on between calls and
between the readings of one call.
-/

namespace Subdux
open Results Rows Runs

/-! ## The table -/

def TableOK (table : SubscriptionTable) : Prop := RowsOK table.nextID table.rows

section Table
variable {table : SubscriptionTable} {sub : Subscription}

theorem Subscription.WellFormed.setKeys (h : sub.WellFormed) (id : Nat) (currency : String)
    (enabled : Bool) :
    { sub with
      id := id, currency := currency, enabled := enabled, negativeZero := false }.WellFormed :=
  ⟨h.schedule, h.lifecycle⟩

/-- A new row has nothing to default but its keys. -/
theorem TableOK.insert (h : TableOK table) (hsub : sub.WellFormed) {row : Subscription}
    {table' : SubscriptionTable} (hinsert : insertSubscription sub table = some (row, table')) :
    TableOK table' := by
  have hstatus : sub.status ≠ "" := status_ne_empty hsub.lifecycle.status
  have hmode : sub.renewalMode ≠ "" := renewalMode_ne_empty hsub.lifecycle.renewalMode
  have hbilling : sub.billingType ≠ "" := by
    rw [hsub.billingType]
    decide
  simp only [insertSubscription, orDefault_of_ne hstatus, orDefault_of_ne hmode,
    orDefault_of_ne hbilling] at hinsert
  split at hinsert <;> cases hinsert
  have hrow := hsub.setKeys table.nextID (orDefault "USD" sub.currency) true
  generalize hnew : ({ sub with
    id := table.nextID, currency := orDefault "USD" sub.currency, enabled := true,
    negativeZero := false } : Subscription) =
    row at hrow ⊢
  have hid : row.id = table.nextID := by rw [← hnew]
  have hcases : ∀ r ∈ table.rows ++ [row], r ∈ table.rows ∨ r = row := by simp
  constructor
  · simp only [List.map_append, List.map_cons, List.map_nil]
    refine List.nodup_append.2 ⟨h.ids, by simp, fun id hid' id' hid'' => ?_⟩
    obtain ⟨r, hr, rfl⟩ := List.mem_map.1 hid'
    rw [List.mem_singleton.1 hid'', hid]
    exact (h.fresh r hr).ne
  · intro r hr
    rcases hcases r hr with hr | rfl
    · exact (h.fresh r hr).trans (Nat.lt_succ_self _)
    · exact hid ▸ Nat.lt_succ_self _
  · intro r hr
    rcases hcases r hr with hr | rfl
    · exact h.wellFormed r hr
    · exact hrow

theorem TableOK.create (h : TableOK table) (lookups : Lookups) (userID : Nat)
    (input : CreateSubscriptionInput) (now : Time) :
    TableOK (create lookups userID input now table).2 := by
  unfold Subdux.create
  split
  · exact h
  · rename_i hnew
    split
    · exact h
    · rename_i hinsert
      exact h.insert (newSubscription_ok hnew) hinsert

theorem setSchedule_billing (row : Subscription) (draft : BillingDraft) :
    (row.setSchedule (some draft)).billing = draft := rfl

/-- A row of the file whose schedule was normalized. -/
theorem TableOK.importNew {st : ImportState} (h : TableOK st.table) {draft : BillingDraft} {date : Time}
    (hdraft : draft.Normalized date) (hbilling : sub.billing = draft) (lookups : ImportLookups)
    (userID : Nat) (row : ImportRow) :
    TableOK (importNew lookups userID row sub st).table := by
  have hdate : sub.nextBillingDate = some date :=
    (congrArg BillingDraft.nextBillingDate hbilling).trans hdraft.nextBillingDate
  unfold Subdux.importNew
  dsimp only
  split
  · exact h
  · rename_i lifecycle hlifecycle
    obtain ⟨n, rfl⟩ := hdraft.exists_midnight
    rw [hdate] at hlifecycle
    split
    · exact h
    · split
      · exact h
      · rename_i hinsert
        refine h.insert (.sync
          (.of_parts hdraft ?_ (normalizeLifecycleDraft_ok hlifecycle).1 ?_)) hinsert
        · exact hbilling
        · rfl

theorem TableOK.importSubscription {st : ImportState} (h : TableOK st.table)
    (lookups : ImportLookups) (userID : Nat) (row : ImportRow) :
    TableOK (importSubscription lookups userID st row).table := by
  unfold Subdux.importSubscription
  dsimp only
  split
  · exact h
  · split
    · exact h
    · rename_i hdraft
      have hdraft := normalizeBillingDraft_ok hdraft
      rw [hdraft.copy]
      split
      · exact h
      · refine TableOK.importNew ?_ hdraft (setSchedule_billing _ _) lookups userID row
        exact h

theorem TableOK.importFromSubdux (h : TableOK table) (lookups : ImportLookups) (userID : Nat)
    (data : List ImportRow) :
    TableOK (importFromSubdux lookups userID data table).table := by
  unfold Subdux.importFromSubdux
  exact List.foldlRecOn (motive := fun st : ImportState => TableOK st.table) _ _ h fun st h row _ =>
    h.importSubscription lookups userID row

end Table

/-! ## Calls on one row -/

section Calls
variable {bound : Nat} {rows : List Subscription} {userID id : Nat} {readings : Readings}

theorem RowsOK.updateCall (h : RowsOK bound rows) {lookups : Lookups} {input : UpdateSubscriptionInput}
    (hkept : ∀ row ∈ findSubscription userID id
      (reconcileSubscriptionForWrite userID id readings.reconcile rows),
      BoundaryKept input row readings.read) :
    RowsOK bound (Subdux.update lookups userID id input readings rows).2 := by
  have hrows := h.reconcileForWrite userID id readings.reconcile
  unfold Subdux.update
  dsimp only
  split
  · exact hrows
  · rename_i sub hfind
    obtain ⟨hmem, hrow⟩ := findSubscription_mem hfind
    split
    · exact hrows
    · rename_i updates hupdates
      exact hrows.commit updates.apply_id hmem hrow
        ((hrows.wellFormed sub hmem).applyUpdates hupdates (hkept sub hfind)) _

theorem RowsOK.markManualRenewed (h : RowsOK bound rows) :
    RowsOK bound (markManualRenewed userID id readings rows).2 := by
  have hrows := h.reconcileForWrite userID id readings.reconcile
  unfold Subdux.markManualRenewed
  dsimp only
  split
  · exact hrows
  · rename_i sub hfind
    obtain ⟨hmem, hrow⟩ := findSubscription_mem hfind
    split
    · exact hrows
    · rename_i date hrenewal
      obtain ⟨n, rfl⟩ := manualRenewal_midnight hrenewal
      exact hrows.commit (manualRenewed_id _) hmem hrow ((hrows.wellFormed sub hmem).manualRenewed n) _

end Calls

/-! ## Runs -/

structure StoreSystem where
  clock : Int
  table : SubscriptionTable

/-- Nanoseconds that pass before each reading of a call. -/
structure Elapsed where
  reconcile : Nat
  read : Nat
  lifecycle : Nat
  commit : Nat

inductive StoreEvent where
  | tick (nanos : Nat)
  | create (lookups : Lookups) (userID : Nat) (input : CreateSubscriptionInput)
  | update (lookups : Lookups) (userID id : Nat) (input : UpdateSubscriptionInput)
    (elapsed : Elapsed) (updatedBefore : Time)
  | markManualRenewed (userID id : Nat) (elapsed : Elapsed) (updatedBefore : Time)
  | reconcileDueLifecycles
  | reconcileUserLifecycle (userID : Nat)
  | importFromSubdux (lookups : ImportLookups) (userID : Nat) (data : List (Subscription × Nat))

/-- `pkg.NowInSystemTimezone()`. -/
def nowInSystemTimezone (loc : Location) (clock : Int) : Time := Time.inLoc ⟨clock, 0⟩ loc

def Elapsed.readings (elapsed : Elapsed) (loc : Location) (clock : Int) (updatedBefore : Time) :
    Readings where
  reconcile := nowInSystemTimezone loc (clock + elapsed.reconcile)
  read := nowInSystemTimezone loc (clock + elapsed.reconcile + elapsed.read)
  lifecycle := nowInSystemTimezone loc (clock + elapsed.reconcile + elapsed.read + elapsed.lifecycle)
  updatedBefore := updatedBefore
  updatedAfter :=
    nowInSystemTimezone loc
      (clock + elapsed.reconcile + elapsed.read + elapsed.lifecycle + elapsed.commit)

def Elapsed.after (elapsed : Elapsed) (clock : Int) : Int :=
  clock + elapsed.reconcile + elapsed.read + elapsed.lifecycle + elapsed.commit

/-- The rows of a file with the clock where the loop reaches each, and the clock
after the last. -/
def importRows (loc : Location) (clock : Int) : List (Subscription × Nat) → List ImportRow × Int
  | [] => ([], clock)
  | (incoming, elapsed) :: data =>
    let (rows, after) := importRows loc (clock + elapsed) data
    (⟨incoming, ⟨clock + elapsed, 0⟩, nowInSystemTimezone loc (clock + elapsed)⟩ :: rows, after)

def StoreSystem.step (loc : Location) (s : StoreSystem) : StoreEvent → Option StoreSystem
  | .tick nanos => some { s with clock := s.clock + nanos }
  | .create lookups userID input =>
    some { s with table := (create lookups userID input (nowInSystemTimezone loc s.clock) s.table).2 }
  | .update lookups userID id input elapsed updatedBefore =>
    let readings := elapsed.readings loc s.clock updatedBefore
    some ⟨elapsed.after s.clock,
      { s.table with rows := (update lookups userID id input readings s.table.rows).2 }⟩
  | .markManualRenewed userID id elapsed updatedBefore =>
    let readings := elapsed.readings loc s.clock updatedBefore
    some ⟨elapsed.after s.clock,
      { s.table with rows := (markManualRenewed userID id readings s.table.rows).2 }⟩
  | .reconcileDueLifecycles =>
    let rows := reconcileDueLifecycles (nowInSystemTimezone loc s.clock) s.table.rows
    some { s with table := { s.table with rows := rows } }
  | .reconcileUserLifecycle userID =>
    let rows :=
      reconcileSubscriptionLifecycleForUser userID (nowInSystemTimezone loc s.clock) s.table.rows
    some { s with table := { s.table with rows := rows } }
  | .importFromSubdux lookups userID data =>
    let (rows, after) := importRows loc s.clock data
    some ⟨after, (importFromSubdux lookups userID rows s.table).table⟩

/-- No update computes its lifecycle columns for a date that is not stored. -/
def UpdatesKept (loc : Location) (s : StoreSystem) : StoreEvent → Prop
  | .update _ userID id input elapsed updatedBefore =>
    let readings := elapsed.readings loc s.clock updatedBefore
    ∀ row ∈ findSubscription userID id
      (reconcileSubscriptionForWrite userID id readings.reconcile s.table.rows),
      BoundaryKept input row readings.read
  | _ => True

theorem StoreSystem.step_ok {loc : Location} {s t : StoreSystem} {e : StoreEvent} (h : TableOK s.table)
    (hkept : UpdatesKept loc s e) (hstep : s.step loc e = some t) : TableOK t.table := by
  cases e with
  | tick nanos => cases hstep; exact h
  | create lookups userID input => cases hstep; exact h.create lookups userID input _
  | update lookups userID id input elapsed updatedBefore => cases hstep; exact RowsOK.updateCall h hkept
  | markManualRenewed userID id elapsed updatedBefore => cases hstep; exact RowsOK.markManualRenewed h
  | reconcileDueLifecycles => cases hstep; exact RowsOK.reconcileDue h _
  | reconcileUserLifecycle userID => cases hstep; exact RowsOK.reconcileForUser h userID _
  | importFromSubdux lookups userID data => cases hstep; exact h.importFromSubdux lookups userID _

/-- From an empty table, every stored row is well formed as long as no update of an
automatically renewed row cancels it just when a renewal becomes due. -/
theorem stored_wellFormed {loc : Location} {s t : StoreSystem} (hs : s.table.rows = [])
    (hpath : Path (StoreSystem.step loc) (UpdatesKept loc) s t) :
    ∀ row ∈ t.table.rows, row.WellFormed := by
  have hempty : TableOK s.table := ⟨by simp [hs], by simp [hs], by simp [hs]⟩
  exact (hpath.invariant (fun s => TableOK s.table)
    (fun _ _ _ h hkept hstep => StoreSystem.step_ok h hkept hstep)
    hempty).wellFormed

/-! ## At midnight -/

def sampleLookups : Lookups := ⟨fun _ => none, fun _ => false, fun _ => false⟩

/-- A row that renews every month, next on 10 January 2025. -/
def sampleCreate : CreateSubscriptionInput where
  name := "Rent"
  amount := 900
  currency := "USD"
  status := ""
  renewalMode := ""
  endsAt := ""
  billingType := ""
  recurrenceType := ""
  intervalCount := some 1
  intervalUnit := "month"
  nextBillingDate := "2025-01-10"
  monthlyDay := none
  yearlyMonth := none
  yearlyDay := none
  category := ""
  categoryID := none
  paymentMethodID := none
  notifyEnabled := none
  notifyDaysBefore := none
  icon := ""
  url := ""
  notes := ""

/-- One second before the end of 10 January. -/
def sampleStore : StoreSystem := ⟨(dateUTC 2025 1 11).nanos - nsPerSecond, ⟨[], 1⟩⟩

def sampleCancel (elapsed : Elapsed) : StoreEvent :=
  .update sampleLookups 1 1 { renewalMode := some renewalModeCancelAtPeriodEnd } elapsed
    (dateUTC 2025 1 10)

instance (input : UpdateSubscriptionInput) (stored : Subscription) (read : Time) :
    Decidable (BoundaryKept input stored read) :=
  inferInstanceAs (Decidable (_ ∨ _))

instance (loc : Location) (s : StoreSystem) : (e : StoreEvent) → Decidable (UpdatesKept loc s e)
  | .update .. => inferInstanceAs (Decidable (∀ row ∈ findSubscription _ _ _, BoundaryKept _ row _))
  | .tick _ | .create .. | .markManualRenewed .. | .reconcileDueLifecycles | .reconcileUserLifecycle _
  | .importFromSubdux .. => .isTrue trivial

instance (s : StoreSystem) (e : StoreEvent) : Decidable (Always s e) := inferInstanceAs (Decidable True)

/-- The row is loaded after midnight: its `ends_at` is a month after the date that
stays stored. -/
theorem stored_not_wellFormed :
    ¬ ∀ (loc : Location) (s t : StoreSystem), s.table.rows = [] →
    Path (StoreSystem.step loc) Always s t →
      ∀ row ∈ t.table.rows, row.WellFormed := by
  intro h
  obtain ⟨t, ht, row, hrow, hcancel, hends⟩ : ∃ t,
      exec (StoreSystem.step (Location.fixed 0)) Always sampleStore
      [.create sampleLookups 1 sampleCreate, sampleCancel ⟨0, 1000000000, 0, 0⟩] = some t ∧
      ∃ row ∈ t.table.rows,
        (row.status = subscriptionStatusActive ∧ row.renewalMode = renewalModeCancelAtPeriodEnd) ∧
        row.endsAt ≠ row.nextBillingDate := ⟨_, rfl, by decide +kernel⟩
  exact hends ((h _ _ t rfl (Path.of_exec ht) row hrow).lifecycle.ends hcancel.1 hcancel.2)

/-- The same update a second earlier. -/
def sampleEarlier : List StoreEvent :=
  [.create sampleLookups 1 sampleCreate, sampleCancel ⟨0, 0, 0, 0⟩, .tick 1000000000,
   .reconcileDueLifecycles]

theorem stored_wellFormed_sample :
    ∃ t, exec (StoreSystem.step (Location.fixed 0))
    (UpdatesKept (Location.fixed 0)) sampleStore sampleEarlier = some t ∧
      t.table.rows.map (·.status) = [subscriptionStatusEnded] ∧ ∀ row ∈ t.table.rows,
        row.WellFormed := by
  have hrun : (exec (StoreSystem.step (Location.fixed 0))
      (UpdatesKept (Location.fixed 0)) sampleStore sampleEarlier).map
      (fun t => t.table.rows.map (·.status)) = some [subscriptionStatusEnded] := by
    decide +kernel
  obtain ⟨t, ht, hended⟩ := Option.map_eq_some_iff.1 hrun
  exact ⟨t, ht, hended, stored_wellFormed rfl (Path.of_exec ht)⟩

end Subdux
