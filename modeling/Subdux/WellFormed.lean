import Subdux.Import
import Subdux.Lib.Results
import Subdux.Lib.Runs
/-!
# Stored subscriptions

What the writers keep of a row: its schedule is normalized (`BillingDraft.Normalized`)
and its lifecycle columns agree with its next billing date (`LifecycleDraft.OK`).
Each writer computes the two parts separately, and they are put together where the
row is written. An `Update` that writes only the lifecycle columns computes them for
the next billing date it was shown, which need not be the stored one.
-/

namespace Subdux
open GoStrings Results Rows Runs

/-! ## Well formed rows -/

/-- The lifecycle columns of a row. -/
def Subscription.lifecycle (sub : Subscription) : LifecycleDraft :=
  ⟨sub.status, sub.renewalMode, sub.endsAt⟩

/-- Lifecycle columns that agree with a next billing date. -/
structure LifecycleDraft.OK (lifecycle : LifecycleDraft) (nextBillingDate : Option Time) : Prop where
  status : isValidSubscriptionStatus lifecycle.status = true
  renewalMode : isValidRenewalMode lifecycle.renewalMode = true
  renews : lifecycle.status = subscriptionStatusActive →
    lifecycle.renewalMode ≠ renewalModeCancelAtPeriodEnd →
    lifecycle.endsAt = none
  ends : lifecycle.status = subscriptionStatusActive →
    lifecycle.renewalMode = renewalModeCancelAtPeriodEnd →
    lifecycle.endsAt = nextBillingDate
  ended : lifecycle.status = subscriptionStatusEnded → lifecycle.endsAt ≠ none

/-- A row as every reader expects it. -/
structure Subscription.WellFormed (sub : Subscription) : Prop where
  schedule : ∃ date, sub.billing.Normalized date
  lifecycle : sub.lifecycle.OK sub.nextBillingDate

section Rows
variable {sub : Subscription} {t : Time}

theorem Subscription.WellFormed.nextBillingDate (h : sub.WellFormed) :
    ∃ n, sub.nextBillingDate = some (midnight n) := by
  obtain ⟨date, hdate⟩ := h.schedule
  obtain ⟨n, rfl⟩ := hdate.exists_midnight
  exact ⟨n, hdate.nextBillingDate⟩

theorem Subscription.WellFormed.billingType (h : sub.WellFormed) :
    sub.billingType = billingTypeRecurring := by
  obtain ⟨date, hdate⟩ := h.schedule
  exact hdate.billingType

/-- The lifecycle columns that a request asks for, once they are normalized. -/
theorem normalizeLifecycleDraft_ok {draft lifecycle : LifecycleDraft} {n : Int} {now : Time}
    (h : normalizeLifecycleDraft draft (some (midnight n)) now = .ok lifecycle) :
    lifecycle.OK (some (midnight n)) ∧ lifecycle.status = orDefault subscriptionStatusActive
    (normalizeStatus draft.status) ∧
      (lifecycle.status = subscriptionStatusActive →
        lifecycle.renewalMode = orDefault renewalModeAutoRenew
          (normalizeRenewalMode draft.renewalMode)) := by
  unfold normalizeLifecycleDraft at h
  dsimp only at h
  generalize orDefault subscriptionStatusActive (normalizeStatus draft.status) = status at h ⊢
  generalize normalizeRenewalMode draft.renewalMode = mode at h ⊢
  simp only [normalizeDateUTC_eq, midnight_day] at h
  by_cases hended : status = subscriptionStatusEnded
  · have hne : status ≠ subscriptionStatusActive := by rw [hended]; exact active_ne_ended.symm
    simp only [if_pos hended] at h
    split at h
    · cases h
    rename_i hstatus
    split at h
    · cases h
    rename_i hmode
    simp only [Bool.not_eq_true', Bool.not_eq_false] at hstatus hmode
    split at h <;> cases h <;>
      exact ⟨⟨hstatus, hmode, fun h => absurd h hne, fun h => absurd h hne, fun _ => by simp⟩, rfl,
        fun h => absurd h hne⟩
  · simp only [if_neg hended] at h
    split at h
    · cases h
    rename_i hstatus
    split at h
    · cases h
    rename_i hmode
    simp only [Bool.not_eq_true', Bool.not_eq_false] at hstatus hmode
    split at h <;> cases h
    · rename_i hcancel
      exact ⟨⟨hstatus, hmode, fun _ h => absurd hcancel h, fun _ _ => rfl, fun h =>
        absurd h hended⟩, rfl, fun _ => rfl⟩
    · rename_i hcancel
      exact ⟨⟨hstatus, hmode, fun _ _ => rfl, fun _ h => absurd h hcancel, fun h =>
        absurd h hended⟩, rfl, fun _ => rfl⟩

/-- Storing the end date does not change it. -/
theorem LifecycleDraft.OK.copy {lifecycle : LifecycleDraft} {n : Int}
    (h : lifecycle.OK (some (midnight n))) :
    LifecycleDraft.OK { lifecycle with endsAt := copyTimePointer lifecycle.endsAt }
    (some (midnight n)) where
  status := h.status
  renewalMode := h.renewalMode
  renews := fun hs hm => by simp [copyTimePointer, h.renews hs hm]
  ends := fun hs hm => by simp [copyTimePointer, h.ends hs hm]
  ended := fun hs => by simpa [copyTimePointer] using h.ended hs

/-- A transition keeps a row well formed. -/
theorem Subscription.WellFormed.advance (h : sub.WellFormed) (t : Time) :
    (advanceSubscriptionLifecycle sub t).1.WellFormed := by
  obtain ⟨date, hdate⟩ := h.schedule
  rcases advance_cases sub t with he | ⟨hm, n, he⟩ | ⟨-, n, he⟩
  · rwa [he]
  · have hmode : sub.renewalMode = renewalModeAutoRenew :=
      (normalizeRenewalMode_valid h.lifecycle.renewalMode).symm.trans hm
    have hne : sub.renewalMode ≠ renewalModeCancelAtPeriodEnd := hmode ▸ autoRenew_ne_cancel
    rw [he]
    refine ⟨⟨midnight n, hdate.billingType, hdate.fields.setDate _, rfl, by simp⟩, ?_⟩
    exact ⟨isValid_active, h.lifecycle.renewalMode, fun _ _ => rfl, fun _ hcancel => absurd hcancel hne,
      fun hs => absurd hs active_ne_ended⟩
  · rw [he]
    refine ⟨⟨date, hdate.billingType, hdate.fields, hdate.nextBillingDate, hdate.isMidnight⟩, ?_⟩
    exact ⟨isValid_ended, h.lifecycle.renewalMode, fun hs => absurd hs active_ne_ended.symm,
      fun hs => absurd hs active_ne_ended.symm,
        fun _ => by simp [Subscription.lifecycle, markSubscriptionEndedAt]⟩

end Rows

/-! ## The table -/

/-- Rows with unique ids below `bound`, each well formed. -/
structure RowsOK (bound : Nat) (rows : List Subscription) : Prop where
  ids : (rows.map (·.id)).Nodup
  fresh : ∀ row ∈ rows, row.id < bound
  wellFormed : ∀ row ∈ rows, row.WellFormed

section Statements
variable {bound : Nat} {rows : List Subscription} {userID id : Nat}

theorem isRow_id {row : Subscription} (h : isRow userID id row = true) : row.id = id := by
  simp only [isRow, Bool.and_eq_true, decide_eq_true_eq] at h
  exact h.1

/-- An update that keeps the rows it selects well formed. -/
theorem RowsOK.update (h : RowsOK bound rows) {p : Subscription → Bool}
    {set : Subscription → Subscription} (hid : ∀ row, (set row).id = row.id)
    (hset : ∀ row ∈ rows, p row = true → (set row).WellFormed) :
    RowsOK bound (updateWhere p set rows) where
  ids := (map_updateWhere Subscription.id hid).symm ▸ h.ids
  fresh := by
    intro row hrow
    rcases mem_updateWhere_cases hrow with ⟨hr, -⟩ | ⟨r, hr, -, rfl⟩
    · exact h.fresh row hr
    · rw [hid]
      exact h.fresh r hr
  wellFormed := by
    intro row hrow
    rcases mem_updateWhere_cases hrow with ⟨hr, -⟩ | ⟨r, hr, hp, rfl⟩
    · exact h.wellFormed row hr
    · exact hset r hr hp

theorem findSubscription_mem {sub : Subscription} (h : findSubscription userID id rows = some sub) :
    sub ∈ rows ∧ isRow userID id sub = true := by
  have hp := List.find?_some h
  exact ⟨List.mem_of_find?_eq_some h, by simpa [isRow] using hp⟩

/-- A transition of a row as it is stored; the other rows stay. -/
theorem RowsOK.persist (h : RowsOK bound rows) {sub : Subscription} (hsub : sub ∈ rows)
    (userID : Nat) (t : Time) :
    RowsOK bound (persistAdvancedSubscriptionLifecycle userID sub t rows) ∧
      ∀ row ∈ rows, row.id ≠ sub.id → row ∈ persistAdvancedSubscriptionLifecycle userID sub t rows := by
  unfold persistAdvancedSubscriptionLifecycle
  dsimp only
  split
  · exact ⟨h, fun row hrow _ => hrow⟩
  · rw [advance_id]
    refine ⟨h.update (lifecycleWrite_id _) fun row hrow hp => ?_, fun row hrow hne =>
      mem_updateWhere_of_not hrow (by simp [hne])⟩
    have hid : row.id = sub.id := by simp only [Bool.and_eq_true, decide_eq_true_eq] at hp; exact hp.1
    obtain rfl := eq_of_key h.ids hrow hsub hid
    rw [lifecycleWrite_self]
    exact (h.wellFormed row hrow).advance t

/-- The loop of a sweep: the rows still to come are stored as they were read. -/
theorem RowsOK.persistAll {subs : List Subscription} (h : RowsOK bound rows)
    (hsubs : ∀ sub ∈ subs, sub ∈ rows) (hids : (subs.map (·.id)).Nodup) (userID : Nat) (t : Time) :
    RowsOK bound (subs.foldl
      (fun rows sub => persistAdvancedSubscriptionLifecycle userID sub t rows) rows) := by
  induction subs generalizing rows with
  | nil => exact h
  | cons sub subs ih =>
    simp only [List.map_cons, List.nodup_cons] at hids
    obtain ⟨hok, hothers⟩ := h.persist (hsubs sub List.mem_cons_self) userID t
    rw [List.foldl_cons]
    refine ih hok (fun other hother => ?_) hids.2
    refine hothers other (hsubs other (List.mem_cons_of_mem _ hother)) fun he => hids.1 ?_
    exact List.mem_map.2 ⟨other, hother, he⟩

theorem RowsOK.reconcileForUser (h : RowsOK bound rows) (userID : Nat) (t : Time) :
    RowsOK bound (reconcileSubscriptionLifecycleForUser userID t rows) := by
  unfold reconcileSubscriptionLifecycleForUser
  exact h.persistAll (fun _ hsub => List.mem_of_mem_filter hsub)
    (h.ids.sublist (List.filter_sublist.map _)) userID t

theorem RowsOK.reconcileDue (h : RowsOK bound rows) (now : Time) :
    RowsOK bound (reconcileDueLifecycles now rows) :=
  List.foldlRecOn _ _ h fun _ h userID _ => h.reconcileForUser userID now

theorem RowsOK.reconcileForWrite (h : RowsOK bound rows) (userID id : Nat) (t : Time) :
    RowsOK bound (reconcileSubscriptionForWrite userID id t rows) := by
  unfold reconcileSubscriptionForWrite
  split
  · exact h
  · rename_i hfind
    exact (h.persist (findSubscription_mem hfind).1 userID t).1

/-- The transaction that ends a write. -/
theorem RowsOK.commit (h : RowsOK bound rows) {set : Subscription → Subscription}
    (hid : ∀ row, (set row).id = row.id) {sub : Subscription} (hsub : sub ∈ rows)
    (hrow : isRow userID id sub = true) (hset : (set sub).WellFormed) (updatedAt : Time) :
    RowsOK bound (commitUpdates userID id set updatedAt rows).2 := by
  have hok : RowsOK bound (updateWhere (isRow userID id) set rows) := h.update hid fun row hr hp => by
    obtain rfl := eq_of_key h.ids hr hsub ((isRow_id hp).trans (isRow_id hrow).symm)
    exact hset
  unfold commitUpdates updateSubscription
  split
  · exact h
  · rename_i hupdated
    split at hupdated <;> cases hupdated
    split <;> exact hok

end Statements

/-! ## What a request computes -/

/-- The request turns an active row into one that is cancelled at its period's end. -/
def UpdateSubscriptionInput.asksToCancel (input : UpdateSubscriptionInput) : Bool :=
  (input.renewalMode.any fun mode => normalizeRenewalMode mode = renewalModeCancelAtPeriodEnd) &&
    input.status.all fun status =>
      normalizeStatus status = "" || normalizeStatus status = subscriptionStatusActive

section Requests
variable {sub : Subscription} {updatedAt t : Time}

theorem normalizeSubscriptionForResponse_valid (h : sub.WellFormed) (updatedAt : Time) :
    normalizeSubscriptionForResponse sub updatedAt = syncLegacyEnabledForLifecycle sub := by
  have hstatus : isValidSubscriptionStatus (normalizeStatus sub.status) = true :=
    (congrArg _ (normalizeStatus_valid h.lifecycle.status)).trans h.lifecycle.status
  have hmode : isValidRenewalMode (normalizeRenewalMode sub.renewalMode) = true :=
    (congrArg _ (normalizeRenewalMode_valid h.lifecycle.renewalMode)).trans h.lifecycle.renewalMode
  simp [normalizeSubscriptionForResponse, hstatus, hmode]

theorem Subscription.WellFormed.setEnabled (h : sub.WellFormed) (enabled : Bool) :
    { sub with enabled := enabled }.WellFormed :=
  ⟨h.schedule, h.lifecycle⟩

theorem Subscription.WellFormed.sync (h : sub.WellFormed) :
    (syncLegacyEnabledForLifecycle sub).WellFormed :=
  h.setEnabled (subscriptionIsActive sub)

theorem Subscription.WellFormed.present (h : sub.WellFormed) (updatedAt t : Time) :
    (presentSubscriptionForResponse sub updatedAt t).WellFormed := by
  rw [presentSubscriptionForResponse, normalizeSubscriptionForResponse_valid (h.advance t)]
  exact (h.advance t).sync

theorem optionalColumn_ok {α : Type} {isSet : Bool} {column : Except String α} {value : Option α}
    (h : optionalColumn isSet column = .ok value) :
    (isSet = false ∧ value = none) ∨ (isSet = true ∧ ∃ a, column = .ok a ∧ value = some a) := by
  unfold optionalColumn at h
  split at h
  · rename_i hset
    obtain ⟨a, ha, rfl⟩ := map_eq_ok h
    exact .inr ⟨hset, a, ha, rfl⟩
  · rename_i hset
    cases h
    exact .inl ⟨by simpa using hset, rfl⟩

theorem scheduleUpdate_ok {input : UpdateSubscriptionInput} {draft : BillingDraft}
    (h : scheduleUpdate input sub = .ok draft) :
    ∃ date, draft.Normalized date := by
  obtain ⟨stored, -, h⟩ := bind_eq_ok h
  obtain ⟨⟨normalized, date⟩, hdraft, h⟩ := bind_eq_ok h
  cases h
  have hnormalized := normalizeBillingDraft_ok hdraft
  exact ⟨date, hnormalized.copy ▸ hnormalized⟩

/-- The lifecycle columns of an update agree with the date they were computed for.
If they come to cancel a row that renews, the request asked for it. -/
theorem lifecycleUpdate_ok {input : UpdateSubscriptionInput} {schedule : Option BillingDraft}
    {lifecycle : LifecycleDraft} {n : Int}
    (hdate : (schedule.elim sub.nextBillingDate (·.nextBillingDate)) = some (midnight n))
    (h : lifecycleUpdate input sub schedule t = .ok lifecycle) :
    lifecycle.OK (some (midnight n)) ∧
      (sub.status = subscriptionStatusActive → sub.renewalMode = renewalModeAutoRenew →
        lifecycle.status = subscriptionStatusActive →
          lifecycle.renewalMode = renewalModeCancelAtPeriodEnd →
        input.asksToCancel = true) := by
  unfold lifecycleUpdate at h
  obtain ⟨endsAt, -, h⟩ := bind_eq_ok h
  rw [hdate] at h
  obtain ⟨normalized, hnormalized, h⟩ := bind_eq_ok h
  cases h
  obtain ⟨hok, hstatus, hmode⟩ := normalizeLifecycleDraft_ok hnormalized
  refine ⟨hok.copy, fun hsub hauto hactive hcancel => ?_⟩
  have hmode : normalizeRenewalMode
      (input.renewalMode.getD sub.renewalMode) = renewalModeCancelAtPeriodEnd :=
    (orDefault_cases ((hmode hactive).symm.trans hcancel)).resolve_left fun h => absurd h.2 (by decide)
  have hstatus := orDefault_cases (hstatus.symm.trans hactive)
  simp only [UpdateSubscriptionInput.asksToCancel, Bool.and_eq_true]
  constructor
  · cases hinput : input.renewalMode with
    | some mode => simpa [hinput] using hmode
    | none =>
      -- The stored mode is not the one to cancel.
      rw [hinput, Option.getD_none, hauto, normalizeRenewalMode_valid (by decide)] at hmode
      exact absurd hmode (by decide)
  · cases hinput : input.status with
    | none => rfl
    | some status =>
      rw [hinput] at hstatus
      rcases hstatus with ⟨hempty, -⟩ | hactive
      · simpa using .inl hempty
      · simpa using .inr hactive

theorem subscriptionUpdates_ok {lookups : Lookups} {input : UpdateSubscriptionInput}
    {updates : SubscriptionUpdates} (h : subscriptionUpdates lookups input sub t = .ok updates) :
    ((input.hasScheduleUpdate = false ∧ updates.schedule = none) ∨
        (input.hasScheduleUpdate = true ∧ ∃ draft, scheduleUpdate input sub = .ok draft ∧
          updates.schedule = some draft)) ∧
      ((input.hasLifecycleUpdate = false ∧ updates.lifecycle = none) ∨
        (input.hasLifecycleUpdate = true ∧
          ∃ lifecycle, lifecycleUpdate input sub updates.schedule t = .ok lifecycle ∧
            updates.lifecycle = some lifecycle)) := by
  unfold subscriptionUpdates at h
  obtain ⟨categoryID, -, h⟩ := bind_eq_ok h
  obtain ⟨paymentMethodID, -, h⟩ := bind_eq_ok h
  obtain ⟨url, -, h⟩ := bind_eq_ok h
  obtain ⟨notifyDaysBefore, -, h⟩ := bind_eq_ok h
  obtain ⟨schedule, hschedule, h⟩ := bind_eq_ok h
  obtain ⟨lifecycle, hlifecycle, h⟩ := bind_eq_ok h
  cases h
  exact ⟨optionalColumn_ok hschedule, optionalColumn_ok hlifecycle⟩

/-- The row that a write works on has the stored next billing date, unless it was
renewed while it was read. -/
theorem present_nextBillingDate (h : sub.WellFormed) (updatedAt t : Time) :
    (presentSubscriptionForResponse sub updatedAt t).nextBillingDate = sub.nextBillingDate ∨
      (sub.renewalMode = renewalModeAutoRenew ∧ (advanceSubscriptionLifecycle sub t).2 = true ∧
        (presentSubscriptionForResponse sub updatedAt t).status = subscriptionStatusActive ∧
        (presentSubscriptionForResponse sub updatedAt t).renewalMode = renewalModeAutoRenew) := by
  rw [presentSubscriptionForResponse, normalizeSubscriptionForResponse_valid (h.advance t)]
  rcases advance_cases sub t with he | ⟨hm, n, he⟩ | ⟨-, n, he⟩
  · simp [he, syncLegacyEnabledForLifecycle]
  · have hmode : sub.renewalMode = renewalModeAutoRenew :=
      (normalizeRenewalMode_valid h.lifecycle.renewalMode).symm.trans hm
    simp [he, hmode, syncLegacyEnabledForLifecycle, renewedAt]
  · simp [he, syncLegacyEnabledForLifecycle, markSubscriptionEndedAt]

/-- What a write computes is for the stored next billing date: the request sends a
schedule, does not cancel a row that renews, or nothing became due by the second
reading of the clock. -/
def BoundaryKept (input : UpdateSubscriptionInput) (stored : Subscription) (read : Time) : Prop :=
  input.hasScheduleUpdate = true ∨ input.asksToCancel = false ∨
    stored.renewalMode ≠ renewalModeAutoRenew ∨
    (advanceSubscriptionLifecycle stored read).2 = false

theorem Subscription.WellFormed.setDetails (h : sub.WellFormed) (updates : SubscriptionUpdates) :
    (updates.setDetails sub).WellFormed :=
  ⟨h.schedule, h.lifecycle⟩

theorem Subscription.WellFormed.setLifecycle (h : sub.WellFormed) {lifecycle : LifecycleDraft}
    (hlifecycle : lifecycle.OK sub.nextBillingDate) : (sub.setLifecycle (some lifecycle)).WellFormed :=
  ⟨h.schedule, hlifecycle⟩

/-- Columns that agree with one date agree with another, unless they cancel. -/
theorem LifecycleDraft.OK.of_not_cancel {lifecycle : LifecycleDraft} {date date' : Option Time}
    (h : lifecycle.OK date)
    (hnot : lifecycle.status = subscriptionStatusActive →
      lifecycle.renewalMode ≠ renewalModeCancelAtPeriodEnd) :
    lifecycle.OK date' where
  status := h.status
  renewalMode := h.renewalMode
  renews := h.renews
  ends := fun hs hm => absurd hm (hnot hs)
  ended := h.ended

/-- An update keeps the stored row well formed. -/
theorem Subscription.WellFormed.applyUpdates (h : sub.WellFormed) {lookups : Lookups}
    {input : UpdateSubscriptionInput} {updates : SubscriptionUpdates} {read now : Time}
    (hupdates : subscriptionUpdates lookups input
      (presentSubscriptionForResponse sub updatedAt read) now = .ok updates)
    (hkept : BoundaryKept input sub read) : (updates.apply sub).WellFormed := by
  have hdetails := h.setDetails updates
  obtain ⟨hschedule, hlifecycle⟩ := subscriptionUpdates_ok hupdates
  unfold SubscriptionUpdates.apply
  rcases hschedule with ⟨hnone, hschedule⟩ | ⟨hset, draft, hdraft, hschedule⟩
  · rw [hschedule] at hlifecycle ⊢
    rcases hlifecycle with ⟨-, hlifecycle⟩ | ⟨-, lifecycle, hlifecycle, hwritten⟩
    · rw [hlifecycle]
      exact hdetails
    · rw [hwritten]
      refine hdetails.setLifecycle ?_
      obtain ⟨n, hdate⟩ := (h.present updatedAt read).nextBillingDate
      obtain ⟨hok, hasks⟩ := lifecycleUpdate_ok (by simpa using hdate) hlifecycle
      rw [← hdate] at hok
      rcases present_nextBillingDate h updatedAt read with hsame | ⟨hmode, hdue, hactive, hauto⟩
      · rw [hsame] at hok
        exact hok
      · -- The row was renewed while it was read.
        refine hok.of_not_cancel fun hs hm => ?_
        have hasks := hasks hactive hauto hs hm
        rcases hkept with hset | hnot | hne | hnot
        · simp [hnone] at hset
        · simp [hasks] at hnot
        · exact hne hmode
        · simp [hdue] at hnot
  · obtain ⟨date, hnormalized⟩ := scheduleUpdate_ok hdraft
    obtain ⟨n, rfl⟩ := hnormalized.exists_midnight
    have hdate := hnormalized.nextBillingDate
    rw [hschedule] at hlifecycle ⊢
    rcases hlifecycle with ⟨hnot, -⟩ | ⟨-, lifecycle, hlifecycle, hwritten⟩
    · simp [UpdateSubscriptionInput.hasLifecycleUpdate, hset] at hnot
    · obtain ⟨hok, -⟩ := lifecycleUpdate_ok (by simpa using hdate) hlifecycle
      rw [hwritten]
      refine ⟨⟨_, hnormalized⟩, ?_⟩
      rw [← hdate] at hok
      exact hok

theorem manualRenewal_midnight {date : Time} (h : manualRenewal sub = .ok date) :
    ∃ n, date = midnight n := by
  unfold manualRenewal at h
  repeat' split at h
  all_goals cases h
  exact ⟨_, normalizeDateUTC_eq _⟩

theorem Subscription.WellFormed.manualRenewed (h : sub.WellFormed) (n : Int) :
    (manualRenewed (midnight n) sub).WellFormed := by
  obtain ⟨date, hdate⟩ := h.schedule
  refine ⟨⟨midnight n, hdate.billingType, hdate.fields.setDate _, rfl, by simp⟩, ?_⟩
  exact ⟨isValid_active, isValid_manualRenew, fun _ _ => rfl, fun _ hcancel =>
    absurd hcancel manualRenew_ne_cancel,
    fun hs => absurd hs active_ne_ended⟩

/-- A row that is put together from a normalized schedule and normalized lifecycle
columns. -/
theorem Subscription.WellFormed.of_parts {draft : BillingDraft} {date : Time}
    (hdraft : draft.Normalized date) (hbilling : sub.billing = draft) {lifecycle : LifecycleDraft}
    (hlifecycle : lifecycle.OK (some date))
    (hcolumns : sub.lifecycle = { lifecycle with endsAt := copyTimePointer lifecycle.endsAt }) :
    sub.WellFormed := by
  have hdate : sub.nextBillingDate = some date := by
    have := congrArg BillingDraft.nextBillingDate hbilling
    exact this.trans hdraft.nextBillingDate
  refine ⟨⟨date, hbilling ▸ hdraft⟩, ?_⟩
  rw [hcolumns, hdate]
  obtain ⟨n, rfl⟩ := hdraft.exists_midnight
  exact hlifecycle.copy

theorem newSubscription_ok {lookups : Lookups} {userID : Nat} {input : CreateSubscriptionInput}
    {now : Time} (h : newSubscription lookups userID input now = .ok sub) : sub.WellFormed := by
  unfold newSubscription at h
  obtain ⟨subscriptionURL, -, h⟩ := bind_eq_ok h
  obtain ⟨nextBillingDate, -, h⟩ := bind_eq_ok h
  obtain ⟨endsAt, -, h⟩ := bind_eq_ok h
  obtain ⟨⟨draft, date⟩, hdraft, h⟩ := bind_eq_ok h
  replace hdraft := normalizeBillingDraft_ok hdraft
  obtain ⟨lifecycle, hlifecycle, h⟩ := bind_eq_ok h
  obtain ⟨n, rfl⟩ := hdraft.exists_midnight
  replace hlifecycle := (normalizeLifecycleDraft_ok hlifecycle).1
  obtain ⟨categoryID, -, h⟩ := bind_eq_ok h
  obtain ⟨paymentMethodID, -, h⟩ := bind_eq_ok h
  obtain ⟨notifyDaysBefore, -, h⟩ := bind_eq_ok h
  cases h
  refine .sync (.of_parts hdraft ?_ hlifecycle ?_)
  · exact hdraft.copy
  · rfl

end Requests

end Subdux
