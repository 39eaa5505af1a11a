import Mathlib.Data.List.Dedup
import Subdux.Lib.Rows
import Subdux.Rollover
/-!
# Lifecycle progression

`internal/service/subscription_lifecycle.go`: the transition that a row is due as
of a date (`advanceSubscriptionLifecycle`), and the normalization of the lifecycle
columns that a write sends. `advance_autoRenew`, `advance_ends` and
`advance_inactive` say what the transition does, and the rest of the development
uses those.
-/

namespace Subdux
open Rows

/-! ## The code -/

structure LifecycleDraft where
  status : String
  renewalMode : String
  endsAt : Option Time
  deriving DecidableEq

def normalizeLifecycleDraft (draft : LifecycleDraft) (nextBillingDate : Option Time) (now : Time) :
    Except String LifecycleDraft :=
  let status := orDefault subscriptionStatusActive (normalizeStatus draft.status)
  if !isValidSubscriptionStatus status then .error "status must be one of: active, ended"
  else
    let renewalMode := orDefault
      (if status = subscriptionStatusEnded then renewalModeCancelAtPeriodEnd else renewalModeAutoRenew)
      (normalizeRenewalMode draft.renewalMode)
    if !isValidRenewalMode renewalMode then
      .error "renewal_mode must be one of: auto_renew, manual_renew, cancel_at_period_end"
    else
      let endsAt := draft.endsAt.map normalizeDateUTC
      if status = subscriptionStatusEnded then
        match endsAt with
        | some endsAt => .ok ⟨status, renewalMode, some endsAt⟩
        | none =>
          match nextBillingDate with
          | some date => .ok ⟨status, renewalMode, some (normalizeDateUTC date)⟩
          | none => .ok ⟨status, renewalMode, some (normalizeDateUTC now)⟩
      else if renewalMode = renewalModeCancelAtPeriodEnd then
        match nextBillingDate with
        | none => .error "next_billing_date is required for cancel_at_period_end subscriptions"
        | some date => .ok ⟨status, renewalMode, some (normalizeDateUTC date)⟩
      else .ok ⟨status, renewalMode, none⟩

def markSubscriptionEndedAt (sub : Subscription) (endedAt : Time) : Subscription :=
  { sub with status := subscriptionStatusEnded, endsAt := some endedAt, enabled := false }

/-- The row after the transition it is due as of `referenceDate`, and whether
there was one. -/
def advanceSubscriptionLifecycle (sub : Subscription) (referenceDate : Time) : Subscription × Bool :=
  if !subscriptionIsActive sub ∨ sub.billingType ≠ billingTypeRecurring then (sub, false)
  else
    let today := normalizeDateUTC referenceDate
    let mode := normalizeRenewalMode sub.renewalMode
    if mode = renewalModeAutoRenew then
      match nextRecurringBillingDateOnOrAfter sub today with
      | none => (sub, false)
      | some next =>
        ({ sub with
          nextBillingDate := some next, endsAt := none, status := subscriptionStatusActive,
          enabled := true }, true)
    else if mode = renewalModeManualRenew then
      match sub.nextBillingDate with
      | none => (sub, false)
      | some date =>
        let endedAt := normalizeDateUTC date
        if !endedAt.before today then (sub, false) else (markSubscriptionEndedAt sub endedAt, true)
    else if mode = renewalModeCancelAtPeriodEnd then
      match cancelAtPeriodEndBoundary sub with
      | none => (sub, false)
      | some boundary =>
        let endedAt := normalizeDateUTC boundary
        if !endedAt.before today then (sub, false) else (markSubscriptionEndedAt sub endedAt, true)
    else (sub, false)

def deriveLegacyLifecycle (enabled : Bool) (nextBillingDate endsAt : Option Time)
    (updatedAt : Time) : LifecycleDraft :=
  let status := if enabled then subscriptionStatusActive else subscriptionStatusEnded
  let renewalMode :=
    if status = subscriptionStatusEnded then renewalModeCancelAtPeriodEnd else renewalModeAutoRenew
  let endsAt := copyTimePointer endsAt
  if endsAt = none ∧ status = subscriptionStatusEnded then
    match nextBillingDate with
    | some date => ⟨status, renewalMode, copyTimePointer (some date)⟩
    | none => ⟨status, renewalMode, some (normalizeDateUTC updatedAt)⟩
  else ⟨status, renewalMode, endsAt⟩

/-- `internal/service/subscription_crud.go`. The row's `updated_at` is an argument. -/
def normalizeSubscriptionForResponse (sub : Subscription) (updatedAt : Time) : Subscription :=
  let sub :=
    if !isValidSubscriptionStatus (normalizeStatus sub.status) ∨
      !isValidRenewalMode (normalizeRenewalMode sub.renewalMode) then
      let legacy := deriveLegacyLifecycle sub.enabled sub.nextBillingDate sub.endsAt updatedAt
      { sub with
        status := legacy.status, renewalMode := legacy.renewalMode,
        endsAt := copyTimePointer legacy.endsAt }
    else sub
  syncLegacyEnabledForLifecycle sub

/-- What a read shows at `referenceDate`. -/
def presentSubscriptionForResponse (sub : Subscription) (updatedAt referenceDate : Time) :
    Subscription :=
  normalizeSubscriptionForResponse (advanceSubscriptionLifecycle sub referenceDate).1 updatedAt

/-! ## Persisting it -/

/-- The four columns that a persisted transition writes. -/
def lifecycleWrite (advanced row : Subscription) : Subscription :=
  { row with
    nextBillingDate := advanced.nextBillingDate, endsAt := advanced.endsAt, status := advanced.status
    enabled := advanced.enabled }

def persistAdvancedSubscriptionLifecycle (userID : Nat) (sub : Subscription) (referenceDate : Time)
    (rows : List Subscription) : List Subscription :=
  let advanced := advanceSubscriptionLifecycle sub referenceDate
  if !advanced.2 then rows
  else updateWhere (fun row => row.id = advanced.1.id && row.userID = userID)
    (lifecycleWrite advanced.1) rows

def reconcileSubscriptionLifecycleForUser (userID : Nat) (referenceDate : Time)
    (rows : List Subscription) :
    List Subscription :=
  let subs := rows.filter fun sub =>
    sub.userID = userID ∧ sub.status = subscriptionStatusActive ∧ sub.billingType = billingTypeRecurring
  subs.foldl (fun rows sub => persistAdvancedSubscriptionLifecycle userID sub referenceDate rows) rows

/-- `First` by the primary key and the owner. -/
def findSubscription (userID id : Nat) (rows : List Subscription) : Option Subscription :=
  rows.find? fun sub => sub.id = id ∧ sub.userID = userID

def reconcileSubscriptionForWrite (userID id : Nat) (referenceDate : Time)
    (rows : List Subscription) : List Subscription :=
  match findSubscription userID id rows with
  | none => rows
  | some sub => persistAdvancedSubscriptionLifecycle userID sub referenceDate rows

/-- `internal/service/subscription_lifecycle_sweep.go`. -/
def reconcileDueLifecycles (now : Time) (rows : List Subscription) : List Subscription :=
  let userIDs := (rows.filter fun sub =>
    sub.status = subscriptionStatusActive ∧ sub.billingType = billingTypeRecurring).map (·.userID)
  userIDs.dedup.foldl (fun rows userID => reconcileSubscriptionLifecycleForUser userID now rows) rows

/-! ## Keys of rows -/

section Keys
variable {userID id : Nat} {t : Time} {rows : List Subscription} {sub : Subscription}

theorem persist_ids (userID : Nat) (sub : Subscription) (t : Time) (rows : List Subscription) :
    (persistAdvancedSubscriptionLifecycle userID sub t rows).map (·.id) = rows.map (·.id) := by
  unfold persistAdvancedSubscriptionLifecycle
  generalize advanceSubscriptionLifecycle sub t = advanced
  dsimp only
  split
  · rfl
  · exact map_updateWhere Subscription.id (f := lifecycleWrite advanced.1) fun _ => rfl

theorem reconcile_ids (userID : Nat) (t : Time) (rows : List Subscription) :
    (reconcileSubscriptionLifecycleForUser userID t rows).map (·.id) = rows.map (·.id) :=
  List.foldlRecOn (motive := fun rows' : List Subscription => rows'.map (·.id) = rows.map (·.id)) _ _ rfl
    fun rows' h sub _ => (persist_ids userID sub t rows').trans h

/-- The primary key finds a row of the owner. -/
theorem findSubscription_eq (hids : (rows.map (·.id)).Nodup) (hsub : sub ∈ rows) (hid : sub.id = id)
    (huser : sub.userID = userID) : findSubscription userID id rows = some sub := by
  unfold findSubscription
  cases hfind : rows.find? fun sub => sub.id = id ∧ sub.userID = userID with
  | none => exact absurd (List.find?_eq_none.1 hfind sub hsub) (by simp [hid, huser])
  | some found =>
    have hfound := List.find?_some hfind
    simp only [decide_eq_true_eq] at hfound
    rw [eq_of_key hids (List.mem_of_find?_eq_some hfind) hsub (hfound.1.trans hid.symm)]

end Keys

/-! ## What the transition does -/

/-- The row after a renewal. -/
def renewedAt (sub : Subscription) (date : Time) : Subscription :=
  { sub with
    nextBillingDate := some date, endsAt := none, status := subscriptionStatusActive, enabled := true }

/-- The date after which a row that does not renew ends. -/
def endBoundary (sub : Subscription) : Option Time :=
  if normalizeRenewalMode sub.renewalMode = renewalModeManualRenew then sub.nextBillingDate
  else if normalizeRenewalMode sub.renewalMode = renewalModeCancelAtPeriodEnd then
    cancelAtPeriodEndBoundary sub
  else none

section Advance
variable {sub : Subscription} {t : Time}

theorem advance_inactive (h : subscriptionIsActive sub = false) :
    advanceSubscriptionLifecycle sub t = (sub, false) := by
  simp [advanceSubscriptionLifecycle, h]

theorem advance_not_recurring (h : sub.billingType ≠ billingTypeRecurring) :
    advanceSubscriptionLifecycle sub t = (sub, false) := by
  simp [advanceSubscriptionLifecycle, h]

theorem subscriptionIsActive_markEnded (endedAt : Time) :
    subscriptionIsActive (markSubscriptionEndedAt sub endedAt) = false := by
  simp [subscriptionIsActive, markSubscriptionEndedAt, active_ne_ended.symm]

theorem subscriptionIsActive_renewedAt (date : Time) :
    subscriptionIsActive (renewedAt sub date) = true := by
  simp [subscriptionIsActive, renewedAt]

/-- A renewal leaves the recurrence columns alone. -/
theorem renewedAt_rule (date : Time) : (renewedAt sub date).rule = sub.rule := rfl

theorem advance_autoRenew (ha : subscriptionIsActive sub = true)
    (hb : sub.billingType = billingTypeRecurring)
    (hm : normalizeRenewalMode sub.renewalMode = renewalModeAutoRenew) :
    advanceSubscriptionLifecycle sub t =
      match nextRecurringBillingDateOnOrAfter sub (midnight t.day) with
      | none => (sub, false)
      | some next => (renewedAt sub next, true) := by
  simp [advanceSubscriptionLifecycle, ha, hb, hm, renewedAt]

/-- An auto-renewed row with a valid schedule catches up with `t`. -/
theorem advance_renews (ha : subscriptionIsActive sub = true)
    (hb : sub.billingType = billingTypeRecurring)
    (hm : normalizeRenewalMode sub.renewalMode = renewalModeAutoRenew) {date : Time}
    (hdate : sub.nextBillingDate = some date) {r : Rule} (hr : sub.rule = some r) (t : Time) :
    (∃ x, date.day < t.day ∧ r.IsNext date.day t.day x ∧ advanceSubscriptionLifecycle sub t =
      (renewedAt sub (midnight x), true)) ∨
      (t.day ≤ date.day ∧ advanceSubscriptionLifecycle sub t = (sub, false)) := by
  rw [advance_autoRenew ha hb hm]
  rcases nextRecurringBillingDateOnOrAfter_spec hb hdate hr (midnight t.day) with ⟨x, hlt, hx, he⟩ |
    ⟨hle, he⟩
  · exact .inl ⟨x, by simpa using hlt, by simpa using hx, by rw [he]⟩
  · exact .inr ⟨by simpa using hle, by rw [he]⟩

/-- A row in another mode ends once its boundary is past. -/
theorem advance_ends (ha : subscriptionIsActive sub = true) (hb : sub.billingType = billingTypeRecurring)
    (hm : normalizeRenewalMode sub.renewalMode ≠ renewalModeAutoRenew) (t : Time) :
    advanceSubscriptionLifecycle sub t =
      match endBoundary sub with
      | none => (sub, false)
      | some boundary =>
        if boundary.day < t.day then (markSubscriptionEndedAt sub (midnight boundary.day), true)
          else (sub, false) := by
  have hend : ∀ date : Option Time,
      (match date with
        | none => (sub, false)
        | some date =>
          if (!(midnight date.day).before (midnight t.day)) = true then (sub, false)
          else (markSubscriptionEndedAt sub (midnight date.day), true)) =
        match date with
        | none => (sub, false)
        | some boundary =>
          if boundary.day < t.day then (markSubscriptionEndedAt sub (midnight boundary.day), true)
            else (sub, false) := by
    rintro (_ | date)
    · rfl
    · by_cases hd : date.day < t.day <;> simp [hd]
  simp only [advanceSubscriptionLifecycle, ha, hb, endBoundary, normalizeDateUTC_eq, Bool.not_true,
    Bool.false_eq_true,
    ne_eq, not_true_eq_false, or_self, if_false, if_neg hm]
  split_ifs
  · exact hend _
  · exact hend _
  · rfl

/-- A date that a row rolls to is a UTC midnight. -/
theorem nextRecurringBillingDateOnOrAfter_midnight {next : Time}
    (h : nextRecurringBillingDateOnOrAfter sub t = some next) :
    ∃ n, next = midnight n := by
  unfold nextRecurringBillingDateOnOrAfter at h
  dsimp only at h
  repeat' split at h
  all_goals cases h
  exact ⟨_, normalizeDateUTC_eq _⟩

/-- What a transition does to a row, if anything. -/
theorem advance_cases (sub : Subscription) (t : Time) :
    advanceSubscriptionLifecycle sub t = (sub, false) ∨
      (normalizeRenewalMode sub.renewalMode = renewalModeAutoRenew ∧
        ∃ n, advanceSubscriptionLifecycle sub t = (renewedAt sub (midnight n), true)) ∨
      (normalizeRenewalMode sub.renewalMode ≠ renewalModeAutoRenew ∧
        ∃ n, advanceSubscriptionLifecycle sub t = (markSubscriptionEndedAt sub (midnight n), true)) := by
  by_cases hb : sub.billingType = billingTypeRecurring
  case neg => exact .inl (advance_not_recurring hb)
  cases ha : subscriptionIsActive sub with
  | false => exact .inl (advance_inactive ha)
  | true =>
    by_cases hm : normalizeRenewalMode sub.renewalMode = renewalModeAutoRenew
    · rw [advance_autoRenew ha hb hm]
      cases hnext : nextRecurringBillingDateOnOrAfter sub (midnight t.day) with
      | none => exact .inl rfl
      | some next =>
        obtain ⟨n, rfl⟩ := nextRecurringBillingDateOnOrAfter_midnight hnext
        exact .inr (.inl ⟨hm, n, rfl⟩)
    · rw [advance_ends ha hb hm t]
      cases endBoundary sub with
      | none => exact .inl rfl
      | some boundary =>
        dsimp only
        split
        · exact .inr (.inr ⟨hm, _, rfl⟩)
        · exact .inl rfl

/-- The four columns of a transition are all that it changes. -/
theorem lifecycleWrite_self (sub : Subscription) (t : Time) :
    lifecycleWrite (advanceSubscriptionLifecycle sub t).1 sub =
    (advanceSubscriptionLifecycle sub t).1 := by
  rcases advance_cases sub t with he | ⟨-, n, he⟩ | ⟨-, n, he⟩ <;> rw [he] <;> rfl

theorem lifecycleWrite_id (advanced row : Subscription) :
    (lifecycleWrite advanced row).id = row.id := rfl

theorem lifecycleWrite_userID (advanced row : Subscription) :
    (lifecycleWrite advanced row).userID = row.userID := rfl

theorem advance_id (sub : Subscription) (t : Time) :
    (advanceSubscriptionLifecycle sub t).1.id = sub.id := by
  rw [← lifecycleWrite_self, lifecycleWrite_id]

end Advance

/-! ## A stop on the way -/

/-- The columns that a transition may change, and the mode. -/
def lifecycleColumns (sub : Subscription) : String × String × Option Time × Bool × Option Time :=
  (sub.status, sub.renewalMode, sub.endsAt, sub.enabled, sub.nextBillingDate)

/-- A transition at `t₁` does not show in one at `t₂`: the row is not renewed
automatically, or its rule allows the stop. -/
def StopSafe (sub : Subscription) (t₁ t₂ : Time) : Prop :=
  normalizeRenewalMode sub.renewalMode = renewalModeAutoRenew →
    ∀ r ∈ sub.rule, ∀ date ∈ sub.nextBillingDate, r.StopSafe date.day t₁.day t₂.day

/-- Advancing at `t₁` and then at `t₂` leaves what advancing once at `t₂` does,
exactly when the stop does not cost a month rule its day. -/
theorem advance_advance_iff {sub : Subscription} {date : Time} (ha : subscriptionIsActive sub = true)
    (hb : sub.billingType = billingTypeRecurring) (hdate : sub.nextBillingDate = some date)
    (hvalid : isRecurringScheduleValid sub = true) {t₁ t₂ : Time} (ht : t₁.day ≤ t₂.day) :
    lifecycleColumns (advanceSubscriptionLifecycle (advanceSubscriptionLifecycle sub t₁).1 t₂).1 =
        lifecycleColumns (advanceSubscriptionLifecycle sub t₂).1 ↔
      StopSafe sub t₁ t₂ := by
  obtain ⟨r, hr⟩ := (isRecurringScheduleValid_iff sub).1 hvalid
  by_cases hm : normalizeRenewalMode sub.renewalMode = renewalModeAutoRenew
  · have hsafe : StopSafe sub t₁ t₂ ↔ r.StopSafe date.day t₁.day t₂.day := by
      simp [StopSafe, hm, hr, hdate]
    rw [hsafe]
    rcases advance_renews ha hb hm hdate hr t₁ with ⟨x, hlt, hx, h₁⟩ | ⟨hle, h₁⟩
    · have hx' : r.CatchUp date.day t₁.day x := by rwa [Rule.CatchUp, if_pos hlt]
      rcases advance_renews ha hb hm hdate hr t₂ with ⟨z, hlt₂, hz, h₂⟩ | ⟨hle, h₂⟩
      · have hz' : r.CatchUp date.day t₂.day z := by rwa [Rule.CatchUp, if_pos hlt₂]
        have ha' : subscriptionIsActive (renewedAt sub (midnight x)) = true :=
          subscriptionIsActive_renewedAt _
        rcases advance_renews ha' hb hm rfl (renewedAt_rule (midnight x) ▸ hr) t₂
          with ⟨y, hxt, hy, h₃⟩ | ⟨hxt, h₃⟩
        · have hy' : r.CatchUp x t₂.day y := by
            simpa [Rule.CatchUp, (midnight_day x ▸ hxt : x < t₂.day)] using hy
          rw [h₁, h₂, h₃, ← Rule.catchUp_stop_iff ht hx' hy' hz']
          simp [lifecycleColumns, renewedAt]
        · have hy' : r.CatchUp x t₂.day x := by simp [Rule.CatchUp, (midnight_day x ▸ hxt : t₂.day ≤ x)]
          rw [h₁, h₂, h₃, ← Rule.catchUp_stop_iff ht hx' hy' hz']
          simp [lifecycleColumns, renewedAt]
      · omega
    · -- Nothing was due at the stop.
      have hx' : r.CatchUp date.day t₁.day date.day := by rw [Rule.CatchUp, if_neg (not_lt.2 hle)]
      obtain ⟨z, hz⟩ : ∃ z, r.CatchUp date.day t₂.day z := by
        rcases advance_renews ha hb hm hdate hr t₂ with ⟨z, hlt, hz, -⟩ | ⟨hle₂, -⟩
        · exact ⟨z, by rwa [Rule.CatchUp, if_pos hlt]⟩
        · exact ⟨date.day, by rw [Rule.CatchUp, if_neg (not_lt.2 hle₂)]⟩
      simpa [h₁] using (Rule.catchUp_stop_iff ht hx' hz hz).1 rfl
  · have hsafe : StopSafe sub t₁ t₂ := fun h => absurd h hm
    simp only [hsafe, iff_true]
    rw [advance_ends ha hb hm t₁]
    cases hbound : endBoundary sub with
    | none => rfl
    | some boundary =>
      by_cases hlt : boundary.day < t₁.day
      · simp [hlt, advance_inactive (subscriptionIsActive_markEnded _), advance_ends ha hb hm t₂,
          hbound, hlt.trans_le ht]
      · simp [hlt]

/-- A monthly row due on 31 January 2025. -/
def monthEndRow : Subscription where
  id := 1
  userID := 1
  name := "Rent"
  amount := 900
  currency := "USD"
  enabled := true
  status := subscriptionStatusActive
  renewalMode := renewalModeAutoRenew
  endsAt := none
  billingType := billingTypeRecurring
  recurrenceType := recurrenceTypeInterval
  intervalCount := some 1
  intervalUnit := intervalUnitMonth
  monthlyDay := none
  yearlyMonth := none
  yearlyDay := none
  nextBillingDate := some (dateUTC 2025 1 31)
  category := ""
  categoryID := none
  paymentMethodID := none
  notifyEnabled := none
  notifyDaysBefore := none
  icon := ""
  url := ""
  notes := ""

/-- A sweep in February moves the row to the 28th, and March follows it there. -/
theorem advance_advance_loses_day :
    ¬ ∀ (sub : Subscription) (date t₁ t₂ : Time), subscriptionIsActive sub = true →
    sub.billingType = billingTypeRecurring →
      sub.nextBillingDate = some date → isRecurringScheduleValid sub = true → t₁.day ≤ t₂.day →
      lifecycleColumns (advanceSubscriptionLifecycle (advanceSubscriptionLifecycle sub t₁).1 t₂).1 =
        lifecycleColumns (advanceSubscriptionLifecycle sub t₂).1 := by
  intro h
  have :=
    h monthEndRow (dateUTC 2025 1 31) (dateUTC 2025 2 10) (dateUTC 2025 3 10) (by decide) rfl rfl
      (by decide) (by decide)
  revert this
  decide +kernel

theorem advance_advance_monthEndRow :
    lifecycleColumns (advanceSubscriptionLifecycle
      (advanceSubscriptionLifecycle monthEndRow (dateUTC 2025 2 10)).1
          (dateUTC 2025 3 10)).1 =
        lifecycleColumns (advanceSubscriptionLifecycle monthEndRow (dateUTC 2025 3 10)).1 ↔
      StopSafe monthEndRow (dateUTC 2025 2 10) (dateUTC 2025 3 10) :=
  advance_advance_iff (by decide) rfl rfl (by decide) (by decide)

end Subdux
