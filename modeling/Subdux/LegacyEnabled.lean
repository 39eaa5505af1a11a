import Subdux.ImportLoops
import Subdux.WallosSchedules
/-!
# The legacy enabled flag

`enabled` was the only state of a row once, and `syncLegacyEnabledForLifecycle` keeps it
beside `status`. A write by columns sets both. A new row is a struct, and `tx.Create`
stores the column's default in place of its `false`.
-/

namespace Subdux
open GoStrings Results Rows Runs Upserts Wallos

/-! ## Rows that mirror their status -/

def EnabledMirrorsStatus (rows : List Subscription) : Prop :=
  ∀ row ∈ rows, row.enabled = true ↔ row.status = subscriptionStatusActive

/-- At most one row is inserted, enabled as every new row is, and active exactly when
`active` holds. -/
inductive Inserts (rows : List Subscription) (active : Prop) : List Subscription → Prop where
  | none : Inserts rows active rows
  | one (row : Subscription) (enabled : row.enabled = true)
    (status : row.status = subscriptionStatusActive ↔ active) :
      Inserts rows active (rows ++ [row])

section Rows
variable {rows rows' : List Subscription} {active : Prop}

theorem Inserts.mirrors_iff (h : Inserts rows active rows') (hrows : EnabledMirrorsStatus rows) :
    EnabledMirrorsStatus rows' ↔ rows' = rows ∨ active := by
  cases h with
  | none => exact ⟨fun _ => .inl rfl, fun _ => hrows⟩
  | one row enabled status =>
    constructor
    · intro h
      exact .inr (status.1 ((h row (by simp)).1 enabled))
    · rintro (hsame | hactive) r hr
      · simp at hsame
      · rcases List.mem_append.1 hr with hr | hr
        · exact hrows r hr
        · rw [List.mem_singleton.1 hr]
          exact iff_of_true enabled (status.2 hactive)

/-- The rows that were there stay. -/
theorem Inserts.mirrors_back (h : Inserts rows active rows') (hrows' : EnabledMirrorsStatus rows') :
    EnabledMirrorsStatus rows := by
  cases h with
  | none => exact hrows'
  | one row _ _ => exact fun r hr => hrows' r (List.mem_append_left _ hr)

theorem Inserts.congr {active' : Prop} (h : Inserts rows active rows')
    (hactive : active ↔ active') : Inserts rows active' rows' := by
  cases h with
  | none => exact .none
  | one row enabled status => exact .one row enabled (status.trans hactive)

end Rows

/-! ## Inserting -/

section Insert
variable {sub : Subscription} {table : SubscriptionTable} {userID : Nat}

/-- The status and the renewal mode of normalized lifecycle columns. -/
theorem normalizeLifecycleDraft_status {draft lifecycle : LifecycleDraft} {date : Option Time}
    {now : Time} (h : normalizeLifecycleDraft draft date now = .ok lifecycle) :
    lifecycle.status = orDefault subscriptionStatusActive (normalizeStatus draft.status) ∧
      isValidSubscriptionStatus lifecycle.status = true ∧
        isValidRenewalMode lifecycle.renewalMode = true := by
  unfold normalizeLifecycleDraft at h
  dsimp only at h
  generalize orDefault subscriptionStatusActive (normalizeStatus draft.status) = status at h ⊢
  generalize orDefault _ (normalizeRenewalMode draft.renewalMode) = mode at h
  split at h
  · simp only [reduceCtorEq] at h
  rename_i hstatus
  simp only [Bool.not_eq_true', Bool.not_eq_false] at hstatus
  split at h
  · simp only [reduceCtorEq] at h
  rename_i hmode
  simp only [Bool.not_eq_true', Bool.not_eq_false] at hmode
  have hsame : lifecycle.status = status ∧ lifecycle.renewalMode = mode := by
    split at h
    · cases hends : draft.endsAt <;> cases date <;> rw [hends]
        at h <;> rw [← Except.ok.inj h] <;> exact ⟨rfl, rfl⟩
    · split at h
      · cases date with
        | none => simp only [reduceCtorEq] at h
        | some date =>
          rw [← Except.ok.inj h]
          exact ⟨rfl, rfl⟩
      · rw [← Except.ok.inj h]
        exact ⟨rfl, rfl⟩
  exact ⟨hsame.1, hsame.1 ▸ hstatus, hsame.2 ▸ hmode⟩

/-- A draft becomes active unless it says that the subscription has ended. -/
theorem normalizeLifecycleDraft_active {draft lifecycle : LifecycleDraft} {date : Option Time}
    {now : Time} (h : normalizeLifecycleDraft draft date now = .ok lifecycle) :
    lifecycle.status = subscriptionStatusActive ↔
    normalizeStatus draft.status ≠ subscriptionStatusEnded := by
  obtain ⟨hstatus, hvalid, -⟩ := normalizeLifecycleDraft_status h
  constructor
  · intro hactive hended
    rw [hended, orDefault_of_ne (by decide)] at hstatus
    exact active_ne_ended (hactive.symm.trans hstatus)
  · intro hended
    simp only [isValidSubscriptionStatus, decide_eq_true_eq] at hvalid
    rcases hvalid with hactive | hvalid
    · exact hactive
    · rcases orDefault_cases (hstatus.symm.trans hvalid) with ⟨-, h⟩ | h
      · exact absurd h active_ne_ended
      · exact absurd h hended

theorem insertSubscription_inserts (hvalid : isValidSubscriptionStatus sub.status = true)
    {row : Subscription} {table' : SubscriptionTable}
    (h : insertSubscription sub table = some (row, table')) :
    Inserts table.rows (sub.status = subscriptionStatusActive) table'.rows := by
  simp only [insertSubscription, orDefault_of_ne (status_ne_empty hvalid)] at h
  split at h <;> cases h
  exact .one _ rfl Iff.rfl

theorem newSubscription_status {lookups : Lookups} {input : CreateSubscriptionInput} {now : Time}
    (h : newSubscription lookups userID input now = .ok sub) :
    isValidSubscriptionStatus sub.status = true ∧
      (sub.status = subscriptionStatusActive ↔
        normalizeStatus input.status ≠ subscriptionStatusEnded) := by
  unfold newSubscription at h
  obtain ⟨subscriptionURL, -, h⟩ := bind_eq_ok h
  obtain ⟨nextBillingDate, -, h⟩ := bind_eq_ok h
  obtain ⟨endsAt, -, h⟩ := bind_eq_ok h
  obtain ⟨⟨draft, date⟩, -, h⟩ := bind_eq_ok h
  obtain ⟨lifecycle, hlifecycle, h⟩ := bind_eq_ok h
  obtain ⟨categoryID, -, h⟩ := bind_eq_ok h
  obtain ⟨paymentMethodID, -, h⟩ := bind_eq_ok h
  obtain ⟨notifyDaysBefore, -, h⟩ := bind_eq_ok h
  have hsub : sub.status = lifecycle.status := by
    rw [← Except.ok.inj h]
    rfl
  have hactive := normalizeLifecycleDraft_active hlifecycle
  dsimp only at hactive
  rw [hsub]
  exact ⟨(normalizeLifecycleDraft_status hlifecycle).2.1, hactive⟩

theorem create_inserts (lookups : Lookups) (userID : Nat) (input : CreateSubscriptionInput)
    (now : Time) (table : SubscriptionTable) :
    Inserts table.rows (normalizeStatus input.status ≠ subscriptionStatusEnded)
    (create lookups userID input now table).2.rows := by
  unfold create
  split
  · exact .none
  · rename_i hnew
    obtain ⟨hvalid, hactive⟩ := newSubscription_status hnew
    split
    · exact .none
    · rename_i hinsert
      exact (insertSubscription_inserts hvalid hinsert).congr hactive

/-- A legacy draft is active when the flag is set. -/
theorem legacy_active (enabled : Bool) (date endsAt : Option Time) (updatedAt : Time) :
    normalizeStatus (deriveLegacyLifecycle enabled date endsAt updatedAt).status ≠
    subscriptionStatusEnded ↔ enabled = true := by
  rw [(ImportService.deriveLegacyLifecycle_columns enabled date endsAt updatedAt).1]
  cases enabled with
  | false => simp
  | true => simp [active_ne_ended]

end Insert

/-! ## Accepted requests -/

def CreateSubscriptionInput.billing (input : CreateSubscriptionInput)
    (nextBillingDate : Option Time) : BillingDraft where
  billingType := input.billingType
  recurrenceType := input.recurrenceType
  intervalCount := input.intervalCount
  intervalUnit := input.intervalUnit
  nextBillingDate := nextBillingDate
  monthlyDay := input.monthlyDay
  yearlyMonth := input.yearlyMonth
  yearlyDay := input.yearlyDay

/-- A request passes the checks of `Create` and of the table. -/
structure CreateSubscriptionInput.Accepted (lookups : Lookups) (input : CreateSubscriptionInput) :
    Prop where
  url : (normalizeSubscriptionURL lookups.parseURL input.url).isOk = true
  schedule : ∃ date, parseOptionalDateString input.nextBillingDate = .ok (some date) ∧
    (normalizeBillingDraft (input.billing (some date))).isOk = true
  endsAt : (parseOptionalDateString input.endsAt).isOk = true
  status : normalizeStatus input.status = "" ∨ isValidSubscriptionStatus
    (normalizeStatus input.status) = true
  renewalMode : normalizeRenewalMode input.renewalMode = "" ∨
    isValidRenewalMode (normalizeRenewalMode input.renewalMode) = true
  category : ∀ id, input.categoryID = some id → id = 0 ∨ lookups.hasCategory id = true
  paymentMethod : ∀ id, input.paymentMethodID = some id → id = 0 ∨ lookups.hasPaymentMethod id = true
  notifyDaysBefore : ∀ days, input.notifyDaysBefore = some days → 0 ≤ days ∧
    days ≤ maxNotificationDaysBefore
  amount : 0 ≤ input.amount

section Accepted
variable {lookups : Lookups} {input : CreateSubscriptionInput} {userID : Nat} {now : Time}
  {sub : Subscription}

theorem ownedRef_isOk_iff {owns : Nat → Bool} {missing : String} {ref : Option Nat} :
    (∃ owned, ownedRef owns missing ref = .ok owned) ↔ ∀ id, ref = some id → id = 0 ∨
    owns id = true := by
  unfold ownedRef
  split
  · simp
  · simp
  · rename_i id hid
    have hne : id ≠ 0 := fun h => hid (by rw [h])
    split <;> simp_all

theorem validateNotifyDaysBefore_ok {value : Option Int}
    (h : ∀ days, value = some days → 0 ≤ days ∧ days ≤ maxNotificationDaysBefore) :
    validateNotifyDaysBefore value = .ok value := by
  unfold validateNotifyDaysBefore
  cases value with
  | none => rfl
  | some days =>
    obtain ⟨hlow, hhigh⟩ := h days rfl
    refine if_neg ?_
    simp only [Option.any_some, decide_eq_true_eq]
    omega

theorem validateNotifyDaysBefore_isOk_iff {value : Option Int} :
    (∃ days, validateNotifyDaysBefore value = .ok days) ↔
      ∀ days, value = some days → 0 ≤ days ∧ days ≤ maxNotificationDaysBefore := by
  unfold validateNotifyDaysBefore
  cases value with
  | none => simp
  | some days =>
    simp only [Option.any_some, decide_eq_true_eq, Option.some.injEq, forall_eq']
    split
    · simp only [reduceCtorEq, exists_false, false_iff]
      omega
    · simp only [Except.ok.injEq, exists_eq', true_iff]
      omega

theorem normalizeBillingDraft_date {draft : BillingDraft} {result : BillingDraft × Time}
    (h : normalizeBillingDraft draft = .ok result) :
    ∃ date, draft.nextBillingDate = some date := by
  cases hdate : draft.nextBillingDate with
  | some date => exact ⟨date, rfl⟩
  | none =>
    unfold normalizeBillingDraft at h
    dsimp only at h
    rw [hdate] at h
    cases h

theorem valid_orDefault {valid : String → Bool} {fallback value : String}
    (hfallback : valid fallback = true) :
    valid (orDefault fallback value) = true ↔ value = "" ∨ valid value = true := by
  unfold orDefault
  split
  · rename_i hempty
    exact iff_of_true hfallback (.inl hempty)
  · rename_i hne
    exact ⟨.inr, fun h => h.resolve_left hne⟩

/-- With a next billing date only the columns themselves can be refused. -/
theorem normalizeLifecycleDraft_isOk_iff {draft : LifecycleDraft} {date now : Time} :
    (∃ lifecycle, normalizeLifecycleDraft draft (some date) now = .ok lifecycle) ↔
      (normalizeStatus draft.status = "" ∨ isValidSubscriptionStatus
        (normalizeStatus draft.status) = true) ∧
        (normalizeRenewalMode draft.renewalMode = "" ∨
          isValidRenewalMode (normalizeRenewalMode draft.renewalMode) = true) := by
  have hactive : isValidSubscriptionStatus subscriptionStatusActive = true := by decide
  have hmode : ∀ status, isValidRenewalMode
      (if status = subscriptionStatusEnded then renewalModeCancelAtPeriodEnd
        else renewalModeAutoRenew) = true := by
    intro status
    split <;> decide
  rw [← valid_orDefault hactive,
    ← valid_orDefault (hmode (orDefault subscriptionStatusActive (normalizeStatus draft.status)))]
  unfold normalizeLifecycleDraft
  dsimp only
  generalize orDefault subscriptionStatusActive (normalizeStatus draft.status) = status
  generalize orDefault _ (normalizeRenewalMode draft.renewalMode) = mode
  cases isValidSubscriptionStatus status with
  | false => simp
  | true =>
    cases isValidRenewalMode mode with
    | false => simp
    | true =>
      refine iff_of_true ?_ ⟨rfl, rfl⟩
      simp only [Bool.not_true, Bool.false_eq_true, if_false]
      split
      · cases draft.endsAt <;> exact ⟨_, rfl⟩
      · split <;> exact ⟨_, rfl⟩

/-- The columns of a new row that the table checks. -/
theorem newSubscription_checked (h : newSubscription lookups userID input now = .ok sub) :
    sub.amount = input.amount ∧ sub.notifyDaysBefore = input.notifyDaysBefore ∧
    isValidRenewalMode sub.renewalMode = true := by
  unfold newSubscription at h
  obtain ⟨subscriptionURL, -, h⟩ := bind_eq_ok h
  obtain ⟨nextBillingDate, -, h⟩ := bind_eq_ok h
  obtain ⟨endsAt, -, h⟩ := bind_eq_ok h
  obtain ⟨⟨draft, date⟩, -, h⟩ := bind_eq_ok h
  obtain ⟨lifecycle, hlifecycle, h⟩ := bind_eq_ok h
  obtain ⟨categoryID, -, h⟩ := bind_eq_ok h
  obtain ⟨paymentMethodID, -, h⟩ := bind_eq_ok h
  obtain ⟨notifyDaysBefore, hnotify, h⟩ := bind_eq_ok h
  obtain ⟨-, -, hmode⟩ := normalizeLifecycleDraft_status hlifecycle
  have hdays : notifyDaysBefore = input.notifyDaysBefore := by
    rw [validateNotifyDaysBefore_ok (validateNotifyDaysBefore_isOk_iff.1 ⟨_, hnotify⟩)] at hnotify
    exact (Except.ok.inj hnotify).symm
  have hsub : sub.amount = input.amount ∧ sub.notifyDaysBefore = notifyDaysBefore ∧
      sub.renewalMode = lifecycle.renewalMode := by
    rw [← Except.ok.inj h]
    exact ⟨rfl, rfl, rfl⟩
  exact ⟨hsub.1, hsub.2.1.trans hdays, hsub.2.2 ▸ hmode⟩

/-- A request makes a row exactly when it passes the checks of `Create`. -/
theorem newSubscription_isOk_iff :
    (∃ sub, newSubscription lookups userID input now = .ok sub ∧ sub.meetsChecks = true) ↔
    input.Accepted lookups := by
  constructor
  · rintro ⟨sub, h, hchecks⟩
    obtain ⟨hamount, -⟩ := newSubscription_checked h
    unfold newSubscription at h
    -- each check passed, in the order in which they are made
    obtain ⟨subscriptionURL, hurl, h⟩ := bind_eq_ok h
    obtain ⟨nextBillingDate, hdate, h⟩ := bind_eq_ok h
    obtain ⟨endsAt, hends, h⟩ := bind_eq_ok h
    obtain ⟨⟨draft, date⟩, hbilling, h⟩ := bind_eq_ok h
    obtain ⟨lifecycle, hlifecycle, h⟩ := bind_eq_ok h
    obtain ⟨categoryID, hcategory, h⟩ := bind_eq_ok h
    obtain ⟨paymentMethodID, hmethod, h⟩ := bind_eq_ok h
    obtain ⟨notifyDaysBefore, hnotify, h⟩ := bind_eq_ok h
    obtain ⟨first, rfl⟩ := normalizeBillingDraft_date hbilling
    obtain ⟨hstatus, hmode⟩ := normalizeLifecycleDraft_isOk_iff.1 ⟨lifecycle, hlifecycle⟩
    simp only [Subscription.meetsChecks, Bool.and_eq_true, decide_eq_true_eq] at hchecks
    exact {
      url := by rw [hurl]; rfl
      schedule := ⟨first, hdate, by rw [CreateSubscriptionInput.billing, hbilling]; rfl⟩
      endsAt := by rw [hends]; rfl
      status := hstatus
      renewalMode := hmode
      category := ownedRef_isOk_iff.1 ⟨_, hcategory⟩
      paymentMethod := ownedRef_isOk_iff.1 ⟨_, hmethod⟩
      notifyDaysBefore := validateNotifyDaysBefore_isOk_iff.1 ⟨_, hnotify⟩
      amount := hamount ▸ hchecks.1.1.1 }
  · intro h
    obtain ⟨first, hdate, hbilling⟩ := h.schedule
    -- the values that pass, one for each check
    obtain ⟨subscriptionURL, hurl⟩ := isOk_iff.1 h.url
    obtain ⟨endsAt, hends⟩ := isOk_iff.1 h.endsAt
    obtain ⟨⟨draft, date⟩, hdraft⟩ := isOk_iff.1 hbilling
    obtain ⟨lifecycle, hlifecycle⟩ : ∃ lifecycle,
        normalizeLifecycleDraft ⟨input.status, input.renewalMode, endsAt⟩
          (some date) now = .ok lifecycle :=
      normalizeLifecycleDraft_isOk_iff.2 ⟨h.status, h.renewalMode⟩
    obtain ⟨categoryID, hcategory⟩ : ∃ owned,
        ownedRef lookups.hasCategory "category not found" input.categoryID = .ok owned :=
      ownedRef_isOk_iff.2 h.category
    obtain ⟨paymentMethodID, hmethod⟩ : ∃ owned,
        ownedRef lookups.hasPaymentMethod "payment method not found" input.paymentMethodID = .ok owned :=
      ownedRef_isOk_iff.2 h.paymentMethod
    have hnotify : validateNotifyDaysBefore input.notifyDaysBefore = .ok input.notifyDaysBefore :=
      validateNotifyDaysBefore_ok h.notifyDaysBefore
    rw [CreateSubscriptionInput.billing] at hdraft
    have hnew : ∃ sub, newSubscription lookups userID input now = .ok sub := by
      unfold newSubscription
      rw [hurl, ok_bind, hdate, ok_bind, hends, ok_bind, hdraft, ok_bind]
      dsimp only
      rw [hlifecycle, ok_bind, hcategory, ok_bind, hmethod, ok_bind, hnotify, ok_bind]
      exact ⟨_, rfl⟩
    obtain ⟨sub, hsub⟩ := hnew
    obtain ⟨hamount, hdays, hmode⟩ := newSubscription_checked hsub
    obtain ⟨hstatus, -⟩ := newSubscription_status hsub
    refine ⟨sub, hsub, ?_⟩
    -- what the checks passed is what the CHECK constraints ask of the row
    have hnotice : (input.notifyDaysBefore.all fun days =>
        decide (0 ≤ days ∧ days ≤ maxNotificationDaysBefore)) = true := by
      rw [Option.all_eq_true]
      exact fun days hdays => decide_eq_true (h.notifyDaysBefore days hdays)
    rw [Subscription.meetsChecks, hamount, hdays, hstatus, hmode, hnotice, decide_eq_true h.amount]
    rfl

theorem insertSubscription_isSome_iff {table : SubscriptionTable}
    (hstatus : isValidSubscriptionStatus sub.status = true)
    (hmode : isValidRenewalMode sub.renewalMode = true) :
    (∃ inserted, insertSubscription sub table = some inserted) ↔ sub.meetsChecks = true := by
  simp only [insertSubscription, orDefault_of_ne (status_ne_empty hstatus),
    orDefault_of_ne (renewalMode_ne_empty hmode),
    Subscription.meetsChecks]
  split
  · rename_i hchecks
    exact iff_of_true ⟨_, rfl⟩ hchecks
  · rename_i hchecks
    exact iff_of_false (by simp) hchecks

variable (lookups userID input now) in
theorem create_keeps_iff (table : SubscriptionTable) :
    (create lookups userID input now table).2.rows = table.rows ↔ ¬ input.Accepted lookups := by
  have haccepted := @newSubscription_isOk_iff lookups input userID now
  rw [← haccepted]
  unfold create
  cases hnew : newSubscription lookups userID input now with
  | error err => exact iff_of_true rfl fun ⟨sub, h, _⟩ => nomatch h
  | ok sub =>
    obtain ⟨-, -, hmode⟩ := newSubscription_checked hnew
    have hinsert := @insertSubscription_isSome_iff sub table (newSubscription_status hnew).1 hmode
    have hchecks : (∃ new, Except.ok (ε := String) sub = .ok new ∧ new.meetsChecks = true) ↔
      sub.meetsChecks = true :=
      ⟨fun ⟨_, h, hmeets⟩ => Except.ok.inj h ▸ hmeets, fun h => ⟨sub, rfl, h⟩⟩
    rw [hchecks, ← hinsert]
    dsimp only
    cases hinserted : insertSubscription sub table with
    | none => exact iff_of_true rfl fun ⟨_, h⟩ => nomatch h
    | some inserted =>
      refine iff_of_false (fun h => ?_) (not_not_intro ⟨inserted, rfl⟩)
      have hlength := congrArg List.length h
      simp only [insertSubscription] at hinserted
      split at hinserted <;> cases hinserted
      simp at hlength

end Accepted

/-! ## Imports -/

/-- An item of a file is active: by its lifecycle columns, or by its flag when these are
not valid. -/
def importsActive (incoming : Subscription) : Bool :=
  if !isValidSubscriptionStatus (normalizeStatus incoming.status) ∨
    !isValidRenewalMode (normalizeRenewalMode incoming.renewalMode) then
    incoming.enabled
  else !decide (normalizeStatus incoming.status = subscriptionStatusEnded)

theorem importNew_inserts (lookups : ImportLookups) (userID : Nat) (row : ImportRow)
    (incoming : Subscription) (st : ImportState) :
    Inserts st.table.rows (importsActive incoming)
    (importNew lookups userID row incoming st).table.rows := by
  unfold importNew
  dsimp only
  split
  · exact .none
  · rename_i lifecycle hlifecycle
    have hactive : lifecycle.status = subscriptionStatusActive ↔ importsActive incoming := by
      rw [normalizeLifecycleDraft_active hlifecycle, importsActive]
      split
      · exact legacy_active ..
      · simp
    have hvalid := (normalizeLifecycleDraft_status hlifecycle).2.1
    split
    · exact .none
    · generalize hcreated : syncLegacyEnabledForLifecycle _ = created
      have hstatus : created.status = lifecycle.status := by
        rw [← hcreated]
        rfl
      rw [← hstatus] at hvalid hactive
      split
      · exact .none
      · rename_i hinsert
        exact (insertSubscription_inserts hvalid hinsert).congr hactive

/-- Normalizing an item leaves its lifecycle columns alone. -/
theorem normalizedSubscription_columns (incoming : Subscription) :
    let normalized := ImportService.normalizedSubscription incoming
    normalized.status = incoming.status ∧ normalized.renewalMode = incoming.renewalMode ∧
      normalized.enabled = incoming.enabled := by
  unfold ImportService.normalizedSubscription
  dsimp only
  split <;> simp [ImportService.trimmedSubscription, Subscription.setSchedule]

theorem importsActive_normalized (incoming : Subscription) :
    importsActive (ImportService.normalizedSubscription incoming) = importsActive incoming := by
  obtain ⟨hstatus, hmode, henabled⟩ := normalizedSubscription_columns incoming
  rw [importsActive, importsActive, hstatus, hmode, henabled]

theorem importSubscription_inserts (lookups : ImportLookups) (userID : Nat) (st : ImportState)
    (row : ImportRow) :
    Inserts st.table.rows (importsActive row.incoming)
    (importSubscription lookups userID st row).table.rows := by
  rcases ImportService.importSubscription_cases lookups userID st row with ⟨-, hst⟩ | ⟨-, hcases⟩
  · rw [hst]
    exact .none
  rcases hcases with ⟨-, skipped, errors, hst⟩ | ⟨-, ⟨-, hst⟩ | ⟨-, hst⟩⟩
  · rw [hst]
    exact .none
  · rw [hst]
    exact .none
  · rw [hst, ← importsActive_normalized]
    exact importNew_inserts lookups userID row _ { st with seen := _ :: st.seen }

theorem importItem_inserts (lookups : WallosLookups) (userID : Nat) (st : WallosState)
    (row : WallosRow) :
    Inserts st.table.rows (parseEnabled row.item.active)
    (importItem lookups userID st row).table.rows := by
  unfold importItem
  dsimp only
  split
  · exact .none
  · split
    · exact .none
    · unfold importNewItem
      dsimp only
      split
      · exact .none
      · split
        · exact .none
        · rename_i lifecycle hlifecycle
          have hactive : lifecycle.status = subscriptionStatusActive ↔
              parseEnabled row.item.active = true := by
            rw [normalizeLifecycleDraft_active hlifecycle, legacy_active]
          have hvalid := (normalizeLifecycleDraft_status hlifecycle).2.1
          generalize hcreated : wallosSubscription _ _ _ _ lifecycle = created
          have hstatus : created.status = lifecycle.status := by
            rw [← hcreated]
            rfl
          rw [← hstatus] at hvalid hactive
          split
          · exact .none
          · rename_i hinsert
            exact (insertSubscription_inserts hvalid hinsert).congr hactive

/-! ## Writes by columns -/

section Columns
variable {rows : List Subscription} {sub : Subscription} {userID id : Nat}

/-- A transition that is written sets both columns. -/
theorem lifecycleWrite_mirrors {t : Time} (hchanged : (advanceSubscriptionLifecycle sub t).2 = true)
    (row : Subscription) :
    let written := lifecycleWrite (advanceSubscriptionLifecycle sub t).1 row
    written.enabled = true ↔ written.status = subscriptionStatusActive := by
  rcases advance_cases sub t with he | ⟨-, n, he⟩ | ⟨-, n, he⟩
  · rw [he] at hchanged
    simp at hchanged
  · rw [he]
    exact iff_of_true rfl rfl
  · rw [he]
    exact iff_of_false Bool.false_ne_true active_ne_ended.symm

theorem EnabledMirrorsStatus.updateWhere {p : Subscription → Bool} {set : Subscription → Subscription}
    (h : EnabledMirrorsStatus rows)
    (hset : ∀ row, (row.enabled = true ↔ row.status = subscriptionStatusActive) →
      ((set row).enabled = true ↔ (set row).status = subscriptionStatusActive)) :
    EnabledMirrorsStatus (updateWhere p set rows) := by
  intro row hrow
  rcases mem_updateWhere_cases hrow with ⟨hr, -⟩ | ⟨r, hr, -, rfl⟩
  · exact h row hr
  · exact hset r (h r hr)

theorem EnabledMirrorsStatus.persist (h : EnabledMirrorsStatus rows) (userID : Nat)
    (sub : Subscription) (t : Time) :
    EnabledMirrorsStatus (persistAdvancedSubscriptionLifecycle userID sub t rows) := by
  unfold persistAdvancedSubscriptionLifecycle
  dsimp only
  split
  · exact h
  · rename_i hchanged
    exact h.updateWhere fun row _ => lifecycleWrite_mirrors (by simpa using hchanged) row

theorem EnabledMirrorsStatus.reconcileForUser (h : EnabledMirrorsStatus rows) (userID : Nat) (t : Time) :
    EnabledMirrorsStatus (reconcileSubscriptionLifecycleForUser userID t rows) :=
  List.foldlRecOn _ _ h fun _ h sub _ => h.persist userID sub t

theorem EnabledMirrorsStatus.reconcileDue (h : EnabledMirrorsStatus rows) (now : Time) :
    EnabledMirrorsStatus (reconcileDueLifecycles now rows) :=
  List.foldlRecOn _ _ h fun _ h userID _ => h.reconcileForUser userID now

theorem EnabledMirrorsStatus.reconcileForWrite (h : EnabledMirrorsStatus rows) (userID id : Nat)
    (t : Time) :
    EnabledMirrorsStatus (reconcileSubscriptionForWrite userID id t rows) := by
  unfold reconcileSubscriptionForWrite
  split
  · exact h
  · exact h.persist userID _ t

theorem EnabledMirrorsStatus.commit (h : EnabledMirrorsStatus rows) {set : Subscription → Subscription}
    (hset : ∀ row, (row.enabled = true ↔ row.status = subscriptionStatusActive) →
      ((set row).enabled = true ↔ (set row).status = subscriptionStatusActive)) (updatedAt : Time) :
    EnabledMirrorsStatus (commitUpdates userID id set updatedAt rows).2 := by
  have hrows : EnabledMirrorsStatus (Rows.updateWhere (isRow userID id) set rows) := h.updateWhere hset
  unfold commitUpdates updateSubscription
  split
  · exact h
  · rename_i hupdated
    split at hupdated <;> cases hupdated
    split <;> exact hrows

/-- The map of an update holds both columns or neither. -/
theorem apply_mirrors (updates : SubscriptionUpdates) (row : Subscription)
    (h : row.enabled = true ↔ row.status = subscriptionStatusActive) :
    (updates.apply row).enabled = true ↔ (updates.apply row).status = subscriptionStatusActive := by
  unfold SubscriptionUpdates.apply
  cases updates.lifecycle with
  | none => cases updates.schedule <;> exact h
  | some lifecycle => cases updates.schedule <;> exact decide_eq_true_iff

theorem EnabledMirrorsStatus.update (h : EnabledMirrorsStatus rows) (lookups : Lookups) (userID id : Nat)
    (input : UpdateSubscriptionInput) (readings : Readings) :
    EnabledMirrorsStatus (update lookups userID id input readings rows).2 := by
  have hrows := h.reconcileForWrite userID id readings.reconcile
  unfold Subdux.update
  dsimp only
  split
  · exact hrows
  · split
    · exact hrows
    · rename_i updates _
      exact hrows.commit (apply_mirrors updates) _

theorem EnabledMirrorsStatus.markManualRenewed (h : EnabledMirrorsStatus rows) (userID id : Nat)
    (readings : Readings) :
    EnabledMirrorsStatus (markManualRenewed userID id readings rows).2 := by
  have hrows := h.reconcileForWrite userID id readings.reconcile
  unfold Subdux.markManualRenewed
  dsimp only
  split
  · exact hrows
  · split
    · exact hrows
    · exact hrows.commit (fun row _ => iff_of_true rfl rfl) _

end Columns

/-! ## Runs -/

/-- A call with the clock it reads. -/
inductive TableWrite where
  | create (lookups : Lookups) (userID : Nat) (input : CreateSubscriptionInput) (now : Time)
  | update (lookups : Lookups) (userID id : Nat) (input : UpdateSubscriptionInput) (readings : Readings)
  | markManualRenewed (userID id : Nat) (readings : Readings)
  | reconcileDueLifecycles (now : Time)
  | reconcileUserLifecycle (userID : Nat) (now : Time)
  | importFromSubdux (lookups : ImportLookups) (userID : Nat) (data : List ImportRow)
  | importFromWallos (lookups : WallosLookups) (userID : Nat) (data : List WallosRow)

def applyWrite (table : SubscriptionTable) : TableWrite → SubscriptionTable
  | .create lookups userID input now => (create lookups userID input now table).2
  | .update lookups userID id input readings =>
    { table with rows := (update lookups userID id input readings table.rows).2 }
  | .markManualRenewed userID id readings =>
    { table with rows := (markManualRenewed userID id readings table.rows).2 }
  | .reconcileDueLifecycles now => { table with rows := reconcileDueLifecycles now table.rows }
  | .reconcileUserLifecycle userID now =>
    { table with rows := reconcileSubscriptionLifecycleForUser userID now table.rows }
  | .importFromSubdux lookups userID data => (importFromSubdux lookups userID data table).table
  | .importFromWallos lookups userID data =>
    match importFromWallos lookups userID data table with
    | .error _ => table
    | .ok st => st.table

/-- An item of a Subdux file is stored: it is the first of its key and passes the checks,
and matches neither a row that was there nor an earlier item that is stored. -/
def isImported (lookups : ImportLookups) (userID : Nat) (rows : List Subscription)
    (before : List ImportRow) (row : ImportRow) : Bool :=
  (ImportService.subscriptionUpsert lookups.parseURL userID).inserts (rows.map ImportService.identity)
    (before.map (·.incoming)) row.incoming

/-- What a call stores has not ended: by the status of the request, by the lifecycle
columns of the item, or by its flag. -/
def InsertsActive (table : SubscriptionTable) : TableWrite → Prop
  | .create lookups _ input _ =>
    input.Accepted lookups → normalizeStatus input.status ≠ subscriptionStatusEnded
  | .importFromSubdux lookups userID data =>
    ∀ before row after, data = before ++ row :: after →
      isImported lookups userID table.rows before row = true → importsActive row.incoming = true
  | .importFromWallos lookups userID data =>
    data.length ≤ maxWallosImportItems → ∀ before row after, data = before ++ row :: after →
      isStored lookups userID table.rows before row = true → parseEnabled row.item.active = true
  | _ => True

/-- The rows stay as they are when the loop does not store the item. -/
theorem importSubscription_keeps_iff (lookups : ImportLookups) (userID : Nat) (table : SubscriptionTable)
    (before : List ImportRow) (row : ImportRow) :
    let st := importFromSubdux lookups userID before table
    (importSubscription lookups userID st row).table.rows = st.table.rows ↔
      isImported lookups userID table.rows before row = false := by
  obtain ⟨hseen, hrun⟩ := ImportService.importRows_spec lookups userID table before
  have hspec := ImportService.importSubscription_spec lookups hseen row
  have hrows := hspec.rows
  have hsame := hspec.table
  dsimp only
  rw [hrun] at hsame hrows
  rw [isImported, ← Upsert.creates_run_eq_none_iff]
  constructor
  · intro h
    rw [h, hrun] at hrows
    have hnil := List.append_right_eq_self.1 hrows.symm
    exact Option.toList_eq_nil_iff.1 hnil
  · intro h
    rw [hsame h]

theorem importItem_keeps_iff (lookups : WallosLookups) (userID : Nat) (table : SubscriptionTable)
    (before : List WallosRow) (row : WallosRow) :
    let st := before.foldl (importItem lookups userID) ⟨table, [], 0, 0, []⟩
    (importItem lookups userID st row).table.rows = st.table.rows ↔
      isStored lookups userID table.rows before row = false := by
  obtain ⟨hseen, -, -, hrun⟩ := loop_spec lookups userID table before
  obtain ⟨-, created, hrows, hcreated⟩ := importItem_spec hseen row
  dsimp only
  rw [hrun] at hcreated
  rw [isStored, ← Upsert.creates_run_eq_none_iff, hrows, List.append_right_eq_self,
    ← Option.toList_eq_nil_iff, ← hcreated,
    List.map_eq_nil_iff]

/-- One call keeps the flag in step exactly when it stores no ended row. -/
theorem applyWrite_mirrors_iff (table : SubscriptionTable) (write : TableWrite)
    (h : EnabledMirrorsStatus table.rows) :
    EnabledMirrorsStatus (applyWrite table write).rows ↔ InsertsActive table write := by
  -- A write that keeps the rows or is active is one that is active if it stores something.
  have hstored : ∀ {stored : Bool} {active : Prop}, stored = false ∨ active ↔
      (stored = true → active) := by
    intro stored active
    cases stored <;> simp
  cases write with
  | create lookups userID input now =>
    simp only [applyWrite, InsertsActive]
    rw [(create_inserts lookups userID input now table).mirrors_iff h, create_keeps_iff,
      ← imp_iff_not_or]
  | update lookups userID id input readings =>
    exact iff_of_true (h.update lookups userID id input readings) trivial
  | markManualRenewed userID id readings =>
    exact iff_of_true (h.markManualRenewed userID id readings) trivial
  | reconcileDueLifecycles now => exact iff_of_true (h.reconcileDue now) trivial
  | reconcileUserLifecycle userID now => exact iff_of_true (h.reconcileForUser userID now) trivial
  | importFromSubdux lookups userID data =>
    have hinserts := importSubscription_inserts lookups userID
    let Mirrors (st : ImportState) : Prop := EnabledMirrorsStatus st.table.rows
    have hstep : ∀ before row, Mirrors (importFromSubdux lookups userID before table) →
        (Mirrors (importSubscription lookups userID (importFromSubdux lookups userID before table) row) ↔
          (isImported lookups userID table.rows before row = true →
            importsActive row.incoming = true)) := by
      intro before row hbefore
      have hkeeps := importSubscription_keeps_iff lookups userID table before row
      exact ((hinserts _ row).mirrors_iff hbefore).trans ((or_congr_left hkeeps).trans hstored)
    exact foldl_iff_splits hstep (fun st row => (hinserts st row).mirrors_back) h
  | importFromWallos lookups userID data =>
    simp only [applyWrite, importFromWallos, InsertsActive]
    by_cases hlarge : maxWallosImportItems < data.length
    · rw [if_pos hlarge]
      exact iff_of_true h fun hle => absurd hle (not_le.2 hlarge)
    · rw [if_neg hlarge]
      refine Iff.trans ?_ (forall_prop_of_true (not_lt.1 hlarge)).symm
      have hinserts := importItem_inserts lookups userID
      let Mirrors (st : WallosState) : Prop := EnabledMirrorsStatus st.table.rows
      have hstep : ∀ before row,
          Mirrors (before.foldl (importItem lookups userID) ⟨table, [], 0, 0, []⟩) →
          (Mirrors (importItem lookups userID
            (before.foldl (importItem lookups userID) ⟨table, [], 0, 0, []⟩) row) ↔
            (isStored lookups userID table.rows before row = true →
              parseEnabled row.item.active = true)) := by
        intro before row hbefore
        have hkeeps := importItem_keeps_iff lookups userID table before row
        exact ((hinserts _ row).mirrors_iff hbefore).trans ((or_congr_left hkeeps).trans hstored)
      exact foldl_iff_splits hstep (fun st row => (hinserts st row).mirrors_back) h

/-- From an empty table the flag mirrors the status after every call exactly when no call
stores a subscription that has ended. -/
theorem enabled_mirrors_status (nextID : Nat) (writes : List TableWrite) :
    (∀ before, before <+: writes → EnabledMirrorsStatus (before.foldl applyWrite ⟨[], nextID⟩).rows) ↔
      Throughout applyWrite InsertsActive ⟨[], nextID⟩ writes :=
  throughout_iff (fun table write => applyWrite_mirrors_iff table write) (by simp [EnabledMirrorsStatus])

/-- A subscription that is entered as ended is stored as enabled. -/
theorem ended_row_enabled :
    ¬ ∀ (nextID : Nat) (writes : List TableWrite), EnabledMirrorsStatus
    (writes.foldl applyWrite ⟨[], nextID⟩).rows := by
  intro h
  have hrow : ∃ row ∈
      ([TableWrite.create sampleLookups 1 { sampleCreate with status := "ended" }
        (dateUTC 2025 1 1)].foldl
      applyWrite ⟨[], 1⟩).rows, row.enabled = true ∧ row.status ≠ subscriptionStatusActive := by
    decide +kernel
  obtain ⟨row, hmem, henabled, hstatus⟩ := hrow
  exact hstatus ((h 1 _ row hmem).1 henabled)

end Subdux
