import Subdux.SchemaMigrations
/-!
# Migrations that start over

A server may be stopped at any statement of its migrations and started again. The rows it
ends up with are those of a start that nothing interrupted: a row that was written needs no
second write, and the rows after it are as they were.
-/

namespace Subdux
open Restarts Rows Runs GoStrings

/-! ## Updates of one row -/

section Updates
variable {sub : LegacySubscription} {now stamp : Time} {status : String}

@[simp] theorem changed_getD {α : Type} [DecidableEq α] (column value : α) :
    (changed column value).getD column = value := by
  unfold changed
  split
  · rfl
  · rename_i h
    exact (not_not.1 h).symm

theorem changed_eq_none {α : Type} [DecidableEq α] {column value : α} :
    changed column value = none ↔ value = column := by
  unfold changed
  split
  · simpa using ‹value ≠ column›
  · simpa using ‹¬value ≠ column›

theorem oneOf_mem {values : List String} {fallback : String} (h : fallback ∈ values) (value : String) :
    oneOf values fallback value ∈ values := by
  unfold oneOf
  split
  · assumption
  · exact h

/-- A value that is one of the constants is left alone. -/
theorem oneOf_lowerTrimmed {values : List String} {fallback value : String}
    (hconst : ∀ v ∈ values, lowerTrimmed v = v) (h : value ∈ values) :
    oneOf values fallback (lowerTrimmed value) = value := by
  rw [hconst value h]
  exact if_pos h

theorem LegacyUserUpdates.apply_id (updates : LegacyUserUpdates) (user : LegacyUser) :
    (updates.apply user).id = user.id := rfl

theorem LegacyUserUpdates.apply_none (user : LegacyUser) :
    LegacyUserUpdates.none.apply user = user := rfl

theorem LegacyUpdates.apply_none (stamp : Time) (sub : LegacySubscription) :
    (LegacyUpdates.none.apply stamp sub).row = sub.row := by
  simp [LegacyUpdates.apply, LegacyUpdates.none]

theorem legacyUserUpdates_apply (user : LegacyUser) : (legacyUserUpdates user).apply user =
    ⟨user.id, oneOf ["admin", "user"] "user" (lowerTrimmed user.role),
      oneOf ["active", "disabled"] "active" (lowerTrimmed user.status)⟩ := by
  simp [LegacyUserUpdates.apply, legacyUserUpdates]

/-- A user that was written needs no second write. -/
theorem legacyUserUpdates_again (user : LegacyUser) :
    legacyUserUpdates ((legacyUserUpdates user).apply user) = .none := by
  rw [legacyUserUpdates_apply]
  unfold legacyUserUpdates LegacyUserUpdates.none
  dsimp only
  rw [oneOf_lowerTrimmed (by decide) (oneOf_mem (by decide) _), oneOf_lowerTrimmed (by decide)
    (oneOf_mem (by decide) _)]
  simp [changed]

/-! ### Subscriptions -/

theorem lifecycleEndsAt_none :
    lifecycleEndsAt sub status now = none ↔
    (status = subscriptionStatusEnded → sub.row.endsAt ≠ none) := by
  unfold lifecycleEndsAt
  split
  · rename_i h
    simpa using h
  · rename_i h
    simpa using h

theorem lifecycleEndsAt_or (sub : LegacySubscription) (status : String) (now : Time)
    (h : status = subscriptionStatusEnded) :
    (lifecycleEndsAt sub status now).or sub.row.endsAt ≠ none := by
  unfold lifecycleEndsAt
  split
  · simp
  · rename_i hnot
    intro hnone
    exact hnot ⟨h, by simpa using hnone⟩

theorem modeOfStatus_mem (status : String) :
    modeOfStatus status ∈
    [renewalModeAutoRenew, renewalModeManualRenew, renewalModeCancelAtPeriodEnd] := by
  unfold modeOfStatus
  split <;> decide

theorem statusOfEnabled_mem (enabled : Bool) :
    statusOfEnabled enabled ∈ [subscriptionStatusActive, subscriptionStatusEnded] := by
  cases enabled <;> decide

theorem backfillStatus_ne_empty (sub : LegacySubscription) : backfillStatus sub ≠ "" := by
  unfold backfillStatus
  dsimp only
  split
  · cases sub.row.enabled <;> decide
  · assumption

/-- The status that a backfilled row is read as. -/
theorem backfillStatus_apply (sub : LegacySubscription) (now stamp : Time) :
    normalizeSubscriptionLifecycleValue
    ((backfillUpdates sub now).apply stamp sub).row.status = backfillStatus sub := by
  simp only [LegacyUpdates.apply, backfillUpdates]
  split
  · rename_i hblank
    simp only [backfillStatus, hblank, if_true, Option.getD_some]
    cases sub.row.enabled <;> decide
  · rename_i hblank
    simp only [backfillStatus, hblank, if_false, Option.getD_none]

theorem backfillMode_apply (sub : LegacySubscription) (now stamp : Time) :
    normalizeSubscriptionLifecycleValue
    ((backfillUpdates sub now).apply stamp sub).row.renewalMode ≠ "" := by
  simp only [LegacyUpdates.apply, backfillUpdates]
  split
  · simp only [Option.getD_some]
    unfold modeOfStatus
    split <;> decide
  · rename_i hblank
    exact hblank

/-- The columns of a backfilled row. -/
structure Backfilled (row : Subscription) : Prop where
  status : normalizeSubscriptionLifecycleValue row.status ≠ ""
  renewalMode : normalizeSubscriptionLifecycleValue row.renewalMode ≠ ""
  endsAt : normalizeSubscriptionLifecycleValue row.status = subscriptionStatusEnded → row.endsAt ≠ none
  enabled : row.enabled = decide
    (normalizeSubscriptionLifecycleValue row.status = subscriptionStatusActive)

theorem backfilled_apply (sub : LegacySubscription) (now stamp : Time) :
    Backfilled ((backfillUpdates sub now).apply stamp sub).row := by
  have hstatus := backfillStatus_apply sub now stamp
  constructor
  case status =>
    rw [hstatus]
    exact backfillStatus_ne_empty sub
  case renewalMode => exact backfillMode_apply sub now stamp
  case endsAt =>
    rw [hstatus]
    simp only [LegacyUpdates.apply, backfillUpdates]
    exact lifecycleEndsAt_or sub _ now
  case enabled =>
    rw [hstatus]
    simp only [LegacyUpdates.apply, backfillUpdates, lifecycleEnabled]
    exact changed_getD _ _

theorem Backfilled.updates (h : Backfilled sub.row) (now : Time) : backfillUpdates sub now = .none := by
  have hsame : backfillStatus sub = normalizeSubscriptionLifecycleValue sub.row.status := by
    unfold backfillStatus
    dsimp only
    exact if_neg h.status
  unfold backfillUpdates
  dsimp only
  rw [hsame, if_neg h.status, if_neg h.renewalMode, lifecycleEndsAt_none.2 h.endsAt, lifecycleEnabled,
    changed_eq_none.2 h.enabled.symm]
  rfl

theorem referenceUpdate_again (rows : List OwnedRow) (userID : Nat) (reference : Option Nat) :
    referenceUpdate rows userID ((referenceUpdate rows userID reference).getD reference) = none := by
  cases hupdate : referenceUpdate rows userID reference with
  | none => exact hupdate
  | some value =>
    have hvalue : value = none := by
      unfold referenceUpdate at hupdate
      split at hupdate
      · cases hupdate
      · split at hupdate
        · exact (Option.some.inj hupdate).symm
        · split at hupdate
          · exact (Option.some.inj hupdate).symm
          · cases hupdate
    rw [hvalue]
    rfl

theorem referenceUpdate_none {rows : List OwnedRow} {userID : Nat} {reference : Option Nat}
    (h : (referenceUpdate rows userID reference).getD reference = reference) :
    ∀ id ∈ reference, ∃ row ∈ rows, row.id = id ∧ row.userID = userID := by
  rintro id rfl
  unfold referenceUpdate at h
  dsimp only at h
  split at h
  · cases h
  · rename_i row hfind
    split at h
    · cases h
    · rename_i hsame
      exact ⟨row, List.mem_of_find?_eq_some hfind, by simpa using List.find?_some hfind, not_not.1 hsame⟩

/-! ### The hardening of a row -/

/-- The columns of a hardened row. -/
structure Hardened (t : MigrationTables) (row : Subscription) : Prop where
  amount : 0 ≤ row.amount
  status : row.status ∈ [subscriptionStatusActive, subscriptionStatusEnded]
  renewalMode : row.renewalMode ∈
    [renewalModeAutoRenew, renewalModeManualRenew, renewalModeCancelAtPeriodEnd]
  endsAt : row.status = subscriptionStatusEnded → row.endsAt ≠ none
  enabled : row.enabled = decide (row.status = subscriptionStatusActive)
  notifyDaysBefore : ∀ days ∈ row.notifyDaysBefore, daysInRange days = true
  categoryID : (referenceUpdate (t.owned .categories) row.userID row.categoryID) = none
  paymentMethodID : (referenceUpdate (t.owned .paymentMethods) row.userID row.paymentMethodID) = none

theorem hardenStatus_mem (sub : LegacySubscription) :
    hardenStatus sub ∈ [subscriptionStatusActive, subscriptionStatusEnded] :=
  oneOf_mem (statusOfEnabled_mem _) _

theorem hardened_apply (t : MigrationTables) (sub : LegacySubscription) (now stamp : Time) :
    Hardened t ((hardenUpdates t sub now).apply stamp sub).row := by
  constructor
  case amount =>
    simp only [LegacyUpdates.apply, hardenUpdates]
    split
    · exact le_refl _
    · rename_i h
      exact not_lt.1 h
  case status =>
    simp only [LegacyUpdates.apply, hardenUpdates, changed_getD]
    exact hardenStatus_mem sub
  case renewalMode =>
    simp only [LegacyUpdates.apply, hardenUpdates, changed_getD]
    exact oneOf_mem (modeOfStatus_mem _) _
  case endsAt =>
    simp only [LegacyUpdates.apply, hardenUpdates, changed_getD]
    exact lifecycleEndsAt_or sub _ now
  case enabled =>
    simp only [LegacyUpdates.apply, hardenUpdates, lifecycleEnabled, changed_getD]
  case notifyDaysBefore =>
    simp only [LegacyUpdates.apply, hardenUpdates]
    intro days hdays
    cases hnotify : sub.row.notifyDaysBefore with
    | none =>
      rw [hnotify] at hdays
      cases hdays
    | some n =>
      rw [hnotify, Option.bind_some] at hdays
      split at hdays
      · cases hdays
        assumption
      · cases hdays
  case categoryID =>
    simp only [LegacyUpdates.apply, hardenUpdates]
    exact referenceUpdate_again ..
  case paymentMethodID =>
    simp only [LegacyUpdates.apply, hardenUpdates]
    exact referenceUpdate_again ..

theorem Hardened.updates {t : MigrationTables} (h : Hardened t sub.row) (now : Time) :
    hardenUpdates t sub now = .none := by
  have hstatus : hardenStatus sub = sub.row.status := oneOf_lowerTrimmed (by decide) h.status
  have hnotify : (sub.row.notifyDaysBefore.bind fun days =>
      if daysInRange days then (none : Option (Option Int)) else some none) = none := by
    rw [Option.bind_eq_none_iff]
    intro days hdays
    exact if_pos (h.notifyDaysBefore days hdays)
  unfold hardenUpdates
  dsimp only
  rw [hstatus, if_neg (not_lt.2 h.amount), oneOf_lowerTrimmed (by decide) h.renewalMode,
    lifecycleEnabled, changed_eq_none.2 rfl,
    changed_eq_none.2 rfl, changed_eq_none.2 h.enabled.symm, lifecycleEndsAt_none.2 h.endsAt,
      hnotify, h.categoryID,
    h.paymentMethodID]
  rfl

end Updates

/-! ## Statements -/

section Statements
variable {t t' : MigrationTables} {clock : MigrationClock} {statement : MigrationStatement}

theorem MigrationTables.updateUser_of_none (t : MigrationTables) (user : LegacyUser) :
    t.updateUser user .none = t := if_pos rfl

theorem MigrationTables.updateSubscription_of_none (t : MigrationTables) (sub : LegacySubscription)
    (stamp : Time) :
    t.updateSubscription sub .none stamp = t := if_pos rfl

/-- The rows after an update; where there is nothing to set, only the stamp would be written. -/
theorem MigrationTables.updateUser_users (t : MigrationTables) (user : LegacyUser)
    (updates : LegacyUserUpdates) :
    t.updateUser user updates =
    { t with users := updateWhere (·.id = user.id) updates.apply t.users } := by
  unfold MigrationTables.updateUser
  split
  · rename_i h
    subst h
    have hsame : updateWhere (·.id = user.id) LegacyUserUpdates.none.apply t.users = t.users := by
      simp [updateWhere, LegacyUserUpdates.apply_none]
    rw [hsame]
  · rfl

theorem LegacyUpdates.apply_id (updates : LegacyUpdates) (stamp : Time) (sub : LegacySubscription) :
    (updates.apply stamp sub).row.id = sub.row.id := rfl

theorem MigrationTables.updateSubscription_ids (t : MigrationTables) (sub : LegacySubscription)
    (updates : LegacyUpdates) (stamp : Time) :
    (t.updateSubscription sub updates stamp).subscriptions.map (·.row.id) = t.subscriptions.map
    (·.row.id) := by
  unfold MigrationTables.updateSubscription
  split
  · rfl
  · exact map_updateWhere (fun r => r.row.id) fun r => LegacyUpdates.apply_id updates stamp r

/-- An update of a subscription leaves the other tables. -/
theorem MigrationTables.updateSubscription_others (t : MigrationTables) (sub : LegacySubscription)
    (updates : LegacyUpdates) (stamp : Time) :
    ∃ rows, t.updateSubscription sub updates stamp = { t with subscriptions := rows } := by
  unfold MigrationTables.updateSubscription
  split
  · exact ⟨t.subscriptions, rfl⟩
  · exact ⟨_, rfl⟩

theorem UniqueKeys.updateSubscription (ht : UniqueKeys t) (sub : LegacySubscription)
    (updates : LegacyUpdates) (stamp : Time) :
    UniqueKeys (t.updateSubscription sub updates stamp) := by
  have hids := t.updateSubscription_ids sub updates stamp
  obtain ⟨rows, hrows⟩ := t.updateSubscription_others sub updates stamp
  rw [hrows] at hids ⊢
  exact ⟨ht.users, by rw [hids]; exact ht.subscriptions, ht.policies, ht.logs⟩

theorem run_uniqueKeys (h : statement.run clock t = some t') (ht : UniqueKeys t) : UniqueKeys t' := by
  obtain ⟨husers, hsubscriptions, hpolicies, hlogs⟩ := ht
  cases statement with
  | backfill sub | normalizeSubscription sub =>
    obtain rfl := Option.some.inj h
    exact UniqueKeys.updateSubscription ⟨husers, hsubscriptions, hpolicies, hlogs⟩ sub _ _
  | normalizeUser user =>
    obtain rfl := Option.some.inj h
    rw [MigrationTables.updateUser_users]
    refine ⟨?_, hsubscriptions, hpolicies, hlogs⟩
    dsimp only
    rw [map_updateWhere]
    · exact husers
    · exact fun r => LegacyUserUpdates.apply_id _ r
  | deleteOrphans table =>
    obtain rfl := Option.some.inj h
    cases table with
    | owned table => exact ⟨husers, hsubscriptions, hpolicies, hlogs⟩
    | subscriptions =>
      exact ⟨husers, hsubscriptions.sublist (List.filter_sublist.map _), hpolicies, hlogs⟩
    | notificationPolicies =>
      exact ⟨husers, hsubscriptions, hpolicies.sublist (List.filter_sublist.map _), hlogs⟩
    | apiKeys => exact ⟨husers, hsubscriptions, hpolicies, hlogs⟩
  | clearCodes | fillKeyKinds =>
    obtain rfl := Option.some.inj h
    exact ⟨husers, hsubscriptions, hpolicies, hlogs⟩
  | normalizePolicy policy =>
    obtain rfl := Option.some.inj h
    split
    · exact ⟨husers, hsubscriptions, hpolicies, hlogs⟩
    · refine ⟨husers, hsubscriptions, ?_, hlogs⟩
      dsimp only
      rw [map_updateWhere]
      · exact hpolicies
      · exact fun _ => rfl
  | checkLog entry =>
    obtain rfl := Option.some.inj h
    split
    · exact ⟨husers, hsubscriptions, hpolicies, hlogs⟩
    · exact ⟨husers, hsubscriptions, hpolicies, hlogs.sublist (List.filter_sublist.map _)⟩
  | rebuild =>
    unfold MigrationStatement.run at h
    dsimp only at h
    split at h
    · obtain rfl := Option.some.inj h
      exact ⟨husers, hsubscriptions, hpolicies, hlogs⟩
    · cases h

/-! ### What a statement keeps -/

theorem KeepsRows.refl (t : MigrationTables) : KeepsRows t t where
  users := rfl
  owned _ := ⟨List.Subset.refl _, fun _ hrow _ => hrow⟩
  subscriptions := ⟨fun sub hsub => ⟨sub, hsub, rfl⟩, fun was hwas _ => ⟨was, hwas, rfl⟩⟩
  policies was hwas _ := ⟨was, hwas, rfl, rfl, fun _ => rfl⟩
  noPolicies policy hpolicy := ⟨policy, hpolicy, rfl, rfl⟩
  apiKeys := ⟨fun key hkey => ⟨key, hkey, .inl rfl⟩, fun was hwas _ => ⟨was, hwas, .inl rfl⟩⟩
  codes := ⟨fun code hcode => ⟨code, hcode, .inl rfl⟩, fun was hwas => ⟨was, hwas, .inl rfl⟩⟩
  logs := ⟨List.Subset.refl _, fun _ hentry _ _ => hentry⟩

/-- The columns that stay include the key and the owner. -/
theorem terms_id {row row' : Subscription} (h : row.terms = row'.terms) : row.id = row'.id := by
  have hid : row.terms.id = row'.terms.id := by rw [h]
  exact hid

theorem terms_userID {row row' : Subscription} (h : row.terms = row'.terms) :
    row.userID = row'.userID := by
  have howner : row.terms.userID = row'.terms.userID := by rw [h]
  exact howner

/-- A kind that is filled in is not blank. -/
theorem LegacyAPIKey.Becomes.trans {was mid key : LegacyAPIKey} (h : was.Becomes mid)
    (h' : mid.Becomes key) : was.Becomes key := by
  rcases h with rfl | ⟨hblank, rfl⟩
  · exact h'
  · rcases h' with rfl | ⟨hfilled, -⟩
    · exact .inr ⟨hblank, rfl⟩
    · have hkind : blankKeyKind (some "api_integration") = false := by decide
      rw [hkind] at hfilled
      cases hfilled

theorem LegacyAPIKey.Becomes.userID {was key : LegacyAPIKey} (h : was.Becomes key) :
    key.userID = was.userID := by
  rcases h with rfl | ⟨-, rfl⟩ <;> rfl

theorem LegacyVerificationCode.Becomes.trans {userIDs : List Nat} {was mid code : LegacyVerificationCode}
    (h : was.Becomes userIDs mid) (h' : mid.Becomes userIDs code) : was.Becomes userIDs code := by
  rcases h with rfl | ⟨hgone, rfl⟩
  · exact h'
  · rcases h' with rfl | ⟨⟨id, hid, -⟩, -⟩
    · exact .inr ⟨hgone, rfl⟩
    · cases hid

theorem KeepsRows.trans {a b c : MigrationTables} (h : KeepsRows a b) (h' : KeepsRows b c) :
    KeepsRows a c where
  users := h'.users.trans h.users
  owned table := by
    refine ⟨List.Subset.trans (h'.owned table).1 (h.owned table).1, fun row hrow hid => ?_⟩
    refine (h'.owned table).2 row ((h.owned table).2 row hrow hid) ?_
    rwa [MigrationTables.userIDs, h.users]
  subscriptions := by
    constructor
    · intro sub hsub
      obtain ⟨mid, hmid, hterms'⟩ := h'.subscriptions.1 sub hsub
      obtain ⟨was, hwas, hterms⟩ := h.subscriptions.1 mid hmid
      exact ⟨was, hwas, hterms'.trans hterms⟩
    · intro was hwas hid
      obtain ⟨mid, hmid, hterms⟩ := h.subscriptions.2 was hwas hid
      obtain ⟨sub, hsub, hterms'⟩ :=
        h'.subscriptions.2 mid hmid (by rwa [MigrationTables.userIDs, h.users, terms_userID hterms])
      exact ⟨sub, hsub, hterms'.trans hterms⟩
  policies := by
    intro was hwas hid
    obtain ⟨mid, hmid, hkey, howner, hsame⟩ := h.policies was hwas hid
    obtain ⟨policy, hpolicy, hkey', howner', hsame'⟩ :=
      h'.policies mid hmid (by rwa [MigrationTables.userIDs, h.users, howner])
    refine ⟨policy, hpolicy, hkey'.trans hkey, howner'.trans howner, fun hdays => ?_⟩
    obtain rfl := hsame hdays
    exact hsame' hdays
  noPolicies policy hpolicy := by
    obtain ⟨mid, hmid, hkey', howner'⟩ := h'.noPolicies policy hpolicy
    obtain ⟨was, hwas, hkey, howner⟩ := h.noPolicies mid hmid
    exact ⟨was, hwas, hkey'.trans hkey, howner'.trans howner⟩
  apiKeys := by
    constructor
    · intro key hkey
      obtain ⟨mid, hmid, hbecomes'⟩ := h'.apiKeys.1 key hkey
      obtain ⟨was, hwas, hbecomes⟩ := h.apiKeys.1 mid hmid
      exact ⟨was, hwas, hbecomes.trans hbecomes'⟩
    · intro was hwas hid
      obtain ⟨mid, hmid, hbecomes⟩ := h.apiKeys.2 was hwas hid
      obtain ⟨key, hkey, hbecomes'⟩ :=
        h'.apiKeys.2 mid hmid (by rwa [MigrationTables.userIDs, h.users, hbecomes.userID])
      exact ⟨key, hkey, hbecomes.trans hbecomes'⟩
  codes := by
    have hids : b.userIDs = a.userIDs := h.users
    obtain ⟨hfrom, hto⟩ := h'.codes
    rw [hids] at hfrom hto
    constructor
    · intro code hcode
      obtain ⟨mid, hmid, hbecomes'⟩ := hfrom code hcode
      obtain ⟨was, hwas, hbecomes⟩ := h.codes.1 mid hmid
      exact ⟨was, hwas, hbecomes.trans hbecomes'⟩
    · intro was hwas
      obtain ⟨mid, hmid, hbecomes⟩ := h.codes.2 was hwas
      obtain ⟨code, hcode, hbecomes'⟩ := hto mid hmid
      exact ⟨code, hcode, hbecomes.trans hbecomes'⟩
  logs := by
    refine ⟨List.Subset.trans h'.logs.1 h.logs.1, ?_⟩
    rintro entry hentry hid ⟨was, hwas, hkey, howner⟩
    have huser : was.row.userID ∈ a.userIDs := howner ▸ hid
    obtain ⟨mid, hmid, hterms⟩ := h.subscriptions.2 was hwas huser
    refine h'.logs.2 entry (h.logs.2 entry hentry hid ⟨was, hwas, hkey, howner⟩) ?_ ⟨mid, hmid, ?_, ?_⟩
    · rwa [MigrationTables.userIDs, h.users]
    · rw [terms_id hterms, hkey]
    · rw [terms_userID hterms, howner]

theorem LegacyUpdates.apply_terms (updates : LegacyUpdates) (stamp : Time) (sub : LegacySubscription) :
    (updates.apply stamp sub).row.terms = sub.row.terms := rfl

theorem KeepsRows.updateSubscription (t : MigrationTables) (sub : LegacySubscription)
    (updates : LegacyUpdates) (stamp : Time) :
    KeepsRows t (t.updateSubscription sub updates stamp) := by
  unfold MigrationTables.updateSubscription
  split
  · exact .refl t
  · refine { KeepsRows.refl t with subscriptions := ⟨fun row hrow => ?_, fun was hwas _ => ?_⟩ }
    · rcases mem_updateWhere_cases hrow with ⟨hrow, -⟩ | ⟨was, hwas, -, rfl⟩
      · exact ⟨row, hrow, rfl⟩
      · exact ⟨was, hwas, LegacyUpdates.apply_terms updates stamp was⟩
    · by_cases hid : was.row.id = sub.row.id
      · exact ⟨_, mem_updateWhere_of hwas (decide_eq_true hid),
          LegacyUpdates.apply_terms updates stamp was⟩
      · exact ⟨was, mem_updateWhere_of_not hwas (decide_eq_false hid), rfl⟩

/-- A log is deleted only for want of its user or its subscription. -/
theorem MigrationTables.keepsLog_of {entry : LegacyLog} {sub : LegacySubscription} (ht : UniqueKeys t)
    (hid : entry.userID ∈ t.userIDs)
    (hsub : sub ∈ t.subscriptions) (hkey : sub.row.id = entry.subscriptionID)
    (howner : sub.row.userID = entry.userID) :
    t.keepsLog entry = true := by
  obtain ⟨user, huser, hsame⟩ := List.mem_map.1 hid
  have hfind : t.subscriptions.find? (·.row.id = entry.subscriptionID) = some sub := by
    cases hfound : t.subscriptions.find? (·.row.id = entry.subscriptionID) with
    | none => exact absurd hkey (by simpa using List.find?_eq_none.1 hfound sub hsub)
    | some found =>
      have hfoundID : found.row.id = entry.subscriptionID := by simpa using List.find?_some hfound
      exact congrArg some
        (eq_of_key ht.subscriptions (List.mem_of_find?_eq_some hfound) hsub (hfoundID.trans hkey.symm))
  unfold MigrationTables.keepsLog
  rw [hfind]
  simp only [decide_eq_true_eq, List.any_eq_true, Option.any_some]
  exact ⟨⟨user, huser, hsame⟩, howner⟩

/-- The row with the key of the row that the statement was planned for is still that row, or was
written already. -/
def MigrationStatement.Fits (t : MigrationTables) : MigrationStatement → Prop
  | checkLog entry => ∀ e ∈ t.logs, e.id = entry.id → e = entry
  | normalizePolicy policy => ∀ p ∈ t.policies, p.id = policy.id → p = policy ∨ p.daysBefore = 3
  | _ => True

theorem run_keepsRows (h : statement.run clock t = some t') (ht : UniqueKeys t)
    (hfits : statement.Fits t) : KeepsRows t t' := by
  have hrefl := KeepsRows.refl t
  cases statement with
  | backfill sub | normalizeSubscription sub =>
    obtain rfl := Option.some.inj h
    exact .updateSubscription t sub _ _
  | normalizeUser user =>
    obtain rfl := Option.some.inj h
    rw [MigrationTables.updateUser_users]
    exact { hrefl with users := map_updateWhere (·.id) fun r => LegacyUserUpdates.apply_id _ r }
  | deleteOrphans table =>
    obtain rfl := Option.some.inj h
    cases table with
    | owned table =>
      refine { hrefl with owned := fun other => ?_ }
      dsimp only [MigrationTables.deleteOrphans]
      -- a filtered table keeps each row whose user exists; the others are not touched
      by_cases hother : other = table
      · subst hother
        rw [Function.update_self]
        exact ⟨List.filter_sublist.subset, fun row hrow hid =>
          List.mem_filter.2 ⟨hrow, decide_eq_true hid⟩⟩
      · rw [Function.update_of_ne hother]
        exact hrefl.owned other
    | subscriptions =>
      refine { hrefl with subscriptions := ⟨fun sub hsub => ?_, fun was hwas hid => ?_⟩ }
      · exact ⟨sub, List.mem_of_mem_filter hsub, rfl⟩
      · exact ⟨was, List.mem_filter.2 ⟨hwas, decide_eq_true hid⟩, rfl⟩
    | notificationPolicies =>
      refine { hrefl with policies := fun was hwas hid => ?_, noPolicies := fun policy hpolicy => ?_ }
      · exact ⟨was, List.mem_filter.2 ⟨hwas, decide_eq_true hid⟩, rfl, rfl, fun _ => rfl⟩
      · exact ⟨policy, List.mem_of_mem_filter hpolicy, rfl, rfl⟩
    | apiKeys =>
      refine { hrefl with apiKeys := ⟨fun key hkey => ?_, fun was hwas hid => ?_⟩ }
      · exact ⟨key, List.mem_of_mem_filter hkey, .inl rfl⟩
      · exact ⟨was, List.mem_filter.2 ⟨hwas, decide_eq_true hid⟩, .inl rfl⟩
  | clearCodes =>
    obtain rfl := Option.some.inj h
    have hgone : ∀ code : LegacyVerificationCode, code.userID.any (· ∉ t.userIDs) = true →
        ∃ id ∈ code.userID, id ∉ t.userIDs :=
      fun code hany => by
        obtain ⟨id, hid, hnot⟩ := (Option.any_eq_true _ _).1 hany
        exact ⟨id, hid, of_decide_eq_true hnot⟩
    refine { hrefl with codes := ⟨fun code hcode => ?_, fun was hwas => ?_⟩ }
    · -- a code loses its user only when that user is gone
      rcases mem_updateWhere_cases hcode with ⟨hcode, -⟩ | ⟨was, hwas, hany, rfl⟩
      · exact ⟨code, hcode, .inl rfl⟩
      · exact ⟨was, hwas, .inr ⟨hgone was hany, rfl⟩⟩
    · cases hany : was.userID.any (· ∉ t.userIDs) with
      | true => exact ⟨_, mem_updateWhere_of hwas hany, .inr ⟨hgone was hany, rfl⟩⟩
      | false => exact ⟨was, mem_updateWhere_of_not hwas hany, .inl rfl⟩
  | fillKeyKinds =>
    obtain rfl := Option.some.inj h
    refine { hrefl with apiKeys := ⟨fun key hkey => ?_, fun was hwas _ => ?_⟩ }
    · rcases mem_updateWhere_cases hkey with ⟨hkey, -⟩ | ⟨was, hwas, hblank, rfl⟩
      · exact ⟨key, hkey, .inl rfl⟩
      · exact ⟨was, hwas, .inr ⟨hblank, rfl⟩⟩
    · cases hblank : blankKeyKind was.keyKind with
      | true => exact ⟨_, mem_updateWhere_of hwas hblank, .inr ⟨hblank, rfl⟩⟩
      | false => exact ⟨was, mem_updateWhere_of_not hwas hblank, .inl rfl⟩
  | normalizePolicy policy =>
    obtain rfl := Option.some.inj h
    split
    · exact hrefl
    · rename_i hdays
      refine { hrefl with policies := fun was hwas _ => ?_, noPolicies := fun row hrow => ?_ }
      · by_cases hid : was.id = policy.id
        · refine ⟨_, mem_updateWhere_of hwas (decide_eq_true hid), rfl, rfl, ?_⟩
          intro hrange
          -- the row is as it was read, or its days have been set to three already
          rcases hfits was hwas hid with rfl | hthree
          · exact absurd hrange hdays
          · rw [← hthree]
        · exact ⟨was, mem_updateWhere_of_not hwas (decide_eq_false hid), rfl, rfl, fun _ => rfl⟩
      · rcases mem_updateWhere_cases hrow with ⟨hrow, -⟩ | ⟨was, hwas, -, rfl⟩
        · exact ⟨row, hrow, rfl, rfl⟩
        · exact ⟨was, hwas, rfl, rfl⟩
  | checkLog entry =>
    obtain rfl := Option.some.inj h
    split
    · exact hrefl
    · rename_i hkeep
      refine { hrefl with logs := ⟨List.filter_sublist.subset, ?_⟩ }
      rintro e he hid ⟨sub, hsub, hkey, howner⟩
      -- the check that found no owner was about another row
      refine List.mem_filter.2 ⟨he, decide_eq_true fun hsame => hkeep ?_⟩
      rw [← hfits e he hsame]
      exact MigrationTables.keepsLog_of ht hid hsub hkey howner
  | rebuild =>
    unfold MigrationStatement.run at h
    dsimp only at h
    split at h
    · obtain rfl := Option.some.inj h
      exact hrefl
    · cases h

end Statements

/-! ## Phases with nothing left to do -/

section Idle
variable {t t' : MigrationTables}

/-- The update of a row of the table is the row's own. -/
theorem updateWhere_key {α : Type} {κ : Type} [DecidableEq κ] {key : α → κ} {rows : List α} {r : α}
    (hnodup : (rows.map key).Nodup)
    (hr : r ∈ rows) (f : α → α) :
    updateWhere (fun x => decide (key x = key r)) f rows = rows.flatMap fun x => if key x = key r
    then [f r] else [x] := by
  rw [updateWhere, List.map_eq_flatMap]
  apply List.flatMap_congr
  intro x hx
  by_cases hkey : key x = key r
  · rw [eq_of_key hnodup hx hr hkey]
    simp
  · simp [hkey]

theorem updateWhere_eq_self {α : Type} {p : α → Bool} {f : α → α} {rows : List α} :
    updateWhere p f rows = rows ↔ ∀ r ∈ rows, p r = true → f r = r := by
  have hmap : updateWhere p f rows = rows ↔
      rows.map (fun r => if p r then f r else r) = rows.map id := by
    rw [List.map_id]
    rfl
  rw [hmap, List.map_inj_left]
  refine forall₂_congr fun r _ => ?_
  split
  · rename_i hp
    exact ⟨fun h _ => h, fun h => h hp⟩
  · rename_i hp
    exact ⟨fun _ hp' => absurd hp' hp, fun _ => rfl⟩

/-- A row after its update: where there is nothing to set, not even the stamp is written. -/
def LegacyUpdates.set (updates : LegacyUpdates) (stamp : Time) (sub : LegacySubscription) :
    LegacySubscription :=
  if updates = .none then sub else updates.apply stamp sub

theorem LegacyUpdates.set_row (updates : LegacyUpdates) (stamp : Time) (sub : LegacySubscription) :
    (updates.set stamp sub).row = (updates.apply stamp sub).row := by
  unfold LegacyUpdates.set
  split
  · rename_i h
    rw [h, LegacyUpdates.apply_none]
  · rfl

theorem MigrationTables.updateSubscription_rows (t : MigrationTables) (sub : LegacySubscription)
    (updates : LegacyUpdates) (stamp : Time) : t.updateSubscription sub updates stamp =
      { t with
        subscriptions := updateWhere (·.row.id = sub.row.id) (updates.set stamp) t.subscriptions } := by
  unfold MigrationTables.updateSubscription
  split
  · rename_i h
    have hsame : updateWhere (·.row.id = sub.row.id)
        (updates.set stamp) t.subscriptions = t.subscriptions := by
      refine updateWhere_eq_self.2 fun r _ _ => ?_
      rw [LegacyUpdates.set, if_pos h]
    rw [hsame]
  · rename_i h
    have hset : updates.set stamp = updates.apply stamp := by
      funext r
      exact if_neg h
    rw [hset]

theorem MigrationTables.updateSubscription_self {sub : LegacySubscription} {updates : LegacyUpdates}
    {stamp : Time} (hsub : sub ∈ t.subscriptions) (h : t.updateSubscription sub updates stamp = t) :
    (updates.apply stamp sub).row = sub.row := by
  rw [MigrationTables.updateSubscription_rows] at h
  have hrows :=
    updateWhere_eq_self.1 (congrArg MigrationTables.subscriptions h) sub hsub (decide_eq_true rfl)
  rw [← LegacyUpdates.set_row, hrows]

theorem idle_users : Idle MigrationStatement.run (normalizeUsersForSQLiteConstraints t) t ↔
    ∀ user ∈ t.users, legacyUserUpdates user = .none := by
  unfold Idle normalizeUsersForSQLiteConstraints
  rw [List.forall_mem_map]
  refine forall₂_congr fun user huser => ⟨fun h => ?_, fun h clock => ?_⟩
  · have hsame := Option.some.inj (h ⟨.zero, .zero⟩)
    rw [MigrationTables.updateUser_users] at hsame
    have hrow :=
      updateWhere_eq_self.1 (congrArg MigrationTables.users hsame) user huser (decide_eq_true rfl)
    rw [← hrow]
    exact legacyUserUpdates_again user
  · unfold MigrationStatement.run
    dsimp only
    rw [h, MigrationTables.updateUser_of_none]

theorem idle_subscriptions :
    Idle MigrationStatement.run (normalizeSubscriptionsForSQLiteConstraints t) t ↔
    ∀ sub ∈ t.subscriptions, Hardened t sub.row := by
  unfold Idle normalizeSubscriptionsForSQLiteConstraints
  rw [List.forall_mem_map]
  refine forall₂_congr fun sub hsub => ⟨fun h => ?_, fun h clock => ?_⟩
  · have hrow := MigrationTables.updateSubscription_self hsub (Option.some.inj (h ⟨.zero, .zero⟩))
    rw [← hrow]
    exact hardened_apply t sub _ _
  · unfold MigrationStatement.run
    dsimp only
    rw [h.updates, MigrationTables.updateSubscription_of_none]

theorem idle_policies :
    Idle MigrationStatement.run (normalizeNotificationPoliciesForSQLiteConstraints t) t ↔
    ∀ policy ∈ t.policies, daysInRange policy.daysBefore = true := by
  unfold Idle normalizeNotificationPoliciesForSQLiteConstraints
  rw [List.forall_mem_map]
  refine forall₂_congr fun policy hpolicy => ⟨fun h => ?_, fun h clock => ?_⟩
  · have hsame := Option.some.inj (h ⟨.zero, .zero⟩)
    split at hsame
    · assumption
    · have hrow :=
        updateWhere_eq_self.1 (congrArg MigrationTables.policies hsame) policy hpolicy
          (decide_eq_true rfl)
      rw [← hrow]
      exact (by decide : daysInRange 3 = true)
  · exact congrArg some (if_pos h)

theorem idle_logs : Idle MigrationStatement.run (cleanupNotificationLogOrphans t) t ↔
    ∀ entry ∈ t.logs, t.keepsLog entry = true := by
  unfold Idle cleanupNotificationLogOrphans
  rw [List.forall_mem_map]
  refine forall₂_congr fun entry hentry => ⟨fun h => ?_, fun h clock => ?_⟩
  · have hsame := Option.some.inj (h ⟨.zero, .zero⟩)
    split at hsame
    · assumption
    · have hrow := List.filter_eq_self.1 (congrArg MigrationTables.logs hsame) entry hentry
      simp at hrow
  · exact congrArg some (if_pos h)

theorem idle_rebuild : Idle MigrationStatement.run (rebuildSQLiteTables t) t ↔ SQLiteConstraints t := by
  simp only [Idle, rebuildSQLiteTables, List.forall_mem_singleton, MigrationStatement.run]
  constructor
  · intro h
    by_contra hnot
    have hclock := h ⟨.zero, .zero⟩
    rw [if_neg hnot] at hclock
    cases hclock
  · exact fun h _ => if_pos h

def OrphanFree (t : MigrationTables) : ScopedTable → Prop
  | .owned table => ∀ row ∈ t.owned table, row.userID ∈ t.userIDs
  | .subscriptions => ∀ sub ∈ t.subscriptions, sub.row.userID ∈ t.userIDs
  | .notificationPolicies => ∀ policy ∈ t.policies, policy.userID ∈ t.userIDs
  | .apiKeys => ∀ key ∈ t.apiKeys, key.userID ∈ t.userIDs

/-- Every row belongs to a user, and every code to a user or to nobody. -/
structure OwnersExist (t : MigrationTables) : Prop where
  tables : ∀ table, OrphanFree t table
  codes : ∀ code ∈ t.codes, ∀ id ∈ code.userID, id ∈ t.userIDs

theorem mem_scopedTables (table : ScopedTable) : table ∈ scopedTables := by
  cases table with
  | owned table => cases table <;> decide
  | subscriptions | notificationPolicies | apiKeys => decide

theorem orphanFree_iff {table : ScopedTable} : OrphanFree t table ↔ t.deleteOrphans table = t := by
  cases table with
  | owned table =>
    constructor
    · intro h
      have hfilter : (t.owned table).filter (·.userID ∈ t.userIDs) = t.owned table :=
        List.filter_eq_self.2 fun row hrow => decide_eq_true (h row hrow)
      dsimp only [MigrationTables.deleteOrphans]
      rw [hfilter, Function.update_eq_self]
    · intro h row hrow
      have hsame := congrArg (fun t => MigrationTables.owned t table) h
      dsimp only [MigrationTables.deleteOrphans] at hsame
      rw [Function.update_self] at hsame
      simpa using List.filter_eq_self.1 hsame row hrow
  | subscriptions =>
    constructor
    · intro h
      dsimp only [MigrationTables.deleteOrphans]
      rw [List.filter_eq_self.2 fun sub hsub => decide_eq_true (h sub hsub)]
    · intro h sub hsub
      simpa using List.filter_eq_self.1 (congrArg MigrationTables.subscriptions h) sub hsub
  | notificationPolicies =>
    constructor
    · intro h
      dsimp only [MigrationTables.deleteOrphans]
      rw [List.filter_eq_self.2 fun policy hpolicy => decide_eq_true (h policy hpolicy)]
    · intro h policy hpolicy
      simpa using List.filter_eq_self.1 (congrArg MigrationTables.policies h) policy hpolicy
  | apiKeys =>
    constructor
    · intro h
      dsimp only [MigrationTables.deleteOrphans]
      rw [List.filter_eq_self.2 fun key hkey => decide_eq_true (h key hkey)]
    · intro h key hkey
      simpa using List.filter_eq_self.1 (congrArg MigrationTables.apiKeys h) key hkey

theorem codesFree_iff : (∀ code ∈ t.codes, ∀ id ∈ code.userID, id ∈ t.userIDs) ↔ t.clearCodes = t := by
  constructor
  · intro h
    unfold MigrationTables.clearCodes
    rw [updateWhere_eq_self.2]
    intro code hcode hgone
    obtain ⟨id, hid, hnot⟩ := (Option.any_eq_true _ _).1 hgone
    exact absurd (h code hcode id hid) (by simpa using hnot)
  · intro h code hcode id hid
    by_contra hnot
    have hrow :=
      updateWhere_eq_self.1 (congrArg MigrationTables.codes h) code hcode
        (by simpa [Option.mem_def.1 hid] using hnot)
    rw [← hrow] at hid
    cases hid

theorem idle_orphans : Idle MigrationStatement.run (cleanupUserScopedOrphans t) t ↔ OwnersExist t := by
  simp only [Idle, cleanupUserScopedOrphans, List.forall_mem_append, List.forall_mem_map,
    List.forall_mem_singleton]
  constructor
  · rintro ⟨htables, hcodes⟩
    refine ⟨fun table => ?_, codesFree_iff.2 (Option.some.inj (hcodes ⟨.zero, .zero⟩))⟩
    exact orphanFree_iff.2 (Option.some.inj (htables table (mem_scopedTables table) ⟨.zero, .zero⟩))
  · intro h
    exact ⟨fun table _ _ => congrArg some (orphanFree_iff.1 (h.tables table)), fun _ =>
      congrArg some (codesFree_iff.1 h.codes)⟩

/-- What the first five phases leave meets the constraints. -/
theorem constraints_of_idle (husers : ∀ user ∈ t.users, legacyUserUpdates user = .none)
    (howners : OwnersExist t) (hsubscriptions : ∀ sub ∈ t.subscriptions, Hardened t sub.row)
    (hpolicies : ∀ policy ∈ t.policies, daysInRange policy.daysBefore = true)
    (hlogs : ∀ entry ∈ t.logs, t.keepsLog entry = true) : SQLiteConstraints t where
  users user huser := by
    have hnone := husers user huser
    rw [legacyUserUpdates, LegacyUserUpdates.none, LegacyUserUpdates.mk.injEq] at hnone
    rw [← changed_eq_none.1 hnone.1, ← changed_eq_none.1 hnone.2]
    exact ⟨oneOf_mem (by decide) _, oneOf_mem (by decide) _⟩
  owned table := howners.tables (.owned table)
  policies policy hpolicy :=
    ⟨howners.tables .notificationPolicies policy hpolicy, hpolicies policy hpolicy⟩
  apiKeys := howners.tables .apiKeys
  codes := howners.codes
  subscriptionChecks sub hsub := by
    have h := hsubscriptions sub hsub
    refine ⟨h.amount, ?_, ?_, h.notifyDaysBefore⟩
    · simpa [isValidSubscriptionStatus] using h.status
    · simpa [isValidRenewalMode] using h.renewalMode
  subscriptionKeys sub hsub := by
    have h := hsubscriptions sub hsub
    refine ⟨howners.tables .subscriptions sub hsub, fun id hid => ?_, fun id hid => ?_⟩
    · obtain ⟨row, hrow, hkey, -⟩ := referenceUpdate_none (by rw [h.categoryID]; rfl) id hid
      exact List.mem_map.2 ⟨row, hrow, hkey⟩
    · obtain ⟨row, hrow, hkey, -⟩ := referenceUpdate_none (by rw [h.paymentMethodID]; rfl) id hid
      exact List.mem_map.2 ⟨row, hrow, hkey⟩
  logs entry hentry := by
    have hkeep := hlogs entry hentry
    simp only [MigrationTables.keepsLog, decide_eq_true_eq, List.any_eq_true, Option.any_eq_true]
      at hkeep
    obtain ⟨⟨user, huser, hid⟩, sub, hfind, -⟩ := hkeep
    refine ⟨List.mem_map.2 ⟨user, huser, hid⟩, List.mem_map.2 ⟨sub, List.mem_of_find?_eq_some hfind, ?_⟩⟩
    simpa using List.find?_some hfind

end Idle

/-! ## Phases that can be run again -/

section Resume
variable {t t' : MigrationTables} {clock : MigrationClock} {statement : MigrationStatement}

theorem flatMap_filter_key {rows : List LegacyLog} {entry : LegacyLog} :
    rows.filter (·.id ≠ entry.id) = rows.flatMap fun e => if e.id = entry.id
    then (none : Option LegacyLog).toList else [e] := by
  induction rows with
  | nil => rfl
  | cons e rows ih =>
    rw [List.filter_cons, List.flatMap_cons, ih]
    by_cases hkey : e.id = entry.id <;> simp [hkey]

theorem keyed_some {α : Type} {κ : Type} [DecidableEq κ] {key : α → κ} {rows : List α} {r : α}
    (hnodup : (rows.map key).Nodup) (hr : r ∈ rows) :
    rows = rows.flatMap fun x => if key x = key r then (some r).toList else [x] := by
  have hid : updateWhere (fun x => decide (key x = key r)) id rows = rows :=
    updateWhere_eq_self.2 fun _ _ _ => rfl
  exact hid.symm.trans (updateWhere_key hnodup hr id)

theorem resumable_users :
    Resumable MigrationStatement.run UniqueKeys normalizeUsersForSQLiteConstraints := by
  refine resumable_sweep (fun user : LegacyUser => user.id)
    (fun _ user => legacyUserUpdates user = .none) ?_ ?_ ?_ ?_ ?_
  · exact fun s hs => hs.users
  · exact fun _ _ _ _ hs h => run_uniqueKeys h hs
  · exact fun _ _ _ _ _ _ h => h
  · intro user clock s t hs huser h
    obtain rfl := Option.some.inj h
    refine ⟨some ((legacyUserUpdates user).apply user), ?_, ?_⟩
    · rw [MigrationTables.updateUser_users]
      exact updateWhere_key hs.users huser _
    · rintro x ⟨⟩
      exact legacyUserUpdates_again user
  · intro s user clock h
    unfold MigrationStatement.run
    dsimp only
    rw [h, MigrationTables.updateUser_of_none]

theorem updateSubscription_keyed {sub : LegacySubscription} {updates : LegacyUpdates} {stamp : Time}
    (ht : UniqueKeys t) (hsub : sub ∈ t.subscriptions) :
    (t.updateSubscription sub updates stamp).subscriptions =
      t.subscriptions.flatMap fun x => if x.row.id = sub.row.id
        then (some (updates.set stamp sub)).toList else [x] := by
  rw [MigrationTables.updateSubscription_rows]
  exact updateWhere_key ht.subscriptions hsub _

theorem resumable_backfill :
    Resumable MigrationStatement.run UniqueKeys backfillSubscriptionLifecycleFields := by
  refine resumable_sweep (fun sub : LegacySubscription => sub.row.id)
    (fun _ sub => Backfilled sub.row) ?_ ?_ ?_ ?_ ?_
  · exact fun s hs => hs.subscriptions
  · exact fun _ _ _ _ hs h => run_uniqueKeys h hs
  · exact fun _ _ _ _ _ _ h => h
  · intro sub clock s t hs hsub h
    obtain rfl := Option.some.inj h
    refine ⟨some ((backfillUpdates sub clock.now).set clock.stamp sub),
      updateSubscription_keyed hs hsub, ?_⟩
    intro x hx
    rw [← Option.some.inj hx, LegacyUpdates.set_row]
    exact backfilled_apply sub _ _
  · intro s sub clock h
    unfold MigrationStatement.run
    dsimp only
    rw [h.updates, MigrationTables.updateSubscription_of_none]

theorem Hardened.congr {row : Subscription} (h : Hardened t row) (howned : t'.owned = t.owned) :
    Hardened t' row := by
  obtain ⟨hamount, hstatus, hmode, hends, henabled, hdays, hcategory, hmethod⟩ := h
  exact ⟨hamount, hstatus, hmode, hends, henabled, hdays, by rw [howned]; exact hcategory,
    by rw [howned]; exact hmethod⟩

theorem resumable_subscriptions :
    Resumable MigrationStatement.run UniqueKeys normalizeSubscriptionsForSQLiteConstraints := by
  have howned : ∀ (sub : LegacySubscription) clock s t,
      (MigrationStatement.normalizeSubscription sub).run clock s = some t →
      t.owned = s.owned := by
    intro sub clock s t h
    obtain rfl := Option.some.inj h
    rw [MigrationTables.updateSubscription_rows]
  refine resumable_sweep (fun sub : LegacySubscription => sub.row.id)
    (fun s sub => Hardened s sub.row) ?_ ?_ ?_ ?_ ?_
  · exact fun s hs => hs.subscriptions
  · exact fun _ _ _ _ hs h => run_uniqueKeys h hs
  · exact fun sub _ clock s t h hx => hx.congr (howned sub clock s t h)
  · intro sub clock s t hs hsub h
    have hsame := howned sub clock s t h
    obtain rfl := Option.some.inj h
    refine ⟨some ((hardenUpdates s sub clock.now).set clock.stamp sub),
      updateSubscription_keyed hs hsub, ?_⟩
    intro x hx
    rw [← Option.some.inj hx, LegacyUpdates.set_row]
    exact (hardened_apply s sub _ _).congr hsame
  · intro s sub clock h
    unfold MigrationStatement.run
    dsimp only
    rw [h.updates, MigrationTables.updateSubscription_of_none]

theorem resumable_policies :
    Resumable MigrationStatement.run UniqueKeys normalizeNotificationPoliciesForSQLiteConstraints := by
  refine resumable_sweep (fun policy : LegacyPolicy => policy.id)
    (fun _ policy => daysInRange policy.daysBefore = true) ?_ ?_ ?_ ?_ ?_
  · exact fun s hs => hs.policies
  · exact fun _ _ _ _ hs h => run_uniqueKeys h hs
  · exact fun _ _ _ _ _ _ h => h
  · intro policy clock s t hs hpolicy h
    obtain rfl := Option.some.inj h
    split
    · rename_i hdays
      refine ⟨some policy, keyed_some hs.policies hpolicy, ?_⟩
      rintro x ⟨⟩
      exact hdays
    · refine ⟨some { policy with daysBefore := 3 }, updateWhere_key hs.policies hpolicy _, ?_⟩
      rintro x ⟨⟩
      exact (by decide : daysInRange 3 = true)
  · exact fun s policy clock h => congrArg some (if_pos h)

theorem resumable_logs : Resumable MigrationStatement.run UniqueKeys cleanupNotificationLogOrphans := by
  have hsame : ∀ (entry x : LegacyLog) clock s t,
      (MigrationStatement.checkLog entry).run clock s = some t →
      t.keepsLog x = s.keepsLog x := by
    intro entry x clock s t h
    obtain rfl := Option.some.inj h
    split <;> rfl
  refine resumable_sweep (fun entry : LegacyLog => entry.id)
    (fun s entry => s.keepsLog entry = true) ?_ ?_ ?_ ?_ ?_
  · exact fun s hs => hs.logs
  · exact fun _ _ _ _ hs h => run_uniqueKeys h hs
  · exact fun entry x clock s t h hx => (hsame entry x clock s t h).trans hx
  · intro entry clock s t hs hentry h
    obtain rfl := Option.some.inj h
    by_cases hkept : s.keepsLog entry = true
    · rw [if_pos hkept]
      refine ⟨some entry, keyed_some hs.logs hentry, ?_⟩
      rintro x ⟨⟩
      exact hkept
    · rw [if_neg hkept]
      exact ⟨none, flatMap_filter_key, fun x hx => by cases hx⟩
  · exact fun s entry clock h => congrArg some (if_pos h)

/-! ### Statements that need to run only once -/

theorem orphanFree_deleteOrphans (t : MigrationTables) (table : ScopedTable) :
    OrphanFree (t.deleteOrphans table) table := by
  cases table with
  | owned table =>
    intro row hrow
    dsimp only [MigrationTables.deleteOrphans] at hrow
    rw [Function.update_self] at hrow
    exact of_decide_eq_true (List.mem_filter.1 hrow).2
  | subscriptions | notificationPolicies | apiKeys =>
    exact fun row hrow => of_decide_eq_true (List.mem_filter.1 hrow).2

/-- The deletes leave the users, and of the other tables rows that were there. -/
theorem OrphanFree.deleteOrphans {table : ScopedTable} (h : OrphanFree t table) (other : ScopedTable) :
    OrphanFree (t.deleteOrphans other) table := by
  by_cases hsame : other = table
  · rw [hsame]
    exact orphanFree_deleteOrphans t table
  cases other with
  | owned other =>
    cases table with
    | owned table =>
      intro row hrow
      have hne : table ≠ other := fun h => hsame (congrArg _ h.symm)
      dsimp only [MigrationTables.deleteOrphans] at hrow
      rw [Function.update_of_ne hne] at hrow
      exact h row hrow
    | subscriptions | notificationPolicies | apiKeys => exact h
  | subscriptions | notificationPolicies | apiKeys =>
    cases table <;> first | exact h | exact absurd rfl hsame

theorem codesFree_clearCodes (t : MigrationTables) :
    ∀ code ∈ t.clearCodes.codes, ∀ id ∈ code.userID, id ∈ t.clearCodes.userIDs := by
  intro code hcode id hid
  rcases mem_updateWhere_cases hcode with ⟨-, hkept⟩ | ⟨was, -, -, rfl⟩
  · by_contra hnot
    rw [Option.mem_def.1 hid] at hkept
    have hin : id ∈ t.userIDs := by simpa using hkept
    exact hnot hin
  · cases hid

/-- What a delete, the update of the codes, or the fill of the kinds leaves to itself. -/
def MigrationStatement.Done (t : MigrationTables) : MigrationStatement → Prop
  | deleteOrphans table => OrphanFree t table
  | clearCodes => ∀ code ∈ t.codes, ∀ id ∈ code.userID, id ∈ t.userIDs
  | rebuild => SQLiteConstraints t
  | fillKeyKinds => ∀ key ∈ t.apiKeys, blankKeyKind key.keyKind = false
  | _ => False

theorem mem_cleanup (t : MigrationTables) (h : statement ∈ cleanupUserScopedOrphans t) :
    (∃ table, statement = .deleteOrphans table) ∨ statement = .clearCodes := by
  simp only [cleanupUserScopedOrphans, List.mem_append, List.mem_map, List.mem_singleton] at h
  obtain ⟨table, -, rfl⟩ | rfl := h
  · exact .inl ⟨table, rfl⟩
  · exact .inr rfl

theorem resumable_orphans : Resumable MigrationStatement.run UniqueKeys cleanupUserScopedOrphans := by
  refine resumable_fixed (fun i s => i.Done s) ?_ ?_ ?_
  · intro i hi clock s t h
    obtain ⟨table, rfl⟩ | rfl := mem_cleanup s hi
    · obtain rfl := Option.some.inj h
      exact orphanFree_deleteOrphans s table
    · obtain rfl := Option.some.inj h
      exact codesFree_clearCodes s
  · intro i hi j hj clock s t h hdone
    obtain ⟨table, rfl⟩ | rfl := mem_cleanup s hi
    · obtain ⟨other, rfl⟩ | rfl := mem_cleanup s hj
      · obtain rfl := Option.some.inj h
        exact OrphanFree.deleteOrphans hdone other
      · obtain rfl := Option.some.inj h
        cases table <;> exact hdone
    · obtain ⟨other, rfl⟩ | rfl := mem_cleanup s hj
      · obtain rfl := Option.some.inj h
        cases other <;> exact hdone
      · obtain rfl := Option.some.inj h
        exact codesFree_clearCodes s
  · intro i hi clock s hdone
    obtain ⟨table, rfl⟩ | rfl := mem_cleanup s hi
    · exact congrArg some (orphanFree_iff.1 hdone)
    · exact congrArg some (codesFree_iff.1 hdone)

theorem rebuild_eq_some (h : MigrationStatement.rebuild.run clock t = some t') :
    SQLiteConstraints t ∧ t' = t := by
  unfold MigrationStatement.run at h
  dsimp only at h
  split at h
  · exact ⟨‹_›, (Option.some.inj h).symm⟩
  · cases h

theorem resumable_rebuild : Resumable MigrationStatement.run UniqueKeys rebuildSQLiteTables := by
  refine resumable_fixed (fun i s => i.Done s) ?_ ?_ ?_
  · intro i hi clock s t h
    obtain rfl := List.mem_singleton.1 hi
    obtain ⟨hconstraints, rfl⟩ := rebuild_eq_some h
    exact hconstraints
  · intro i _ j hj clock s t h hdone
    obtain rfl := List.mem_singleton.1 hj
    rw [(rebuild_eq_some h).2]
    exact hdone
  · intro i hi clock s hdone
    obtain rfl := List.mem_singleton.1 hi
    exact if_pos hdone

theorem fillKeyKinds_done (h : MigrationStatement.fillKeyKinds.run clock t = some t') :
    MigrationStatement.fillKeyKinds.Done t' := by
  obtain rfl := Option.some.inj h
  intro key hkey
  rcases mem_updateWhere_cases hkey with ⟨-, hfilled⟩ | ⟨was, -, -, rfl⟩
  · exact hfilled
  · exact (by decide : blankKeyKind (some "api_integration") = false)

theorem resumable_keyKinds : Resumable MigrationStatement.run UniqueKeys migrateAPIKeyKindAndAudit := by
  refine resumable_fixed (fun i s => i.Done s) ?_ ?_ ?_
  · intro i hi clock s t h
    obtain rfl := List.mem_singleton.1 hi
    exact fillKeyKinds_done h
  · intro i hi j hj clock s t h _
    obtain rfl := List.mem_singleton.1 hi
    obtain rfl := List.mem_singleton.1 hj
    exact fillKeyKinds_done h
  · intro i hi clock s hdone
    obtain rfl := List.mem_singleton.1 hi
    unfold MigrationStatement.run
    dsimp only
    rw [updateWhere_eq_self.2]
    intro key hkey hblank
    rw [hdone key hkey] at hblank
    cases hblank

/-! ### What a phase leaves to the ones before it -/

theorem cleanup_frame {a : MigrationTables} (hi : statement ∈ cleanupUserScopedOrphans a)
    (h : statement.run clock t = some t') :
    t'.users = t.users := by
  obtain ⟨table, rfl⟩ | rfl := mem_cleanup a hi
  · obtain rfl := Option.some.inj h
    cases table <;> rfl
  · obtain rfl := Option.some.inj h
    rfl

theorem subscriptions_frame {a : MigrationTables}
    (hi : statement ∈ normalizeSubscriptionsForSQLiteConstraints a)
    (h : statement.run clock t = some t') :
    ∃ rows, t' = { t with subscriptions := rows } ∧ ∀ x ∈ rows, ∃ y ∈ t.subscriptions,
    x.row.userID = y.row.userID := by
  obtain ⟨sub, -, rfl⟩ := List.mem_map.1 hi
  obtain rfl := Option.some.inj h
  refine ⟨_, MigrationTables.updateSubscription_rows t sub _ _, fun x hx => ?_⟩
  rcases mem_updateWhere_cases hx with ⟨hx, -⟩ | ⟨y, hy, -, rfl⟩
  · exact ⟨x, hx, rfl⟩
  · refine ⟨y, hy, ?_⟩
    rw [LegacyUpdates.set_row]
    exact terms_userID (LegacyUpdates.apply_terms _ _ y)

theorem policies_frame {a : MigrationTables}
    (hi : statement ∈ normalizeNotificationPoliciesForSQLiteConstraints a)
    (h : statement.run clock t = some t') :
    ∃ rows, t' = { t with policies := rows } ∧ ∀ x ∈ rows, ∃ y ∈ t.policies, x.userID = y.userID := by
  obtain ⟨policy, -, rfl⟩ := List.mem_map.1 hi
  obtain rfl := Option.some.inj h
  split
  · exact ⟨t.policies, rfl, fun x hx => ⟨x, hx, rfl⟩⟩
  · refine ⟨_, rfl, fun x hx => ?_⟩
    rcases mem_updateWhere_cases hx with ⟨hx, -⟩ | ⟨y, hy, -, rfl⟩
    · exact ⟨x, hx, rfl⟩
    · exact ⟨y, hy, rfl⟩

theorem logs_frame {a : MigrationTables} (hi : statement ∈ cleanupNotificationLogOrphans a)
    (h : statement.run clock t = some t') :
    ∃ rows, t' = { t with logs := rows } := by
  obtain ⟨entry, -, rfl⟩ := List.mem_map.1 hi
  obtain rfl := Option.some.inj h
  split
  · exact ⟨t.logs, rfl⟩
  · exact ⟨_, rfl⟩

theorem lasting_rebuild (q : MigrationPhase) :
    Lasting MigrationStatement.run UniqueKeys q rebuildSQLiteTables := by
  intro a i hi clock s t _ h hidle
  obtain rfl := List.mem_singleton.1 hi
  rw [(rebuild_eq_some h).2]
  exact hidle

theorem lasting_logs :
    Lasting MigrationStatement.run UniqueKeys normalizeUsersForSQLiteConstraints
    cleanupNotificationLogOrphans ∧
    Lasting MigrationStatement.run UniqueKeys cleanupUserScopedOrphans cleanupNotificationLogOrphans ∧
    Lasting MigrationStatement.run UniqueKeys normalizeSubscriptionsForSQLiteConstraints
    cleanupNotificationLogOrphans ∧
    Lasting MigrationStatement.run UniqueKeys normalizeNotificationPoliciesForSQLiteConstraints
      cleanupNotificationLogOrphans := by
  refine ⟨?_, ?_, ?_, ?_⟩ <;> intro a i hi clock s t _ h hidle <;> obtain ⟨rows, rfl⟩ := logs_frame hi h
  · have husers := idle_users.1 hidle
    exact idle_users.2 husers
  · have howners := idle_orphans.1 hidle
    refine idle_orphans.2 ⟨fun table => ?_, howners.codes⟩
    have htable := howners.tables table
    cases table <;> exact htable
  · have hhardened := idle_subscriptions.1 hidle
    exact idle_subscriptions.2 fun sub hsub => (hhardened sub hsub).congr rfl
  · have hpolicies := idle_policies.1 hidle
    exact idle_policies.2 hpolicies

theorem lasting_policies :
    Lasting MigrationStatement.run UniqueKeys normalizeUsersForSQLiteConstraints
      normalizeNotificationPoliciesForSQLiteConstraints ∧
    Lasting MigrationStatement.run UniqueKeys cleanupUserScopedOrphans
    normalizeNotificationPoliciesForSQLiteConstraints ∧
    Lasting MigrationStatement.run UniqueKeys normalizeSubscriptionsForSQLiteConstraints
      normalizeNotificationPoliciesForSQLiteConstraints := by
  refine ⟨?_, ?_, ?_⟩ <;> intro a i hi clock s t _ h hidle <;> obtain ⟨rows, rfl, hrows⟩ :=
    policies_frame hi h
  · have husers := idle_users.1 hidle
    exact idle_users.2 husers
  · have howners := idle_orphans.1 hidle
    refine idle_orphans.2 ⟨fun table => ?_, howners.codes⟩
    cases table with
    | notificationPolicies =>
      intro x hx
      obtain ⟨y, hy, howner⟩ := hrows x hx
      rw [howner]
      exact howners.tables .notificationPolicies y hy
    | owned table => exact howners.tables (.owned table)
    | subscriptions => exact howners.tables .subscriptions
    | apiKeys => exact howners.tables .apiKeys
  · have hhardened := idle_subscriptions.1 hidle
    exact idle_subscriptions.2 fun sub hsub => (hhardened sub hsub).congr rfl

theorem lasting_subscriptions :
    Lasting MigrationStatement.run UniqueKeys normalizeUsersForSQLiteConstraints
    normalizeSubscriptionsForSQLiteConstraints ∧
    Lasting MigrationStatement.run UniqueKeys cleanupUserScopedOrphans
    normalizeSubscriptionsForSQLiteConstraints := by
  refine ⟨?_, ?_⟩ <;> intro a i hi clock s t _ h hidle <;> obtain ⟨rows, rfl, hrows⟩ :=
    subscriptions_frame hi h
  · have husers := idle_users.1 hidle
    exact idle_users.2 husers
  · have howners := idle_orphans.1 hidle
    refine idle_orphans.2 ⟨fun table => ?_, howners.codes⟩
    cases table with
    | subscriptions =>
      intro x hx
      obtain ⟨y, hy, howner⟩ := hrows x hx
      rw [howner]
      exact howners.tables .subscriptions y hy
    | owned table => exact howners.tables (.owned table)
    | notificationPolicies => exact howners.tables .notificationPolicies
    | apiKeys => exact howners.tables .apiKeys

theorem lasting_orphans :
    Lasting MigrationStatement.run UniqueKeys normalizeUsersForSQLiteConstraints
    cleanupUserScopedOrphans := by
  intro a i hi clock s t _ h hidle
  rw [idle_users, cleanup_frame hi h]
  exact idle_users.1 hidle

theorem hardening_lasting :
    migrateSQLiteIntegrityHardening.Pairwise (Lasting MigrationStatement.run UniqueKeys) := by
  obtain ⟨hlogs₁, hlogs₂, hlogs₃, hlogs₄⟩ := lasting_logs
  obtain ⟨hpolicies₁, hpolicies₂, hpolicies₃⟩ := lasting_policies
  obtain ⟨hsubscriptions₁, hsubscriptions₂⟩ := lasting_subscriptions
  simp only [migrateSQLiteIntegrityHardening, normalizeDataForSQLiteConstraints, List.cons_append,
    List.nil_append,
    List.pairwise_cons, List.forall_mem_cons, List.not_mem_nil, false_implies, implies_true,
      List.Pairwise.nil, and_true]
  exact ⟨⟨lasting_orphans, hsubscriptions₁, hpolicies₁, hlogs₁, lasting_rebuild _⟩,
    ⟨hsubscriptions₂, hpolicies₂, hlogs₂, lasting_rebuild _⟩, ⟨hpolicies₃, hlogs₃, lasting_rebuild _⟩,
    ⟨hlogs₄, lasting_rebuild _⟩, lasting_rebuild _⟩

/-- Only the rebuild can be refused. -/
theorem run_isSome (hne : statement ≠ .rebuild) : (statement.run clock t).isSome := by
  cases statement with
  | rebuild => exact absurd rfl hne
  | _ => rfl

theorem not_mem_rebuild {p : MigrationPhase} (hp : p ∈ normalizeDataForSQLiteConstraints)
    (s : MigrationTables) :
    MigrationStatement.rebuild ∉ p s := by
  simp only [normalizeDataForSQLiteConstraints, List.mem_cons, List.not_mem_nil, or_false] at hp
  obtain rfl | rfl | rfl | rfl | rfl := hp
  · simp [normalizeUsersForSQLiteConstraints]
  · intro h
    obtain ⟨_, h⟩ | h := mem_cleanup s h <;> cases h
  · simp [normalizeSubscriptionsForSQLiteConstraints]
  · simp [normalizeNotificationPoliciesForSQLiteConstraints]
  · simp [cleanupNotificationLogOrphans]

theorem restartable_hardening :
    Restartable MigrationStatement.run UniqueKeys migrateSQLiteIntegrityHardening where
  keeps _ _ _ _ _ _ _ _ hs h := run_uniqueKeys h hs
  resumable p hp := by
    simp only [migrateSQLiteIntegrityHardening, normalizeDataForSQLiteConstraints, List.cons_append,
      List.nil_append,
      List.mem_cons, List.not_mem_nil, or_false] at hp
    obtain rfl | rfl | rfl | rfl | rfl | rfl := hp
    · exact resumable_users
    · exact resumable_orphans
    · exact resumable_subscriptions
    · exact resumable_policies
    · exact resumable_logs
    · exact resumable_rebuild
  lasting := hardening_lasting
  accepted before p after hps a t pre i post ha hidle hplan hran clock := by
    by_cases hp : p ∈ normalizeDataForSQLiteConstraints
    · apply run_isSome
      rintro rfl
      exact not_mem_rebuild hp a (hplan ▸ by simp)
    · -- the rebuild comes last, and its plan is the rebuild alone
      obtain ⟨hbefore, rfl⟩ : before = normalizeDataForSQLiteConstraints ∧ p = rebuildSQLiteTables := by
        rcases List.append_eq_append_iff.1 hps with ⟨as, hbefore, hafter⟩ | ⟨as, hdata, hafter⟩
        · cases as with
          | nil => exact ⟨by simpa using hbefore, by simpa using congrArg List.head? hafter.symm⟩
          | cons q as => simp at hafter
        · cases as with
          | nil => exact ⟨by simpa using hdata.symm, by simpa using congrArg List.head? hafter⟩
          | cons q as =>
            obtain ⟨rfl, -⟩ := List.cons.inj hafter
            exact absurd (by rw [hdata]; simp) hp
      have hpre : pre = [] ∧ i = .rebuild := by
        cases pre with
        | nil => exact ⟨rfl, (List.cons.inj hplan).1.symm⟩
        | cons j pre => simp [rebuildSQLiteTables] at hplan
      obtain ⟨rfl, rfl⟩ := hpre
      cases hran
      have hall : ∀ q ∈ normalizeDataForSQLiteConstraints, Idle MigrationStatement.run (q a) a :=
        hbefore ▸ hidle
      simp only [normalizeDataForSQLiteConstraints, List.forall_mem_cons, List.not_mem_nil,
        false_implies, implies_true,
        and_true] at hall
      obtain ⟨husers, horphans, hsubscriptions, hpolicies, hlogs⟩ := hall
      have hconstraints := constraints_of_idle (idle_users.1 husers) (idle_orphans.1 horphans)
        (idle_subscriptions.1 hsubscriptions)
        (idle_policies.1 hpolicies) (idle_logs.1 hlogs)
      unfold MigrationStatement.run
      dsimp only
      rw [if_pos hconstraints]
      rfl

theorem restartable_single {p : MigrationPhase} (hp : Resumable MigrationStatement.run UniqueKeys p)
    (hrebuild : ∀ s, MigrationStatement.rebuild ∉ p s) :
    Restartable MigrationStatement.run UniqueKeys [p] where
  keeps _ _ _ _ _ _ _ _ hs h := run_uniqueKeys h hs
  resumable q hq := by
    obtain rfl := List.mem_singleton.1 hq
    exact hp
  lasting := List.pairwise_singleton _ _
  accepted before q after hps a t pre i post _ _ hplan _ clock := by
    have hq : q ∈ [p] := hps ▸ by simp
    obtain rfl := List.mem_singleton.1 hq
    apply run_isSome
    rintro rfl
    exact hrebuild a (hplan ▸ by simp)

end Resume

/-! ## Servers that are stopped -/

section Servers
variable {start t t' : MigrationTables} {statement : MigrationStatement} {s : MigrationSystem}

theorem restartable_migrations :
    ∀ job ∈ schemaMigrations, Restartable MigrationStatement.run UniqueKeys job.phases := by
  have hnone : Restartable MigrationStatement.run UniqueKeys ([] : List MigrationPhase) := by
    refine ⟨by simp, by simp, List.Pairwise.nil, ?_⟩
    intro before p after h
    exact absurd (congrArg List.length h) (by simp)
  have hbackfill := restartable_single resumable_backfill (by simp [backfillSubscriptionLifecycleFields])
  have hkinds := restartable_single resumable_keyKinds (by simp [migrateAPIKeyKindAndAudit])
  simp only [schemaMigrations, List.forall_mem_cons, List.not_mem_nil, false_implies, implies_true,
    and_true]
  exact ⟨hnone, hbackfill, restartable_hardening, hnone, hnone, hnone, hnone, hkinds, hnone,
    hnone, hnone⟩

theorem migration_names : (schemaMigrations.map (·.name)).Nodup := by
  simp only [schemaMigrations, List.map_cons, List.map_nil]
  decide

/-- A statement of a plan is about a row of the tables that the plan was made from. -/
def MigrationStatement.Planned (a : MigrationTables) : MigrationStatement → Prop
  | checkLog entry => entry ∈ a.logs
  | normalizePolicy policy => policy ∈ a.policies
  | _ => True

theorem phases_eq : schemaMigrations.flatMap (·.phases) =
    [backfillSubscriptionLifecycleFields] ++ migrateSQLiteIntegrityHardening ++
    [migrateAPIKeyKindAndAudit] := rfl

theorem planned {p : MigrationPhase} (hp : p ∈ schemaMigrations.flatMap (·.phases))
    (a : MigrationTables) (hi : statement ∈ p a) :
    statement.Planned a := by
  simp only [phases_eq, migrateSQLiteIntegrityHardening, normalizeDataForSQLiteConstraints,
    List.cons_append, List.nil_append,
    List.mem_cons, List.not_mem_nil, or_false] at hp
  obtain rfl | rfl | rfl | rfl | rfl | rfl | rfl | rfl := hp
  · obtain ⟨sub, -, rfl⟩ := List.mem_map.1 hi
    trivial
  · obtain ⟨user, -, rfl⟩ := List.mem_map.1 hi
    trivial
  · obtain ⟨table, rfl⟩ | rfl := mem_cleanup a hi <;> trivial
  · obtain ⟨sub, -, rfl⟩ := List.mem_map.1 hi
    trivial
  · obtain ⟨policy, hpolicy, rfl⟩ := List.mem_map.1 hi
    exact hpolicy
  · obtain ⟨entry, hentry, rfl⟩ := List.mem_map.1 hi
    exact hentry
  · obtain rfl := List.mem_singleton.1 hi
    trivial
  · obtain rfl := List.mem_singleton.1 hi
    trivial

/-- What holds since a plan was made from `a`. -/
structure Since (a t : MigrationTables) : Prop where
  keys : UniqueKeys t
  keeps : KeepsRows a t
  policies : ∀ policy ∈ t.policies, policy ∈ a.policies ∨ policy.daysBefore = 3

theorem Since.fits {a : MigrationTables} (h : Since a t) (ha : UniqueKeys a)
    (hplanned : statement.Planned a) :
    statement.Fits t := by
  cases statement with
  | checkLog entry => exact fun e he hid => eq_of_key ha.logs (h.keeps.logs.1 he) hplanned hid
  | normalizePolicy policy =>
    intro p hp hid
    rcases h.policies p hp with hin | hthree
    · exact .inl (eq_of_key ha.policies hin hplanned hid)
    · exact .inr hthree
  | _ => trivial

theorem run_policies {clock : MigrationClock} (h : statement.run clock t = some t') :
    ∀ policy ∈ t'.policies, policy ∈ t.policies ∨ policy.daysBefore = 3 := by
  intro policy hpolicy
  cases statement with
  | normalizePolicy row =>
    obtain rfl := Option.some.inj h
    split at hpolicy
    · exact .inl hpolicy
    · rcases mem_updateWhere_cases hpolicy with ⟨hin, -⟩ | ⟨was, -, -, rfl⟩
      · exact .inl hin
      · exact .inr rfl
  | deleteOrphans table =>
    obtain rfl := Option.some.inj h
    cases table with
    | notificationPolicies => exact .inl (List.mem_of_mem_filter hpolicy)
    | owned table => exact .inl hpolicy
    | subscriptions => exact .inl hpolicy
    | apiKeys => exact .inl hpolicy
  | backfill sub | normalizeSubscription sub =>
    obtain rfl := Option.some.inj h
    rw [MigrationTables.updateSubscription_rows] at hpolicy
    exact .inl hpolicy
  | normalizeUser user =>
    obtain rfl := Option.some.inj h
    rw [MigrationTables.updateUser_users] at hpolicy
    exact .inl hpolicy
  | clearCodes | fillKeyKinds =>
    obtain rfl := Option.some.inj h
    exact .inl hpolicy
  | checkLog entry =>
    obtain rfl := Option.some.inj h
    split at hpolicy <;> exact .inl hpolicy
  | rebuild =>
    rw [(rebuild_eq_some h).2] at hpolicy
    exact .inl hpolicy

theorem relates_keepsRows :
    Relates MigrationStatement.run UniqueKeys KeepsRows (schemaMigrations.flatMap (·.phases)) := by
  intro p hp a t pre post ha hplan hran
  have hsince : Since a t := by
    refine hran.keeps ?_ ⟨ha, KeepsRows.refl a, fun policy hpolicy => .inl hpolicy⟩
    intro i hi clock s t h hs
    have hfits := hs.fits ha (planned hp a (hplan ▸ List.mem_append_left _ hi))
    refine ⟨run_uniqueKeys h hs.keys, hs.keeps.trans (run_keepsRows h hs.keys hfits),
      fun policy hpolicy => ?_⟩
    rcases run_policies h policy hpolicy with hin | hthree
    · exact hs.policies policy hin
    · exact .inr hthree
  exact hsince.keeps

/-- What an uninterrupted run leaves. -/
theorem came_settled (hkeys : UniqueKeys start)
    (h : Came MigrationStatement.run (schemaMigrations.flatMap (·.phases)) start t) :
    SQLiteConstraints t ∧ LifecycleSettled t ∧ ∀ key ∈ t.apiKeys, blankKeyKind key.keyKind = false := by
  rw [phases_eq] at h
  obtain ⟨e, hearly, hkinds⟩ := h.split
  obtain ⟨d, hbackfill, hhardening⟩ := hearly.split
  have hkeep : ∀ (ps : List MigrationPhase), ∀ p ∈ ps, ∀ a, ∀ i ∈ p a, ∀ k s t, UniqueKeys s →
      MigrationStatement.run k i s = some t →
      UniqueKeys t := fun _ _ _ _ _ _ _ _ _ hs h => run_uniqueKeys h hs
  have hd := hbackfill.inv (hkeep _) hkeys
  have hidle :=
    hhardening.idle (hkeep _) restartable_hardening.resumable restartable_hardening.lasting hd
  simp only [migrateSQLiteIntegrityHardening, normalizeDataForSQLiteConstraints, List.cons_append,
    List.nil_append,
    List.forall_mem_cons, List.not_mem_nil, false_implies, implies_true, and_true] at hidle
  obtain ⟨-, -, hsubscriptions, -, -, hrebuild⟩ := hidle
  have hconstraints := idle_rebuild.1 hrebuild
  have hhardened := idle_subscriptions.1 hsubscriptions
  cases hkinds with
  | @cons _ _ _ t _ hran hrest =>
    cases hrest
    cases hran with
    | @cons _ _ clock _ t _ hact hnil =>
      cases hnil
      have hdone := fillKeyKinds_done hact
      obtain rfl := Option.some.inj hact
      refine ⟨?_, fun sub hsub => ?_, hdone⟩
      · refine { hconstraints with apiKeys := fun key hkey => ?_ }
        rcases mem_updateWhere_cases hkey with ⟨hkey, -⟩ | ⟨was, hwas, -, rfl⟩
        · exact hconstraints.apiKeys key hkey
        · exact hconstraints.apiKeys was hwas
      · have hrow := hhardened sub hsub
        refine ⟨by rw [hrow.enabled, decide_eq_true_eq], hrow.endsAt, ?_, ?_⟩
        · exact referenceUpdate_none (by rw [hrow.categoryID]; rfl)
        · exact referenceUpdate_none (by rw [hrow.paymentMethodID]; rfl)

def legacySubscription (id userID : Nat) (status : String) (categoryID : Option Nat) :
    LegacySubscription where
  row :=
    { id := id, userID := userID, name := "Music", amount := -9, currency := "USD", enabled := true,
      status := status,
      renewalMode := "", endsAt := none, billingType := "recurring", recurrenceType :=
        "", intervalCount := none,
      intervalUnit := "", monthlyDay := none, yearlyMonth := none, yearlyDay :=
        none, nextBillingDate := none,
      category := "", categoryID := categoryID, paymentMethodID := none, notifyEnabled := none,
      notifyDaysBefore := some 30, icon := "", url := "", notes := "" }
  updatedAt := midnight 20000

/-- Two users, a category of the second in a subscription of the first, and rows of a user who is
gone. -/
def legacyTables : MigrationTables where
  users := [⟨1, "ADMIN", "active"⟩, ⟨2, "guest", ""⟩]
  owned table := if table = .categories then [⟨7, 2⟩, ⟨8, 9⟩] else []
  subscriptions := [legacySubscription 1 1 "paused" (some 7), legacySubscription 2 9 "active" (some 8)]
  policies := [⟨1, 1, 99⟩]
  apiKeys := [⟨1, 2, none⟩]
  codes := [⟨1, some 9⟩, ⟨2, some 2⟩]
  logs := [⟨1, 1, 1⟩, ⟨2, 9, 2⟩]

def migrationSteps (day : Int) (n : Nat) : List (Event MigrationClock) :=
  .boot :: List.replicate n (.work ⟨midnight day, midnight day⟩)

end Servers

end Subdux
