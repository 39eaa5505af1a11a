import Subdux.ImportAgain
/-!
# What an import stores of a subscription

The whole row (`Stored`), where `ImportLoops` keeps to the columns that decide what is a
duplicate. A row after the loop is stored for an item (`mem_importSubscriptions`), and an
item that is inserted has its row (`exists_stored`).
-/

namespace Subdux.ImportService
open GoStrings Upserts

/-! ## One item -/

section Stored
variable {lookups : ImportLookups} {userID : Nat} {now : Time} {sub row incoming : Subscription}

/-- A row that was inserted for a normalized item. -/
structure Stored (lookups : ImportLookups) (userID : Nat) (now : Time) (sub row : Subscription) :
    Prop where
  userID : row.userID = userID
  name : row.name = sub.name
  amount : row.amount = sub.amount
  currency : row.currency = orDefault "USD" sub.currency
  url : normalizeSubscriptionURL lookups.parseURL sub.url = .ok row.url
  billing : row.billing = sub.billing
  lifecycle : normalizeLifecycleDraft
    ⟨sub.status, sub.renewalMode, copyTimePointer sub.endsAt⟩ sub.nextBillingDate now =
    .ok row.lifecycle
  categoryID : row.categoryID = (sub.categoryID.bind lookups.categoryIDMap).or
    (if sub.category ≠ "" then lookups.categoryByName (toLower sub.category) else none)
  paymentMethodID : row.paymentMethodID = sub.paymentMethodID.bind lookups.paymentMethodIDMap

/-- The end date of a normalized lifecycle is a date. -/
theorem normalizeLifecycleDraft_endsAt {draft lifecycle : LifecycleDraft} {date now : Time}
    (h : normalizeLifecycleDraft draft (some date) now = .ok lifecycle) :
    copyTimePointer lifecycle.endsAt = lifecycle.endsAt := by
  have hcopy : ∀ t : Time, copyTimePointer (some (normalizeDateUTC t)) = some
      (normalizeDateUTC t) := fun t => by
    rw [copyTimePointer, Option.map_some, normalizeDateUTC_idem]
  unfold normalizeLifecycleDraft at h
  dsimp only at h
  generalize orDefault subscriptionStatusActive (normalizeStatus draft.status) = status at h
  generalize orDefault _ (normalizeRenewalMode draft.renewalMode) = mode at h
  split at h
  · simp only [reduceCtorEq] at h
  split at h
  · simp only [reduceCtorEq] at h
  split at h
  · cases hends : draft.endsAt with
    | none =>
      rw [hends] at h
      obtain rfl := Except.ok.inj h
      exact hcopy date
    | some endsAt =>
      rw [hends] at h
      obtain rfl := Except.ok.inj h
      exact hcopy endsAt
  · split at h
    · obtain rfl := Except.ok.inj h
      exact hcopy date
    · obtain rfl := Except.ok.inj h
      rfl

/-- What the loop does with a normalized item whose lifecycle columns are valid. -/
theorem importNew_stored (hsub : ∃ date, sub.billing.Normalized date)
    (hstatus : isValidSubscriptionStatus (normalizeStatus sub.status) = true)
    (hmode : isValidRenewalMode (normalizeRenewalMode sub.renewalMode) = true) (st : ImportState)
    (item : ImportRow) : (importNew lookups userID item sub st).table = st.table ∨
      ∃ row, (importNew lookups userID item sub st).table.rows = st.table.rows ++ [row] ∧
        Stored lookups userID item.now sub row := by
  obtain ⟨date, hdate⟩ := hsub
  have hnext : sub.nextBillingDate = some date := hdate.nextBillingDate
  have hbilling : sub.billingType = billingTypeRecurring := hdate.billingType
  have hsame : { sub.billing with nextBillingDate := some date } = sub.billing := by
    rw [← hnext]
    rfl
  -- none of the refusals of a new row is left
  have hlegacy : ¬ (!isValidSubscriptionStatus (normalizeStatus sub.status) ∨
      !isValidRenewalMode (normalizeRenewalMode sub.renewalMode)) := by
    rw [hstatus, hmode]
    decide
  unfold importNew
  dsimp only
  rw [if_neg hlegacy]
  rw [hnext]
  generalize hdraft : (⟨sub.status, sub.renewalMode, copyTimePointer sub.endsAt⟩ : LifecycleDraft) =
    draft
  have hvalid : isValidSubscriptionStatus (normalizeStatus draft.status) = true ∧
      isValidRenewalMode (normalizeRenewalMode draft.renewalMode) = true := by
    rw [← hdraft]
    exact ⟨hstatus, hmode⟩
  obtain ⟨lifecycle, hlifecycle, hstatus', hmode'⟩ :=
    normalizeLifecycleDraft_total hvalid.1 hvalid.2 date item.now
  have hcopy : copyTimePointer lifecycle.endsAt = lifecycle.endsAt :=
    normalizeLifecycleDraft_endsAt hlifecycle
  rw [hlifecycle]
  dsimp only
  cases hurl : normalizeSubscriptionURL lookups.parseURL sub.url with
  | error err => exact .inl rfl
  | ok url =>
    dsimp only
    generalize hcreated : syncLegacyEnabledForLifecycle _ = created
    have hstored : ∀ id enabled, Stored lookups userID item.now sub
        { created with
          id := id, currency := orDefault "USD" created.currency, enabled := enabled,
          negativeZero := false } := by
      rw [← hcreated]
      refine fun id enabled => ⟨rfl, rfl, rfl, rfl, hurl, hsame, ?_, rfl, rfl⟩
      rw [hdraft, hnext, hlifecycle, Subscription.lifecycle]
      exact congrArg (fun endsAt =>
        Except.ok (LifecycleDraft.mk lifecycle.status lifecycle.renewalMode endsAt)) hcopy.symm
    have hcolumns : created.status = lifecycle.status ∧ created.renewalMode = lifecycle.renewalMode ∧
        created.billingType = sub.billingType := by
      rw [← hcreated]
      exact ⟨rfl, rfl, rfl⟩
    rw [insertSubscription_eq created st.table (hcolumns.1 ▸ hstatus') (hcolumns.2.1 ▸ hmode')
      (hcolumns.2.2.trans hbilling)]
    dsimp only
    split
    · rename_i hinsert
      split at hinsert
      · cases hinsert
      · exact .inl rfl
    · rename_i new table hinsert
      split at hinsert
      · obtain ⟨rfl, rfl⟩ := Prod.mk.inj (Option.some.inj hinsert)
        exact .inr ⟨_, rfl, hstored _ _⟩
      · cases hinsert

/-- The lifecycle columns of an item are valid once they are normalized. -/
def hasLifecycle (incoming : Subscription) : Prop :=
  isValidSubscriptionStatus (normalizeStatus incoming.status) = true ∧
    isValidRenewalMode (normalizeRenewalMode incoming.renewalMode) = true

theorem normalizedSubscription_hasLifecycle (h : hasLifecycle incoming) :
    hasLifecycle (normalizedSubscription incoming) := by
  unfold normalizedSubscription
  dsimp only
  split <;> exact h

theorem importSubscription_stored (h : hasLifecycle incoming) (st : ImportState) (nowUTC : Time) :
    (importSubscription lookups userID st ⟨incoming, nowUTC, now⟩).table = st.table ∨
      ∃ row, (importSubscription lookups userID st ⟨incoming, nowUTC, now⟩).table.rows =
        st.table.rows ++ [row] ∧
        (trimSpace incoming.name ≠ "" ∧ isSupported incoming = true) ∧
          Stored lookups userID now (normalizedSubscription incoming) row := by
  obtain ⟨hstatus, hmode⟩ := normalizedSubscription_hasLifecycle h
  rcases importSubscription_cases lookups userID st ⟨incoming, nowUTC, now⟩ with ⟨-, hst⟩ |
    ⟨hname, hcases⟩
  · exact .inl (by rw [hst])
  rcases hcases with ⟨-, skipped, errors, hst⟩ | ⟨hsupported, ⟨-, hst⟩ | ⟨-, hst⟩⟩
  · exact .inl (by rw [hst])
  · exact .inl (by rw [hst])
  · rw [hst]
    rcases importNew_stored (normalized_of_isSupported hsupported) hstatus hmode _ _ with htable |
      ⟨row, hrows, hstored⟩
    · exact .inl htable
    · exact .inr ⟨row, hrows, ⟨hname, hsupported⟩, hstored⟩

/-! ## The loop -/

section Loop
variable {Nonce Value : Type} {env : ImportEnv Nonce Value} {readings : ImportReadings Nonce}
  {db : ImportDB} {data : SubduxImportData}
  {before after items : List Subscription}

theorem importSubscriptions_step (h : hasLifecycle incoming) :
    let rows := (importSubscriptions env readings userID db data before).table.rows
    let rows' := (importSubscriptions env readings userID db data (before ++ [incoming])).table.rows
    rows' = rows ∨ ∃ row, rows' = rows ++ [row] ∧
      (trimSpace incoming.name ≠ "" ∧ isSupported incoming = true) ∧
      Stored (importLookups env userID db data) userID (readings.now before.length)
        (normalizedSubscription incoming) row := by
  dsimp only
  rw [importSubscriptions_snoc]
  rcases importSubscription_stored h _ (readings.nowUTC before.length) with htable | hnew
  · exact .inl (congrArg (·.rows) htable)
  · exact .inr hnew

theorem subset_importSubscriptions (h : ∀ incoming ∈ after, hasLifecycle incoming) :
    (importSubscriptions env readings userID db data before).table.rows ⊆
      (importSubscriptions env readings userID db data (before ++ after)).table.rows := by
  induction after using List.reverseRecOn with
  | nil => simp
  | append_singleton after incoming ih =>
    have hafter := ih fun i hi => h i (List.mem_append_left _ hi)
    have hstep :=
      @importSubscriptions_step userID incoming _ _ env readings db data (before ++ after)
        (h incoming (by simp))
    rw [← List.append_assoc]
    rcases hstep with hrows | ⟨row, hrows, -, -⟩
    · rw [hrows]
      exact hafter
    · rw [hrows]
      exact fun row hrow => List.mem_append_left _ (hafter hrow)

/-- A row after the loop was there before, or is stored for an item. -/
theorem mem_importSubscriptions (h : ∀ incoming ∈ items, hasLifecycle incoming) {row : Subscription}
    (hrow : row ∈ (importSubscriptions env readings userID db data items).table.rows) :
    row ∈ db.subscriptions.rows ∨ ∃ incoming ∈ items, ∃ now,
    (trimSpace incoming.name ≠ "" ∧ isSupported incoming = true) ∧
      Stored (importLookups env userID db data) userID now (normalizedSubscription incoming) row := by
  induction items using List.reverseRecOn with
  | nil => exact .inl hrow
  | append_singleton items incoming ih =>
    have hold := ih fun i hi => h i (List.mem_append_left _ hi)
    have hkeep : row ∈ (importSubscriptions env readings userID db data items).table.rows →
        row ∈ db.subscriptions.rows ∨ ∃ i ∈ items ++ [incoming], ∃ now,
          (trimSpace i.name ≠ "" ∧ isSupported i = true) ∧
          Stored (importLookups env userID db data) userID now (normalizedSubscription i) row := by
      intro hrow
      rcases hold hrow with hbefore | ⟨i, hi, hstored⟩
      · exact .inl hbefore
      · exact .inr ⟨i, List.mem_append_left _ hi, hstored⟩
    rcases @importSubscriptions_step userID incoming _ _ env readings db data items
      (h incoming (by simp)) with
      hrows | ⟨new, hrows, hsupported, hstored⟩
    · rw [hrows] at hrow
      exact hkeep hrow
    · rw [hrows] at hrow
      rcases List.mem_append.1 hrow with hrow | hnew
      · exact hkeep hrow
      · obtain rfl := List.mem_singleton.1 hnew
        exact .inr ⟨incoming, by simp, _, hsupported, hstored⟩

/-- An item that the library's loop inserts has its row after the loop. -/
theorem exists_stored (h : ∀ i ∈ before ++ incoming :: after, hasLifecycle i)
    (hcreates : (subscriptionUpsert env.parseURL userID).creates
      ((subscriptionUpsert env.parseURL userID).run (db.subscriptions.rows.map identity) before)
        before incoming ≠ none) :
    ∃ row ∈ (importSubscriptions env readings userID db data (before ++ incoming :: after)).table.rows,
      Stored (importLookups env userID db data) userID (readings.now before.length)
        (normalizedSubscription incoming) row := by
  have hlength : (importSubscriptions env readings userID db data before).table.rows.length <
      (importSubscriptions env readings userID db data (before ++ [incoming])).table.rows.length :=
    (rows_importSubscriptions before incoming).2 (Option.isSome_iff_ne_none.2 hcreates)
  have hafter : (importSubscriptions env readings userID db data
      (before ++ [incoming])).table.rows ⊆ _ :=
    subset_importSubscriptions fun i hi => h i (List.mem_append_right _ (List.mem_cons_of_mem _ hi))
  rw [List.append_assoc, List.singleton_append] at hafter
  rcases @importSubscriptions_step userID incoming _ _ env readings db data before
    (h incoming (by simp)) with
    hrows | ⟨row, hrows, -, hstored⟩
  · rw [hrows] at hlength
    exact absurd hlength (lt_irrefl _)
  · exact ⟨row, hafter (by rw [hrows]; simp), hstored⟩

end Loop

end Stored

end Subdux.ImportService
