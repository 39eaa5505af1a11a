import Subdux.Lib.Upserts
import Subdux.ImportSubdux
import Subdux.Writers
/-!
# What the import loops insert

The loops of an import are loops that insert what is missing: `itemUpsert` is that of
the collections which share one loop, and `subscriptionUpsert` that of the subscriptions.
`importItems_columns` and `importSubscriptions_columns` give the rows after a confirmed
run, `newCount_importItem` and `newCount_previewSubscription` what a preview marks.
-/

namespace Subdux
open GoStrings Upserts

/-- A table without its primary keys. -/
def Table.columns {α : Type} (table : Table α) : List α := table.rows.map (·.columns)

theorem Table.insert_eq {α : Type} (conflict : α → α → Bool) (columns : α) (table : Table α) :
    table.insert conflict columns =
      if table.columns.any (conflict columns) then none
      else some ⟨table.rows ++ [⟨table.nextID, columns⟩], table.nextID + 1⟩ := by
  rw [Table.columns, List.any_map]
  rfl

namespace ImportService

/-! ## The shared loop -/

section Items
variable {ι α χ : Type} {prepare : ι → Except Refusal (Prepared α χ)} {conflict : α → α → Bool}
  {st : LoopState α χ}
  {table : Table α} {before items : List ι} {i : ι}

def itemUpsert (prepare : ι → Except Refusal (Prepared α χ)) (conflict : α → α → Bool) :
    Upsert ι String α where
  key i := (prepare i).toOption.map (·.key)
  valid _ := true
  row i := (prepare i).toOption.bind fun item => item.create.toOption
  hit i columns := (prepare i).toOption.any fun item => item.queries.any (· columns)
  conflict := conflict

/-- The entries of a preview that are marked as new. -/
def newCount (st : LoopState α χ) : Nat := (st.changes.filter (·.isNew)).length

/-- The loop over the items of a file. -/
def loopState (confirm : Bool) (prepare : ι → Except Refusal (Prepared α χ))
    (conflict : α → α → Bool) (table : Table α) (items : List ι) : LoopState α χ :=
  importItems confirm conflict table (items.map prepare)

theorem find_isNone {item : Prepared α χ} :
    (item.find table.rows).isNone = !table.columns.any fun columns => item.queries.any (· columns) := by
  rw [Bool.eq_iff_iff]
  simp only [Prepared.find, Table.columns, Option.isNone_iff_eq_none, List.findSome?_eq_none_iff,
    List.find?_eq_none, Bool.not_eq_true',
    List.any_eq_false, List.mem_map, List.any_eq_true, not_exists, not_and]
  constructor
  · rintro h _ ⟨row, hrow, rfl⟩ query hquery
    exact h query hquery row hrow
  · intro h query hquery row hrow
    exact h _ ⟨row, hrow, rfl⟩ query hquery

@[simp] theorem LoopState.count_table (result : ImportResult) : (st.count result).table = st.table := rfl
@[simp] theorem LoopState.count_seen (result : ImportResult) : (st.count result).seen = st.seen := rfl
@[simp] theorem LoopState.count_changes (result : ImportResult) :
    (st.count result).changes = st.changes := rfl
@[simp] theorem LoopState.count_imported (result : ImportResult) :
    (st.count result).result.imported = st.result.imported + result.imported := rfl

@[simp] theorem LoopState.link_table (sourceID id : Nat) : (st.link sourceID id).table = st.table := by
  unfold LoopState.link
  split <;> rfl

@[simp] theorem LoopState.link_seen (sourceID id : Nat) : (st.link sourceID id).seen = st.seen := by
  unfold LoopState.link
  split <;> rfl

@[simp] theorem LoopState.link_changes (sourceID id : Nat) :
    (st.link sourceID id).changes = st.changes := by
  unfold LoopState.link
  split <;> rfl

@[simp] theorem LoopState.link_result (sourceID id : Nat) :
    (st.link sourceID id).result = st.result := by
  unfold LoopState.link
  split <;> rfl

/-- What the confirmed loop inserts for an item. -/
def inserted (prepare : ι → Except Refusal (Prepared α χ)) (conflict : α → α → Bool)
    (confirm : Bool) (table : Table α) (before : List ι) (i : ι) : Option α :=
  if confirm then (itemUpsert prepare conflict).creates table.columns before i else none

/-- What the loop does with an item when its keys are those of the items before. -/
structure ItemSpec (prepare : ι → Except Refusal (Prepared α χ)) (conflict : α → α → Bool)
    (confirm : Bool) (st : LoopState α χ) (before : List ι) (i : ι) (st' : LoopState α χ) : Prop where
  seen : ∀ k, k ∈ st'.seen ↔ k ∈ (itemUpsert prepare conflict).seen (before ++ [i])
  table : st'.table = (inserted prepare conflict confirm st.table before i).elim st.table fun columns =>
    ⟨st.table.rows ++ [⟨st.table.nextID, columns⟩], st.table.nextID + 1⟩
  imported : st'.result.imported = st.result.imported +
    (inserted prepare conflict confirm st.table before i).toList.length
  changes : newCount st' = newCount st +
    ((itemUpsert prepare conflict).marks st.table.columns before i).toNat

/-! What the library's loop makes of an item. -/

variable (conflict) in
theorem itemUpsert_ok {item : Prepared α χ} (hi : prepare i = .ok item) :
    (itemUpsert prepare conflict).key i = some item.key ∧
    (itemUpsert prepare conflict).row i = item.create.toOption ∧
      (itemUpsert prepare conflict).hit i = fun columns => item.queries.any (· columns) := by
  simp [itemUpsert, hi, Except.toOption]

theorem itemUpsert_error {refusal : Refusal} (hi : prepare i = .error refusal) :
    (itemUpsert prepare conflict).key i = none := by
  simp [itemUpsert, hi, Except.toOption]

theorem seen_snoc (hseen : ∀ k, k ∈ st.seen ↔ k ∈ (itemUpsert prepare conflict).seen before)
    (k : String) :
    k ∈ (itemUpsert prepare conflict).seen (before ++ [i]) ↔ k ∈ st.seen ∨
    (itemUpsert prepare conflict).key i = some k := by
  rw [Upsert.seen, List.filterMap_append, List.mem_append, hseen k]
  simp [Upsert.seen]

theorem marks_error {columns : List α} {refusal : Refusal} (hi : prepare i = .error refusal) :
    (itemUpsert prepare conflict).marks columns before i = false := by
  rw [Upsert.marks, Upsert.fresh, itemUpsert_error hi, Option.any_none, Bool.and_false, Bool.false_and]

theorem marks_ok {item : Prepared α χ} (hi : prepare i = .ok item)
    (hseen : ∀ k, k ∈ st.seen ↔ k ∈ (itemUpsert prepare conflict).seen before) :
    (itemUpsert prepare conflict).marks st.table.columns before i =
      (!st.seen.contains item.key && (item.find st.table.rows).isNone) := by
  obtain ⟨hkey, -, hhit⟩ := itemUpsert_ok conflict hi
  have hcontains : st.seen.contains item.key = decide
      (item.key ∈ (itemUpsert prepare conflict).seen before) := by
    rw [List.contains_eq_mem]
    exact decide_eq_decide.2 (hseen item.key)
  rw [Upsert.marks, Upsert.fresh, hkey, hhit, find_isNone, hcontains, Option.any_some, decide_not]
  rfl

theorem importItem_spec (confirm : Bool)
    (hseen : ∀ k, k ∈ st.seen ↔ k ∈ (itemUpsert prepare conflict).seen before) :
    ItemSpec prepare conflict confirm st before i (importItem confirm conflict st (prepare i)) := by
  have hkeys := seen_snoc (i := i) hseen
  cases hi : prepare i with
  | error refusal =>
    have hmarks : (itemUpsert prepare conflict).marks st.table.columns before i = false := marks_error hi
    have hinserted : inserted prepare conflict confirm st.table before i = none := by
      simp [inserted, Upsert.creates, hmarks]
    rw [itemUpsert_error hi] at hkeys
    cases confirm <;> constructor <;> simp [importItem, hkeys, hinserted, hmarks, newCount]
  | ok item =>
    obtain ⟨hkey, hrow, -⟩ := itemUpsert_ok conflict hi
    -- the item is read: its key has been seen, is stored, or is new
    have hmarks := marks_ok hi hseen
    simp only [hkey, Option.some.injEq] at hkeys
    by_cases hmem : item.key ∈ st.seen
    · have hcontains : st.seen.contains item.key = true := List.contains_iff_mem.2 hmem
      rw [hcontains, Bool.not_true, Bool.false_and] at hmarks
      have hinserted : inserted prepare conflict confirm st.table before i = none := by
        simp [inserted, Upsert.creates, hmarks]
      have hst : importItem confirm conflict st (.ok item) = st := if_pos hcontains
      rw [hst]
      refine ⟨fun k => ?_, by rw [hinserted]; rfl, by rw [hinserted]; rfl, by rw [hmarks]; rfl⟩
      rw [hkeys k]
      exact ⟨.inl, fun h => h.elim id fun h => h ▸ hmem⟩
    · have hseen' : ∀ k, k ∈ item.key :: st.seen ↔ k ∈ (itemUpsert prepare conflict).seen
          (before ++ [i]) := by
        intro k
        rw [hkeys k, List.mem_cons, eq_comm, or_comm]
      cases hfind : item.find st.table.rows with
      | some row =>
        rw [hfind, Option.isNone_some, Bool.and_false] at hmarks
        have hinserted : inserted prepare conflict confirm st.table before i = none := by
          simp [inserted, Upsert.creates, hmarks]
        cases confirm <;> constructor <;> simp
          [importItem, hmem, hfind, hinserted, hmarks, newCount, hseen', -List.mem_cons]
      | none =>
        rw [hfind, Option.isNone_none, Bool.and_true, List.contains_eq_mem, decide_eq_false hmem,
          Bool.not_false] at hmarks
        cases confirm with
        | false =>
          constructor <;> simp
            [importItem, hmem, hfind, inserted, hmarks, newCount, hseen', -List.mem_cons]
        | true =>
          have hinserted : inserted prepare conflict true st.table before i =
              item.create.toOption.filter fun columns => !st.table.columns.any (conflict columns) := by
            simp only [inserted, Upsert.creates, if_true, hmarks, hrow]
            rfl
          cases hcreate : item.create with
          | error err =>
            rw [hcreate] at hinserted
            constructor <;>
              simp [importItem, hmem, hfind, hcreate, hinserted, hmarks, newCount, hseen',
                Except.toOption, -List.mem_cons]
          | ok columns =>
            rw [hcreate] at hinserted
            have hinsert := Table.insert_eq conflict columns st.table
            rw [show (Except.ok columns : Except SubduxImportError α).toOption =
              some columns from rfl, Option.filter_some] at hinserted
            cases hany : st.table.columns.any (conflict columns) <;> rw [hany]
              at hinsert hinserted <;> constructor <;>
              simp [importItem, hmem, hfind, hcreate, hinsert, hinserted, hmarks, newCount, hseen',
                -List.mem_cons]

/-! The loop as a whole. -/

theorem loopState_snoc (confirm : Bool) : loopState confirm prepare conflict table (before ++ [i]) =
    importItem confirm conflict (loopState confirm prepare conflict table before) (prepare i) := by
  simp only [loopState, importItems, List.map_append, List.map_cons, List.map_nil,
    List.foldl_append, List.foldl_cons, List.foldl_nil]

theorem loopState_seen (confirm : Bool) (items : List ι) (k : String) :
    k ∈ (loopState confirm prepare conflict table items).seen ↔
    k ∈ (itemUpsert prepare conflict).seen items := by
  induction items using List.reverseRecOn generalizing k with
  | nil => simp [loopState, importItems, Upsert.seen]
  | append_singleton items i ih =>
    rw [loopState_snoc]
    exact (importItem_spec confirm ih).seen k

theorem loopState_spec (confirm : Bool) (before : List ι) (i : ι) :
    ItemSpec prepare conflict confirm (loopState confirm prepare conflict table before) before i
      (loopState confirm prepare conflict table (before ++ [i])) := by
  rw [loopState_snoc]
  exact importItem_spec confirm (loopState_seen confirm before)

/-- A preview writes nothing. -/
theorem loopState_preview (items : List ι) :
    (loopState false prepare conflict table items).table = table := by
  induction items using List.reverseRecOn with
  | nil => rfl
  | append_singleton items i ih =>
    rw [(loopState_spec false items i).table, ih]
    rfl

theorem columns_insert (table : Table α) (columns : Option α) :
    (columns.elim table fun columns =>
      ⟨table.rows ++ [⟨table.nextID, columns⟩], table.nextID + 1⟩).columns =
      table.columns ++ columns.toList := by
  cases columns <;> simp [Table.columns]

/-- The rows of a confirmed run are those of the library's loop. -/
theorem loopState_columns (items : List ι) :
    (loopState true prepare conflict table items).table.columns =
    (itemUpsert prepare conflict).run table.columns items := by
  induction items using List.reverseRecOn with
  | nil => rfl
  | append_singleton items i ih =>
    rw [(loopState_spec true items i).table, columns_insert, Upsert.run_snoc, ← ih]
    rfl

theorem inserted_true :
    inserted prepare conflict true (loopState true prepare conflict table before).table before i =
    (itemUpsert prepare conflict).creates
    ((itemUpsert prepare conflict).run table.columns before) before i := by
  rw [inserted, if_pos rfl, loopState_columns]

/-- A preview marks an item if and only if the library's dry run does. -/
theorem newCount_loopState (before : List ι) (i : ι) :
    newCount (loopState false prepare conflict table before) < newCount
    (loopState false prepare conflict table (before ++ [i])) ↔
      (itemUpsert prepare conflict).marks table.columns before i = true := by
  rw [(loopState_spec false before i).changes, loopState_preview]
  cases (itemUpsert prepare conflict).marks table.columns before i <;> simp

/-- A confirmed run inserts a row for an item if and only if the library's loop does. -/
theorem rows_loopState (before : List ι) (i : ι) :
    (loopState true prepare conflict table before).table.rows.length <
        (loopState true prepare conflict table (before ++ [i])).table.rows.length ↔
      ((itemUpsert prepare conflict).creates
        ((itemUpsert prepare conflict).run table.columns before) before i).isSome := by
  rw [(loopState_spec true before i).table, inserted_true]
  cases (itemUpsert prepare conflict).creates
    ((itemUpsert prepare conflict).run table.columns before) before i <;> simp

end Items

/-! ## Subscriptions -/

/-- The columns that `subscriptionExists` compares. -/
structure Identity where
  userID : Nat
  name : String
  amount : Rat
  currency : String
  billingType : String
  recurrenceType : String
  intervalUnit : String
  intervalCount : Option Int
  monthlyDay : Option Int
  yearlyMonth : Option Int
  yearlyDay : Option Int
  deriving DecidableEq

def identity (row : Subscription) : Identity :=
  ⟨row.userID, row.name, row.amount, row.currency, row.billingType, row.recurrenceType,
    row.intervalUnit, row.intervalCount,
    row.monthlyDay, row.yearlyMonth, row.yearlyDay⟩

/-- What `subscriptionExists` looks for. -/
def wanted (userID : Nat) (sub : Subscription) : Identity :=
  ⟨userID, trimSpace sub.name, sub.amount, trimSpace sub.currency, trimSpace sub.billingType,
    trimSpace sub.recurrenceType,
    trimSpace sub.intervalUnit, sub.intervalCount, sub.monthlyDay, sub.yearlyMonth, sub.yearlyDay⟩

/-- What is stored of a subscription whose schedule is normalized. -/
def storedIdentity (userID : Nat) (sub : Subscription) : Identity :=
  { identity sub with userID := userID, currency := orDefault "USD" sub.currency }

/-- The checks on a new subscription that a preview does not make. -/
def isStorable (parseURL : String → Option ParsedURL) (sub : Subscription) : Bool :=
  (normalizeSubscriptionURL parseURL sub.url).isOk && decide (0 ≤ sub.amount) &&
    sub.notifyDaysBefore.all fun days => decide (0 ≤ days ∧ days ≤ maxNotificationDaysBefore)

def subscriptionUpsert (parseURL : String → Option ParsedURL) (userID : Nat) :
    Upsert Subscription String Identity where
  key incoming :=
    if trimSpace incoming.name = "" then none
      else some (importDedupKey (normalizedSubscription incoming))
  valid := isSupported
  row incoming :=
    if isStorable parseURL incoming
      then some (storedIdentity userID (normalizedSubscription incoming)) else none
  hit incoming row := row = wanted userID (normalizedSubscription incoming)
  conflict _ _ := false

section Subscriptions
variable {lookups : ImportLookups} {userID : Nat} {st : ImportState} {row : ImportRow}
  {sub incoming : Subscription}
  {before : List Subscription}

theorem subscriptionExists_eq (userID : Nat) (sub : Subscription) (rows : List Subscription) :
    subscriptionExists userID sub rows = (rows.map identity).any (· = wanted userID sub) := by
  rw [subscriptionExists, List.any_map]
  refine congrArg (rows.any ·) (funext fun row => ?_)
  simp only [Function.comp, identity, wanted, Identity.mk.injEq]

theorem isStorable_normalized (parseURL : String → Option ParsedURL) (incoming : Subscription) :
    isStorable parseURL (normalizedSubscription incoming) = isStorable parseURL incoming := by
  unfold normalizedSubscription
  dsimp only
  split <;> rfl

theorem normalizedSubscription_error {err : String}
    (h : billingOf (trimmedSubscription incoming) = .error err) :
    normalizedSubscription incoming = trimmedSubscription incoming := by
  simp only [normalizedSubscription, h]

theorem normalizedSubscription_ok {draft : BillingDraft} {date : Time}
    (h : billingOf (trimmedSubscription incoming) = .ok (draft, date)) :
    normalizedSubscription incoming =
      (trimmedSubscription incoming).setSchedule
        (some { draft with nextBillingDate := copyTimePointer (some date) }) := by
  simp only [normalizedSubscription, h]

/-- What the loop of a confirmed run does with a row. -/
theorem importSubscription_cases (lookups : ImportLookups) (userID : Nat) (st : ImportState)
    (row : ImportRow) :
    let key := importDedupKey (normalizedSubscription row.incoming)
    let isDuplicate :=
      st.seen.contains key || subscriptionExists userID
        (normalizedSubscription row.incoming) st.table.rows
    let st' := importSubscription lookups userID st row
    (trimSpace row.incoming.name = "" ∧ st' = { st with skipped := st.skipped + 1 }) ∨
      trimSpace row.incoming.name ≠ "" ∧
        ((isSupported row.incoming = false ∧ ∃ skipped errors,
          st' = { st with seen := key :: st.seen, skipped, errors }) ∨
          isSupported row.incoming = true ∧
            ((isDuplicate = true ∧ st' = { st with seen := key :: st.seen, skipped := st.skipped + 1 }) ∨
              isDuplicate = false ∧ st' = importNew lookups userID row
                (normalizedSubscription row.incoming)
                { st with seen := key :: st.seen })) := by
  dsimp only
  unfold importSubscription
  dsimp only
  split
  · rename_i hname
    exact .inl ⟨hname, rfl⟩
  · rename_i hname
    refine .inr ⟨hname, ?_⟩
    split
    · rename_i err herr
      have hbilling : billingOf (trimmedSubscription row.incoming) = .error err := herr
      rw [normalizedSubscription_error hbilling]
      exact .inl ⟨by rw [isSupported, hbilling]; rfl, _, _, rfl⟩
    · rename_i draft date hok
      have hbilling : billingOf (trimmedSubscription row.incoming) = .ok (draft, date) := hok
      rw [normalizedSubscription_ok hbilling]
      refine .inr ⟨by rw [isSupported, hbilling]; rfl, ?_⟩
      split
      · rename_i hduplicate
        exact .inl ⟨hduplicate, rfl⟩
      · rename_i hduplicate
        exact .inr ⟨Bool.not_eq_true _ ▸ hduplicate, rfl⟩

/-- A lifecycle whose columns are valid is normalized, given a next billing date. -/
theorem normalizeLifecycleDraft_total {draft : LifecycleDraft}
    (hstatus : isValidSubscriptionStatus (normalizeStatus draft.status) = true)
    (hmode : isValidRenewalMode (normalizeRenewalMode draft.renewalMode) = true) (date now : Time) :
    ∃ lifecycle, normalizeLifecycleDraft draft (some date) now = .ok lifecycle ∧
      isValidSubscriptionStatus lifecycle.status = true ∧
        isValidRenewalMode lifecycle.renewalMode = true := by
  unfold normalizeLifecycleDraft
  dsimp only
  rw [orDefault_of_ne (status_ne_empty hstatus), orDefault_of_ne (renewalMode_ne_empty hmode),
    hstatus, hmode]
  simp only [Bool.not_true, Bool.false_eq_true, if_false]
  split
  · split <;> exact ⟨_, rfl, hstatus, hmode⟩
  · split <;> exact ⟨_, rfl, hstatus, hmode⟩

theorem deriveLegacyLifecycle_columns (enabled : Bool) (nextBillingDate endsAt : Option Time)
    (updatedAt : Time) : (deriveLegacyLifecycle enabled nextBillingDate endsAt updatedAt).status =
        (if enabled then subscriptionStatusActive else subscriptionStatusEnded) ∧
      (deriveLegacyLifecycle enabled nextBillingDate endsAt updatedAt).renewalMode =
        if enabled then renewalModeAutoRenew else renewalModeCancelAtPeriodEnd := by
  cases enabled <;> cases nextBillingDate <;> cases endsAt <;>
    simp [deriveLegacyLifecycle, copyTimePointer, active_ne_ended]

theorem deriveLegacyLifecycle_valid (enabled : Bool) (nextBillingDate endsAt : Option Time)
    (updatedAt : Time) :
    isValidSubscriptionStatus
    (normalizeStatus (deriveLegacyLifecycle enabled nextBillingDate endsAt updatedAt).status) = true ∧
      isValidRenewalMode
        (normalizeRenewalMode
        (deriveLegacyLifecycle enabled nextBillingDate endsAt updatedAt).renewalMode) = true := by
  obtain ⟨hstatus, hmode⟩ := deriveLegacyLifecycle_columns enabled nextBillingDate endsAt updatedAt
  rw [hstatus, hmode]
  cases enabled <;> decide

/-- What is stored of a new subscription, but for its id. -/
theorem insertSubscription_eq (sub : Subscription) (table : SubscriptionTable)
    (hstatus : isValidSubscriptionStatus sub.status = true)
    (hmode : isValidRenewalMode sub.renewalMode = true)
    (hbilling : sub.billingType = billingTypeRecurring) :
    insertSubscription sub table =
      let row :=
        { sub with
          id := table.nextID, currency := orDefault "USD" sub.currency, enabled := true,
          negativeZero := false }
      if decide (0 ≤ sub.amount) && sub.notifyDaysBefore.all fun days =>
        decide (0 ≤ days ∧ days ≤ maxNotificationDaysBefore) then
        some (row, ⟨table.rows ++ [row], table.nextID + 1⟩)
      else none := by
  have hne : sub.billingType ≠ "" := by
    rw [hbilling]
    decide
  simp only [insertSubscription, orDefault_of_ne (status_ne_empty hstatus),
    orDefault_of_ne (renewalMode_ne_empty hmode),
    orDefault_of_ne hne, Subscription.meetsChecks, hstatus, hmode, Bool.and_true]

/-- What the loop stores of a subscription that it has normalized. -/
theorem importNew_spec (hsub : ∃ date, sub.billing.Normalized date) (lookups : ImportLookups)
    (userID : Nat) (st : ImportState) (row : ImportRow) :
    let st' := importNew lookups userID row sub st
    let new := if isStorable lookups.parseURL sub then some (storedIdentity userID sub) else none
    st'.seen = st.seen ∧ st'.table.rows.map identity = st.table.rows.map identity ++ new.toList ∧
      (new = none → st'.table = st.table) ∧ st'.imported = st.imported + new.toList.length := by
  obtain ⟨date, hdate⟩ := hsub
  have hnext : sub.nextBillingDate = some date := hdate.nextBillingDate
  have hbilling : sub.billingType = billingTypeRecurring := hdate.billingType
  unfold importNew
  dsimp only
  rw [hnext]
  generalize hdraft : (if !isValidSubscriptionStatus (normalizeStatus sub.status) ∨
    !isValidRenewalMode (normalizeRenewalMode sub.renewalMode)
    then deriveLegacyLifecycle sub.enabled (some date) sub.endsAt row.nowUTC
    else (⟨sub.status, sub.renewalMode, copyTimePointer sub.endsAt⟩ : LifecycleDraft)) = draft
  have hvalid : isValidSubscriptionStatus (normalizeStatus draft.status) = true ∧
      isValidRenewalMode (normalizeRenewalMode draft.renewalMode) = true := by
    rw [← hdraft]
    split
    · exact deriveLegacyLifecycle_valid _ _ _ _
    · rename_i h
      simpa only [Bool.not_eq_true', not_or, Bool.not_eq_false] using h
  obtain ⟨lifecycle, hlifecycle, hstatus, hmode⟩ :=
    normalizeLifecycleDraft_total hvalid.1 hvalid.2 date row.now
  rw [hlifecycle]
  dsimp only
  cases hurl : normalizeSubscriptionURL lookups.parseURL sub.url with
  | error err => simp [isStorable, hurl, Except.isOk, Except.toBool]
  | ok url =>
    dsimp only
    generalize hcreated : syncLegacyEnabledForLifecycle _ = created
    have hcolumns : created.status = lifecycle.status ∧ created.renewalMode = lifecycle.renewalMode ∧
        created.billingType = sub.billingType ∧ created.amount = sub.amount ∧
          created.notifyDaysBefore = sub.notifyDaysBefore := by
      rw [← hcreated]
      exact ⟨rfl, rfl, rfl, rfl, rfl⟩
    have hidentity : ∀ id,
        identity { created with
          id := id, currency := orDefault "USD" created.currency, enabled := true,
          negativeZero := false } =
        storedIdentity userID sub := by
      rw [← hcreated]
      exact fun _ => rfl
    rw [insertSubscription_eq created st.table (hcolumns.1 ▸ hstatus) (hcolumns.2.1 ▸ hmode)
      (hcolumns.2.2.1.trans hbilling)]
    have hchecks : (decide (0 ≤ created.amount) && created.notifyDaysBefore.all fun days =>
        decide (0 ≤ days ∧ days ≤ maxNotificationDaysBefore)) = isStorable lookups.parseURL sub := by
      rw [hcolumns.2.2.2.1, hcolumns.2.2.2.2, isStorable, hurl]
      rfl
    rw [hchecks]
    generalize isStorable lookups.parseURL sub = checks
    cases checks <;> simp [hidentity]

/-- The schedule of a supported item is normalized. -/
theorem normalized_of_isSupported (h : isSupported incoming = true) :
    ∃ date, (normalizedSubscription incoming).billing.Normalized date := by
  cases hbilling : billingOf (trimmedSubscription incoming) with
  | error err => simp [isSupported, hbilling, Except.isOk, Except.toBool] at h
  | ok result =>
    obtain ⟨draft, date⟩ := result
    have hdraft := normalizeBillingDraft_ok hbilling
    rw [normalizedSubscription_ok hbilling, setSchedule_billing, hdraft.copy]
    exact ⟨date, hdraft⟩

/-! What the library's loop makes of an item. -/

section Keys
variable {parseURL : String → Option ParsedURL} {seen : List String}
  (hseen : ∀ k, k ∈ seen ↔ k ∈ (subscriptionUpsert parseURL userID).seen before)
include hseen

theorem subscription_seen_snoc (incoming : Subscription) (k : String) :
    k ∈ (subscriptionUpsert parseURL userID).seen (before ++ [incoming]) ↔
      k ∈ seen ∨ (subscriptionUpsert parseURL userID).key incoming = some k := by
  rw [Upsert.seen, List.filterMap_append, List.mem_append, hseen k]
  simp [Upsert.seen]

theorem subscription_marks (hname : trimSpace incoming.name ≠ "") (rows : List Subscription) :
    (subscriptionUpsert parseURL userID).marks (rows.map identity) before incoming =
      (isSupported incoming && !(seen.contains (importDedupKey (normalizedSubscription incoming)) ||
        subscriptionExists userID (normalizedSubscription incoming) rows)) := by
  have hkey : (subscriptionUpsert parseURL userID).key incoming = some
      (importDedupKey (normalizedSubscription incoming)) :=
    if_neg hname
  have hcontains : seen.contains (importDedupKey (normalizedSubscription incoming)) =
      decide (importDedupKey (normalizedSubscription incoming) ∈
        (subscriptionUpsert parseURL userID).seen before) := by
    rw [List.contains_eq_mem]
    exact decide_eq_decide.2 (hseen _)
  rw [Upsert.marks, Upsert.fresh, hkey, Option.any_some, subscriptionExists_eq, hcontains,
    Bool.not_or, decide_not, ← Bool.and_assoc]
  rfl

end Keys

theorem subscription_marks_blank {parseURL : String → Option ParsedURL} {rows : List Identity}
    (hname : trimSpace incoming.name = "") :
    (subscriptionUpsert parseURL userID).marks rows before incoming = false := by
  have hkey : (subscriptionUpsert parseURL userID).key incoming = none := if_pos hname
  rw [Upsert.marks, Upsert.fresh, hkey, Option.any_none, Bool.and_false, Bool.false_and]

theorem subscription_creates (parseURL : String → Option ParsedURL) (userID : Nat)
    (rows : List Identity) (before : List Subscription) (incoming : Subscription) :
    (subscriptionUpsert parseURL userID).creates rows before incoming =
      if (subscriptionUpsert parseURL userID).marks rows before incoming &&
        isStorable parseURL incoming then
        some (storedIdentity userID (normalizedSubscription incoming))
      else none := by
  have hrow : (subscriptionUpsert parseURL userID).row incoming =
      if isStorable parseURL incoming
        then some (storedIdentity userID (normalizedSubscription incoming)) else none := rfl
  have hconflict : (fun r => !rows.any ((subscriptionUpsert parseURL userID).conflict r)) = fun _ =>
      true := by
    funext r
    simp [subscriptionUpsert]
  rw [Upsert.creates, hrow, hconflict]
  cases (subscriptionUpsert parseURL userID).marks rows before incoming <;>
    cases isStorable parseURL incoming <;> rfl

/-- What the loop does with an item when its keys are those of the items before. -/
structure SubscriptionSpec (parseURL : String → Option ParsedURL) (userID : Nat) (st : ImportState)
    (before : List Subscription) (incoming : Subscription) (st' : ImportState) : Prop where
  seen : ∀ k, k ∈ st'.seen ↔ k ∈ (subscriptionUpsert parseURL userID).seen (before ++ [incoming])
  rows : st'.table.rows.map identity = st.table.rows.map identity ++
    ((subscriptionUpsert parseURL userID).creates (st.table.rows.map identity) before incoming).toList
  table : (subscriptionUpsert parseURL userID).creates
    (st.table.rows.map identity) before incoming = none → st'.table = st.table
  imported : st'.imported = st.imported +
    ((subscriptionUpsert parseURL userID).creates
      (st.table.rows.map identity) before incoming).toList.length

variable (lookups) in
theorem importSubscription_spec
    (hseen : ∀ k, k ∈ st.seen ↔ k ∈ (subscriptionUpsert lookups.parseURL userID).seen before)
    (row : ImportRow) :
    SubscriptionSpec lookups.parseURL userID st before row.incoming
    (importSubscription lookups userID st row) := by
  have hkeys := subscription_seen_snoc hseen row.incoming
  have hcreates :=
    subscription_creates lookups.parseURL userID (st.table.rows.map identity) before row.incoming
  rcases importSubscription_cases lookups userID st row with ⟨hname, hst⟩ | ⟨hname, hcases⟩
  · have hkey : (subscriptionUpsert lookups.parseURL userID).key row.incoming = none := if_pos hname
    rw [subscription_marks_blank hname] at hcreates
    rw [hst]
    refine ⟨fun k => ?_, by simp [hcreates], fun _ => rfl, by simp [hcreates]⟩
    rw [hkeys k, hkey]
    simp
  · have hkey : (subscriptionUpsert lookups.parseURL userID).key row.incoming =
        some (importDedupKey (normalizedSubscription row.incoming)) := if_neg hname
    have hseen' : ∀ k, k ∈ importDedupKey (normalizedSubscription row.incoming) :: st.seen ↔
        k ∈ (subscriptionUpsert lookups.parseURL userID).seen (before ++ [row.incoming]) := by
      intro k
      rw [hkeys k, hkey, Option.some.injEq, List.mem_cons, eq_comm, or_comm]
    have hmarks := subscription_marks hseen hname st.table.rows
    rcases hcases with ⟨hsupported, skipped, errors, hst⟩ |
      ⟨hsupported, ⟨hduplicate, hst⟩ | ⟨hduplicate, hst⟩⟩
    · rw [hsupported, Bool.false_and] at hmarks
      rw [hmarks] at hcreates
      rw [hst]
      exact ⟨hseen', by simp [hcreates], fun _ => rfl, by simp [hcreates]⟩
    · rw [hduplicate, Bool.not_true, Bool.and_false] at hmarks
      rw [hmarks] at hcreates
      rw [hst]
      exact ⟨hseen', by simp [hcreates], fun _ => rfl, by simp [hcreates]⟩
    · rw [hduplicate, hsupported, Bool.not_false, Bool.and_true] at hmarks
      rw [hmarks, Bool.true_and] at hcreates
      obtain ⟨hnewSeen, hrows, htable, himported⟩ :=
        importNew_spec (normalized_of_isSupported hsupported) lookups userID
        { st with seen := importDedupKey (normalizedSubscription row.incoming) :: st.seen } row
      rw [isStorable_normalized, ← hcreates] at hrows htable himported
      rw [hst]
      exact ⟨fun k => by rw [hnewSeen]; exact hseen' k, hrows, htable, himported⟩

/-! The loop as a whole. -/

theorem importRows_spec (lookups : ImportLookups) (userID : Nat) (table : SubscriptionTable)
    (data : List ImportRow) :
    let st := Subdux.importFromSubdux lookups userID data table
    (∀ k, k ∈ st.seen ↔ k ∈ (subscriptionUpsert lookups.parseURL userID).seen (data.map (·.incoming))) ∧
      st.table.rows.map identity =
        (subscriptionUpsert lookups.parseURL userID).run (table.rows.map identity)
          (data.map (·.incoming)) := by
  induction data using List.reverseRecOn with
  | nil => exact ⟨fun k => by simp [Subdux.importFromSubdux, Upsert.seen], rfl⟩
  | append_singleton data row ih =>
    obtain ⟨hseen, hrows⟩ := ih
    have hspec := importSubscription_spec lookups hseen row
    have hsnoc : Subdux.importFromSubdux lookups userID (data ++ [row]) table =
        importSubscription lookups userID (Subdux.importFromSubdux lookups userID data table) row :=
          List.foldl_append
    dsimp only
    rw [hsnoc, List.map_append, List.map_singleton, Upsert.run_snoc, ← hrows]
    exact ⟨hspec.seen, hspec.rows⟩

/-- The rows that a confirmed run takes from the file. -/
def importRow {Nonce : Type} (readings : ImportReadings Nonce) (item : Subscription × Nat) : ImportRow :=
  ⟨item.1, readings.nowUTC item.2, readings.now item.2⟩

theorem importRow_incoming {Nonce : Type} (readings : ImportReadings Nonce) (items : List Subscription) :
    (items.zipIdx.map (importRow readings)).map (·.incoming) = items := by
  rw [List.map_map]
  exact List.zipIdx_map_fst 0 items

section Loop
variable {Nonce Value : Type} {env : ImportEnv Nonce Value} {readings : ImportReadings Nonce}
  {db : ImportDB} {data : SubduxImportData}

theorem importSubscriptions_snoc (before : List Subscription) (incoming : Subscription) :
    importSubscriptions env readings userID db data (before ++ [incoming]) =
      importSubscription (importLookups env userID db data) userID
        (importSubscriptions env readings userID db data before)
        (importRow readings (incoming, before.length)) := by
  simp only [importSubscriptions, Subdux.importFromSubdux, List.zipIdx_append, List.map_append,
    List.foldl_append, List.zipIdx_cons,
    List.zipIdx_nil, List.map_cons, List.map_nil, List.foldl_cons, List.foldl_nil, Nat.zero_add]
  rfl

theorem importSubscriptions_seen (items : List Subscription) (k : String) :
    k ∈ (importSubscriptions env readings userID db data items).seen ↔
    k ∈ (subscriptionUpsert env.parseURL userID).seen items := by
  obtain ⟨hseen, -⟩ :=
    importRows_spec (importLookups env userID db data) userID db.subscriptions
      (items.zipIdx.map (importRow readings))
  rw [importRow_incoming] at hseen
  exact hseen k

theorem importSubscriptions_spec (before : List Subscription) (incoming : Subscription) :
    SubscriptionSpec env.parseURL userID
    (importSubscriptions env readings userID db data before) before incoming
      (importSubscriptions env readings userID db data (before ++ [incoming])) := by
  rw [importSubscriptions_snoc]
  exact importSubscription_spec (importLookups env userID db data) (importSubscriptions_seen before)
    (importRow readings (incoming, before.length))

/-- The rows of a confirmed run are those of the library's loop. -/
theorem importSubscriptions_identities (items : List Subscription) :
    (importSubscriptions env readings userID db data items).table.rows.map identity =
      (subscriptionUpsert env.parseURL userID).run (db.subscriptions.rows.map identity) items := by
  obtain ⟨-, hrows⟩ :=
    importRows_spec (importLookups env userID db data) userID db.subscriptions
      (items.zipIdx.map (importRow readings))
  rw [importRow_incoming] at hrows
  exact hrows

/-- A confirmed run inserts a row for an item if and only if the library's loop does. -/
theorem rows_importSubscriptions (before : List Subscription) (incoming : Subscription) :
    (importSubscriptions env readings userID db data before).table.rows.length <
        (importSubscriptions env readings userID db data (before ++ [incoming])).table.rows.length ↔
      ((subscriptionUpsert env.parseURL userID).creates
        ((subscriptionUpsert env.parseURL userID).run (db.subscriptions.rows.map identity) before)
          before incoming).isSome := by
  have hspec : SubscriptionSpec env.parseURL userID
      (importSubscriptions env readings userID db data before) before incoming _ :=
    importSubscriptions_spec before incoming
  have hrows := congrArg List.length hspec.rows
  rw [List.length_map, List.length_append, List.length_map, importSubscriptions_identities] at hrows
  rw [hrows]
  cases (subscriptionUpsert env.parseURL userID).creates
    ((subscriptionUpsert env.parseURL userID).run (db.subscriptions.rows.map identity) before)
      before incoming <;> simp

end Loop

/-! The preview. -/

section Preview
variable {parseURL : String → Option ParsedURL} {rows : List Subscription}

theorem previewSubscriptions_snoc (before : List Subscription) (incoming : Subscription) :
    previewSubscriptions userID rows (before ++ [incoming]) =
      previewSubscription userID rows (previewSubscriptions userID rows before) incoming := by
  simp only [previewSubscriptions, List.foldl_append, List.foldl_cons, List.foldl_nil]

theorem previewSubscriptions_seen (parseURL : String → Option ParsedURL) (items : List Subscription)
    (k : String) :
    k ∈ (previewSubscriptions userID rows items).1 ↔
    k ∈ (subscriptionUpsert parseURL userID).seen items := by
  induction items using List.reverseRecOn generalizing k with
  | nil => simp [previewSubscriptions, Upsert.seen]
  | append_singleton items incoming ih =>
    rw [previewSubscriptions_snoc, subscription_seen_snoc ih incoming]
    by_cases hname : trimSpace incoming.name = ""
    · have hkey : (subscriptionUpsert parseURL userID).key incoming = none := if_pos hname
      simp [previewSubscription, hname, hkey]
    · have hkey : (subscriptionUpsert parseURL userID).key incoming = some
          (importDedupKey (normalizedSubscription incoming)) :=
        if_neg hname
      simp only [previewSubscription, hname, hkey, if_false, List.mem_cons, Option.some.injEq]
      rw [eq_comm, or_comm]

/-- The entries of a preview that are not skipped. -/
def newSubscriptionCount (st : List String × List PreviewSubscriptionChange) : Nat :=
  (st.2.filter (!·.skipped)).length

/-- A preview marks an item if and only if the library's dry run does. -/
theorem newSubscriptionCount_preview (parseURL : String → Option ParsedURL)
    (before : List Subscription) (incoming : Subscription) :
    newSubscriptionCount (previewSubscriptions userID rows before) <
        newSubscriptionCount (previewSubscriptions userID rows (before ++ [incoming])) ↔
      (subscriptionUpsert parseURL userID).marks (rows.map identity) before incoming = true := by
  rw [previewSubscriptions_snoc]
  by_cases hname : trimSpace incoming.name = ""
  · rw [subscription_marks_blank hname]
    simp [previewSubscription, hname]
  · rw [subscription_marks (previewSubscriptions_seen parseURL before) hname rows]
    simp only [newSubscriptionCount, previewSubscription, hname, if_false, List.filter_append,
      List.length_append]
    generalize ((previewSubscriptions userID rows before).1.contains
      (importDedupKey (normalizedSubscription incoming)) ||
      subscriptionExists userID (normalizedSubscription incoming) rows) = isDuplicate
    cases isDuplicate <;> cases isSupported incoming <;> simp

end Preview

end Subscriptions

end ImportService

end Subdux
