import Subdux.ImportLoops
import Subdux.ImportWallos
/-!
# The schedules that a Wallos import stores

The loop of `ImportFromWallos` inserts what is missing (`wallosUpsert`), and a created
row has the schedule of its entry: an interval in one of the four units, from the day of
the next payment. `wallos_schedules_iff` says that the schedules are all normalized if and
only if no entry is stored whose next payment is not a date, which the loop lets pass.
-/

namespace Subdux.Wallos
open GoStrings ImportService Upserts

/-! ## The loop inserts what is missing -/

/-- The columns that the loop compares, and the schedule. -/
structure WallosColumns where
  userID : Nat
  name : String
  amount : Rat
  currency : String
  billingType : String
  schedule : BillingDraft

def columns (sub : Subscription) : WallosColumns :=
  ⟨sub.userID, sub.name, sub.amount, sub.currency, sub.billingType, sub.billing⟩

/-- The schedule of an entry whose cycle is supported. -/
def entrySchedule (row : WallosRow) : BillingDraft :=
  let cycle := mapPaymentCycle row.item.paymentCycle
  { billingType := cycle.billingType
    recurrenceType := cycle.recurrenceType
    intervalCount := some cycle.intervalCount
    intervalUnit := cycle.intervalUnit
    nextBillingDate := parseDate row.item.nextPayment
    monthlyDay := none
    yearlyMonth := none
    yearlyDay := none }

section Entries
variable (lookups : WallosLookups) (userID : Nat)

def entryColumns (row : WallosRow) : WallosColumns :=
  let (amount, currency) := extractCurrencyAndAmount row.symbols row.item.price lookups.preferredCurrency
  ⟨userID, trimSpace row.item.name, amount.value, currency,
    (mapPaymentCycle row.item.paymentCycle).billingType, entrySchedule row⟩

def entryKey (row : WallosRow) : String :=
  let (amount, currency) := extractCurrencyAndAmount row.symbols row.item.price lookups.preferredCurrency
  "|".intercalate
    [trimSpace row.item.name, formatAmount amount, currency,
     (mapPaymentCycle row.item.paymentCycle).billingType]

/-- An entry of a supported cycle is stored if it is the first of its key, matches no row
and passes the checks of the URL and of the amount. -/
def wallosUpsert : Upsert WallosRow String WallosColumns where
  key row := if trimSpace row.item.name = "" then none else some (entryKey lookups row)
  valid row := (mapPaymentCycle row.item.paymentCycle).billingType = billingTypeRecurring
  row row :=
    if (normalizeSubscriptionURL lookups.parseURL row.item.url).isOk && decide
      (0 ≤ (entryColumns lookups userID row).amount) then
      some (entryColumns lookups userID row)
    else none
  hit row stored :=
    stored.userID = userID ∧ stored.name = (entryColumns lookups userID row).name ∧
      stored.amount = (entryColumns lookups userID row).amount ∧
        stored.currency = (entryColumns lookups userID row).currency ∧
      stored.billingType = (entryColumns lookups userID row).billingType
  conflict _ _ := false

end Entries

section Step
variable {lookups : WallosLookups} {userID : Nat} {row : WallosRow} {st : WallosState}
  {before : List WallosRow}

theorem wallosExists_eq (rows : List Subscription) :
    wallosExists userID (entryColumns lookups userID row).name (entryColumns lookups userID row).amount
        (entryColumns lookups userID row).currency (entryColumns lookups userID row).billingType rows =
      (rows.map columns).any ((wallosUpsert lookups userID).hit row) := by
  rw [wallosExists, List.any_map]
  rfl

theorem findCode_ne_empty {cs : List Char} {code : String} (h : findCode cs = some code) :
    code ≠ "" := by
  fun_induction findCode cs with
  | case1 a b c rest hupper =>
    obtain rfl := Option.some.inj h
    simp
  | case2 a b c rest hupper ih => exact ih h
  | case3 => cases h

/-- A price always names a currency. -/
theorem currencyOf_ne_empty (symbols : SymbolOrder) (price preferredCurrency : String) :
    currencyOf symbols price preferredCurrency ≠ "" := by
  have hcandidates : ∀ entry ∈ currencySymbols, ∀ candidate ∈ entry.2, candidate ≠ "" := by decide
  have hhead : ∀ entry ∈ currencySymbols, entry.2.headD "" ≠ "" := by decide
  have hknown : ∀ code ∈ knownCurrencies, code ≠ "" := by decide
  unfold currencyOf
  split
  · rename_i entry hentry
    have hmem := symbols.perm.mem_iff.1 (List.mem_of_find?_eq_some hentry)
    unfold resolveAmbiguous
    cases hfind : entry.2.find? (· = preferredCurrency) with
    | none => exact hhead entry hmem
    | some candidate => exact hcandidates entry hmem candidate (List.mem_of_find?_eq_some hfind)
  · dsimp only
    cases hfind : knownCurrencies.find? (contains (toUpper price)) with
    | some code => exact hknown code (List.mem_of_find?_eq_some hfind)
    | none =>
      cases hcode : findCode (toUpper price).toList with
      | some code => exact findCode_ne_empty hcode
      | none =>
        simp only [Option.or_none, Option.getD_none, orDefault]
        split
        · decide
        · assumption

theorem isValid_autoRenew : isValidRenewalMode renewalModeAutoRenew = true := by decide

theorem isValid_cancel : isValidRenewalMode renewalModeCancelAtPeriodEnd = true := by decide

/-- The lifecycle columns of an entry pass their checks, with and without a date. -/
theorem legacyLifecycle_total (enabled : Bool) (nextBillingDate : Option Time) (updatedAt now : Time) :
    ∃ lifecycle, normalizeLifecycleDraft
    (deriveLegacyLifecycle enabled nextBillingDate none updatedAt) nextBillingDate now =
        .ok lifecycle ∧
      isValidSubscriptionStatus lifecycle.status = true ∧
        isValidRenewalMode lifecycle.renewalMode = true := by
  cases nextBillingDate with
  | some date =>
    obtain ⟨hstatus, hmode⟩ := deriveLegacyLifecycle_valid enabled (some date) none updatedAt
    exact normalizeLifecycleDraft_total hstatus hmode date now
  | none =>
    obtain ⟨hstatus, hmode⟩ := deriveLegacyLifecycle_columns enabled none none updatedAt
    generalize deriveLegacyLifecycle enabled none none updatedAt = draft at hstatus hmode
    unfold normalizeLifecycleDraft
    dsimp only
    rw [hstatus, hmode]
    cases enabled with
    | true =>
      -- An active row renews, and needs no date for that.
      simp only [if_true, normalizeStatus_active, normalizeRenewalMode_valid isValid_autoRenew]
      exact ⟨_, rfl, by decide, by decide⟩
    | false =>
      simp only [Bool.false_eq_true, if_false, normalizeStatus_ended,
        normalizeRenewalMode_valid isValid_cancel]
      cases draft.endsAt <;> exact ⟨_, rfl, by dsimp only; decide, by dsimp only; decide⟩

theorem wallosUpsert_row (lookups : WallosLookups) (userID : Nat) (row : WallosRow) :
    (wallosUpsert lookups userID).row row =
      if (normalizeSubscriptionURL lookups.parseURL row.item.url).isOk &&
          decide (0 ≤ (entryColumns lookups userID row).amount) then
        some (entryColumns lookups userID row)
      else none := rfl

theorem wallosUpsert_valid (lookups : WallosLookups) (userID : Nat) (row : WallosRow) :
    (wallosUpsert lookups userID).valid row =
      decide ((mapPaymentCycle row.item.paymentCycle).billingType = billingTypeRecurring) := by
  dsimp only [wallosUpsert]

section New
variable (lookups : WallosLookups) (userID : Nat) (row : WallosRow) (url : String)
  (lifecycle : LifecycleDraft)

/-- The columns of the new row that its checks read. -/
theorem wallosSubscription_checked :
    let new := wallosSubscription lookups userID row url lifecycle
    new.status = lifecycle.status ∧ new.renewalMode = lifecycle.renewalMode ∧
      new.billingType = (mapPaymentCycle row.item.paymentCycle).billingType ∧
      new.amount = (entryColumns lookups userID row).amount ∧ new.notifyDaysBefore = none := by
  dsimp only [wallosSubscription, syncLegacyEnabledForLifecycle, entryColumns]
  exact ⟨rfl, rfl, rfl, rfl, rfl⟩

theorem wallosSubscription_columns (id : Nat) :
    let new := wallosSubscription lookups userID row url lifecycle
    columns { new with
        id := id, currency := orDefault "USD" new.currency, enabled := true,
        negativeZero := false } =
      entryColumns lookups userID row := by
  dsimp only [wallosSubscription, syncLegacyEnabledForLifecycle, entryColumns, columns,
    extractCurrencyAndAmount]
  rw [orDefault_of_ne (currencyOf_ne_empty _ _ _)]
  dsimp only [Subscription.billing, entrySchedule]

end New

/-- What becomes of an entry that is neither a duplicate nor of an unsupported cycle. -/
theorem importNewItem_spec (lookups : WallosLookups) (userID : Nat) (st : WallosState)
    (hcycle : (mapPaymentCycle row.item.paymentCycle).billingType = billingTypeRecurring) :
    (importNewItem lookups userID row st).seen = st.seen ∧
      ∃ created, (importNewItem lookups userID row st).table.rows = st.table.rows ++ created ∧
        created.map columns = ((wallosUpsert lookups userID).row row).toList := by
  obtain ⟨lifecycle, hlifecycle, hstatus, hmode⟩ :=
    legacyLifecycle_total (parseEnabled row.item.active)
      (parseDate row.item.nextPayment) row.nowUTC row.now
  rw [wallosUpsert_row]
  unfold importNewItem
  dsimp only
  cases hurl : normalizeSubscriptionURL lookups.parseURL row.item.url with
  | error err => exact ⟨rfl, [], (List.append_nil _).symm, rfl⟩
  | ok url =>
    dsimp only
    rw [hlifecycle]
    dsimp only
    obtain ⟨hnewStatus, hnewMode, hbilling, hamount, hnotify⟩ :=
      wallosSubscription_checked lookups userID row url lifecycle
    have hcolumns := wallosSubscription_columns lookups userID row url lifecycle st.table.nextID
    generalize wallosSubscription lookups userID row url lifecycle = new at *
    rw [insertSubscription_eq new st.table (hnewStatus ▸ hstatus) (hnewMode ▸ hmode)
      (hbilling.trans hcycle)]
    dsimp only at hcolumns ⊢
    generalize
      ({ new with
        id := st.table.nextID, currency := orDefault "USD" new.currency, enabled := true,
        negativeZero := false } : Subscription) =
      stored at hcolumns ⊢
    rw [hamount, hnotify]
    by_cases hpositive : 0 ≤ (entryColumns lookups userID row).amount
    · simp only [hpositive, decide_true, Option.all_none, Bool.and_self, if_true, Except.isOk,
        Except.toBool, Option.toList_some]
      exact ⟨trivial, [stored], rfl, by rw [List.map_singleton, hcolumns]⟩
    · simp only [hpositive, decide_false, Bool.false_and, Bool.and_false, Bool.false_eq_true,
        if_false, Option.toList_none]
      exact ⟨trivial, [], (List.append_nil _).symm, rfl⟩

/-! The loop, entry by entry. -/

theorem importItem_named (lookups : WallosLookups) (userID : Nat) (st : WallosState)
    (hname : trimSpace row.item.name ≠ "") :
    importItem lookups userID st row =
      let entry := entryColumns lookups userID row
      let isDuplicate := st.seen.contains (entryKey lookups row) ||
        wallosExists userID entry.name entry.amount entry.currency entry.billingType st.table.rows
      let st := { st with seen := entryKey lookups row :: st.seen }
      if isDuplicate ∨ (mapPaymentCycle row.item.paymentCycle).billingType ≠ billingTypeRecurring then
        { st with skipped := st.skipped + 1 }
      else importNewItem lookups userID row st := by
  dsimp only [importItem, entryKey, entryColumns, extractCurrencyAndAmount]
  simp only [hname, if_false]

theorem wallos_creates (lookups : WallosLookups) (userID : Nat) (rows : List WallosColumns)
    (before : List WallosRow) (row : WallosRow) : (wallosUpsert lookups userID).creates rows before row =
      if (wallosUpsert lookups userID).marks rows before row
        then (wallosUpsert lookups userID).row row else none := by
  have hconflict : (fun r => !rows.any ((wallosUpsert lookups userID).conflict r)) = fun _ => true := by
    funext r
    simp [wallosUpsert]
  have hfilter : ∀ new : Option WallosColumns, new.filter (fun _ => true) = new := by
    rintro (_ | new) <;> rfl
  rw [Upsert.creates, hconflict, hfilter]

/-- A round of the loop, when its keys are those of the entries before. -/
theorem importItem_spec (hseen : ∀ k, k ∈ st.seen ↔ k ∈ (wallosUpsert lookups userID).seen before)
    (row : WallosRow) :
    (∀ k, k ∈ (importItem lookups userID st row).seen ↔ k ∈ (wallosUpsert lookups userID).seen
      (before ++ [row])) ∧
      ∃ created, (importItem lookups userID st row).table.rows = st.table.rows ++ created ∧
        created.map columns =
          ((wallosUpsert lookups userID).creates (st.table.rows.map columns) before row).toList := by
  have hsnoc : ∀ k, k ∈ (wallosUpsert lookups userID).seen (before ++ [row]) ↔
      k ∈ st.seen ∨ (wallosUpsert lookups userID).key row = some k := by
    intro k
    rw [Upsert.seen, List.filterMap_append, List.mem_append, hseen k]
    simp [Upsert.seen]
  rw [wallos_creates]
  by_cases hname : trimSpace row.item.name = ""
  · -- An entry without a name has no key.
    have hkey : (wallosUpsert lookups userID).key row = none := if_pos hname
    have hmarks : (wallosUpsert lookups userID).marks
        (st.table.rows.map columns) before row = false := by
      rw [Upsert.marks, Upsert.fresh, hkey, Option.any_none, Bool.and_false, Bool.false_and]
    rw [importItem, if_pos hname, hmarks]
    exact ⟨fun k => by rw [hsnoc, hkey]; simp, [], (List.append_nil _).symm, rfl⟩
  have hkey : (wallosUpsert lookups userID).key row = some (entryKey lookups row) := if_neg hname
  have hkeys : ∀ k, k ∈ entryKey lookups row :: st.seen ↔ k ∈ (wallosUpsert lookups userID).seen
      (before ++ [row]) := by
    intro k
    rw [hsnoc, hkey, Option.some.injEq, List.mem_cons, eq_comm, or_comm]
  have hcontains : st.seen.contains (entryKey lookups row) = decide
      (entryKey lookups row ∈ (wallosUpsert lookups userID).seen before) := by
    rw [List.contains_eq_mem]
    exact decide_eq_decide.2 (hseen _)
  have hmarks : (wallosUpsert lookups userID).marks (st.table.rows.map columns) before row =
      (decide ((mapPaymentCycle row.item.paymentCycle).billingType = billingTypeRecurring) &&
        !(st.seen.contains (entryKey lookups row) || (st.table.rows.map columns).any
          ((wallosUpsert lookups userID).hit row))) := by
    rw [Upsert.marks, Upsert.fresh, hkey, Option.any_some, hcontains, Bool.not_or, decide_not,
      ← Bool.and_assoc, wallosUpsert_valid]
  rw [importItem_named lookups userID st hname, hmarks]
  dsimp only
  rw [wallosExists_eq]
  generalize (st.seen.contains (entryKey lookups row) ||
    (st.table.rows.map columns).any ((wallosUpsert lookups userID).hit row)) = isDuplicate
  by_cases hcycle : (mapPaymentCycle row.item.paymentCycle).billingType = billingTypeRecurring
  · cases isDuplicate with
    | true => exact ⟨hkeys, [], by simp, by simp⟩
    | false =>
      obtain ⟨hsame, created, hrows, hcreated⟩ :=
        importNewItem_spec lookups userID { st with seen := entryKey lookups row :: st.seen } hcycle
      simp only [Bool.false_eq_true, hcycle, ne_eq, not_true_eq_false, or_self, if_false,
        decide_true, Bool.not_false, Bool.and_self,
        if_true]
      exact ⟨fun k => by rw [hsame]; exact hkeys k, created, hrows, hcreated⟩
  · simp only [hcycle, ne_eq, not_false_eq_true, or_true, if_true, decide_false, Bool.false_and,
      Bool.false_eq_true, if_false]
    exact ⟨hkeys, [], (List.append_nil _).symm, rfl⟩

end Step

/-! ## What the loop stores -/

/-- An entry is stored: it is the first of its key and passes the checks, and matches
neither a row that was there nor the columns of an earlier entry that is stored. -/
def isStored (lookups : WallosLookups) (userID : Nat) (rows : List Subscription)
    (before : List WallosRow) (row : WallosRow) : Bool :=
  (wallosUpsert lookups userID).inserts (rows.map columns) before row

section Run
variable {lookups : WallosLookups} {userID : Nat} {table : SubscriptionTable} {row : WallosRow}

theorem loop_spec (lookups : WallosLookups) (userID : Nat) (table : SubscriptionTable)
    (data : List WallosRow) :
    let st := data.foldl (importItem lookups userID) ⟨table, [], 0, 0, []⟩
    (∀ k, k ∈ st.seen ↔ k ∈ (wallosUpsert lookups userID).seen data) ∧
      ∃ created, st.table.rows = table.rows ++ created ∧
        st.table.rows.map columns = (wallosUpsert lookups userID).run (table.rows.map columns) data := by
  induction data using List.reverseRecOn with
  | nil => exact ⟨fun k => by simp [Upsert.seen], [], (List.append_nil _).symm, rfl⟩
  | append_singleton data row ih =>
    obtain ⟨hseen, created, hrows, hrun⟩ := ih
    obtain ⟨hseen', new, hrows', hnew⟩ := importItem_spec hseen row
    dsimp only
    rw [List.foldl_append, List.foldl_cons, List.foldl_nil, Upsert.run_snoc, ← hrun, ← hnew]
    refine ⟨hseen', created ++ new, ?_, ?_⟩
    · rw [hrows', hrows, List.append_assoc]
    · rw [hrows', List.map_append]

/-- The created rows, by their columns. -/
theorem created_columns {data : List WallosRow} {st : WallosState}
    (h : importFromWallos lookups userID data table = .ok st) :
    ∃ created, st.table.rows = table.rows ++ created ∧
      created.map columns = ((wallosUpsert lookups userID).kept (table.rows.map columns) data).filterMap
        (wallosUpsert lookups userID).row := by
  unfold importFromWallos at h
  split at h
  · simp only [reduceCtorEq] at h
  obtain rfl := Except.ok.inj h
  obtain ⟨-, created, hrows, hrun⟩ := loop_spec lookups userID table data
  refine ⟨created, hrows, ?_⟩
  rw [Upsert.run_eq_kept, hrows, List.map_append] at hrun
  exact List.append_cancel_left hrun

/-- The columns of a created row are those of an entry that is stored. -/
theorem mem_created {data : List WallosRow} {created : List Subscription}
    (hcreated : created.map columns =
      ((wallosUpsert lookups userID).kept (table.rows.map columns) data).filterMap
      (wallosUpsert lookups userID).row) {new : WallosColumns} :
    new ∈ created.map columns ↔ ∃ before row after, data = before ++ row :: after ∧
      isStored lookups userID table.rows before row = true ∧
        (wallosUpsert lookups userID).row row = some new := by
  rw [hcreated, List.mem_filterMap]
  constructor
  · rintro ⟨row, hmem, hrow⟩
    obtain ⟨before, after, hdata, hinserts⟩ := Upsert.mem_kept_iff.1 hmem
    exact ⟨before, row, after, hdata, hinserts, hrow⟩
  · rintro ⟨before, row, after, hdata, hinserts, hrow⟩
    exact ⟨row, Upsert.mem_kept_iff.2 ⟨before, after, hdata, hinserts⟩, hrow⟩

end Run

/-! ## Their schedules -/

/-- `normalizeBillingDraft` accepts the row's schedule and leaves it as it is. -/
def KeepsSchedule (sub : Subscription) : Prop :=
  ∃ date, normalizeBillingDraft sub.billing = .ok (sub.billing, date)

theorem everyN_unit {cycle unit : String} {n : Nat} (h : everyN cycle = some (n, unit)) :
    isValidIntervalUnit unit = true := by
  unfold everyN at h
  obtain ⟨rest, -, h⟩ := Option.bind_eq_some_iff.1 h
  dsimp only at h
  split at h
  · cases h
  · obtain ⟨name, hname, h⟩ := Option.map_eq_some_iff.1 h
    obtain rfl : name = unit := (Prod.mk.inj h).2
    have hunits : ∀ name ∈ ["day", "week", "month", "year"], isValidIntervalUnit name = true := by decide
    exact hunits name (List.mem_of_find?_eq_some hname)

/-- A cycle is an interval in one of the four units, or not supported. -/
theorem mapPaymentCycle_cases (cycle : String) :
    (∃ unit count, mapPaymentCycle cycle = everyCycle unit count ∧ 1 ≤ count ∧
      isValidIntervalUnit unit = true) ∨
      mapPaymentCycle cycle = ⟨"", "", "", 0⟩ := by
  unfold mapPaymentCycle
  dsimp only
  generalize lowerTrimmed cycle = lower
  iterate 7
    split
    · exact .inl ⟨_, _, rfl, by decide, by decide⟩
  cases hevery : everyN cycle with
  | none => exact .inr rfl
  | some every =>
    obtain ⟨n, unit⟩ := every
    dsimp only
    split
    · rename_i hpos
      exact .inl ⟨unit, atoiDigits n, rfl, hpos, everyN_unit hevery⟩
    · exact .inr rfl

theorem dateOfDigits_midnight {year month day : List Char} {date : Time}
    (h : dateOfDigits year month day = some date) :
    ∃ n, date = midnight n := by
  unfold dateOfDigits at h
  split at h
  · split at h
    · exact ⟨_, (Option.some.inj h).symm⟩
    · cases h
  · cases h

/-- Every date that is read is a midnight in UTC. -/
theorem parseDate_midnight {s : String} {date : Time} (h : parseDate s = some date) :
    ∃ n, date = midnight n := by
  have hlayouts : ∀ layout ∈ dateFormats, ∀ cs, layout cs = some date → ∃ n, date = midnight n := by
    intro layout hlayout cs hcs
    simp only [dateFormats, List.mem_cons, List.not_mem_nil, or_false] at hlayout
    rcases hlayout with rfl | rfl | rfl | rfl
    all_goals
      dsimp only at hcs
      split at hcs
      · exact dateOfDigits_midnight hcs
      · cases hcs
  unfold parseDate at h
  dsimp only at h
  split at h
  · cases h
  · obtain ⟨layout, hlayout, hdate⟩ := List.exists_of_findSome?_eq_some h
    exact hlayouts layout hlayout _ hdate

/-- The schedule of an entry is kept when the entry has a date. -/
theorem entrySchedule_iff {row : WallosRow}
    (hcycle : (mapPaymentCycle row.item.paymentCycle).billingType = billingTypeRecurring) :
    (∃ date, normalizeBillingDraft (entrySchedule row) = .ok (entrySchedule row, date)) ↔
    (parseDate row.item.nextPayment).isSome := by
  constructor
  · rintro ⟨date, h⟩
    have hdate : parseDate row.item.nextPayment = some date :=
      (normalizeBillingDraft_ok h).nextBillingDate
    rw [hdate, Option.isSome_some]
  · intro h
    obtain ⟨date, hdate⟩ := Option.isSome_iff_exists.1 h
    obtain ⟨n, rfl⟩ := parseDate_midnight hdate
    rcases mapPaymentCycle_cases row.item.paymentCycle with ⟨unit, count, hevery, hcount, hunit⟩ | hnone
    · have hinterval : (entrySchedule row).recurrenceType = recurrenceTypeInterval := by
        dsimp only [entrySchedule]
        rw [hevery, everyCycle]
      have hintervalCount : (entrySchedule row).intervalCount = some count := by
        dsimp only [entrySchedule]
        rw [hevery, everyCycle]
      have hintervalUnit : isValidIntervalUnit (entrySchedule row).intervalUnit = true := by
        dsimp only [entrySchedule]
        rw [hevery, everyCycle]
        exact hunit
      have hfields : (entrySchedule row).Fields :=
        .interval hinterval hintervalCount hcount hintervalUnit rfl rfl rfl
      have hbilling : (entrySchedule row).billingType = billingTypeRecurring := by
        dsimp only [entrySchedule]
        exact hcycle
      have hnext : (entrySchedule row).nextBillingDate = some (midnight n) := by
        dsimp only [entrySchedule]
        exact hdate
      exact ⟨midnight n, BillingDraft.Normalized.fixed ⟨hbilling, hfields, hnext, by simp⟩⟩
    · rw [hnone] at hcycle
      exact absurd hcycle (by decide)

/-- The schedules of all created rows are kept if and only if every entry that is stored has
a next payment that is a date. -/
theorem wallos_schedules_iff {lookups : WallosLookups} {userID : Nat} {data : List WallosRow}
    {table : SubscriptionTable} {st : WallosState}
    (h : importFromWallos lookups userID data table = .ok st) :
    ∃ created, st.table.rows = table.rows ++ created ∧
      ((∀ sub ∈ created, KeepsSchedule sub) ↔
        ∀ before row after, data = before ++ row :: after →
          isStored lookups userID table.rows before row = true →
          (parseDate row.item.nextPayment).isSome) := by
  obtain ⟨created, hrows, hcreated⟩ := created_columns h
  refine ⟨created, hrows, ?_⟩
  -- An entry that is stored has a supported cycle and its own columns.
  have hcolumns : ∀ before row, isStored lookups userID table.rows before row = true →
      (mapPaymentCycle row.item.paymentCycle).billingType = billingTypeRecurring ∧
        ∃ new, (wallosUpsert lookups userID).row row = some new ∧ new.schedule = entrySchedule row := by
    intro before row hstored
    obtain ⟨new, hnew, -⟩ := Upsert.inserts_iff.1 hstored
    obtain ⟨hfresh, hrow, -⟩ := Upsert.creates_iff.1 hnew
    have hvalid := Upsert.valid_of_fresh hfresh
    rw [wallosUpsert_valid] at hvalid
    refine ⟨of_decide_eq_true hvalid, new, hrow, ?_⟩
    rw [wallosUpsert_row, Option.ite_none_right_eq_some, Option.some.injEq] at hrow
    rw [← hrow.2]
    dsimp only [entryColumns]
  constructor
  · intro hkept before row after hdata hstored
    obtain ⟨hcycle, new, hrow, hschedule⟩ := hcolumns _ _ hstored
    obtain ⟨sub, hsub, rfl⟩ :=
      List.mem_map.1 ((mem_created hcreated).2 ⟨before, row, after, hdata, hstored, hrow⟩)
    have hsame : sub.billing = entrySchedule row := hschedule
    rw [← entrySchedule_iff hcycle, ← hsame]
    exact hkept sub hsub
  · intro hdates sub hsub
    obtain ⟨before, row, after, hdata, hstored, hrow⟩ :=
      (mem_created hcreated).1 (List.mem_map_of_mem hsub)
    obtain ⟨hcycle, new, hrow', hschedule⟩ := hcolumns _ _ hstored
    obtain rfl := Option.some.inj (hrow'.symm.trans hrow)
    have hsame : sub.billing = entrySchedule row := hschedule
    rw [KeepsSchedule, hsame, entrySchedule_iff hcycle]
    exact hdates before row after hdata hstored

/-- A monthly entry whose next payment was left empty. -/
def undatedEntry : WallosRow where
  item :=
    { name := "Gym", paymentCycle := "Monthly", nextPayment := "", category := "",
      paymentMethod := "", price := "$10", notes := ""
      url := "", notifications := "", active := "Yes" }
  symbols := default
  nowUTC := dateUTC 2025 1 1
  now := dateUTC 2025 1 1

def plainLookups : WallosLookups := ⟨fun _ => none, "USD", fun _ => none, fun _ => none⟩

/-- The entry without a date is stored, and no schedule is. -/
theorem wallos_stores_undated :
    ¬ ∀ (lookups : WallosLookups) (userID : Nat) (data : List WallosRow) (table : SubscriptionTable)
    (st : WallosState),
      importFromWallos lookups userID data table = .ok st →
      ∀ created, st.table.rows = table.rows ++ created → ∀ sub ∈ created, KeepsSchedule sub := by
  intro h
  have hstored : (match importFromWallos plainLookups 1 [undatedEntry] ⟨[], 1⟩ with
      | .ok st => st.table.rows.any fun sub => sub.nextBillingDate = none
      | .error _ => false) = true := by decide +kernel
  cases hrun : importFromWallos plainLookups 1 [undatedEntry] ⟨[], 1⟩ with
  | error err =>
    rw [hrun] at hstored
    simp at hstored
  | ok st =>
    rw [hrun] at hstored
    obtain ⟨sub, hsub, hnone⟩ := List.any_eq_true.1 hstored
    obtain ⟨date, hkept⟩ := h plainLookups 1 [undatedEntry] ⟨[], 1⟩ st hrun st.table.rows rfl sub hsub
    have hdate : sub.nextBillingDate = some date := (normalizeBillingDraft_ok hkept).nextBillingDate
    rw [of_decide_eq_true hnone] at hdate
    cases hdate

theorem wallos_schedules_undatedEntry :
    ∃ st created, importFromWallos plainLookups 1 [undatedEntry] ⟨[], 1⟩ = .ok st ∧
    st.table.rows = created ∧
      ((∀ sub ∈ created, KeepsSchedule sub) ↔
        ∀ before row after, [undatedEntry] = before ++ row :: after → isStored plainLookups 1
          [] before row = true →
          (parseDate row.item.nextPayment).isSome) := by
  obtain ⟨st, hst⟩ : ∃ st, importFromWallos plainLookups 1 [undatedEntry] ⟨[], 1⟩ = .ok st := by
    rw [importFromWallos, if_neg (by decide)]
    exact ⟨_, rfl⟩
  obtain ⟨created, hrows, hiff⟩ := wallos_schedules_iff hst
  exact ⟨st, created, hst, hrows, hiff⟩

end Subdux.Wallos
