import Mathlib.Data.Fintype.Defs
import Mathlib.Tactic.MkIffOfInductiveProp
import Subdux.Lib.Restarts
import Subdux.Lib.Rows
import Subdux.Subscription
/-!
# Schema migrations

`internal/pkg/schema_migrations.go` and the migrations that rewrite rows: the lifecycle backfill
(`migration_20260512_02`), the hardening before the tables are rebuilt with constraints
(`migration_20260512_03`) and the kinds of API keys. They run when the server starts, one
statement after another, and a server that is stopped starts over with the first migration that
`schema_migrations` does not list. The old tables declare no foreign keys.
-/

namespace Subdux
open Restarts Rows

/-! ## Tables -/

structure LegacyUser where
  id : Nat
  role : String
  status : String
  deriving DecidableEq

/-- A row of a table of which the migrations read the key and the owner only. -/
structure OwnedRow where
  id : Nat
  userID : Nat
  deriving DecidableEq

structure LegacySubscription where
  row : Subscription
  updatedAt : Time
  deriving DecidableEq

structure LegacyPolicy where
  id : Nat
  userID : Nat
  daysBefore : Int
  deriving DecidableEq

structure LegacyAPIKey where
  id : Nat
  userID : Nat
  keyKind : Option String
  deriving DecidableEq

structure LegacyVerificationCode where
  id : Nat
  userID : Option Nat
  deriving DecidableEq

structure LegacyLog where
  id : Nat
  userID : Nat
  subscriptionID : Nat
  deriving DecidableEq

inductive OwnedTable where
  | userPreferences
  | userCurrencies
  | userBackupCodes
  | passkeyCredentials
  | oidcConnections
  | categories
  | paymentMethods
  | notificationChannels
  | notificationTemplates
  | refreshTokens
  | calendarTokens
  deriving DecidableEq

instance OwnedTable.fintype : Fintype OwnedTable where
  elems :=
    {userPreferences, userCurrencies, userBackupCodes, passkeyCredentials, oidcConnections,
      categories, paymentMethods,
    notificationChannels, notificationTemplates, refreshTokens, calendarTokens}
  complete table := by cases table <;> decide

structure MigrationTables where
  users : List LegacyUser
  owned : OwnedTable → List OwnedRow
  subscriptions : List LegacySubscription
  policies : List LegacyPolicy
  apiKeys : List LegacyAPIKey
  codes : List LegacyVerificationCode
  logs : List LegacyLog

/-- `SELECT id FROM users`. -/
def MigrationTables.userIDs (t : MigrationTables) : List Nat := t.users.map (·.id)

/-! ## Columns that a row's update sets -/

structure LegacyUserUpdates where
  role : Option String
  status : Option String
  deriving DecidableEq

def LegacyUserUpdates.none : LegacyUserUpdates := ⟨.none, .none⟩

def LegacyUserUpdates.apply (u : LegacyUserUpdates) (user : LegacyUser) : LegacyUser :=
  { user with role := u.role.getD user.role, status := u.status.getD user.status }

/-- `if value != column { updates[...] = value }`. -/
def changed {α : Type} [DecidableEq α] (column value : α) : Option α :=
  if value ≠ column then some value else none

/-- The updates of a subscription; the inner `none` of a column is NULL. -/
structure LegacyUpdates where
  amount : Option Rat
  status : Option String
  renewalMode : Option String
  endsAt : Option Time
  enabled : Option Bool
  notifyDaysBefore : Option (Option Int)
  categoryID : Option (Option Nat)
  paymentMethodID : Option (Option Nat)
  deriving DecidableEq

def LegacyUpdates.none : LegacyUpdates := ⟨.none, .none, .none, .none, .none, .none, .none, .none⟩

/-- `Updates`, which also stamps the row. -/
def LegacyUpdates.apply (u : LegacyUpdates) (now : Time) (sub : LegacySubscription) :
    LegacySubscription where
  row := { sub.row with
    amount := u.amount.getD sub.row.amount
    status := u.status.getD sub.row.status
    renewalMode := u.renewalMode.getD sub.row.renewalMode
    endsAt := u.endsAt.or sub.row.endsAt
    enabled := u.enabled.getD sub.row.enabled
    notifyDaysBefore := u.notifyDaysBefore.getD sub.row.notifyDaysBefore
    categoryID := u.categoryID.getD sub.row.categoryID
    paymentMethodID := u.paymentMethodID.getD sub.row.paymentMethodID }
  updatedAt := now

/-! ## The lifecycle backfill -/

def normalizeSubscriptionLifecycleValue (value : String) : String := lowerTrimmed value

def normalizeSubscriptionDate (value : Time) : Time := normalizeDateUTC value

/-- The end of a subscription that has ended without a date. -/
def migrationEndsAt (sub : LegacySubscription) (now : Time) : Time :=
  match sub.row.nextBillingDate with
  | some date => normalizeSubscriptionDate date
  | none =>
    if (normalizeSubscriptionDate sub.updatedAt).isZero then normalizeSubscriptionDate now.utc
    else normalizeSubscriptionDate sub.updatedAt

def statusOfEnabled (enabled : Bool) : String :=
  if enabled then subscriptionStatusActive else subscriptionStatusEnded

def modeOfStatus (status : String) : String :=
  if status = subscriptionStatusEnded then renewalModeCancelAtPeriodEnd else renewalModeAutoRenew

/-- The columns that both migrations derive from a status. -/
def lifecycleEndsAt (sub : LegacySubscription) (status : String) (now : Time) : Option Time :=
  if status = subscriptionStatusEnded ∧ sub.row.endsAt = none then some (migrationEndsAt sub now)
    else none

def lifecycleEnabled (sub : LegacySubscription) (status : String) : Option Bool :=
  changed sub.row.enabled (decide (status = subscriptionStatusActive))

def backfillStatus (sub : LegacySubscription) : String :=
  let status := normalizeSubscriptionLifecycleValue sub.row.status
  if status = "" then statusOfEnabled sub.row.enabled else status

/-- The body of the loop of `backfillSubscriptionLifecycleFields`. -/
def backfillUpdates (sub : LegacySubscription) (now : Time) : LegacyUpdates :=
  let status := backfillStatus sub
  { LegacyUpdates.none with
    status := if normalizeSubscriptionLifecycleValue sub.row.status = "" then some status else none
    renewalMode :=
      if normalizeSubscriptionLifecycleValue sub.row.renewalMode = ""
        then some (modeOfStatus status) else none
    endsAt := lifecycleEndsAt sub status now
    enabled := lifecycleEnabled sub status }

/-! ## The hardening -/

def maxNotifyDaysBeforeSQLite : Int := 10

def oneOf (values : List String) (fallback value : String) : String :=
  if value ∈ values then value else fallback

/-- The body of the loop of `normalizeUsersForSQLiteConstraints`. -/
def legacyUserUpdates (user : LegacyUser) : LegacyUserUpdates where
  role := changed user.role (oneOf ["admin", "user"] "user" (lowerTrimmed user.role))
  status := changed user.status (oneOf ["active", "disabled"] "active" (lowerTrimmed user.status))

def hardenStatus (sub : LegacySubscription) : String :=
  oneOf [subscriptionStatusActive, subscriptionStatusEnded] (statusOfEnabled sub.row.enabled)
    (lowerTrimmed sub.row.status)

/-- A reference to a row that is not there, or is another user's, becomes NULL. -/
def referenceUpdate (rows : List OwnedRow) (userID : Nat) (reference : Option Nat) :
    Option (Option Nat) :=
  match reference with
  | none => none
  | some id =>
    match rows.find? (·.id = id) with
    | none => some none
    | some found => if found.userID ≠ userID then some none else none

def daysInRange (days : Int) : Bool := 0 ≤ days ∧ days ≤ maxNotifyDaysBeforeSQLite

/-- The body of the loop of `normalizeSubscriptionsForSQLiteConstraints`. -/
def hardenUpdates (t : MigrationTables) (sub : LegacySubscription) (now : Time) : LegacyUpdates :=
  let status := hardenStatus sub
  { amount := if sub.row.amount < 0 then some 0 else none
    status := changed sub.row.status status
    renewalMode :=
      changed sub.row.renewalMode
        (oneOf [renewalModeAutoRenew, renewalModeManualRenew, renewalModeCancelAtPeriodEnd]
      (modeOfStatus status) (lowerTrimmed sub.row.renewalMode))
    endsAt := lifecycleEndsAt sub status now
    enabled := lifecycleEnabled sub status
    notifyDaysBefore :=
      sub.row.notifyDaysBefore.bind fun days => if daysInRange days then none else some none
    categoryID := referenceUpdate (t.owned .categories) sub.row.userID sub.row.categoryID
    paymentMethodID := referenceUpdate (t.owned .paymentMethods) sub.row.userID sub.row.paymentMethodID }

/-- The tables of `cleanupUserScopedOrphans`. -/
inductive ScopedTable where
  | owned (table : OwnedTable)
  | subscriptions
  | notificationPolicies
  | apiKeys
  deriving DecidableEq

def scopedTables : List ScopedTable :=
  [.owned .userPreferences, .owned .userCurrencies, .owned .userBackupCodes,
   .owned .passkeyCredentials, .owned .oidcConnections,
    .owned .categories, .owned .paymentMethods, .subscriptions, .owned .notificationChannels,
      .notificationPolicies,
    .owned .notificationTemplates, .apiKeys, .owned .refreshTokens, .owned .calendarTokens]

/-- `DELETE ... WHERE user_id NOT IN (SELECT id FROM users)`. -/
def MigrationTables.deleteOrphans (t : MigrationTables) : ScopedTable → MigrationTables
  | .owned table =>
    { t with owned := Function.update t.owned table ((t.owned table).filter (·.userID ∈ t.userIDs)) }
  | .subscriptions => { t with subscriptions := t.subscriptions.filter (·.row.userID ∈ t.userIDs) }
  | .notificationPolicies => { t with policies := t.policies.filter (·.userID ∈ t.userIDs) }
  | .apiKeys => { t with apiKeys := t.apiKeys.filter (·.userID ∈ t.userIDs) }

def MigrationTables.clearCodes (t : MigrationTables) : MigrationTables :=
  { t with
    codes := updateWhere (fun code => code.userID.any (· ∉ t.userIDs))
      (fun code => { code with userID := none }) t.codes }

/-- A log stays with its user and a subscription of that user. -/
def MigrationTables.keepsLog (t : MigrationTables) (entry : LegacyLog) : Bool :=
  t.users.any (·.id = entry.userID) ∧
    (t.subscriptions.find? (·.row.id = entry.subscriptionID)).any (·.row.userID = entry.userID)

/-! ## Constraints of the rebuilt tables -/

/-- The checks and foreign keys that the models declare. -/
@[mk_iff constraints_iff]
structure SQLiteConstraints (t : MigrationTables) : Prop where
  users : ∀ user ∈ t.users, user.role ∈ ["admin", "user"] ∧ user.status ∈ ["active", "disabled"]
  owned : ∀ table, ∀ row ∈ t.owned table, row.userID ∈ t.userIDs
  policies : ∀ policy ∈ t.policies, policy.userID ∈ t.userIDs ∧ daysInRange policy.daysBefore = true
  apiKeys : ∀ key ∈ t.apiKeys, key.userID ∈ t.userIDs
  codes : ∀ code ∈ t.codes, ∀ id ∈ code.userID, id ∈ t.userIDs
  subscriptionChecks : ∀ sub ∈ t.subscriptions, 0 ≤ sub.row.amount ∧
    isValidSubscriptionStatus sub.row.status = true ∧
    isValidRenewalMode sub.row.renewalMode = true ∧ ∀ days ∈ sub.row.notifyDaysBefore,
      daysInRange days = true
  subscriptionKeys : ∀ sub ∈ t.subscriptions, sub.row.userID ∈ t.userIDs ∧
    (∀ id ∈ sub.row.categoryID, id ∈ (t.owned .categories).map (·.id)) ∧
    ∀ id ∈ sub.row.paymentMethodID, id ∈ (t.owned .paymentMethods).map (·.id)
  logs : ∀ entry ∈ t.logs, entry.userID ∈ t.userIDs ∧ entry.subscriptionID ∈ t.subscriptions.map
    (·.row.id)

instance SQLiteConstraints.decidable (t : MigrationTables) : Decidable (SQLiteConstraints t) :=
  decidable_of_iff _ (constraints_iff t).symm

/-! ## Statements -/

/-- A statement of a migration, with the row that its loop is at. -/
inductive MigrationStatement where
  | backfill (sub : LegacySubscription)
  | normalizeUser (user : LegacyUser)
  | deleteOrphans (table : ScopedTable)
  | clearCodes
  | normalizeSubscription (sub : LegacySubscription)
  | normalizePolicy (policy : LegacyPolicy)
  | checkLog (entry : LegacyLog)
  | rebuild
  | fillKeyKinds
  deriving DecidableEq

/-- What a statement reads of the clock: `time.Now()`, and the stamp of the update. -/
structure MigrationClock where
  now : Time
  stamp : Time

/-- `Updates(updates)` where `updates` is not empty. -/
def MigrationTables.updateUser (t : MigrationTables) (user : LegacyUser)
    (updates : LegacyUserUpdates) : MigrationTables :=
  if updates = .none then t else { t with users := updateWhere (·.id = user.id) updates.apply t.users }

def MigrationTables.updateSubscription (t : MigrationTables) (sub : LegacySubscription)
    (updates : LegacyUpdates) (stamp : Time) : MigrationTables :=
  if updates = .none then t
  else
    { t with subscriptions := updateWhere (·.row.id = sub.row.id) (updates.apply stamp) t.subscriptions }

def blankKeyKind (kind : Option String) : Bool := kind.all fun text => text.toList.all (· = ' ')

/-- A statement at most, of those that the loops of the migrations issue for a row. The tables are
rebuilt in one transaction, which a violated constraint undoes. -/
def MigrationStatement.run (clock : MigrationClock) (statement : MigrationStatement)
    (t : MigrationTables) :
    Option MigrationTables :=
  match statement with
  | backfill sub => some (t.updateSubscription sub (backfillUpdates sub clock.now) clock.stamp)
  | normalizeUser user => some (t.updateUser user (legacyUserUpdates user))
  | deleteOrphans table => some (t.deleteOrphans table)
  | clearCodes => some t.clearCodes
  | normalizeSubscription sub =>
    some (t.updateSubscription sub (hardenUpdates t sub clock.now) clock.stamp)
  | normalizePolicy policy =>
    some (if daysInRange policy.daysBefore then t
      else
        { t with
          policies := updateWhere (·.id = policy.id) (fun p => { p with daysBefore := 3 }) t.policies })
  | checkLog entry =>
    some (if t.keepsLog entry then t else { t with logs := t.logs.filter (·.id ≠ entry.id) })
  | rebuild => if SQLiteConstraints t then some t else none
  | fillKeyKinds =>
    some { t with
      apiKeys := updateWhere (blankKeyKind ·.keyKind)
        (fun key => { key with keyKind := some "api_integration" }) t.apiKeys }

/-! ## Migrations -/

abbrev MigrationPhase := Phase MigrationTables MigrationStatement

def backfillSubscriptionLifecycleFields : MigrationPhase := fun t => t.subscriptions.map .backfill

def normalizeUsersForSQLiteConstraints : MigrationPhase := fun t => t.users.map .normalizeUser

def cleanupUserScopedOrphans : MigrationPhase :=
  fun _ => scopedTables.map .deleteOrphans ++ [.clearCodes]

def normalizeSubscriptionsForSQLiteConstraints : MigrationPhase :=
  fun t => t.subscriptions.map .normalizeSubscription

def normalizeNotificationPoliciesForSQLiteConstraints : MigrationPhase :=
  fun t => t.policies.map .normalizePolicy

def cleanupNotificationLogOrphans : MigrationPhase := fun t => t.logs.map .checkLog

def rebuildSQLiteTables : MigrationPhase := fun _ => [.rebuild]

def migrateAPIKeyKindAndAudit : MigrationPhase := fun _ => [.fillKeyKinds]

def normalizeDataForSQLiteConstraints : List MigrationPhase :=
  [normalizeUsersForSQLiteConstraints, cleanupUserScopedOrphans,
   normalizeSubscriptionsForSQLiteConstraints,
    normalizeNotificationPoliciesForSQLiteConstraints, cleanupNotificationLogOrphans]

def migrateSQLiteIntegrityHardening : List MigrationPhase :=
  normalizeDataForSQLiteConstraints ++ [rebuildSQLiteTables]

abbrev SchemaMigration := Job String MigrationTables MigrationStatement

/-- The migrations in order. The ones without a phase only create tables and indexes. -/
def schemaMigrations : List SchemaMigration :=
  [⟨"20260512_01_create_missing_tables", []⟩,
    ⟨"20260512_02_subscription_lifecycle_backfill", [backfillSubscriptionLifecycleFields]⟩,
    ⟨"20260512_03_sqlite_integrity_hardening", migrateSQLiteIntegrityHardening⟩,
    ⟨"20260512_04_auto_migrate_latest_schema", []⟩,
    ⟨"20260525_01_subscription_events", []⟩,
    ⟨"20260527_01_subscription_action_snoozes", []⟩,
    ⟨"20260622_01_notification_outbox_leases", []⟩,
    ⟨"20260623_01_api_key_kind_and_audit", [migrateAPIKeyKindAndAudit]⟩,
    ⟨"20260628_01_manual_renew_daily_notifications", []⟩,
    ⟨"20260628_02_mcp_idempotency_keys", []⟩,
    ⟨"20260628_03_performance_composite_indexes", []⟩]

abbrev MigrationSystem := System String MigrationTables MigrationStatement

/-- `runSchemaMigrations`, in servers that start, run and are stopped. -/
def runSchemaMigrations : MigrationSystem → Event MigrationClock → Option MigrationSystem :=
  step MigrationStatement.run schemaMigrations

/-! ## What rows keep -/

/-- The primary keys of the tables whose rows are written one by one. -/
structure UniqueKeys (t : MigrationTables) : Prop where
  users : (t.users.map (·.id)).Nodup
  subscriptions : (t.subscriptions.map (·.row.id)).Nodup
  policies : (t.policies.map (·.id)).Nodup
  logs : (t.logs.map (·.id)).Nodup

/-- The columns of a subscription that no migration writes; the others are blanked. -/
def Subscription.terms (row : Subscription) : Subscription :=
  { row with
    amount := 0
    status := ""
    renewalMode := ""
    endsAt := none
    enabled := false
    notifyDaysBefore := none
    categoryID := none
    paymentMethodID := none }

/-- What `migrateAPIKeyKindAndAudit` may do to a key. -/
def LegacyAPIKey.Becomes (was key : LegacyAPIKey) : Prop :=
  key = was ∨ blankKeyKind was.keyKind = true ∧ key = { was with keyKind := some "api_integration" }

/-- A code is never deleted, but may lose an owner who is gone. -/
def LegacyVerificationCode.Becomes (userIDs : List Nat) (was code : LegacyVerificationCode) : Prop :=
  code = was ∨ (∃ id ∈ was.userID, id ∉ userIDs) ∧ code = { was with userID := none }

/-- No row of an existing user is lost, and none appears. -/
structure KeepsRows (old new : MigrationTables) : Prop where
  users : new.users.map (·.id) = old.users.map (·.id)
  owned : ∀ table, new.owned table ⊆ old.owned table ∧ ∀ row ∈ old.owned table,
    row.userID ∈ old.userIDs → row ∈ new.owned table
  subscriptions : (∀ sub ∈ new.subscriptions, ∃ was ∈ old.subscriptions, sub.row.terms = was.row.terms) ∧
    ∀ was ∈ old.subscriptions, was.row.userID ∈ old.userIDs → ∃ sub ∈ new.subscriptions,
      sub.row.terms = was.row.terms
  policies : ∀ was ∈ old.policies, was.userID ∈ old.userIDs →
    ∃ policy ∈ new.policies, policy.id = was.id ∧ policy.userID = was.userID ∧
      (daysInRange was.daysBefore = true → policy = was)
  noPolicies : ∀ policy ∈ new.policies, ∃ was ∈ old.policies, policy.id = was.id ∧
    policy.userID = was.userID
  apiKeys : (∀ key ∈ new.apiKeys, ∃ was ∈ old.apiKeys, was.Becomes key) ∧
    ∀ was ∈ old.apiKeys, was.userID ∈ old.userIDs → ∃ key ∈ new.apiKeys, was.Becomes key
  codes : (∀ code ∈ new.codes, ∃ was ∈ old.codes, was.Becomes old.userIDs code) ∧
    ∀ was ∈ old.codes, ∃ code ∈ new.codes, was.Becomes old.userIDs code
  logs : new.logs ⊆ old.logs ∧ ∀ entry ∈ old.logs, entry.userID ∈ old.userIDs →
    (∃ sub ∈ old.subscriptions, sub.row.id = entry.subscriptionID ∧ sub.row.userID = entry.userID) →
      entry ∈ new.logs

/-- What the migrations make of a subscription beyond the constraints: the flag says what the
status says, an ended one has an end, and its category and payment method are its user's. -/
def LifecycleSettled (t : MigrationTables) : Prop :=
  ∀ sub ∈ t.subscriptions, (sub.row.enabled = true ↔ sub.row.status = subscriptionStatusActive) ∧
    (sub.row.status = subscriptionStatusEnded → sub.row.endsAt ≠ none) ∧
    (∀ id ∈ sub.row.categoryID, ∃ row ∈ t.owned .categories, row.id = id ∧ row.userID = sub.row.userID) ∧
    ∀ id ∈ sub.row.paymentMethodID, ∃ row ∈ t.owned .paymentMethods, row.id = id ∧
      row.userID = sub.row.userID

end Subdux
