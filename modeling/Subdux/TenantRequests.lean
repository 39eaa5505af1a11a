import Subdux.AnalyticsReport
import Subdux.TenantStatements
import Subdux.WellFormed
/-!
# Accounts do not reach each other

The services of `category.go`, `payment_method.go`, `currency.go` and `subscription_crud.go`
with `MarkManualRenewed` and `ReconcileUserLifecycle`, and an administrator's `DeleteUser`, one
statement at a time, which fails only for what the tables hold. Statements of any requests of any
accounts come in any order. Icon files and `subscription_events` are left out. The sweep of the
lifecycles is a reconciliation of one account after another.

The proofs are that every request is confined to its account (`handle_confined`), so that

* `accounts_isolated`: leaving out what the other accounts do changes nothing that an account
  sees or is answered. The ids of new rows are the same in both runs: that a number was skipped
  is the one trace that others leave.
* `accounts_keep_to_their_own`: whatever the order, a subscription refers only to categories and
  payment methods of its own account, and nothing is left of an account that was deleted.
-/

namespace Subdux
open GoStrings OwnedTables Results Runs

/-! ## Settings -/

section Settings
open HasOwner
variable {β : Type} [HasOwner β]

/-- A constraint of the table was violated. -/
def errSettingRefused : String := "constraint failed"

/-- `Name` of a category or a payment method. -/
def settingName (limit : Nat) (name : String) : Except String String :=
  let name := trimSpace name
  if name = "" ∨ limit < name.utf8ByteSize then .error s!"name must be 1-{limit} characters"
    else .ok name

/-- `ORDER BY key ASC, id ASC`. -/
def orderedBy (key : β → Int) (a b : β) : Bool := key a < key b || (key a = key b && rowID a ≤ rowID b)

/-- The body of the three `Create`. -/
def createSetting (c : SettingTable β) (userID : Nat) (name : Except String String)
    (isNamed : String → β → Bool) (taken : String) (row : String → Nat → β)
    (answer : β → TenantAnswer) : TenantRequest :=
  match name with
  | .error err => .done (.error err)
  | .ok name => c.find (fun r => owner r = userID ∧ isNamed name r) fun existing =>
    if existing.isSome then .done (.error taken)
    else c.create (row name) fun created =>
      .done (created.elim (.error errSettingRefused) fun row => .ok (answer row))

def saveSetting (c : SettingTable β) (row : β) (answer : β → TenantAnswer) : TenantRequest :=
  c.save row fun saved => .done (if saved then .ok (answer row) else .error errSettingRefused)

/-- The body of the two `Update` that may rename. -/
def updateNamed (c : SettingTable β) (userID id : Nat) (missing : String) (limit : Nat)
    (isNamed : String → β → Bool) (taken : String) (rename : String → β → β) (change : β → β)
    (name : Option String) (answer : β → TenantAnswer) :
    TenantRequest :=
  c.find (isOwnRow userID id) fun found =>
    match found, name with
    | none, _ => .done (.error missing)
    | some row, none => saveSetting c (change row) answer
    | some row, some name =>
      match settingName limit name with
      | .error err => .done (.error err)
      | .ok name => c.find (fun r => owner r = userID ∧ isNamed name r ∧ rowID r ≠ id) fun existing =>
        if existing.isSome then .done (.error taken) else saveSetting c (change (rename name row)) answer

/-- The body of the three `Delete`. -/
def deleteSetting (c : SettingTable β) (userID id : Nat) (missing : String) (refused : β → Option String)
    (uses : β → Subscription → Bool) (inUse : String) (deleted : β → Bool) : TenantRequest :=
  c.find (isOwnRow userID id) fun found =>
    match found with
    | none => .done (.error missing)
    | some row =>
      match refused row with
      | some err => .done (.error err)
      | none => anySubscription (fun sub => sub.userID = userID ∧ uses row sub) fun used =>
        if used then .done (.error inUse) else c.deleteRows deleted (.done (.ok .nothing))

end Settings

/-! ### Categories -/

structure CreateCategoryInput where
  name : String
  displayOrder : Int

structure UpdateCategoryInput where
  name : Option String
  displayOrder : Option Int

namespace CategoryService

def list (userID : Nat) : TenantRequest :=
  categoryTable.list userID (orderedBy (·.displayOrder)) fun rows => .done (.ok (.categories rows))

def create (userID : Nat) (input : CreateCategoryInput) : TenantRequest :=
  createSetting categoryTable userID (settingName 30 input.name)
    (fun name row => row.name = name) "category name already exists"
    (fun name id => ⟨id, userID, name, none, true, input.displayOrder⟩) .category

def update (userID id : Nat) (input : UpdateCategoryInput) : TenantRequest :=
  updateNamed categoryTable userID id "category not found" 30
    (fun name row => row.name = name) "category name already exists"
    (fun name row => { row with name := name, nameCustomized := true })
    (fun row => { row with displayOrder := input.displayOrder.getD row.displayOrder })
      input.name .category

/-- The `DELETE` is by the primary key alone. -/
def delete (userID id : Nat) : TenantRequest :=
  deleteSetting categoryTable userID id "category not found" (fun _ => none)
    (fun row sub => sub.categoryID = some row.id ∨ sub.category = row.name)
      "category is in use by existing subscriptions"
    (·.id = id)

def reorder (userID : Nat) (items : List ReorderItem) : TenantRequest :=
  categoryTable.reorder userID (fun order row => { row with displayOrder := order }) items
    (.done (.ok .nothing))

end CategoryService

/-! ### Payment methods -/

structure CreatePaymentMethodInput where
  name : String
  icon : String
  sortOrder : Int

structure UpdatePaymentMethodInput where
  name : Option String
  icon : Option String
  sortOrder : Option Int

namespace PaymentMethodService

def list (userID : Nat) : TenantRequest :=
  methodTable.list userID (orderedBy (·.sortOrder)) fun rows => .done (.ok (.paymentMethods rows))

def create (userID : Nat) (input : CreatePaymentMethodInput) : TenantRequest :=
  createSetting methodTable userID (settingName 50 input.name) (fun name row => row.name = name)
    "payment method name already exists"
    (fun name id => ⟨id, userID, name, none, true, trimSpace input.icon, input.sortOrder⟩) .paymentMethod

def update (userID id : Nat) (input : UpdatePaymentMethodInput) : TenantRequest :=
  updateNamed methodTable userID id "payment method not found" 50 (fun name row => row.name = name)
    "payment method name already exists"
    (fun name row => { row with name := name, nameCustomized := true })
    (fun row => { row with
      icon := (input.icon.map trimSpace).getD row.icon,
      sortOrder := input.sortOrder.getD row.sortOrder })
    input.name .paymentMethod

def delete (userID id : Nat) : TenantRequest :=
  deleteSetting methodTable userID id "payment method not found" (fun _ => none)
    (fun _ sub => sub.paymentMethodID = some id)
      "payment method is in use by existing subscriptions" (isOwnRow userID id)

def reorder (userID : Nat) (items : List ReorderItem) : TenantRequest :=
  methodTable.reorder userID (fun order row => { row with sortOrder := order }) items
    (.done (.ok .nothing))

/-- `UploadPaymentMethodIcon`. `stored` is what checking and writing the file ends with: an error, or
the extension of its name. -/
def uploadIcon (userID id : Nat) (allowed : Bool) (stored : Except String String) (now : Time) :
    TenantRequest :=
  if !allowed then .done (.error "image uploads are disabled by administrator")
  else methodTable.find (isOwnRow userID id) fun found =>
    match found, stored with
    | none, _ => .done (.error "payment method not found")
    | some _, .error err => .done (.error err)
    | some _, .ok extension =>
      let icon := s!"file:{userID}_payment_{id}_{now.nanos}{extension}"
      methodTable.updateRow userID id (fun row => { row with icon := icon }) (.done (.ok (.icon icon)))

end PaymentMethodService

/-! ### Currencies -/

structure CreateCurrencyInput where
  code : String
  symbol : String
  aliasName : String
  sortOrder : Int

structure UpdateCurrencyInput where
  symbol : Option String
  aliasName : Option String
  sortOrder : Option Int

/-- SQLite's `UPPER`. -/
def sqlUpper (s : String) : String :=
  String.ofList (s.toList.map fun c => if 'a' ≤ c ∧ c ≤ 'z' then Char.ofNat (c.toNat - 32) else c)

namespace CurrencyService

def checkCode (input : String) : Except String String :=
  let code := toUpper (trimSpace input)
  if code = "" ∨ 10 < code.utf8ByteSize then .error "code must be 1-10 characters"
  else if code.toList.any fun r => r < 'A' || 'Z' < r then
    .error "code must contain only uppercase letters"
  else .ok code

def list (userID : Nat) : TenantRequest :=
  currencyTable.list userID (orderedBy (·.sortOrder)) fun rows => .done (.ok (.currencies rows))

def create (userID : Nat) (input : CreateCurrencyInput) : TenantRequest :=
  createSetting currencyTable userID (checkCode input.code)
    (fun code row => row.code = code) "currency code already exists"
    (fun code id => ⟨id, userID, code, trimSpace input.symbol, trimSpace input.aliasName,
      input.sortOrder⟩) .currency

def update (userID id : Nat) (input : UpdateCurrencyInput) : TenantRequest :=
  currencyTable.find (isOwnRow userID id) fun found =>
    match found with
    | none => .done (.error "currency not found")
    | some row => saveSetting currencyTable { row with
        symbol := (input.symbol.map trimSpace).getD row.symbol
        aliasName := (input.aliasName.map trimSpace).getD row.aliasName
        sortOrder := input.sortOrder.getD row.sortOrder } .currency

/-- The `DELETE` is by the primary key alone. -/
def delete (userID id : Nat) (preferredCurrency : String) : TenantRequest :=
  deleteSetting currencyTable userID id "currency not found"
    (fun row => if equalFold row.code preferredCurrency
      then some "cannot delete your preferred currency" else none)
    (fun row sub => sqlUpper sub.currency = toUpper row.code)
      "currency is in use by existing subscriptions" (·.id = id)

def reorder (userID : Nat) (items : List ReorderItem) : TenantRequest :=
  currencyTable.reorder userID (fun order row => { row with sortOrder := order }) items
    (.done (.ok .nothing))

end CurrencyService

/-! ## Subscriptions -/

/-- `validateCategory` and `validatePaymentMethod` look a given id up. -/
def ownedIDs {β : Type} [HasOwner β] (c : SettingTable β) (userID : Nat) (value : Option Nat)
    (next : (Nat → Bool) → TenantRequest) : TenantRequest :=
  match value with
  | none | some 0 => next fun _ => false
  | some id => c.find (isOwnRow userID id) fun found => next fun i => i = id && found.isSome

def reconcileForWrite (userID id : Nat) (now : Time) (next : TenantRequest) : TenantRequest :=
  readSubscription userID id fun found =>
    match found with
    | none => next
    | some sub => persistLifecycle userID sub now next

namespace SubscriptionService

def list (updatedAt : Subscription → Time) (userID : Nat) (now : Time) : TenantRequest :=
  readSubscriptions (·.userID = userID) listOrder fun subs =>
    .done
      (.ok (.subscriptions (subs.map fun sub => presentSubscriptionForResponse sub (updatedAt sub) now)))

def getByID (updatedAt : Subscription → Time) (userID id : Nat) (now : Time) : TenantRequest :=
  readSubscription userID id fun found => .done <|
    found.elim (.error errRecordNotFound) fun sub =>
      .ok (.subscription (presentSubscriptionForResponse sub (updatedAt sub) now))

def create (parseURL : String → Option ParsedURL) (userID : Nat) (input : CreateSubscriptionInput)
    (now : Time) : TenantRequest :=
  ownedIDs categoryTable userID input.categoryID fun hasCategory =>
  ownedIDs methodTable userID input.paymentMethodID fun hasPaymentMethod =>
    match newSubscription ⟨parseURL, hasCategory, hasPaymentMethod⟩ userID input now with
    | .error err => .done (.error err)
    | .ok sub => createSubscription sub fun answer => .done (answer.map .subscription)

def update (parseURL : String → Option ParsedURL) (userID id : Nat)
    (input : UpdateSubscriptionInput) (readings : Readings) :
    TenantRequest :=
  reconcileForWrite userID id readings.reconcile <|
    readSubscription userID id fun found =>
      match found with
      | none => .done (.error errRecordNotFound)
      | some sub =>
        let sub := presentSubscriptionForResponse sub readings.updatedBefore readings.read
        ownedIDs categoryTable userID input.categoryID fun hasCategory =>
        ownedIDs methodTable userID input.paymentMethodID fun hasPaymentMethod =>
          match subscriptionUpdates
            ⟨parseURL, hasCategory, hasPaymentMethod⟩ input sub readings.lifecycle with
          | .error err => .done (.error err)
          | .ok updates =>
            commitSubscription userID id updates.apply readings.updatedAfter fun answer =>
              .done (answer.map .subscription)

def delete (userID id : Nat) (readings : Readings) : TenantRequest :=
  reconcileForWrite userID id readings.reconcile <|
    readSubscription userID id fun found =>
      match found with
      | none => .done (.error errRecordNotFound)
      | some _ => removeSubscription userID id (.done (.ok .nothing))

def markRenewed (userID id : Nat) (readings : Readings) : TenantRequest :=
  reconcileForWrite userID id readings.reconcile <|
    readSubscription userID id fun found =>
      match found with
      | none => .done (.error errRecordNotFound)
      | some sub =>
        match manualRenewal
          (presentSubscriptionForResponse sub readings.updatedBefore readings.read) with
        | .error err => .done (.error err)
        | .ok nextBillingDate =>
          commitSubscription userID id (manualRenewed nextBillingDate) readings.updatedAfter
            fun answer => .done (answer.map .subscription)

def persistAll (userID : Nat) (now : Time) : List Subscription → TenantRequest
  | [] => .done (.ok .nothing)
  | sub :: subs => persistLifecycle userID sub now (persistAll userID now subs)

def reconcileUserLifecycle (userID : Nat) (now : Time) : TenantRequest :=
  readSubscriptions
    (fun sub => sub.userID = userID ∧ sub.status = subscriptionStatusActive ∧
      sub.billingType = billingTypeRecurring)
    (fun a b => a.id ≤ b.id) (persistAll userID now)

end SubscriptionService

/-- `AdminService.DeleteUser`. -/
def AdminService.deleteUser (userID : Nat) : TenantRequest :=
  if userID = 1 then .done (.error "cannot delete the first user")
    else removeUser userID (.done (.ok .nothing))

/-! ## The system -/

/-- What is done in the name of an account. The clock readings, the `updated_at` of rows and the
preferred currency come with the request. -/
inductive TenantAction where
  | listCategories
  | createCategory (input : CreateCategoryInput)
  | updateCategory (id : Nat) (input : UpdateCategoryInput)
  | deleteCategory (id : Nat)
  | reorderCategories (items : List ReorderItem)
  | listPaymentMethods
  | createPaymentMethod (input : CreatePaymentMethodInput)
  | updatePaymentMethod (id : Nat) (input : UpdatePaymentMethodInput)
  | deletePaymentMethod (id : Nat)
  | reorderPaymentMethods (items : List ReorderItem)
  | uploadPaymentMethodIcon (id : Nat) (allowed : Bool) (stored : Except String String) (now : Time)
  | listCurrencies
  | createCurrency (input : CreateCurrencyInput)
  | updateCurrency (id : Nat) (input : UpdateCurrencyInput)
  | deleteCurrency (id : Nat) (preferredCurrency : String)
  | reorderCurrencies (items : List ReorderItem)
  | listSubscriptions (updatedAt : Subscription → Time) (now : Time)
  | getSubscription (updatedAt : Subscription → Time) (id : Nat) (now : Time)
  | createSubscription (parseURL : String → Option ParsedURL) (input : CreateSubscriptionInput)
    (now : Time)
  | updateSubscription (parseURL : String → Option ParsedURL) (id : Nat)
    (input : UpdateSubscriptionInput) (readings : Readings)
  | deleteSubscription (id : Nat) (readings : Readings)
  | markManualRenewed (id : Nat) (readings : Readings)
  | reconcileLifecycle (now : Time)
  | deleteUser

namespace TenantAction

def handle (action : TenantAction) (userID : Nat) : TenantRequest :=
  match action with
  | listCategories => CategoryService.list userID
  | createCategory input => CategoryService.create userID input
  | updateCategory id input => CategoryService.update userID id input
  | deleteCategory id => CategoryService.delete userID id
  | reorderCategories items => CategoryService.reorder userID items
  | listPaymentMethods => PaymentMethodService.list userID
  | createPaymentMethod input => PaymentMethodService.create userID input
  | updatePaymentMethod id input => PaymentMethodService.update userID id input
  | deletePaymentMethod id => PaymentMethodService.delete userID id
  | reorderPaymentMethods items => PaymentMethodService.reorder userID items
  | uploadPaymentMethodIcon id allowed stored now =>
    PaymentMethodService.uploadIcon userID id allowed stored now
  | listCurrencies => CurrencyService.list userID
  | createCurrency input => CurrencyService.create userID input
  | updateCurrency id input => CurrencyService.update userID id input
  | deleteCurrency id preferred => CurrencyService.delete userID id preferred
  | reorderCurrencies items => CurrencyService.reorder userID items
  | listSubscriptions updatedAt now => SubscriptionService.list updatedAt userID now
  | getSubscription updatedAt id now => SubscriptionService.getByID updatedAt userID id now
  | createSubscription parseURL input now => SubscriptionService.create parseURL userID input now
  | updateSubscription parseURL id input readings =>
    SubscriptionService.update parseURL userID id input readings
  | deleteSubscription id readings => SubscriptionService.delete userID id readings
  | markManualRenewed id readings => SubscriptionService.markRenewed userID id readings
  | reconcileLifecycle now => SubscriptionService.reconcileUserLifecycle userID now
  | deleteUser => AdminService.deleteUser userID

end TenantAction

/-! ## Every request is confined -/

section Confined
open HasOwner
variable {β : Type} [HasOwner β] {c : SettingTable β} {u id : Nat} {F : TenantFact → Prop}

theorem confined_done (G : TenantFact → Prop) (answer : Except String TenantAnswer) :
    OwnRowsOnly u G (.done answer) := .done G answer

/-! ### Settings -/

theorem confined_createSetting (h : c.Lawful) {name : Except String String}
    {isNamed : String → β → Bool} {taken : String} {row : String → Nat → β}
    {answer : β → TenantAnswer} (hrow : ∀ name id, owner (row name id) = u) :
    OwnRowsOnly u F (createSetting c u name isNamed taken row answer) := by
  unfold createSetting
  cases name with
  | error err => exact confined_done ..
  | ok name =>
    refine confined_find h (fun r hr => (of_decide_eq_true hr).1) ?_ ?_
    · exact fun G _ => confined_create h (hrow name) fun _ _ => confined_done ..
    · exact fun G _ _ _ _ => confined_done ..

theorem confined_saveSetting (h : c.Lawful) {row : β} {answer : β → TenantAnswer}
    (howner : owner row = u) (hfact : F (c.fact (rowID row))) :
    OwnRowsOnly u F (saveSetting c row answer) :=
  confined_save h howner hfact fun _ _ => confined_done ..

theorem confined_updateNamed (h : c.Lawful) {missing taken : String} {limit : Nat}
    {isNamed : String → β → Bool} {rename : String → β → β} {change : β → β} {name : Option String}
    {answer : β → TenantAnswer}
    (hrename : ∀ name r, rowID (rename name r) = rowID r ∧ owner (rename name r) = owner r)
    (hchange : ∀ r, rowID (change r) = rowID r ∧ owner (change r) = owner r) :
    OwnRowsOnly u F (updateNamed c u id missing limit isNamed taken rename change name answer) := by
  refine confined_find h (fun r => isOwnRow_owner) (fun G _ => confined_done ..) ?_
  intro G row _ hfact hrow
  have howner : owner row = u := isOwnRow_owner hrow
  cases name with
  | none =>
    refine confined_saveSetting h ((hchange row).2.trans howner) ?_
    rwa [(hchange row).1]
  | some name =>
    dsimp only
    cases settingName limit name with
    | error err => exact confined_done ..
    | ok name =>
      refine confined_find h (fun r hr => (of_decide_eq_true hr).1) ?_ fun G _ _ _ _ => confined_done ..
      intro G' hle
      refine confined_saveSetting h (((hchange _).2.trans (hrename name row).2).trans howner) ?_
      rw [(hchange _).1, (hrename name row).1]
      exact hle _ hfact

theorem confined_deleteSetting (h : c.Lawful) {missing inUse : String} {refused : β → Option String}
    {uses : β → Subscription → Bool} {deleted : β → Bool}
    (hdeleted : ∀ r, deleted r = true → rowID r = id) :
    OwnRowsOnly u F (deleteSetting c u id missing refused uses inUse deleted) := by
  refine confined_find h (fun r => isOwnRow_owner) (fun G _ => confined_done ..) ?_
  intro G row _ hfact hrow
  dsimp only
  cases refused row with
  | some err => exact confined_done ..
  | none =>
    refine confined_anySubscription (fun r hr => (of_decide_eq_true hr).1) ?_
    intro G' used hle
    cases used with
    | true => exact confined_done ..
    | false =>
      refine confined_deleteRows h ?_ fun G => confined_done ..
      intro t ht hG r hr hdel
      have hissued := h.holds.1 (hG _ (hle _ hfact))
      rw [(of_decide_eq_true hrow).1, ← hdeleted r hdel] at hissued
      exact (h.ok ht).once _ _ _ ((h.ok ht).handed r hr) hissued

/-! ### Subscriptions -/

theorem confined_ownedIDs (h : c.Lawful) {value : Option Nat} {next : (Nat → Bool) → TenantRequest}
    (hnext : ∀ G owns, (∀ k, F k → G k) → (∀ i, owns i = true → G (c.fact i)) →
      OwnRowsOnly u G (next owns)) :
    OwnRowsOnly u F (ownedIDs c u value next) := by
  unfold ownedIDs
  split
  · exact hnext F _ (fun _ h => h) fun i hi => by cases hi
  · exact hnext F _ (fun _ h => h) fun i hi => by cases hi
  · rename_i id _
    refine confined_find h (fun r => isOwnRow_owner) ?_ ?_
    · exact fun G hle => hnext G _ hle fun i hi => by simp at hi
    · intro G row hle hfact hrow
      refine hnext G _ hle fun i hi => ?_
      rw [Option.isSome_some, Bool.and_true] at hi
      rw [of_decide_eq_true hi, ← (of_decide_eq_true hrow).1]
      exact hfact

theorem confined_reconcileForWrite {now : Time} {next : TenantRequest}
    (hnext : ∀ G, OwnRowsOnly u G next) :
    OwnRowsOnly u F (reconcileForWrite u id now next) := by
  refine confined_readSubscription fun G row _ => ?_
  cases row with
  | none => exact hnext G
  | some sub => exact confined_persistLifecycle hnext

theorem confined_persistAll {now : Time} (subs : List Subscription) :
    OwnRowsOnly u F (SubscriptionService.persistAll u now subs) := by
  induction subs generalizing F with
  | nil => exact confined_done ..
  | cons sub subs ih => exact confined_persistLifecycle fun G => ih

theorem ownedRef_ok {owns : Nat → Bool} {missing : String} {value : Option Nat} {i : Nat}
    (h : ownedRef owns missing value = .ok (some i)) : owns i = true := by
  unfold ownedRef at h
  split at h
  · cases h
  · cases h
  · split at h
    · cases h
      assumption
    · cases h

theorem newSubscription_refers {lookups : Lookups} {input : CreateSubscriptionInput} {now : Time}
    {sub : Subscription} (hcategory : ∀ i, lookups.hasCategory i = true → F (.category i))
    (hmethod : ∀ i, lookups.hasPaymentMethod i = true → F (.method i))
    (h : newSubscription lookups u input now = .ok sub) : Refers u F sub := by
  unfold newSubscription at h
  obtain ⟨subscriptionURL, -, h⟩ := bind_eq_ok h
  obtain ⟨nextBillingDate, -, h⟩ := bind_eq_ok h
  obtain ⟨endsAt, -, h⟩ := bind_eq_ok h
  obtain ⟨⟨draft, date⟩, -, h⟩ := bind_eq_ok h
  obtain ⟨lifecycle, -, h⟩ := bind_eq_ok h
  obtain ⟨categoryID, hcategoryID, h⟩ := bind_eq_ok h
  obtain ⟨paymentMethodID, hpaymentMethodID, h⟩ := bind_eq_ok h
  obtain ⟨notifyDaysBefore, -, h⟩ := bind_eq_ok h
  obtain ⟨huser, hcat, hmeth⟩ : sub.userID = u ∧ sub.categoryID = categoryID ∧
      sub.paymentMethodID = paymentMethodID := by
    rw [← Except.ok.inj h]
    exact ⟨rfl, rfl, rfl⟩
  refine ⟨huser, fun i hi => hcategory i (ownedRef_ok (hcategoryID.trans ?_)),
    fun i hi => hmethod i (ownedRef_ok (hpaymentMethodID.trans ?_))⟩
  · rw [← hi, hcat]
  · rw [← hi, hmeth]

theorem apply_columns (updates : SubscriptionUpdates) (row : Subscription) :
    (updates.apply row).categoryID = updates.categoryID.getD row.categoryID ∧
    (updates.apply row).paymentMethodID = updates.paymentMethodID.getD row.paymentMethodID := by
  unfold SubscriptionUpdates.apply
  cases updates.schedule <;> cases updates.lifecycle <;> exact ⟨rfl, rfl⟩

theorem subscriptionUpdates_refers {lookups : Lookups} {input : UpdateSubscriptionInput}
    {now : Time} {sub row : Subscription} {updates : SubscriptionUpdates}
    (hcategory : ∀ i, lookups.hasCategory i = true → F (.category i))
    (hmethod : ∀ i, lookups.hasPaymentMethod i = true → F (.method i))
    (h : subscriptionUpdates lookups input sub now = .ok updates) (hrow : Refers u F row) :
    Refers u F (updates.apply row) := by
  unfold subscriptionUpdates at h
  obtain ⟨categoryID, hcategoryID, h⟩ := bind_eq_ok h
  obtain ⟨paymentMethodID, hpaymentMethodID, h⟩ := bind_eq_ok h
  obtain ⟨url, -, h⟩ := bind_eq_ok h
  obtain ⟨notifyDaysBefore, -, h⟩ := bind_eq_ok h
  obtain ⟨schedule, -, h⟩ := bind_eq_ok h
  obtain ⟨lifecycle, -, h⟩ := bind_eq_ok h
  obtain ⟨hcat, hmeth⟩ : updates.categoryID = categoryID ∧
      updates.paymentMethodID = paymentMethodID := by
    rw [← Except.ok.inj h]
    exact ⟨rfl, rfl⟩
  obtain ⟨hcolumn, hcolumn'⟩ := apply_columns updates row
  refine ⟨(SubscriptionUpdates.apply_userID updates row).trans hrow.owner, fun i hi => ?_,
    fun i hi => ?_⟩
  · rw [hcolumn, hcat] at hi
    rcases optionalColumn_ok hcategoryID with ⟨-, rfl⟩ | ⟨-, value, hvalue, rfl⟩
    · exact hrow.category i hi
    · exact hcategory i (ownedRef_ok (hvalue.trans (congrArg Except.ok hi)))
  · rw [hcolumn', hmeth] at hi
    rcases optionalColumn_ok hpaymentMethodID with ⟨-, rfl⟩ | ⟨-, value, hvalue, rfl⟩
    · exact hrow.method i hi
    · exact hmethod i (ownedRef_ok (hvalue.trans (congrArg Except.ok hi)))

theorem SubscriptionService.create_confined {parseURL : String → Option ParsedURL}
    {input : CreateSubscriptionInput} {now : Time} :
    OwnRowsOnly u F (SubscriptionService.create parseURL u input now) := by
  refine confined_ownedIDs categoryTable_lawful fun G hasCategory hle hcategory => ?_
  refine confined_ownedIDs methodTable_lawful fun G' hasPaymentMethod hle' hmethod => ?_
  cases hnew : newSubscription ⟨parseURL, hasCategory, hasPaymentMethod⟩ u input now with
  | error err => exact confined_done ..
  | ok sub =>
    refine confined_createSubscription ?_ fun _ _ => confined_done ..
    exact newSubscription_refers (fun i hi => hle' _ (hcategory i hi)) hmethod hnew

theorem SubscriptionService.update_confined {parseURL : String → Option ParsedURL}
    {input : UpdateSubscriptionInput} {readings : Readings} :
    OwnRowsOnly u F (SubscriptionService.update parseURL u id input readings) := by
  refine confined_reconcileForWrite fun G => confined_readSubscription fun G row _ => ?_
  cases row with
  | none => exact confined_done ..
  | some sub =>
    refine confined_ownedIDs categoryTable_lawful fun G hasCategory hle hcategory => ?_
    refine confined_ownedIDs methodTable_lawful fun G' hasPaymentMethod hle' hmethod => ?_
    cases hupdates : subscriptionUpdates ⟨parseURL, hasCategory, hasPaymentMethod⟩ input
        (presentSubscriptionForResponse sub readings.updatedBefore readings.read) readings.lifecycle with
    | error err => exact confined_done ..
    | ok updates =>
      refine confined_commitSubscription updates.apply_id updates.apply_userID ?_ fun _ _ =>
        confined_done ..
      intro K hK r hr
      exact subscriptionUpdates_refers (fun i hi => hK _ (hle' _ (hcategory i hi)))
        (fun i hi => hK _ (hmethod i hi)) hupdates hr

theorem SubscriptionService.delete_confined {readings : Readings} :
    OwnRowsOnly u F (SubscriptionService.delete u id readings) := by
  refine confined_reconcileForWrite fun G => confined_readSubscription fun G row _ => ?_
  cases row with
  | none => exact confined_done ..
  | some sub => exact confined_removeSubscription fun _ => confined_done ..

theorem SubscriptionService.markRenewed_confined {readings : Readings} :
    OwnRowsOnly u F (SubscriptionService.markRenewed u id readings) := by
  refine confined_reconcileForWrite fun G => confined_readSubscription fun G row _ => ?_
  cases row with
  | none => exact confined_done ..
  | some sub =>
    dsimp only
    cases manualRenewal (presentSubscriptionForResponse sub readings.updatedBefore readings.read) with
    | error err => exact confined_done ..
    | ok date =>
      refine confined_commitSubscription (manualRenewed_id date) (manualRenewed_userID date) ?_
        fun _ _ => confined_done ..
      exact fun K _ r hr => ⟨hr.owner, hr.category, hr.method⟩

/-- Whatever is done in the name of an account reaches nothing else. -/
theorem handle_confined (action : TenantAction) (u : Nat) :
    OwnRowsOnly u (fun _ => False) (action.handle u) := by
  cases action with
  | listCategories =>
    unfold TenantAction.handle CategoryService.list
    exact confined_list categoryTable_lawful fun _ _ => confined_done ..
  | listPaymentMethods =>
    unfold TenantAction.handle PaymentMethodService.list
    exact confined_list methodTable_lawful fun _ _ => confined_done ..
  | listCurrencies =>
    unfold TenantAction.handle CurrencyService.list
    exact confined_list currencyTable_lawful fun _ _ => confined_done ..
  | createCategory input =>
    unfold TenantAction.handle CategoryService.create
    exact confined_createSetting categoryTable_lawful fun _ _ => rfl
  | createPaymentMethod input =>
    unfold TenantAction.handle PaymentMethodService.create
    exact confined_createSetting methodTable_lawful fun _ _ => rfl
  | createCurrency input =>
    unfold TenantAction.handle CurrencyService.create
    exact confined_createSetting currencyTable_lawful fun _ _ => rfl
  | updateCategory id input =>
    unfold TenantAction.handle CategoryService.update
    exact confined_updateNamed categoryTable_lawful (fun _ _ => ⟨rfl, rfl⟩) fun _ => ⟨rfl, rfl⟩
  | updatePaymentMethod id input =>
    unfold TenantAction.handle PaymentMethodService.update
    exact confined_updateNamed methodTable_lawful (fun _ _ => ⟨rfl, rfl⟩) fun _ => ⟨rfl, rfl⟩
  | updateCurrency id input =>
    unfold TenantAction.handle CurrencyService.update
    refine confined_find currencyTable_lawful (fun r => isOwnRow_owner) (fun G _ => confined_done ..) ?_
    intro G row _ hfact hrow
    have howner : row.userID = u := isOwnRow_owner hrow
    exact confined_saveSetting currencyTable_lawful howner hfact
  | deleteCategory id =>
    unfold TenantAction.handle CategoryService.delete
    exact confined_deleteSetting categoryTable_lawful fun r hr => of_decide_eq_true hr
  | deletePaymentMethod id =>
    unfold TenantAction.handle PaymentMethodService.delete
    exact confined_deleteSetting methodTable_lawful fun r hr => (of_decide_eq_true hr).1
  | deleteCurrency id preferred =>
    unfold TenantAction.handle CurrencyService.delete
    exact confined_deleteSetting currencyTable_lawful fun r hr => of_decide_eq_true hr
  | reorderCategories items =>
    unfold TenantAction.handle CategoryService.reorder
    refine confined_reorder ?_ ?_ categoryTable_lawful ?_ items fun _ => confined_done ..
    · exact fun _ _ => rfl
    · exact fun _ _ => rfl
    · exact fun _ _ => rfl
  | reorderPaymentMethods items =>
    unfold TenantAction.handle PaymentMethodService.reorder
    refine confined_reorder ?_ ?_ methodTable_lawful ?_ items fun _ => confined_done ..
    · exact fun _ _ => rfl
    · exact fun _ _ => rfl
    · exact fun _ _ => rfl
  | reorderCurrencies items =>
    unfold TenantAction.handle CurrencyService.reorder
    refine confined_reorder ?_ ?_ currencyTable_lawful ?_ items fun _ => confined_done ..
    · exact fun _ _ => rfl
    · exact fun _ _ => rfl
    · exact fun _ _ => rfl
  | uploadPaymentMethodIcon id allowed stored now =>
    unfold TenantAction.handle PaymentMethodService.uploadIcon
    dsimp only
    split
    · exact confined_done ..
    · refine confined_find methodTable_lawful (fun r => isOwnRow_owner) (fun G _ => confined_done ..) ?_
      intro G row _ _ _
      cases stored with
      | error err => exact confined_done ..
      | ok extension =>
        refine confined_updateRow methodTable_lawful ?_ ?_ ?_ fun _ => confined_done ..
        · exact fun _ => rfl
        · exact fun _ => rfl
        · exact fun _ => rfl
  | listSubscriptions updatedAt now =>
    unfold TenantAction.handle SubscriptionService.list
    exact confined_readSubscriptions (fun r hr => of_decide_eq_true hr) fun _ _ => confined_done ..
  | getSubscription updatedAt id now =>
    unfold TenantAction.handle SubscriptionService.getByID
    exact confined_readSubscription fun _ _ _ => confined_done ..
  | createSubscription parseURL input now => exact SubscriptionService.create_confined
  | updateSubscription parseURL id input readings => exact SubscriptionService.update_confined
  | deleteSubscription id readings => exact SubscriptionService.delete_confined
  | markManualRenewed id readings => exact SubscriptionService.markRenewed_confined
  | reconcileLifecycle now =>
    unfold TenantAction.handle SubscriptionService.reconcileUserLifecycle
    exact confined_readSubscriptions (fun r hr => (of_decide_eq_true hr).1) fun _ rows =>
      confined_persistAll rows
  | deleteUser =>
    unfold TenantAction.handle AdminService.deleteUser
    dsimp only
    split
    · exact confined_done ..
    · exact confined_removeUser fun _ => confined_done ..

end Confined

/-! ## Whole runs -/

section Runs
variable {tables tables' : TenantTables} {events : List (Tenants.Event TenantAction)}
  {s : Tenants.System TenantTables (Except String TenantAnswer)} {u : Nat}

/-- Nothing has been asked for yet. -/
def idleSystem (tables : TenantTables) : Tenants.System TenantTables (Except String TenantAnswer) :=
  ⟨tables, fun _ _ => none⟩

abbrev TenantSystemInv (s : Tenants.System TenantTables (Except String TenantAnswer)) : Prop :=
  Tenants.SystemInv TenantTables.OK TenantTables.Holds TenantTables.Sees s

theorem idle_inv (hok : tables.OK) : TenantSystemInv (idleSystem tables) :=
  ⟨hok, fun _ _ _ h => by cases h⟩

/-- On two databases that an account sees alike, and with all that the other accounts do left
out in the second, the account is answered the same and sees the same in the end. -/
theorem accounts_isolated (hok : tables.OK) (hok' : tables'.OK) (hsees : tables.Sees u tables')
    (hexec : exec (Tenants.step TenantAction.handle) Always (idleSystem tables) events = some s) :
    ∃ s', exec (Tenants.step TenantAction.handle) Always (idleSystem tables')
    (Tenants.only u events) = some s' ∧
      s.running u = s'.running u ∧ s.tables.Sees u s'.tables := by
  have halike : Tenants.SeesSystem TenantTables.Sees u (idleSystem tables) (idleSystem tables') :=
    ⟨hsees, rfl⟩
  obtain ⟨s', hexec', hlast⟩ :=
    Tenants.isolated handle_confined (fun _ _ _ k h => (h.holds k).2) halike (idle_inv hok)
      (idle_inv hok') hexec
  exact ⟨s', hexec', hlast.requests, hlast.tables⟩

/-- In any order of statements, subscriptions refer to rows of their own account only, and every
row is of an account that exists. -/
theorem accounts_keep_to_their_own (hok : tables.OK)
    (hpath : Path (Tenants.step TenantAction.handle) Always (idleSystem tables) s) :
    (∀ sub ∈ s.tables.subscriptions.rows,
      (∀ id, sub.categoryID = some id → ∃ row ∈ s.tables.categories.rows, row.id = id ∧
        row.userID = sub.userID) ∧
        ∀ id, sub.paymentMethodID = some id → ∃ row ∈ s.tables.methods.rows, row.id = id ∧
          row.userID = sub.userID) ∧
      ∀ u, u ∉ s.tables.users → s.tables.subscriptions.own u = [] ∧ s.tables.categories.own u = [] ∧
        s.tables.methods.own u = [] ∧ s.tables.currencies.own u = [] := by
  have hinv : TenantSystemInv s :=
    hpath.invariant TenantSystemInv (fun _ _ _ hinv _ hstep => hinv.step handle_confined hstep)
      (idle_inv hok)
  have htables := hinv.tables
  refine ⟨fun sub hsub => ⟨htables.categoryRefs sub hsub, htables.methodRefs sub hsub⟩, fun u hu =>
    ⟨?_, ?_, ?_, ?_⟩⟩
  · exact htables.subscriptions.own_nil hu
  · exact htables.categories.own_nil hu
  · exact htables.methods.own_nil hu
  · exact htables.currencies.own_nil hu

/-- Account 1 has a category, account 2 has none. -/
def twoAccounts : TenantTables where
  users := [1, 2]
  categories := ⟨[⟨1, 1, "Streaming", none, true, 0⟩], [(1, 1)]⟩
  methods := ⟨[], []⟩
  currencies := ⟨[], []⟩
  subscriptions := ⟨[], []⟩

/-- Account 1 adds a category, while account 2 adds one of the same name and tries to delete that of
account 1. -/
def twoAccountsEvents : List (Tenants.Event TenantAction) :=
  [.start 1 0 (.createCategory ⟨" Music ", 1⟩), .start 2 0 (.createCategory ⟨"Music", 0⟩),
   .start 2 1 (.deleteCategory 1), .statement 1 0 0, .statement 2 0 0, .statement 2 1 0,
   .statement 2 0 2, .statement 1 0 3, .start 1 1 .listCategories,
   .statement 1 1 0]

theorem twoAccounts_ok : twoAccounts.OK where
  categories := ⟨by decide, by decide, by simp +contextual [twoAccounts], by decide, by decide⟩
  methods := .nil _
  currencies := .nil _
  subscriptions := .nil _
  categoryRefs _ hsub := by cases hsub
  methodRefs _ hsub := by cases hsub

/-- Account 1 lists both of its categories. -/
def twoAccountsAnswer : Tenants.System TenantTables (Except String TenantAnswer) → Bool := fun s =>
  match s.running 1 1, s.running 2 1 with
  | some (.done (.ok (.categories rows))), some (.done (.error err)) =>
    rows.map (·.name) = ["Streaming", "Music"] ∧ err = "category not found"
  | _, _ => false

theorem twoAccounts_run :
    (exec (Tenants.step TenantAction.handle) Always (idleSystem twoAccounts) twoAccountsEvents).any
    twoAccountsAnswer = true := by
  decide +kernel

theorem accounts_isolated_sample : ∃ s s', twoAccountsAnswer s = true ∧
    exec (Tenants.step TenantAction.handle) Always (idleSystem twoAccounts) twoAccountsEvents = some s ∧
    exec (Tenants.step TenantAction.handle) Always (idleSystem twoAccounts)
    (Tenants.only 1 twoAccountsEvents) = some s' ∧
    s.running 1 = s'.running 1 ∧ s.tables.Sees 1 s'.tables := by
  obtain ⟨s, hexec, hanswer⟩ := (Option.any_eq_true _ _).1 twoAccounts_run
  obtain ⟨s', hexec', hsame⟩ := accounts_isolated twoAccounts_ok twoAccounts_ok (.refl 1 _) hexec
  exact ⟨s, s', hanswer, hexec, hexec', hsame⟩

/-- Each of three accounts has a category, and the second a payment method. -/
def threeAccounts : TenantTables where
  users := [1, 2, 3]
  categories :=
    ⟨[⟨1, 1, "Streaming", none, true, 0⟩, ⟨2, 2, "Music", none, true, 0⟩, ⟨3, 3, "News", none, true, 0⟩],
    [(1, 1), (2, 2), (3, 3)]⟩
  methods := ⟨[⟨1, 2, "Card", none, true, "", 0⟩], [(1, 2)]⟩
  currencies := ⟨[], []⟩
  subscriptions := ⟨[], []⟩

theorem threeAccounts_ok : threeAccounts.OK where
  categories := ⟨by decide, by decide, fun _ _ _ => by simp [threeAccounts]; omega, by decide, by decide⟩
  methods := ⟨by decide, by decide, by simp +contextual [threeAccounts], by decide, by decide⟩
  currencies := .nil _
  subscriptions := .nil _
  categoryRefs _ hsub := by cases hsub
  methodRefs _ hsub := by cases hsub

/-- A monthly subscription. -/
def sampleTenantInput (categoryID paymentMethodID : Option Nat) : CreateSubscriptionInput where
  name := "Music"
  amount := 9
  currency := "USD"
  status := ""
  renewalMode := ""
  endsAt := ""
  billingType := "recurring"
  recurrenceType := "interval"
  intervalCount := some 1
  intervalUnit := "month"
  nextBillingDate := "2026-01-31"
  monthlyDay := none
  yearlyMonth := none
  yearlyDay := none
  category := ""
  categoryID := categoryID
  paymentMethodID := paymentMethodID
  notifyEnabled := none
  notifyDaysBefore := none
  icon := ""
  url := ""
  notes := ""

/-- Account 1 adds a subscription in its category. Account 2 adds one in its own, which it deletes
at the same time: the deletion still sees no use of the category. Account 3 is deleted while it adds
one. -/
def threeAccountsEvents : List (Tenants.Event TenantAction) :=
  let create (categoryID paymentMethodID : Option Nat) : TenantAction :=
    .createSubscription (fun _ => none) (sampleTenantInput categoryID paymentMethodID) (midnight 20000)
  [.start 1 0 (create (some 1) none), .start 2 0 (create (some 2) (some 1)),
   .start 2 1 (.deleteCategory 2), .start 3 0 (create (some 3) none), .start 3 1 .deleteUser,
   .statement 1 0 0, .statement 2 0 0, .statement 2 1 0, .statement 3 0 0, .statement 2 0 0,
     .statement 2 1 0, .statement 1 0 1,
   .statement 3 1 0, .statement 2 0 2, .statement 2 1 0, .statement 3 0 3]

/-- The subscriptions that are there, and what account 3 was told. -/
def threeAccountsAnswer : Tenants.System TenantTables (Except String TenantAnswer) → Bool := fun s =>
  match s.running 3 0 with
  | some (.done (.error err)) =>
    err = errForeignKey ∧ s.tables.users = [1, 2] ∧ s.tables.categories.rows.map (·.id) = [1] ∧
      s.tables.subscriptions.rows.map (fun sub => (sub.userID, sub.categoryID, sub.paymentMethodID)) =
        [(1, some 1, none), (2, none, some 1)]
  | _ => false

theorem accounts_keep_to_their_own_sample : ∃ s, threeAccountsAnswer s = true ∧
    (∀ sub ∈ s.tables.subscriptions.rows,
      (∀ id, sub.categoryID = some id → ∃ row ∈ s.tables.categories.rows, row.id = id ∧
        row.userID = sub.userID) ∧
        ∀ id, sub.paymentMethodID = some id → ∃ row ∈ s.tables.methods.rows, row.id = id ∧
          row.userID = sub.userID) ∧
      s.tables.subscriptions.own 3 = [] ∧ s.tables.categories.own 3 = [] := by
  have hrun : (exec (Tenants.step TenantAction.handle) Always
      (idleSystem threeAccounts) threeAccountsEvents).any
      (fun s => threeAccountsAnswer s ∧ 3 ∉ s.tables.users) = true := by
    decide +kernel
  obtain ⟨s, hexec, hfacts⟩ := (Option.any_eq_true _ _).1 hrun
  obtain ⟨hanswer, hgone⟩ := of_decide_eq_true hfacts
  obtain ⟨hrefs, hrest⟩ := accounts_keep_to_their_own threeAccounts_ok (Path.of_exec hexec)
  exact ⟨s, hanswer, hrefs, (hrest 3 hgone).1, (hrest 3 hgone).2.1⟩

end Runs

end Subdux
