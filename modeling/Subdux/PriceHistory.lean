import Mathlib.Data.List.Sort
import Mathlib.Tactic.Linarith
import Subdux.Crud
import Subdux.Lib.Histories
import Subdux.Lib.JsonText
import Subdux.Lib.Results
import Subdux.Lib.Runs
import Subdux.Lib.SqlText
/-!
# The price history of a subscription

`Create`, `Update` and `MarkManualRenewed` record an event in the transaction that
writes the row (`internal/service/subscription_events.go`), and the detail page reads
the price history back from the events that touch the price
(`internal/service/subscription_detail.go`). A lifecycle sweep writes rows without an
event. `price_history_chained` says that the history leads from the price a
subscription was made with to its current one, each item from where the last ended.
-/

namespace Subdux
open GoStrings Rows JsonText SqlText Histories Results
open Runs (Path exec)

/-! ## Events -/

def subscriptionEventCreated : String := "created"
def subscriptionEventUpdated : String := "updated"
def subscriptionEventManualRenewed : String := "manual_renewed"

/-- A row of `subscription_events`. -/
structure SubscriptionEvent where
  id : Nat
  userID : Nat
  actorUserID : Option Nat
  subscriptionID : Option Nat
  subscriptionName : String
  type : String
  changedFields : String
  previousAmount : Option Rat := none
  newAmount : Option Rat := none
  previousMonthlyAmount : Option Rat := none
  newMonthlyAmount : Option Rat := none
  previousCurrency : String := ""
  newCurrency : String := ""
  previousNextBillingDate : Option Time := none
  newNextBillingDate : Option Time := none
  previousStatus : String := ""
  newStatus : String := ""
  previousRenewalMode : String := ""
  newRenewalMode : String := ""
  previousCategoryID : Option Nat := none
  newCategoryID : Option Nat := none
  previousCategoryName : String := ""
  newCategoryName : String := ""
  previousPaymentMethodID : Option Nat := none
  newPaymentMethodID : Option Nat := none
  previousPaymentMethodName : String := ""
  newPaymentMethodName : String := ""
  createdAt : Time

structure SubscriptionEventSnapshot where
  amount : Rat
  currency : String
  monthlyAmount : Rat
  nextBillingDate : Option Time
  status : String
  renewalMode : String
  categoryID : Option Nat
  categoryName : String
  paymentMethodID : Option Nat
  paymentMethodName : String

/-- The names of a user's categories and payment methods, by user and id. -/
structure LinkNames where
  category : Nat → Nat → Option String
  paymentMethod : Nat → Nat → Option String

def subscriptionMonthlyFactor (sub : Subscription) : Rat :=
  if sub.billingType ≠ billingTypeRecurring then 0
  else if sub.recurrenceType = recurrenceTypeInterval then
    match sub.intervalCount with
    | none => 0
    | some count =>
      if count ≤ 0 then 0
      else if sub.intervalUnit = intervalUnitDay then 30436875 / 1000000 / count
      else if sub.intervalUnit = intervalUnitWeek then 4348125 / 1000000 / count
      else if sub.intervalUnit = intervalUnitMonth then 1 / count
      else if sub.intervalUnit = intervalUnitYear then 1 / (12 * count)
      else 0
  else if sub.recurrenceType = recurrenceTypeMonthlyDate then 1
  else if sub.recurrenceType = recurrenceTypeYearlyDate then 1 / 12
  else 0

/-- How the events write a currency. -/
def eventCurrency (currency : String) : String := toUpper (trimSpace currency)

def buildSubscriptionEventSnapshot (names : LinkNames) (userID : Nat) (sub : Subscription) :
    SubscriptionEventSnapshot where
  amount := sub.amount
  currency := eventCurrency sub.currency
  monthlyAmount := sub.amount * subscriptionMonthlyFactor sub
  nextBillingDate := copyTimePointer sub.nextBillingDate
  status := normalizeStatus sub.status
  renewalMode := normalizeRenewalMode sub.renewalMode
  categoryID := sub.categoryID
  categoryName := (sub.categoryID.bind (names.category userID)).getD (trimSpace sub.category)
  paymentMethodID := sub.paymentMethodID
  paymentMethodName := (sub.paymentMethodID.bind (names.paymentMethod userID)).getD ""

/-- `math.Abs(a-b) < 0.000001`. -/
def floatEqual (a b : Rat) : Bool := (if a < b then b - a else a - b) < 1 / 1000000

def datePtrEqual (a b : Option Time) : Bool :=
  match a, b with
  | some a, some b => (normalizeDateUTC a).equal (normalizeDateUTC b)
  | none, none => true
  | _, _ => false

/-- The changes between two snapshots, before they are sorted. -/
def changesBetween (before after : SubscriptionEventSnapshot) : List String :=
  (if !floatEqual before.amount after.amount then ["amount"] else []) ++
  (if before.currency ≠ after.currency then ["currency"] else []) ++
  (if !datePtrEqual before.nextBillingDate after.nextBillingDate then ["next_billing_date"] else []) ++
  (if before.status ≠ after.status then ["status"] else []) ++
  (if before.renewalMode ≠ after.renewalMode then ["renewal_mode"] else []) ++
  (if before.categoryID ≠ after.categoryID ∨ before.categoryName ≠ after.categoryName
    then ["category"] else []) ++
  (if before.paymentMethodID ≠ after.paymentMethodID ∨
    before.paymentMethodName ≠ after.paymentMethodName then
    ["payment_method"] else []) ++
  (if !floatEqual before.monthlyAmount after.monthlyAmount ∧ floatEqual before.amount after.amount then
    ["monthly_amount"] else [])

def subscriptionChangedFields (before after : SubscriptionEventSnapshot) : List String :=
  (changesBetween before after).insertionSort (· ≤ ·)

def encodeSubscriptionEventFields (fields : List String) : String :=
  String.ofList (write (.arr (fields.map .str)))

def jsonString : Json → Option String
  | .str s => some s
  | _ => none

/-- `json.Unmarshal` into a list of strings; an error gives the empty list. -/
def decodeSubscriptionEventFields (value : String) : List String :=
  match read value.toList with
  | some (.arr items) => (items.mapM jsonString).getD []
  | _ => []

/-! ## The tables -/

structure HistoryDB where
  table : SubscriptionTable
  events : List SubscriptionEvent
  nextEventID : Nat

/-- `DB.Create` of an event. -/
def HistoryDB.insertEvent (db : HistoryDB) (event : SubscriptionEvent) : HistoryDB :=
  { db with
    events := db.events ++ [{ event with id := db.nextEventID }], nextEventID := db.nextEventID + 1 }

def recordSubscriptionCreated (names : LinkNames) (userID : Nat) (sub : Subscription)
    (createdAt : Time) (db : HistoryDB) :
    HistoryDB :=
  let snapshot := buildSubscriptionEventSnapshot names userID sub
  db.insertEvent
    { id := 0, userID := userID, actorUserID := some userID, subscriptionID := some sub.id,
      subscriptionName := sub.name
      type := subscriptionEventCreated, changedFields := encodeSubscriptionEventFields ["created"]
      newAmount := some snapshot.amount, newMonthlyAmount :=
        some snapshot.monthlyAmount, newCurrency := snapshot.currency
      newNextBillingDate := copyTimePointer snapshot.nextBillingDate, newStatus := snapshot.status
      newRenewalMode := snapshot.renewalMode, newCategoryID :=
        snapshot.categoryID, newCategoryName := snapshot.categoryName
      newPaymentMethodID := snapshot.paymentMethodID, newPaymentMethodName := snapshot.paymentMethodName
      createdAt := createdAt.utc }

/-- The event between two snapshots of a row. -/
def changeEvent (userID : Nat) (after : Subscription) (eventType : String) (createdAt : Time)
    (fields : List String) (previous new : SubscriptionEventSnapshot) : SubscriptionEvent :=
  { id := 0, userID := userID, actorUserID := some userID, subscriptionID := some after.id,
    subscriptionName := after.name
    type := orDefault subscriptionEventUpdated eventType, changedFields :=
      encodeSubscriptionEventFields fields
    previousAmount := some previous.amount, newAmount := some new.amount
    previousMonthlyAmount := some previous.monthlyAmount, newMonthlyAmount := some new.monthlyAmount
    previousCurrency := previous.currency, newCurrency := new.currency
    previousNextBillingDate := copyTimePointer previous.nextBillingDate
    newNextBillingDate := copyTimePointer new.nextBillingDate
    previousStatus := previous.status, newStatus := new.status
    previousRenewalMode := previous.renewalMode, newRenewalMode := new.renewalMode
    previousCategoryID := previous.categoryID, newCategoryID := new.categoryID
    previousCategoryName := previous.categoryName, newCategoryName := new.categoryName
    previousPaymentMethodID := previous.paymentMethodID, newPaymentMethodID := new.paymentMethodID
    previousPaymentMethodName := previous.paymentMethodName, newPaymentMethodName :=
      new.paymentMethodName
    createdAt := createdAt.utc }

def recordSubscriptionChanged (names : LinkNames) (userID : Nat) (before after : Subscription)
    (eventType : String) (createdAt : Time) (db : HistoryDB) : HistoryDB :=
  let previous := buildSubscriptionEventSnapshot names userID before
  let new := buildSubscriptionEventSnapshot names userID after
  let fields := subscriptionChangedFields previous new
  if fields = [] then db
    else db.insertEvent (changeEvent userID after eventType createdAt fields previous new)

/-! ## The writing operations, with their events -/

def errTransaction : String := "transaction failed"

/-- The clock reading and the link names an event is made with, and whether its transaction commits. -/
structure Recording where
  names : LinkNames
  createdAt : Time
  commits : Bool

/-- `Create`. -/
def createRecorded (lookups : Lookups) (userID : Nat) (input : CreateSubscriptionInput) (now : Time)
    (recording : Recording) (db : HistoryDB) : Except String Subscription × HistoryDB :=
  match create lookups userID input now db.table with
  | (.error err, _) => (.error err, db)
  | (.ok sub, table) =>
    if recording.commits then
      (.ok sub, recordSubscriptionCreated recording.names userID sub recording.createdAt
        { db with table })
    else (.error errTransaction, db)

/-- The transaction of `Update` and `MarkManualRenewed` on the row `before`: an error undoes it. -/
def commitRecorded (userID id : Nat) (before : Subscription) (set : Subscription → Subscription)
    (updatedAt : Time) (eventType : String) (recording : Recording) (db : HistoryDB) :
    Except String Subscription × HistoryDB :=
  match commitUpdates userID id set updatedAt db.table.rows with
  | (.error err, _) => (.error err, db)
  | (.ok updated, rows) =>
    if recording.commits then
      (.ok updated, recordSubscriptionChanged recording.names userID before updated eventType
        recording.createdAt
        { db with table := { db.table with rows } })
    else (.error errTransaction, db)

/-- A call that works on the row as it is after a due transition was persisted: `prepare` computes
the write from the row it reads. -/
def writeRecorded (userID id : Nat) (readings : Readings)
    (prepare : Subscription → Except String (Subscription → Subscription)) (eventType : String)
    (recording : Recording) (db : HistoryDB) : Except String Subscription × HistoryDB :=
  let rows := reconcileSubscriptionForWrite userID id readings.reconcile db.table.rows
  let db := { db with table := { db.table with rows } }
  match findSubscription userID id rows with
  | none => (.error errRecordNotFound, db)
  | some sub =>
    let before := presentSubscriptionForResponse sub readings.updatedBefore readings.read
    match prepare before with
    | .error err => (.error err, db)
    | .ok set => commitRecorded userID id before set readings.updatedAfter eventType recording db

/-- `Update`. -/
def updateRecorded (lookups : Lookups) (userID id : Nat) (input : UpdateSubscriptionInput)
    (readings : Readings) (recording : Recording) (db : HistoryDB) :
    Except String Subscription × HistoryDB :=
  writeRecorded userID id readings
    (fun sub => (subscriptionUpdates lookups input sub readings.lifecycle).map SubscriptionUpdates.apply)
    subscriptionEventUpdated recording db

/-- `MarkManualRenewed`. -/
def markManualRenewedRecorded (userID id : Nat) (readings : Readings) (recording : Recording)
    (db : HistoryDB) :
    Except String Subscription × HistoryDB :=
  writeRecorded userID id readings
    (fun sub => (manualRenewal sub).map manualRenewed) subscriptionEventManualRenewed recording db

/-! ## Reading the history -/

structure SubscriptionDetailPriceHistoryItem where
  eventID : Nat
  type : String
  amount : Rat
  currency : String
  monthlyAmount : Option Rat
  previousAmount : Option Rat
  previousCurrency : String
  previousMonthlyAmount : Option Rat
  changedAt : Time

/-- The pattern that finds a field's name in the encoded list. -/
def fieldPattern (field : String) : List Char := '%' :: ('"' :: field.toList ++ ['"'] ++ ['%'])

/-- The `WHERE` of the price history's query. -/
def isPriceEvent (userID subscriptionID : Nat) (event : SubscriptionEvent) : Bool :=
  event.userID = userID && event.subscriptionID = some subscriptionID &&
    (event.type = subscriptionEventCreated || like (fieldPattern "amount") event.changedFields.toList ||
      like (fieldPattern "currency") event.changedFields.toList ||
      like (fieldPattern "monthly_amount") event.changedFields.toList)

def subscriptionEventHasPriceState (event : SubscriptionEvent) : Bool :=
  (event.type = subscriptionEventCreated && event.newAmount.isSome) ||
    ((decodeSubscriptionEventFields event.changedFields).any
      (· ∈ ["amount", "currency", "monthly_amount"]) &&
      event.newAmount.isSome)

def priceHistoryItem (event : SubscriptionEvent) : SubscriptionDetailPriceHistoryItem where
  eventID := event.id
  type := event.type
  amount := event.newAmount.getD 0
  currency := orDefault (eventCurrency event.previousCurrency) (eventCurrency event.newCurrency)
  monthlyAmount := event.newMonthlyAmount
  previousAmount := event.previousAmount
  previousCurrency := eventCurrency event.previousCurrency
  previousMonthlyAmount := event.previousMonthlyAmount
  changedAt := event.createdAt.utc

/-- `ORDER BY created_at, id`. -/
def eventOrder (a b : SubscriptionEvent) : Prop :=
  a.createdAt.nanos < b.createdAt.nanos ∨ (a.createdAt.nanos = b.createdAt.nanos ∧ a.id ≤ b.id)

instance (a b : SubscriptionEvent) : Decidable (eventOrder a b) := inferInstanceAs (Decidable (_ ∨ _))

def subscriptionDetailPriceHistory (userID subscriptionID : Nat) (db : HistoryDB) :
    List SubscriptionDetailPriceHistoryItem :=
  (((db.events.filter (isPriceEvent userID subscriptionID)).insertionSort eventOrder).filter
    subscriptionEventHasPriceState).map priceHistoryItem

/-- `GetDetail`: the subscription as it is shown, and its price history. -/
def getDetail (userID id : Nat) (updatedAt now : Time) (db : HistoryDB) :
    Except String (Subscription × List SubscriptionDetailPriceHistoryItem) :=
  match findSubscription userID id db.table.rows with
  | none => .error errRecordNotFound
  | some sub =>
    .ok (presentSubscriptionForResponse sub updatedAt now, subscriptionDetailPriceHistory userID id db)

/-! ## What a row is sold at -/

/-- The amount and the currency of a row, as the events write them. -/
def Subscription.price (sub : Subscription) : Option Rat × String :=
  (some sub.amount, eventCurrency sub.currency)

/-- The two columns that only `Create` and `Update` write. -/
def Subscription.soldAt (sub : Subscription) : Rat × String := (sub.amount, sub.currency)

section Rows
variable {userID id : Nat} {rows : List Subscription}

theorem price_of_soldAt {a b : Subscription} (h : a.soldAt = b.soldAt) : a.price = b.price := by
  obtain ⟨hamount, hcurrency⟩ := Prod.mk.inj h
  rw [Subscription.price, Subscription.price, hamount, hcurrency]

theorem lifecycleWrite_soldAt (advanced row : Subscription) :
    (lifecycleWrite advanced row).soldAt = row.soldAt := rfl

theorem sync_soldAt (sub : Subscription) : (syncLegacyEnabledForLifecycle sub).soldAt = sub.soldAt := by
  dsimp only [syncLegacyEnabledForLifecycle, Subscription.soldAt]

theorem advance_soldAt (sub : Subscription) (t : Time) :
    (advanceSubscriptionLifecycle sub t).1.soldAt = sub.soldAt := by
  rw [← lifecycleWrite_self, lifecycleWrite_soldAt]

theorem normalizeForResponse_soldAt (sub : Subscription) (t : Time) :
    (normalizeSubscriptionForResponse sub t).soldAt = sub.soldAt := by
  delta normalizeSubscriptionForResponse
  dsimp only
  rw [sync_soldAt, apply_ite Subscription.soldAt]
  exact ite_self _

theorem present_soldAt (sub : Subscription) (updatedAt t : Time) :
    (presentSubscriptionForResponse sub updatedAt t).soldAt = sub.soldAt :=
  (normalizeForResponse_soldAt _ _).trans (advance_soldAt sub t)

theorem sync_id (sub : Subscription) : (syncLegacyEnabledForLifecycle sub).id = sub.id := by
  dsimp only [syncLegacyEnabledForLifecycle]

theorem normalizeForResponse_id (sub : Subscription) (t : Time) :
    (normalizeSubscriptionForResponse sub t).id = sub.id := by
  delta normalizeSubscriptionForResponse
  dsimp only
  rw [sync_id, apply_ite Subscription.id]
  exact ite_self _

/-- A look-up after an update finds the updated row. -/
theorem findSubscription_updateWhere {p : Subscription → Bool} {f : Subscription → Subscription}
    (hid : ∀ r, (f r).id = r.id) (huser : ∀ r, (f r).userID = r.userID) :
    findSubscription userID id (updateWhere p f rows) = (findSubscription userID id rows).map
    fun r => if p r then f r else r := by
  rw [findSubscription, findSubscription, updateWhere, List.find?_map]
  congr 1
  apply congrArg (List.find? · rows)
  funext r
  simp only [Function.comp_apply]
  split
  · rw [hid, huser]
  · rfl

theorem findSubscription_isRow {row : Subscription} (h : findSubscription userID id rows = some row) :
    isRow userID id row = true := by
  have hp := List.find?_some h
  simpa [isRow] using hp

/-- The look-ups of both tables find rows sold alike. -/
def SameSales (rows rows' : List Subscription) : Prop :=
  ∀ userID id, (findSubscription userID id rows').map Subscription.soldAt =
    (findSubscription userID id rows).map Subscription.soldAt

theorem SameSales.refl (rows : List Subscription) : SameSales rows rows := fun _ _ => rfl

theorem SameSales.trans {rows₁ rows₂ rows₃ : List Subscription} (h : SameSales rows₁ rows₂)
    (h' : SameSales rows₂ rows₃) :
    SameSales rows₁ rows₃ := fun userID id => (h' userID id).trans (h userID id)

theorem persist_sameSales (userID : Nat) (sub : Subscription) (t : Time) (rows : List Subscription) :
    SameSales rows (persistAdvancedSubscriptionLifecycle userID sub t rows) := by
  unfold persistAdvancedSubscriptionLifecycle
  generalize advanceSubscriptionLifecycle sub t = advanced
  dsimp only
  split
  · exact .refl rows
  · intro user id
    rw [findSubscription_updateWhere (lifecycleWrite_id _) (lifecycleWrite_userID _), Option.map_map]
    apply congrFun
    apply congrArg
    funext r
    simp only [Function.comp_apply]
    split <;> rfl

theorem reconcileForWrite_sameSales (userID id : Nat) (t : Time) (rows : List Subscription) :
    SameSales rows (reconcileSubscriptionForWrite userID id t rows) := by
  unfold reconcileSubscriptionForWrite
  split
  · exact .refl rows
  · exact persist_sameSales _ _ _ _

theorem reconcileForUser_sameSales (userID : Nat) (t : Time) (rows : List Subscription) :
    SameSales rows (reconcileSubscriptionLifecycleForUser userID t rows) :=
  List.foldlRecOn (motive := fun rows' => SameSales rows rows') _ _ (.refl rows)
    fun rows' h sub _ => h.trans (persist_sameSales userID sub t rows')

theorem reconcileDue_sameSales (now : Time) (rows : List Subscription) :
    SameSales rows (reconcileDueLifecycles now rows) :=
  List.foldlRecOn (motive := fun rows' => SameSales rows rows') _ _ (.refl rows)
    fun rows' h userID _ => h.trans (reconcileForUser_sameSales userID now rows')

end Rows

/-! ## What an event says -/

section Events

/-- Two amounts in whole cents are equal when the events take them for equal. -/
def IsCents (amount : Rat) : Prop := (amount * 100).den = 1

instance (amount : Rat) : Decidable (IsCents amount) := inferInstanceAs (Decidable (_ = _))

theorem floatEqual_cents {a b : Rat} (ha : IsCents a) (hb : IsCents b) :
    floatEqual a b = true ↔ a = b := by
  have hacents : ((a * 100).num : Rat) = a * 100 := (Rat.den_eq_one_iff _).1 ha
  have hbcents : ((b * 100).num : Rat) = b * 100 := (Rat.den_eq_one_iff _).1 hb
  rw [floatEqual, decide_eq_true_eq]
  constructor
  · intro h
    have hclose : a - b < 1 / 1000000 ∧ b - a < 1 / 1000000 := by
      split at h
      · exact ⟨by linarith, h⟩
      · exact ⟨h, by linarith⟩
    -- less than a cent apart, so the same number of cents
    have hle : (a * 100).num ≤ (b * 100).num := by
      by_contra hlt
      have hstep : ((b * 100).num : Rat) + 1 ≤ (a * 100).num := by
        exact_mod_cast (by omega : (b * 100).num + 1 ≤ (a * 100).num)
      linarith
    have hge : (b * 100).num ≤ (a * 100).num := by
      by_contra hlt
      have hstep : ((a * 100).num : Rat) + 1 ≤ (b * 100).num := by
        exact_mod_cast (by omega : (a * 100).num + 1 ≤ (b * 100).num)
      linarith
    have heq : ((a * 100).num : Rat) = (b * 100).num := by rw [le_antisymm hle hge]
    linarith
  · rintro rfl
    simp

theorem eventCurrency_idem (currency : String) :
    eventCurrency (eventCurrency currency) = eventCurrency currency := by
  rw [eventCurrency, eventCurrency, trimSpace_toUpper, toUpper_idem]

theorem decodeFields_encode (fields : List String) :
    decodeSubscriptionEventFields (encodeSubscriptionEventFields fields) = fields := by
  have hmap : (fields.map Json.str).mapM jsonString = some fields := by
    induction fields with
    | nil => rfl
    | cons field fields ih => simp [jsonString, ih]
  rw [decodeSubscriptionEventFields, encodeSubscriptionEventFields, String.toList_ofList, read_write]
  simp only [hmap, Option.getD_some]

theorem mem_writeItems {field : String} {fields : List String} (h : field ∈ fields) :
    ∃ pre post, writeItems (fields.map Json.str) = pre ++ '"' :: writeString field ++ post := by
  induction fields with
  | nil => cases h
  | cons first fields ih =>
    rcases List.mem_cons.1 h with rfl | h
    · exact ⟨[','], writeItems (fields.map Json.str), by simp [writeItems, write]⟩
    · obtain ⟨pre, post, hitems⟩ := ih h
      refine ⟨',' :: (write (.str first) ++ pre), post, ?_⟩
      rw [List.map_cons, writeItems, hitems]
      simp

/-- A field's name stands in quotes in the encoded list. -/
theorem mem_encode {field : String} {fields : List String} (h : field ∈ fields) :
    ∃ pre post, (encodeSubscriptionEventFields fields).toList = pre ++ '"' :: writeString field ++
    post := by
  rw [encodeSubscriptionEventFields, String.toList_ofList]
  cases fields with
  | nil => cases h
  | cons first fields =>
    rcases List.mem_cons.1 h with rfl | h
    · exact ⟨['['], writeItems (fields.map Json.str), by simp [write]⟩
    · obtain ⟨pre, post, hitems⟩ := mem_writeItems h
      exact ⟨'[' :: (write (.str first) ++ pre), post, by simp [write, hitems]⟩

/-- The fields that make an event one of the price history. -/
def priceFields : List String := ["amount", "currency", "monthly_amount"]

theorem like_encode {field : String} {fields : List String} (hprice : field ∈ priceFields)
    (h : field ∈ fields) :
    like (fieldPattern field) (encodeSubscriptionEventFields fields).toList = true := by
  obtain ⟨pre, post, htext⟩ := mem_encode h
  have hplain : ∀ f ∈ priceFields, writeString f = f.toList ++ ['"'] ∧ '%' ∉ '"' :: f.toList ++
      ['"'] := by decide
  obtain ⟨hwrite, hpercent⟩ := hplain field hprice
  rw [htext, hwrite]
  exact like_infix hpercent pre post

theorem mem_changedFields {field : String} {before after : SubscriptionEventSnapshot} :
    field ∈ subscriptionChangedFields before after ↔ field ∈ changesBetween before after :=
  List.mem_insertionSort _

theorem amount_mem_changedFields {before after : SubscriptionEventSnapshot}
    (h : floatEqual before.amount after.amount = false) :
    "amount" ∈ subscriptionChangedFields before after := by
  rw [mem_changedFields, changesBetween]
  simp [h]

theorem currency_mem_changedFields {before after : SubscriptionEventSnapshot}
    (h : before.currency ≠ after.currency) :
    "currency" ∈ subscriptionChangedFields before after := by
  rw [mem_changedFields, changesBetween]
  simp [h]

variable {userID id : Nat} {names : LinkNames} {sub before after : Subscription} {createdAt : Time}
  {eventType : String}

/-- The events of the query that show a price, and what they show. -/
def priceItems (userID id : Nat) (events : List SubscriptionEvent) :
    List SubscriptionDetailPriceHistoryItem :=
  ((events.filter (isPriceEvent userID id)).filter subscriptionEventHasPriceState).map priceHistoryItem

theorem priceItems_append (events events' : List SubscriptionEvent) :
    priceItems userID id (events ++ events') = priceItems userID id events ++
    priceItems userID id events' := by
  simp [priceItems]

/-- An event of another subscription or user is none of these. -/
theorem priceItems_other {event : SubscriptionEvent}
    (h : ¬ (event.userID = userID ∧ event.subscriptionID = some id)) :
    priceItems userID id [event] = [] := by
  have hprice : isPriceEvent userID id event = false := by
    rw [isPriceEvent, ← Bool.not_eq_true]
    intro hp
    simp only [Bool.and_eq_true, decide_eq_true_eq] at hp
    exact h hp.1
  simp [priceItems, hprice]

/-- What an item found, and what it set. -/
def itemFound (item : SubscriptionDetailPriceHistoryItem) : Option Rat × String :=
  (item.previousAmount, item.previousCurrency)

def itemSet (item : SubscriptionDetailPriceHistoryItem) : Option Rat × String :=
  (some item.amount, item.currency)

theorem orDefault_currency {fallback currency : String} (h : eventCurrency currency ≠ "") :
    orDefault fallback (eventCurrency (eventCurrency currency)) = eventCurrency currency := by
  rw [eventCurrency_idem, orDefault_of_ne h]

/-- The event tells a change of the subscription's price from one snapshot to the other. -/
structure TellsChange (userID id : Nat) (previous new : SubscriptionEventSnapshot)
    (event : SubscriptionEvent) : Prop where
  user : event.userID = userID
  subscription : event.subscriptionID = some id
  type : event.type ≠ subscriptionEventCreated
  fields : event.changedFields = encodeSubscriptionEventFields (subscriptionChangedFields previous new)
  found : event.previousAmount = some previous.amount ∧ event.previousCurrency = previous.currency
  set : event.newAmount = some new.amount ∧ event.newCurrency = new.currency

variable {previous new : SubscriptionEventSnapshot} {event : SubscriptionEvent}

/-- An event shows a price when one of the price's fields changed. -/
theorem TellsChange.hasPriceState_iff (h : TellsChange userID id previous new event) :
    subscriptionEventHasPriceState event = true ↔ ∃ f ∈ subscriptionChangedFields previous new,
    f ∈ priceFields := by
  have hfields : decodeSubscriptionEventFields event.changedFields = subscriptionChangedFields
      previous new := by
    rw [h.fields, decodeFields_encode]
  have htype : decide (event.type = subscriptionEventCreated) = false := decide_eq_false h.type
  have hnew : event.newAmount.isSome = true := by rw [h.set.1]; rfl
  rw [subscriptionEventHasPriceState, htype, hnew, hfields, Bool.false_and, Bool.false_or,
    Bool.and_true, List.any_eq_true]
  simp only [decide_eq_true_eq]
  rfl

theorem TellsChange.isPriceEvent (h : TellsChange userID id previous new event) {f : String}
    (hf : f ∈ subscriptionChangedFields previous new) (hprice : f ∈ priceFields) :
    isPriceEvent userID id event = true := by
  have hlike := like_encode hprice hf
  rw [← h.fields] at hlike
  rw [Subdux.isPriceEvent, h.user, h.subscription]
  simp only [priceFields, List.mem_cons, List.not_mem_nil, or_false] at hprice
  rcases hprice with rfl | rfl | rfl <;> simp [hlike]

/-- Where no price field changed, the price is the same. -/
theorem price_unchanged (hprevious : IsCents previous.amount) (hnew : IsCents new.amount)
    (hnone : ∀ f ∈ subscriptionChangedFields previous new, f ∉ priceFields) :
    previous.amount = new.amount ∧ previous.currency = new.currency := by
  constructor
  · rw [← floatEqual_cents hprevious hnew]
    by_contra hne
    rw [Bool.not_eq_true] at hne
    exact hnone "amount" (amount_mem_changedFields hne) (by decide)
  · by_contra hne
    exact hnone "currency" (currency_mem_changedFields hne) (by decide)

/-- The event of a change shows the two prices; an event that shows none is about a change that left
the price. -/
theorem TellsChange.priceItems (h : TellsChange userID id previous new event)
    (hprevious : IsCents previous.amount) (hnew : IsCents new.amount)
    (hidem : eventCurrency previous.currency = previous.currency)
    (hidem' : eventCurrency new.currency = new.currency) (hcurrency : new.currency ≠ "") :
    (∃ item, priceItems userID id [event] = [item] ∧
      itemFound item = (some previous.amount, previous.currency) ∧
        itemSet item = (some new.amount, new.currency)) ∨
      (priceItems userID id [event] = [] ∧ previous.amount = new.amount ∧
        previous.currency = new.currency) := by
  by_cases hstate : ∃ f ∈ subscriptionChangedFields previous new, f ∈ priceFields
  · left
    have hshown := h.hasPriceState_iff.2 hstate
    obtain ⟨f, hf, hprice⟩ := hstate
    refine ⟨priceHistoryItem event,
      by simp [Subdux.priceItems, h.isPriceEvent hf hprice, hshown], ?_, ?_⟩
    · rw [itemFound, priceHistoryItem]
      simp only [h.found, hidem]
    · rw [itemSet, priceHistoryItem]
      simp only [h.set, hidem', Option.getD_some, orDefault_of_ne hcurrency]
  · right
    have hhidden : subscriptionEventHasPriceState event = false := by
      rw [← Bool.not_eq_true, h.hasPriceState_iff]
      exact hstate
    push Not at hstate
    exact ⟨by simp [Subdux.priceItems, hhidden], price_unchanged hprevious hnew hstate⟩

theorem changeEvent_tells (createdAt : Time) (eventID : Nat)
    (htype : orDefault subscriptionEventUpdated eventType ≠ subscriptionEventCreated) :
    TellsChange userID after.id previous new
      { changeEvent userID after eventType createdAt (subscriptionChangedFields previous new)
      previous new with id := eventID } :=
  ⟨rfl, rfl, htype, rfl, ⟨rfl, rfl⟩, rfl, rfl⟩

/-- The event of a new row shows its price. -/
theorem priceItems_created (names : LinkNames) (userID : Nat) (createdAt : Time) (db : HistoryDB)
    (hcurrency : eventCurrency sub.currency ≠ "") :
    ∃ item, priceItems userID sub.id (recordSubscriptionCreated names userID sub createdAt db).events =
      priceItems userID sub.id db.events ++ [item] ∧ itemSet item = sub.price := by
  obtain ⟨event, hevents, huser, hsubscription, htype, hamount, hset⟩ : ∃ event,
      (recordSubscriptionCreated names userID sub createdAt db).events = db.events ++ [event] ∧
        event.userID = userID ∧
        event.subscriptionID = some sub.id ∧ event.type = subscriptionEventCreated ∧
          event.newAmount = some sub.amount ∧
        event.newCurrency = eventCurrency sub.currency := ⟨_, rfl, rfl, rfl, rfl, rfl, rfl⟩
  have hquery : Subdux.isPriceEvent userID sub.id event = true := by
    rw [Subdux.isPriceEvent, huser, hsubscription, htype]
    simp
  have hshown : subscriptionEventHasPriceState event = true := by
    rw [subscriptionEventHasPriceState, htype, hamount]
    simp
  refine ⟨priceHistoryItem event, ?_, ?_⟩
  · rw [hevents, priceItems_append]
    simp [Subdux.priceItems, hquery, hshown]
  · rw [itemSet, priceHistoryItem, Subscription.price]
    simp only [hamount, hset, Option.getD_some, orDefault_currency hcurrency]

/-- Recording a change extends the history to the new price. -/
theorem recordChanged_chained {names : LinkNames} {db : HistoryDB} {first : Option Rat × String}
    (hbefore : IsCents before.amount) (hafter : IsCents after.amount)
    (hcurrency : eventCurrency after.currency ≠ "")
    (htype : orDefault subscriptionEventUpdated eventType ≠ subscriptionEventCreated)
    (h : Chained itemFound itemSet first before.price (priceItems userID after.id db.events)) :
    Chained itemFound itemSet first after.price
      (priceItems userID after.id
        (recordSubscriptionChanged names userID before after eventType createdAt db).events) := by
  have hprevious : ∃ previous, buildSubscriptionEventSnapshot names userID before = previous ∧
      previous.amount = before.amount ∧
      previous.currency = eventCurrency before.currency := ⟨_, rfl, rfl, rfl⟩
  have hnew : ∃ new, buildSubscriptionEventSnapshot names userID after = new ∧
      new.amount = after.amount ∧
      new.currency = eventCurrency after.currency := ⟨_, rfl, rfl, rfl⟩
  obtain ⟨previous, hbuild, hamount, hcur⟩ := hprevious
  obtain ⟨new, hbuild', hamount', hcur'⟩ := hnew
  have hfrom : before.price = (some previous.amount, previous.currency) := by rw [hamount, hcur]; rfl
  have hto : after.price = (some new.amount, new.currency) := by rw [hamount', hcur']; rfl
  rw [← hamount] at hbefore
  rw [← hamount'] at hafter
  rw [recordSubscriptionChanged, hbuild, hbuild']
  split
  · rename_i hfields
    obtain ⟨ha, hc⟩ := price_unchanged hbefore hafter (by rw [hfields]; simp)
    rw [hto, ← ha, ← hc, ← hfrom]
    exact h
  · have htells : TellsChange userID after.id previous new _ :=
      changeEvent_tells createdAt db.nextEventID htype
    rw [HistoryDB.insertEvent, priceItems_append]
    rcases htells.priceItems hbefore hafter (by rw [hcur, eventCurrency_idem])
      (by rw [hcur', eventCurrency_idem])
      (hcur' ▸ hcurrency) with ⟨item, hitem, hfound, hset⟩ | ⟨hnone, ha, hc⟩
    · rw [hitem, hto, ← hset]
      exact h.snoc (hfound.trans hfrom.symm)
    · rw [hnone, List.append_nil, hto, ← ha, ← hc, ← hfrom]
      exact h

theorem recordChanged_rows (names : LinkNames) (userID : Nat) (before after : Subscription)
    (eventType : String) (createdAt : Time) (db : HistoryDB) :
    (recordSubscriptionChanged names userID before after eventType createdAt db).table = db.table := by
  rw [recordSubscriptionChanged]
  split <;> rfl

/-- A change of another subscription leaves the history alone. -/
theorem recordChanged_other (names : LinkNames) (createdAt : Time) (eventType : String)
    (db : HistoryDB) {user : Nat} (hother : ¬ (user = userID ∧ after.id = id)) :
    priceItems userID id
    (recordSubscriptionChanged names user before after eventType createdAt db).events =
      priceItems userID id db.events := by
  rw [recordSubscriptionChanged]
  split
  · rfl
  · rw [HistoryDB.insertEvent, priceItems_append, priceItems_other, List.append_nil]
    rintro ⟨huser, hid⟩
    exact hother ⟨huser, Option.some.inj hid⟩

end Events

/-! ## Runs -/

inductive HistoryCall where
  | create (lookups : Lookups) (userID : Nat) (input : CreateSubscriptionInput) (now : Time)
    (recording : Recording)
  | update (lookups : Lookups) (userID id : Nat) (input : UpdateSubscriptionInput)
    (readings : Readings) (recording : Recording)
  | markManualRenewed (userID id : Nat) (readings : Readings) (recording : Recording)
  | reconcileForUser (userID : Nat) (now : Time)
  | reconcileDue (now : Time)

def HistoryDB.setRows (db : HistoryDB) (rows : List Subscription) : HistoryDB :=
  { db with table := { db.table with rows } }

def HistoryCall.run : HistoryCall → HistoryDB → HistoryDB
  | .create lookups userID input now recording, db =>
    (createRecorded lookups userID input now recording db).2
  | .update lookups userID id input readings recording, db =>
    (updateRecorded lookups userID id input readings recording db).2
  | .markManualRenewed userID id readings recording, db =>
    (markManualRenewedRecorded userID id readings recording db).2
  | .reconcileForUser userID now, db =>
    db.setRows (reconcileSubscriptionLifecycleForUser userID now db.table.rows)
  | .reconcileDue now, db => db.setRows (reconcileDueLifecycles now db.table.rows)

/-- When the call records its event. -/
def HistoryCall.createdAt : HistoryCall → Option Time
  | .create _ _ _ _ recording | .update _ _ _ _ _ recording | .markManualRenewed _ _ _ recording =>
    some recording.createdAt
  | .reconcileForUser _ _ | .reconcileDue _ => none

/-- The database, and the clock at the last event. -/
structure HistoryState where
  db : HistoryDB
  clock : Int

def historyStep (s : HistoryState) (call : HistoryCall) : Option HistoryState :=
  some ⟨call.run s.db, call.createdAt.elim s.clock (·.nanos)⟩

/-- The prices of the request are whole cents in a currency that is not blank, and the clock does
not go back. -/
def HistoryCall.Allowed (s : HistoryState) : HistoryCall → Prop
  | .create _ _ input _ recording =>
    IsCents input.amount ∧ trimSpace input.currency ≠ "" ∧ s.clock ≤ recording.createdAt.nanos
  | .update _ _ _ input _ recording =>
    (∀ a ∈ input.amount, IsCents a) ∧ (∀ c ∈ input.currency, trimSpace c ≠ "") ∧
      s.clock ≤ recording.createdAt.nanos
  | .markManualRenewed _ _ _ recording => s.clock ≤ recording.createdAt.nanos
  | .reconcileForUser _ _ | .reconcileDue _ => True

instance (s : HistoryState) (call : HistoryCall) : Decidable (call.Allowed s) := by
  cases call <;> unfold HistoryCall.Allowed <;> infer_instance

section Steps
variable {userID id : Nat} {first : Option Rat × String} {db db' : HistoryDB}

/-- The subscription has a price in whole cents, and its history leads from the first price to it. -/
def Priced (userID id : Nat) (first : Option Rat × String) (db : HistoryDB) : Prop :=
  ∃ row, findSubscription userID id db.table.rows = some row ∧ IsCents row.amount ∧
    trimSpace row.currency ≠ "" ∧
    Chained itemFound itemSet first row.price (priceItems userID id db.events)

theorem eventCurrency_ne {currency : String} (h : trimSpace currency ≠ "") :
    eventCurrency currency ≠ "" :=
  fun heq => h (toUpper_eq_empty.1 heq)

/-- Rows that are sold as before keep the history. -/
theorem Priced.setRows (h : Priced userID id first db) {rows : List Subscription}
    (hrows : SameSales db.table.rows rows) :
    Priced userID id first (db.setRows rows) := by
  obtain ⟨row, hfind, hcents, hcurrency, hchained⟩ := h
  have hsame := hrows userID id
  rw [hfind, Option.map_some] at hsame
  obtain ⟨row', hfind', hsold⟩ := Option.map_eq_some_iff.1 hsame
  have hprice := price_of_soldAt hsold
  obtain ⟨hamount, hcur⟩ := Prod.mk.inj hsold
  refine ⟨row', hfind', ?_, ?_, ?_⟩
  · rw [hamount]
    exact hcents
  · rw [hcur]
    exact hcurrency
  · rw [hprice]
    exact hchained

/-- The write keeps a row's key, and its price in whole cents. -/
structure KeepsPrices (set : Subscription → Subscription) : Prop where
  id : ∀ r, (set r).id = r.id
  user : ∀ r, (set r).userID = r.userID
  cents : ∀ r, IsCents r.amount → IsCents (set r).amount
  currency : ∀ r, trimSpace r.currency ≠ "" → trimSpace (set r).currency ≠ ""

theorem Priced.commit {user key : Nat} {before : Subscription} {set : Subscription → Subscription}
    {updatedAt : Time} {eventType : String} {recording : Recording} (h : Priced userID id first db)
    (hset : KeepsPrices set)
    (hbefore : (findSubscription user key db.table.rows).map Subscription.soldAt =
      some before.soldAt)
      (htype : orDefault subscriptionEventUpdated eventType ≠ subscriptionEventCreated) :
    Priced userID id first (commitRecorded user key before set updatedAt eventType recording db).2 := by
  unfold commitRecorded commitUpdates
  cases hupdate : updateSubscription user key set db.table.rows with
  | none => exact h
  | some rows =>
    have hrows : rows = updateWhere (isRow user key) set db.table.rows := by
      unfold updateSubscription at hupdate
      split at hupdate
      · exact (Option.some.inj hupdate).symm
      · cases hupdate
    have hlookup : ∀ u k, findSubscription u k rows =
        (findSubscription u k db.table.rows).map fun r => if isRow user key r then set r else r :=
      fun u k => hrows ▸ findSubscription_updateWhere hset.id hset.user
    dsimp only
    cases hfound : findSubscription user key rows with
    | none => exact h
    | some updated =>
      dsimp only
      split
      case isFalse => exact h
      dsimp only
      obtain ⟨row, hfind, hcents, hcurrency, hchained⟩ := h
      have hrow : isRow userID id row = true := findSubscription_isRow hfind
      have hkey : row.id = id ∧ row.userID = userID := by simpa [isRow] using hrow
      -- the write is to the row followed, or to another
      by_cases hown : user = userID ∧ key = id
      · obtain ⟨rfl, rfl⟩ := hown
        have hnew : findSubscription user key rows = some (set row) := by
          rw [hlookup, hfind, Option.map_some, if_pos hrow]
        obtain rfl := Option.some.inj (hfound.symm.trans hnew)
        have hsold : (normalizeSubscriptionForResponse (set row) updatedAt).soldAt = (set row).soldAt :=
          normalizeForResponse_soldAt _ _
        have hid : (normalizeSubscriptionForResponse (set row) updatedAt).id = key := by
          rw [normalizeForResponse_id, hset.id, hkey.1]
        -- the price before, from the row that was loaded, is the price of the stored row
        rw [hfind] at hbefore
        have hsame : before.soldAt = row.soldAt := (Option.some.inj hbefore).symm
        generalize normalizeSubscriptionForResponse (set row) updatedAt = after at hsold hid ⊢
        obtain ⟨hamount, hcur⟩ := Prod.mk.inj hsold
        have hcents' := hset.cents row hcents
        have hcurrency' := hset.currency row hcurrency
        refine ⟨set row, ?_, hcents', hcurrency', ?_⟩
        · rw [recordChanged_rows]
          exact hnew
        · rw [← price_of_soldAt hsold, ← hid]
          apply recordChanged_chained
          · rw [(Prod.mk.inj hsame).1]
            exact hcents
          · rw [hamount]
            exact hcents'
          · rw [hcur]
            exact eventCurrency_ne hcurrency'
          · exact htype
          · rw [price_of_soldAt hsame, hid]
            exact hchained
      · have hnot : isRow user key row = false := by
          rw [← Bool.not_eq_true]
          intro hboth
          have hboth' : row.id = key ∧ row.userID = user := by simpa [isRow] using hboth
          exact hown ⟨hboth'.2.symm.trans hkey.2, hboth'.1.symm.trans hkey.1⟩
        have hupdated : updated.id = key := by
          have hisRow : isRow user key updated = true := findSubscription_isRow hfound
          have hboth : updated.id = key ∧ updated.userID = user := by simpa [isRow] using hisRow
          exact hboth.1
        refine ⟨row, ?_, hcents, hcurrency, ?_⟩
        · rw [recordChanged_rows]
          show findSubscription userID id rows = some row
          rw [hlookup, hfind, Option.map_some, if_neg (by simp [hnot])]
        · rw [recordChanged_other]
          · exact hchained
          · rw [normalizeForResponse_id, hupdated]
            exact hown

theorem Priced.write {user key : Nat} {readings : Readings}
    {prepare : Subscription → Except String (Subscription → Subscription)} {eventType : String}
    {recording : Recording} (h : Priced userID id first db)
    (hprepare : ∀ sub set, prepare sub = .ok set → KeepsPrices set)
    (htype : orDefault subscriptionEventUpdated eventType ≠ subscriptionEventCreated) :
    Priced userID id first (writeRecorded user key readings prepare eventType recording db).2 := by
  have hreconciled := h.setRows (reconcileForWrite_sameSales user key readings.reconcile db.table.rows)
  rw [writeRecorded]
  dsimp only
  generalize hrows : reconcileSubscriptionForWrite user key readings.reconcile db.table.rows = rows
    at hreconciled ⊢
  cases hfind : findSubscription user key rows with
  | none => exact hreconciled
  | some sub =>
    dsimp only
    split
    · exact hreconciled
    · rename_i set hset
      refine hreconciled.commit (hprepare _ _ hset) ?_ htype
      show (findSubscription user key rows).map Subscription.soldAt = _
      rw [hfind, Option.map_some, present_soldAt]

theorem keepsPrices_manualRenewed (date : Time) : KeepsPrices (manualRenewed date) :=
  ⟨fun _ => rfl, fun _ => rfl, fun _ h => h, fun _ h => h⟩

theorem SubscriptionUpdates.apply_soldAt (updates : SubscriptionUpdates) (row : Subscription) :
    (updates.apply row).soldAt =
    (updates.amount.getD row.amount, updates.currency.getD row.currency) := by
  unfold SubscriptionUpdates.apply
  cases updates.schedule <;> cases updates.lifecycle <;> rfl

theorem keepsPrices_apply {lookups : Lookups} {input : UpdateSubscriptionInput} {sub : Subscription}
    {now : Time} {updates : SubscriptionUpdates}
    (hupdates : subscriptionUpdates lookups input sub now = .ok updates)
    (hamount : ∀ a ∈ input.amount, IsCents a) (hcurrency : ∀ c ∈ input.currency, trimSpace c ≠ "") :
    KeepsPrices updates.apply := by
  unfold subscriptionUpdates at hupdates
  obtain ⟨categoryID, _, hupdates⟩ := bind_eq_ok hupdates
  obtain ⟨paymentMethodID, _, hupdates⟩ := bind_eq_ok hupdates
  obtain ⟨url, _, hupdates⟩ := bind_eq_ok hupdates
  obtain ⟨notifyDaysBefore, _, hupdates⟩ := bind_eq_ok hupdates
  obtain ⟨schedule, _, hupdates⟩ := bind_eq_ok hupdates
  obtain ⟨lifecycle, _, hupdates⟩ := bind_eq_ok hupdates
  have hamounts : updates.amount = input.amount := by rw [← Except.ok.inj hupdates]
  have hcurrencies : updates.currency = input.currency.map trimSpace := by rw [← Except.ok.inj hupdates]
  refine ⟨updates.apply_id, updates.apply_userID, ?_, ?_⟩
  · intro r hr
    have hset := (Prod.mk.inj (updates.apply_soldAt r)).1
    rw [hset, hamounts]
    cases h : input.amount with
    | none => exact hr
    | some a => exact hamount a h
  · intro r hr
    have hset := (Prod.mk.inj (updates.apply_soldAt r)).2
    rw [hset, hcurrencies]
    cases h : input.currency with
    | none => exact hr
    | some c =>
      show trimSpace (trimSpace c) ≠ ""
      rw [trimSpace_idem]
      exact hcurrency c h

/-! ## New rows -/

/-- What `Create` stores: a row with the next id, sold at the price of the request. -/
theorem create_ok {lookups : Lookups} {input : CreateSubscriptionInput} {now : Time}
    {table table' : SubscriptionTable} {sub : Subscription}
    (h : create lookups userID input now table = (.ok sub, table')) :
    sub.id = table.nextID ∧ sub.userID = userID ∧ table'.rows = table.rows ++ [sub] ∧
    table'.nextID = table.nextID + 1 ∧
      sub.amount = input.amount ∧
        (trimSpace input.currency ≠ "" → sub.currency = trimSpace input.currency) := by
  unfold create at h
  cases hnew : newSubscription lookups userID input now with
  | error err => simp [hnew] at h
  | ok draft =>
    have hdraft : draft.userID = userID ∧ draft.amount = input.amount ∧
        draft.currency = orDefault "USD" (trimSpace input.currency) := by
      unfold newSubscription at hnew
      obtain ⟨_, _, hnew⟩ := bind_eq_ok hnew
      obtain ⟨_, _, hnew⟩ := bind_eq_ok hnew
      obtain ⟨_, _, hnew⟩ := bind_eq_ok hnew
      obtain ⟨_, _, hnew⟩ := bind_eq_ok hnew
      obtain ⟨_, _, hnew⟩ := bind_eq_ok hnew
      obtain ⟨_, _, hnew⟩ := bind_eq_ok hnew
      obtain ⟨_, _, hnew⟩ := bind_eq_ok hnew
      obtain ⟨_, _, hnew⟩ := bind_eq_ok hnew
      rw [← Except.ok.inj hnew]
      dsimp only [syncLegacyEnabledForLifecycle]
      exact ⟨rfl, rfl, rfl⟩
    rw [hnew] at h
    dsimp only at h
    cases hinsert : insertSubscription draft table with
    | none => simp [hinsert] at h
    | some stored =>
      obtain ⟨row, table''⟩ := stored
      rw [hinsert] at h
      obtain ⟨hok, rfl⟩ := Prod.mk.inj h
      obtain rfl := Except.ok.inj hok
      unfold insertSubscription at hinsert
      dsimp only at hinsert
      split at hinsert
      · obtain ⟨rfl, rfl⟩ := Prod.mk.inj (Option.some.inj hinsert)
        refine ⟨rfl, hdraft.1, rfl, rfl, hdraft.2.1, fun hne => ?_⟩
        show orDefault "USD" draft.currency = _
        rw [hdraft.2.2, orDefault_of_ne hne, orDefault_of_ne hne]
      · cases hinsert

/-- Ids are handed out once: no row and no event has the next one. -/
def HistoryDB.Fresh (db : HistoryDB) : Prop :=
  (∀ row ∈ db.table.rows, row.id < db.table.nextID) ∧ ∀ e ∈ db.events, ∀ i ∈ e.subscriptionID,
    i < db.table.nextID

theorem HistoryDB.Fresh.no_events (h : db.Fresh) (hid : db.table.nextID ≤ id) :
    db.events.filter (isPriceEvent userID id) = [] := by
  rw [List.filter_eq_nil_iff]
  intro e he hp
  have hsub : e.subscriptionID = some id := by
    simp only [isPriceEvent, Bool.and_eq_true, decide_eq_true_eq] at hp
    exact hp.1.2
  have hlt := h.2 e he id hsub
  omega

/-- A created subscription starts its history with the price of the request. -/
theorem Priced.create {lookups : Lookups} {input : CreateSubscriptionInput} {now : Time}
    {recording : Recording} {sub : Subscription} (hfresh : db.Fresh) (hcents : IsCents input.amount)
    (hcurrency : trimSpace input.currency ≠ "")
    (h : createRecorded lookups userID input now recording db = (.ok sub, db')) :
    Priced userID sub.id (some input.amount, eventCurrency input.currency) db' ∧
    sub.id < db'.table.nextID ∧
      sub.id = db.table.nextID := by
  unfold createRecorded at h
  split at h
  · cases (Prod.mk.inj h).1
  · rename_i stored table hcreate
    obtain ⟨hid, huser, hrows, hnext, hamount, hcur⟩ := create_ok hcreate
    split at h
    · obtain ⟨hok, rfl⟩ := Prod.mk.inj h
      obtain rfl := Except.ok.inj hok
      have hsold : stored.currency = trimSpace input.currency := hcur hcurrency
      have hcurrency' : trimSpace stored.currency ≠ "" := by rw [hsold, trimSpace_idem]; exact hcurrency
      have hnone : findSubscription userID stored.id db.table.rows = none := by
        rw [findSubscription, List.find?_eq_none]
        intro row hrow heq
        have hlt := hfresh.1 row hrow
        have heq' : row.id = stored.id ∧ row.userID = userID := by simpa using heq
        omega
      have hfind : findSubscription userID stored.id table.rows = some stored := by
        rw [hrows]
        unfold findSubscription at hnone ⊢
        rw [List.find?_append, hnone]
        simp [huser]
      have hnoitems : priceItems userID stored.id db.events = [] := by
        have hfilter : db.events.filter (isPriceEvent userID stored.id) = [] :=
          hfresh.no_events (by omega)
        rw [priceItems, hfilter]
        rfl
      obtain ⟨item, hitems, hset⟩ :=
        priceItems_created recording.names userID recording.createdAt { db with table }
        (eventCurrency_ne hcurrency')
      constructor
      · refine ⟨stored, hfind, ?_, hcurrency', ?_⟩
        · rw [hamount]
          exact hcents
        · rw [hitems]
          show Chained itemFound itemSet _ _ (priceItems userID stored.id db.events ++ [item])
          have hprice : stored.price = (some input.amount, eventCurrency input.currency) := by
            rw [Subscription.price, hamount, hsold, eventCurrency, eventCurrency, trimSpace_idem]
          rw [hnoitems, List.nil_append, ← hprice, ← hset]
          exact Chained.single item
      · constructor
        · show stored.id < table.nextID
          omega
        · exact hid
    · cases (Prod.mk.inj h).1

/-- Another new row keeps a history. -/
theorem Priced.createOther {lookups : Lookups} {user : Nat} {input : CreateSubscriptionInput}
    {now : Time} {recording : Recording} (h : Priced userID id first db)
    (hknown : id < db.table.nextID) :
    Priced userID id first (createRecorded lookups user input now recording db).2 ∧
      db.table.nextID ≤ (createRecorded lookups user input now recording db).2.table.nextID := by
  unfold createRecorded
  split
  · exact ⟨h, Nat.le_refl _⟩
  · rename_i stored table hcreate
    obtain ⟨hid, -, hrows, hnext, -, -⟩ := create_ok hcreate
    split
    · refine ⟨?_, by show _ ≤ table.nextID; omega⟩
      obtain ⟨row, hfind, hcents, hcurrency, hchained⟩ := h
      refine ⟨row, ?_, hcents, hcurrency, ?_⟩
      · show findSubscription userID id table.rows = some row
        rw [hrows]
        unfold findSubscription at hfind ⊢
        rw [List.find?_append, hfind]
        rfl
      · show Chained itemFound itemSet _ _ (priceItems userID id (db.events ++ [_]))
        rw [priceItems_append, priceItems_other, List.append_nil]
        · exact hchained
        · rintro ⟨-, hsub⟩
          have hsame : stored.id = id := Option.some.inj hsub
          omega
    · exact ⟨h, Nat.le_refl _⟩

theorem commitRecorded_nextID {user key : Nat} {before : Subscription}
    {set : Subscription → Subscription} {updatedAt : Time} {eventType : String} {recording : Recording} :
    (commitRecorded user key before set updatedAt eventType recording db).2.table.nextID =
    db.table.nextID := by
  unfold commitRecorded
  split
  · rfl
  · split
    · rw [recordChanged_rows]
    · rfl

theorem writeRecorded_nextID {user key : Nat} {readings : Readings}
    {prepare : Subscription → Except String (Subscription → Subscription)} {eventType : String}
    {recording : Recording} :
    (writeRecorded user key readings prepare eventType recording db).2.table.nextID =
    db.table.nextID := by
  rw [writeRecorded]
  dsimp only
  split
  · rfl
  · split
    · rfl
    · exact commitRecorded_nextID

/-! ## The order of events -/

/-- The step adds at most one event, with the next id, at the time `createdAt`. -/
inductive Appends (createdAt : Option Time) (db db' : HistoryDB) : Prop where
  | same (h : db'.events = db.events) (hnext : db'.nextEventID = db.nextEventID)
  | one (t : Time) (event : SubscriptionEvent) (hat : createdAt = some t)
    (h : db'.events = db.events ++ [event])
      (hid : event.id = db.nextEventID) (htime : event.createdAt.nanos = t.nanos)
      (hnext : db'.nextEventID = db.nextEventID + 1)

theorem commitRecorded_appends {user key : Nat} {before : Subscription}
    {set : Subscription → Subscription} {updatedAt : Time} {eventType : String} {recording : Recording} :
    Appends (some recording.createdAt) db
    (commitRecorded user key before set updatedAt eventType recording db).2 := by
  unfold commitRecorded
  split
  · exact .same rfl rfl
  · split
    · rw [recordSubscriptionChanged]
      split
      · exact .same rfl rfl
      · exact .one recording.createdAt _ rfl rfl rfl rfl rfl
    · exact .same rfl rfl

theorem Appends.of_setRows {createdAt : Option Time} {rows : List Subscription}
    (h : Appends createdAt (db.setRows rows) db') :
    Appends createdAt db db' := by
  cases h with
  | same h hnext => exact .same h hnext
  | one t event hat h hid htime hnext => exact .one t event hat h hid htime hnext

theorem writeRecorded_appends {user key : Nat} {readings : Readings}
    {prepare : Subscription → Except String (Subscription → Subscription)} {eventType : String}
    {recording : Recording} :
    Appends (some recording.createdAt) db
    (writeRecorded user key readings prepare eventType recording db).2 := by
  rw [writeRecorded]
  dsimp only
  split
  · exact .same rfl rfl
  · split
    · exact .same rfl rfl
    · exact .of_setRows commitRecorded_appends

theorem run_appends (call : HistoryCall) : Appends call.createdAt db (call.run db) := by
  cases call with
  | create lookups user input now recording =>
    show Appends _ db (createRecorded lookups user input now recording db).2
    unfold createRecorded
    split
    · exact .same rfl rfl
    · split
      · exact .one recording.createdAt _ rfl rfl rfl rfl rfl
      · exact .same rfl rfl
  | update => exact writeRecorded_appends
  | markManualRenewed => exact writeRecorded_appends
  | reconcileForUser => exact .same rfl rfl
  | reconcileDue => exact .same rfl rfl

/-- What a run of calls keeps of a subscription. -/
structure PriceInv (userID id : Nat) (first : Option Rat × String) (s : HistoryState) : Prop where
  priced : Priced userID id first s.db
  known : id < s.db.table.nextID
  sorted : (s.db.events.filter (isPriceEvent userID id)).Pairwise eventOrder
  latest : ∀ e ∈ s.db.events.filter (isPriceEvent userID id), e.createdAt.nanos ≤ s.clock ∧
    e.id < s.db.nextEventID

/-- The order of a subscription's events is kept when the new one is the latest. -/
theorem sorted_appends {clock : Int} {createdAt : Option Time} (happends : Appends createdAt db db')
    (hclock : ∀ t ∈ createdAt, clock ≤ t.nanos)
    (hsorted : (db.events.filter (isPriceEvent userID id)).Pairwise eventOrder)
    (hlatest : ∀ e ∈ db.events.filter (isPriceEvent userID id), e.createdAt.nanos ≤ clock ∧
      e.id < db.nextEventID) : (db'.events.filter (isPriceEvent userID id)).Pairwise eventOrder ∧
      ∀ e ∈ db'.events.filter (isPriceEvent userID id),
        e.createdAt.nanos ≤ createdAt.elim clock (·.nanos) ∧ e.id < db'.nextEventID := by
  have hle : clock ≤ createdAt.elim clock (·.nanos) := by
    cases createdAt with
    | none => exact Int.le_refl _
    | some t => exact hclock t rfl
  cases happends with
  | same h hnext =>
    rw [h, hnext]
    exact ⟨hsorted, fun e he => ⟨(hlatest e he).1.trans hle, (hlatest e he).2⟩⟩
  | one t event hat h hid htime hnext =>
    have hnew : event.createdAt.nanos = createdAt.elim clock (·.nanos) := by rw [hat]; exact htime
    rw [h, hnext, List.filter_append]
    constructor
    · refine List.pairwise_append.2 ⟨hsorted, List.Pairwise.filter _ (List.pairwise_singleton _ _), ?_⟩
      intro a ha b hb
      obtain rfl := List.mem_singleton.1 (List.mem_filter.1 hb).1
      obtain ⟨hbefore, hless⟩ := hlatest a ha
      rw [eventOrder]
      omega
    · intro e he
      rcases List.mem_append.1 he with he | he
      · exact ⟨(hlatest e he).1.trans hle, by have := (hlatest e he).2; omega⟩
      · obtain rfl := List.mem_singleton.1 (List.mem_filter.1 he).1
        exact ⟨by omega, by omega⟩

theorem PriceInv.step {s : HistoryState} {call : HistoryCall} (h : PriceInv userID id first s)
    (hok : call.Allowed s) :
    PriceInv userID id first ⟨call.run s.db, call.createdAt.elim s.clock (·.nanos)⟩ := by
  have hclock : ∀ t ∈ call.createdAt, s.clock ≤ t.nanos := by
    intro t ht
    cases call with
    | create => exact Option.some.inj ht ▸ hok.2.2
    | update => exact Option.some.inj ht ▸ hok.2.2
    | markManualRenewed => exact Option.some.inj ht ▸ hok
    | reconcileForUser => cases ht
    | reconcileDue => cases ht
  have hupdated : orDefault subscriptionEventUpdated subscriptionEventUpdated ≠
      subscriptionEventCreated := by decide
  have hrenewed : orDefault subscriptionEventUpdated subscriptionEventManualRenewed ≠
      subscriptionEventCreated := by decide
  have hrows : Priced userID id first (call.run s.db) ∧ id < (call.run s.db).table.nextID := by
    cases call with
    | create lookups user input now recording =>
      obtain ⟨hpriced, hnext⟩ := h.priced.createOther h.known
      rw [HistoryCall.run]
      exact ⟨hpriced, Nat.lt_of_lt_of_le h.known hnext⟩
    | update lookups user key input readings recording =>
      obtain ⟨hamount, hcurrency, -⟩ := hok
      rw [HistoryCall.run, updateRecorded]
      refine ⟨h.priced.write (fun sub set hset => ?_) hupdated,
        lt_of_lt_of_eq h.known writeRecorded_nextID.symm⟩
      obtain ⟨updates, hupdates, rfl⟩ := map_eq_ok hset
      exact keepsPrices_apply hupdates hamount hcurrency
    | markManualRenewed user key readings recording =>
      rw [HistoryCall.run, markManualRenewedRecorded]
      refine ⟨h.priced.write (fun sub set hset => ?_) hrenewed,
        lt_of_lt_of_eq h.known writeRecorded_nextID.symm⟩
      obtain ⟨date, -, rfl⟩ := map_eq_ok hset
      exact keepsPrices_manualRenewed date
    | reconcileForUser user now =>
      exact ⟨h.priced.setRows (reconcileForUser_sameSales user now _), h.known⟩
    | reconcileDue now => exact ⟨h.priced.setRows (reconcileDue_sameSales now _), h.known⟩
  obtain ⟨hsorted, hlatest⟩ := sorted_appends (run_appends call) hclock h.sorted h.latest
  exact ⟨hrows.1, hrows.2, hsorted, hlatest⟩

/-- The query gives the events in the order they were made in. -/
theorem PriceInv.history {s : HistoryState} (h : PriceInv userID id first s) :
    subscriptionDetailPriceHistory userID id s.db = priceItems userID id s.db.events := by
  rw [subscriptionDetailPriceHistory, h.sorted.insertionSort_eq]
  rfl

end Steps

/-- The price history is a chain. A subscription that `Create` makes has after every later run of
`Create`, `Update`, `MarkManualRenewed` and lifecycle sweeps, on it and on others, a price history
whose first item is set to the price of the request, in which every later item found the price the
item before it set, and whose last item's price is that of the row. -/
theorem price_history_chained {s t : HistoryState} {lookups : Lookups} {userID : Nat}
    {input : CreateSubscriptionInput} {now : Time} {recording : Recording} {sub : Subscription}
    {db : HistoryDB} (hfresh : s.db.Fresh)
    (hallowed : HistoryCall.Allowed s (.create lookups userID input now recording))
    (hcreated : createRecorded lookups userID input now recording s.db = (.ok sub, db))
    (hrun : Path historyStep (fun s call => call.Allowed s) ⟨db, recording.createdAt.nanos⟩ t)
    (updatedAt readAt : Time) :
    ∃ row history, findSubscription userID sub.id t.db.table.rows = some row ∧
      getDetail userID sub.id updatedAt readAt t.db = .ok
        (presentSubscriptionForResponse row updatedAt readAt, history) ∧
      history.head?.map itemSet = some (some input.amount, eventCurrency input.currency) ∧
      history.IsChain (fun a b => itemFound b = itemSet a) ∧
      history.getLast?.map itemSet = some (some row.amount, eventCurrency row.currency) := by
  obtain ⟨hcents, hcurrency, hclock⟩ := hallowed
  obtain ⟨hpriced, hknown, hid⟩ := Priced.create hfresh hcents hcurrency hcreated
  have hstart : PriceInv userID sub.id (some input.amount, eventCurrency input.currency)
      ⟨db, recording.createdAt.nanos⟩ := by
    have happends : Appends (some recording.createdAt) s.db
        (createRecorded lookups userID input now recording s.db).2 :=
      run_appends (.create lookups userID input now recording)
    rw [hcreated] at happends
    have hnone : s.db.events.filter (isPriceEvent userID sub.id) = [] := hfresh.no_events (by omega)
    have hold : (s.db.events.filter (isPriceEvent userID sub.id)).Pairwise eventOrder := by
      rw [hnone]
      exact List.Pairwise.nil
    obtain ⟨hsorted, hlatest⟩ :=
      sorted_appends happends (fun t ht => Option.some.inj ht ▸ hclock) hold (by simp [hnone])
    exact ⟨hpriced, hknown, hsorted, hlatest⟩
  have hend := hrun.invariant (PriceInv userID sub.id (some input.amount, eventCurrency input.currency))
    (fun s call s' h hok hstep => Option.some.inj hstep ▸ h.step hok) hstart
  obtain ⟨row, hfind, -, -, hchained⟩ := hend.priced
  refine ⟨row, _, hfind, ?_, hchained.head, hchained.links, hchained.last⟩
  rw [getDetail, hfind, hend.history]

/-! ## A run -/

def historyInput : CreateSubscriptionInput where
  name := "Music"
  amount := 999 / 100
  currency := " eur "
  status := ""
  renewalMode := ""
  endsAt := ""
  billingType := "recurring"
  recurrenceType := "interval"
  intervalCount := some 1
  intervalUnit := "month"
  nextBillingDate := "2025-01-31"
  monthlyDay := none
  yearlyMonth := none
  yearlyDay := none
  category := ""
  categoryID := none
  paymentMethodID := none
  notifyEnabled := none
  notifyDaysBefore := none
  icon := ""
  url := ""
  notes := ""

def historyLookups : Lookups := ⟨fun _ => none, fun _ => false, fun _ => false⟩

/-- Events without link names, recorded `n` nanoseconds after the epoch. -/
def recordingAt (n : Int) : Recording := ⟨⟨fun _ _ => none, fun _ _ => none⟩, ⟨n, 0⟩, true⟩

def emptyHistory : HistoryState := ⟨⟨⟨[], 1⟩, [], 1⟩, 0⟩

/-- A new price, and then a sweep. -/
def historyCalls : List HistoryCall :=
  [.update historyLookups 1 1 { amount := some 12, currency := some "usd" }
   ⟨⟨0, 0⟩, ⟨0, 0⟩, ⟨0, 0⟩, ⟨0, 0⟩, ⟨0, 0⟩⟩ (recordingAt 7), .reconcileDue (midnight 30000)]

theorem price_history_chained_sample :
    ∃ t detail, exec historyStep (fun s call => call.Allowed s)
        ⟨(createRecorded historyLookups 1 historyInput ⟨0, 0⟩ (recordingAt 5) emptyHistory.db).2, 5⟩
          historyCalls = some t ∧
      getDetail 1 1 ⟨0, 0⟩ ⟨0, 0⟩ t.db = .ok detail ∧ detail.2.head?.map itemSet = some
        (some (999 / 100), "EUR") ∧
      detail.2.IsChain fun a b => itemFound b = itemSet a := by
  have hid : (createRecorded historyLookups 1 historyInput ⟨0, 0⟩
      (recordingAt 5) emptyHistory.db).1.toOption.map (·.id) = some 1 := by
    decide +kernel
  have hrun : (exec historyStep (fun s call => call.Allowed s)
      ⟨(createRecorded historyLookups 1 historyInput ⟨0, 0⟩ (recordingAt 5) emptyHistory.db).2, 5⟩
        historyCalls).isSome = true := by
    decide +kernel
  obtain ⟨t, ht⟩ := Option.isSome_iff_exists.1 hrun
  cases hcreated : createRecorded historyLookups 1 historyInput ⟨0, 0⟩
    (recordingAt 5) emptyHistory.db with
  | mk result db =>
    rw [hcreated] at hid ht
    cases result with
    | error err => cases hid
    | ok sub =>
      have hsub : sub.id = 1 := Option.some.inj hid
      obtain ⟨row, history, -, hdetail, hhead, hchain, -⟩ :=
        price_history_chained (s := emptyHistory) ⟨by decide, by decide⟩
        (by decide +kernel) hcreated (Path.of_exec ht) ⟨0, 0⟩ ⟨0, 0⟩
      rw [hsub] at hdetail
      have hcurrency : eventCurrency historyInput.currency = "EUR" := by decide +kernel
      rw [hcurrency] at hhead
      exact ⟨t, _, ht, hdetail, hhead, hchain⟩

end Subdux
