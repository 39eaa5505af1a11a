import Subdux.Crud
import Subdux.Lib.Binary64
/-!
# Importing subscriptions

The subscriptions of a confirmed `ImportFromSubdux` (`internal/service/import_subdux.go`).
The categories and payment methods of the file were imported before, and the maps
from their old ids are arguments.
-/

namespace Subdux
open GoStrings

/-- What the loop finds outside the table. -/
structure ImportLookups where
  parseURL : String → Option ParsedURL
  categoryIDMap : Nat → Option Nat
  paymentMethodIDMap : Nat → Option Nat
  /-- The category of the user whose lower-cased name this is. -/
  categoryByName : String → Option Nat

/-- A row of the file, and the clock where the loop reaches it. -/
structure ImportRow where
  incoming : Subscription
  nowUTC : Time
  now : Time

inductive ImportError where
  | unsupported (name err : String)
  | lifecycle (name err : String)
  | url (name err : String)
  | create (name err : String)
  deriving DecidableEq

structure ImportState where
  table : SubscriptionTable
  seen : List String
  imported : Nat
  skipped : Nat
  errors : List ImportError

/-! ## Duplicates -/

/-- `fmt.Sprintf("%f", q)`, where a zero may have a sign. -/
def formatFloat (q : Rat) (negativeZero : Bool) : String :=
  let micros := Binary64.roundHalfEven (|q| * 1000000)
  (if q < 0 ∨ q = 0 ∧ negativeZero then "-" else "") ++ toString (micros / 1000000) ++ "." ++
    zeroPadded 6 (micros % 1000000)

example : formatFloat (1999 / 100) false = "19.990000" ∧ formatFloat 0 true = "-0.000000" := by
  decide +kernel

def ptrIntSignature : Option Int → String
  | none => "nil"
  | some value => toString value

def recurrenceSignature (sub : Subscription) : String :=
  "|".intercalate [lowerTrimmed sub.recurrenceType, lowerTrimmed sub.intervalUnit,
    ptrIntSignature sub.intervalCount,
    ptrIntSignature sub.monthlyDay, ptrIntSignature sub.yearlyMonth, ptrIntSignature sub.yearlyDay]

def importDedupKey (incoming : Subscription) : String :=
  "|".intercalate [toLower incoming.name, formatFloat incoming.amount incoming.negativeZero,
    toUpper incoming.currency, toLower incoming.billingType, recurrenceSignature incoming]

def subscriptionExists (userID : Nat) (sub : Subscription) (rows : List Subscription) : Bool :=
  rows.any fun row =>
    row.userID = userID ∧ row.name = trimSpace sub.name ∧ row.amount = sub.amount ∧
      row.currency = trimSpace sub.currency ∧
      row.billingType = trimSpace sub.billingType ∧ row.recurrenceType = trimSpace sub.recurrenceType ∧
      row.intervalUnit = trimSpace sub.intervalUnit ∧ row.intervalCount = sub.intervalCount ∧
      row.monthlyDay = sub.monthlyDay ∧ row.yearlyMonth = sub.yearlyMonth ∧ row.yearlyDay = sub.yearlyDay

/-! ## The loop -/

/-- A row that is not a duplicate and whose schedule is normalized. -/
def importNew (lookups : ImportLookups) (userID : Nat) (row : ImportRow) (incoming : Subscription)
    (st : ImportState) :
    ImportState :=
  let byName := if incoming.category ≠ "" then lookups.categoryByName (toLower incoming.category)
    else none
  let categoryID := (incoming.categoryID.bind lookups.categoryIDMap).or byName
  let paymentMethodID := incoming.paymentMethodID.bind lookups.paymentMethodIDMap
  let lifecycle :=
    if !isValidSubscriptionStatus (normalizeStatus incoming.status) ∨
        !isValidRenewalMode (normalizeRenewalMode incoming.renewalMode) then
      deriveLegacyLifecycle incoming.enabled incoming.nextBillingDate incoming.endsAt row.nowUTC
    else ⟨incoming.status, incoming.renewalMode, copyTimePointer incoming.endsAt⟩
  match normalizeLifecycleDraft lifecycle incoming.nextBillingDate row.now with
  | .error err => { st with errors := st.errors ++ [.lifecycle incoming.name err] }
  | .ok lifecycle =>
    match normalizeSubscriptionURL lookups.parseURL incoming.url with
    | .error err =>
      { st with errors := st.errors ++ [.url incoming.name err], skipped := st.skipped + 1 }
    | .ok subscriptionURL =>
      let created := syncLegacyEnabledForLifecycle { incoming with
        id := 0
        userID := userID
        enabled := false
        status := lifecycle.status
        renewalMode := lifecycle.renewalMode
        endsAt := copyTimePointer lifecycle.endsAt
        categoryID := categoryID
        paymentMethodID := paymentMethodID
        url := subscriptionURL }
      match insertSubscription created st.table with
      | none => { st with errors := st.errors ++ [.create incoming.name errConstraintFailed] }
      | some (_, table) => { st with table := table, imported := st.imported + 1 }

def importSubscription (lookups : ImportLookups) (userID : Nat) (st : ImportState)
    (row : ImportRow) : ImportState :=
  let name := trimSpace row.incoming.name
  if name = "" then { st with skipped := st.skipped + 1 }
  else
    let incoming := { row.incoming with
      name := name
      currency := toUpper (trimSpace row.incoming.currency)
      billingType := lowerTrimmed row.incoming.billingType
      recurrenceType := lowerTrimmed row.incoming.recurrenceType
      intervalUnit := lowerTrimmed row.incoming.intervalUnit
      category := trimSpace row.incoming.category }
    match normalizeBillingDraft
      { incoming.billing with nextBillingDate := copyTimePointer incoming.nextBillingDate } with
    | .error err =>
      let isDuplicate :=
        st.seen.contains (importDedupKey incoming) || subscriptionExists userID incoming st.table.rows
      { st with
        seen := importDedupKey incoming :: st.seen
        errors := st.errors ++ [.unsupported incoming.name err]
        skipped := st.skipped + 1 + if isDuplicate then 1 else 0 }
    | .ok (draft, nextBillingDate) =>
      let incoming :=
        incoming.setSchedule
          (some { draft with nextBillingDate := copyTimePointer (some nextBillingDate) })
      let isDuplicate :=
        st.seen.contains (importDedupKey incoming) || subscriptionExists userID incoming st.table.rows
      let st := { st with seen := importDedupKey incoming :: st.seen }
      if isDuplicate then { st with skipped := st.skipped + 1 }
        else importNew lookups userID row incoming st

def importFromSubdux (lookups : ImportLookups) (userID : Nat) (data : List ImportRow)
    (table : SubscriptionTable) : ImportState :=
  data.foldl (importSubscription lookups userID) ⟨table, [], 0, 0, []⟩

end Subdux
