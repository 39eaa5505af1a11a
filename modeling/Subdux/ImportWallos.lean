import Mathlib.Data.List.Infix
import Mathlib.Data.List.Sort
import Subdux.Import
/-!
# Importing from Wallos

The confirmed `ImportFromWallos` of `internal/service/import_wallos.go`: reading the price,
the payment cycle and the dates of an item, and the loop that inserts what is not a
duplicate. The categories and payment methods that the loop finds or creates on the way
are arguments, and so is the order in which Go ranges over `currencySymbols`.
-/

namespace Subdux.Wallos
open GoStrings

/-! ## Prices -/

/-- The symbols and the codes each may stand for. -/
def currencySymbols : List (String × List String) := [
  ("€", ["EUR"]), ("£", ["GBP"]), ("₩", ["KRW"]), ("₹", ["INR"]), ("₽", ["RUB"]),
  ("₺", ["TRY"]), ("₴", ["UAH"]), ("₫", ["VND"]), ("₱", ["PHP"]), ("₿", ["BTC"]),
  ("฿", ["THB"]), ("₪", ["ILS"]), ("zł", ["PLN"]), ("Kč", ["CZK"]),
  ("¥", ["CNY", "JPY"]), ("￥", ["CNY", "JPY"]),
  ("$", ["USD", "CAD", "AUD", "NZD", "HKD", "SGD", "TWD", "MXN"]),
  ("kr", ["SEK", "NOK", "DKK", "ISK"]),
  ("Fr", ["CHF"]),
  ("RM", ["MYR"]), ("Rp", ["IDR"]), ("Rs", ["INR", "PKR", "LKR", "NPR"]),
  ("DH", ["MAD"]), ("DA", ["DZD"]), ("DT", ["TND"]), ("LD", ["LYD"]),
  ("R$", ["BRL"]), ("S$", ["SGD"]), ("A$", ["AUD"]), ("C$", ["CAD"]),
  ("NZ$", ["NZD"]), ("HK$", ["HKD"]), ("NT$", ["TWD"]), ("MX$", ["MXN"])]

def noShorter (a b : String × List String) : Prop := b.1.utf8ByteSize ≤ a.1.utf8ByteSize

/-- The symbols by length in bytes, longest first; the map is ranged over in any order and
the sort is not stable. -/
structure SymbolOrder where
  entries : List (String × List String)
  perm : entries.Perm currencySymbols
  sorted : entries.Pairwise noShorter

instance : DecidableRel noShorter := fun a b => Nat.decLe b.1.utf8ByteSize a.1.utf8ByteSize
instance : Std.Total noShorter := ⟨fun a b => Nat.le_total b.1.utf8ByteSize a.1.utf8ByteSize⟩
instance : IsTrans _ noShorter := ⟨fun _ _ _ hab hbc => Nat.le_trans hbc hab⟩

instance : Inhabited SymbolOrder :=
  ⟨currencySymbols.insertionSort noShorter, List.perm_insertionSort .., List.pairwise_insertionSort ..⟩

def knownCurrencies : List String := [
  "USD", "EUR", "GBP", "JPY", "CNY", "AUD", "CAD", "CHF", "HKD", "SGD",
  "SEK", "NOK", "DKK", "NZD", "MXN", "BRL", "INR", "RUB", "ZAR", "KRW",
  "TRY", "PLN", "THB", "IDR", "MYR", "PHP", "CZK", "HUF", "RON", "BGN",
  "HRK", "ISK", "ILS", "AED", "SAR", "QAR", "KWD", "BHD", "OMR", "JOD",
  "EGP", "NGN", "KES", "GHS", "MAD", "TND", "DZD", "LYD", "PKR", "BDT",
  "LKR", "NPR", "MMK", "VND", "TWD", "CLP", "COP", "PEN", "ARS", "UYU"]

/-- `strings.Contains`. -/
def contains (s text : String) : Bool := text.toList <:+: s.toList

/-- `resolveAmbiguous`, for the candidates of the table, of which there is always one. -/
def resolveAmbiguous (candidates : List String) (preferredCurrency : String) : String :=
  (candidates.find? (· = preferredCurrency)).getD (candidates.headD "")

/-- `currencyRe.FindString`: the first three capitals in a row. -/
def findCode : List Char → Option String
  | a :: b :: c :: rest =>
    if a.isUpper && b.isUpper && c.isUpper then some (String.ofList [a, b, c])
      else findCode (b :: c :: rest)
  | _ => none

def digitsNat (digits : List Char) : Nat := digits.foldl (fun n c => 10 * n + (c.toNat - '0'.toNat)) 0

/-- `strconv.ParseFloat`, for a text of digits, dots and minus signs: the nearest number,
and an error where that is infinite. -/
def parseFloat (cs : List Char) : Option Binary64 :=
  let (negative, cs) := match cs with
    | '-' :: rest => (true, rest)
    | _ => (false, cs)
  let whole := cs.takeWhile (·.isDigit)
  let fraction := match cs.dropWhile (·.isDigit) with
    | [] => some []
    | c :: rest => if c = '.' && rest.all (·.isDigit) then some rest else none
  fraction.bind fun fraction =>
    if whole = [] ∧ fraction = [] then none
    else Binary64.ofRat negative (digitsNat (whole ++ fraction) / 10 ^ fraction.length)

example : (parseFloat "12.50".toList).map (·.value) = some (25 / 2) ∧
    parseFloat "1-2".toList = none := by decide +kernel

/-- The code that a price names, by a symbol or else by its letters. -/
def currencyOf (symbols : SymbolOrder) (price preferredCurrency : String) : String :=
  match symbols.entries.find? fun entry => contains price entry.1 with
  | some entry => resolveAmbiguous entry.2 preferredCurrency
  | none =>
    let upper := toUpper price
    ((knownCurrencies.find? (contains upper)).or (findCode upper.toList)).getD
      (orDefault "USD" preferredCurrency)

def extractCurrencyAndAmount (symbols : SymbolOrder) (price preferredCurrency : String) :
    Binary64 × String :=
  let cleaned := price.toList.filter fun c => c.isDigit || c = '.' || c = '-'
  ((parseFloat cleaned).getD Binary64.zero, currencyOf symbols price preferredCurrency)

/-- `fmt.Sprintf("%v", x)`: the shortest digits, with an exponent where it is below -4 or
from 6 on. -/
def formatAmount (x : Binary64) : String :=
  let (n, last) := Binary64.shortest x.magnitude
  let digits := Nat.toDigits 10 n
  let exponent : Int := digits.length - 1 + last
  let digits := digits.rdropWhile (· = '0')
  let point := (exponent + 1).toNat
  let text :=
    if n = 0 then "0"
    else if exponent < -4 || 6 ≤ exponent then
      String.ofList (digits.take 1) ++
        (if digits.length ≤ 1 then "" else "." ++ String.ofList (digits.drop 1)) ++ "e" ++
        (if exponent < 0 then "-" else "+") ++ zeroPadded 2 exponent.natAbs
    else if exponent < 0 then "0." ++ String.ofList (List.replicate (exponent.natAbs - 1) '0' ++ digits)
    else
      String.ofList ((digits.take point).rightpad point '0') ++
        (if digits.length ≤ point then "" else "." ++ String.ofList (digits.drop point))
  (if x.negative then "-" else "") ++ text

example : ["12.50", "1200", "0.05", "1234567", "-0", "0.10000000000000000001"].map
    (fun s => (parseFloat s.toList).map formatAmount) =
    [some "12.5", some "1200", some "0.05", some "1.234567e+06", some "-0", some "0.1"] := by
  decide +kernel

/-! ## Cycles and dates -/

/-- A letter of a pattern under `(?i)`: besides the capital, the Kelvin sign is a `k` and
the long `ſ` an `s`. -/
def foldsTo (letter c : Char) : Bool :=
  c = letter || c = letter.toUpper || (letter = 'k' && c = 'K') || (letter = 's' && c = 'ſ')

/-- The text after a word of the pattern. -/
def stripFold : List Char → List Char → Option (List Char)
  | [], cs => some cs
  | letter :: word, c :: cs => if foldsTo letter c then stripFold word cs else none
  | _ :: _, [] => none

/-- `strings.EqualFold` with a word of small letters and blanks. -/
def equalFold (word s : String) : Bool := stripFold word.toList s.toList = some []

/-- `\s` of a pattern. -/
def isPatternSpace (c : Char) : Bool := c ∈ ['\t', '\n', '\x0c', '\r', ' ']

/-- `everyNRe`: the number and the unit of a text such as "Every 3 Months". -/
def everyN (cycle : String) : Option (Nat × String) :=
  (stripFold "every".toList cycle.toList).bind fun rest =>
    let number := rest.dropWhile isPatternSpace
    let unit := number.dropWhile (·.isDigit)
    let word := unit.dropWhile isPatternSpace
    if rest.head?.all (!isPatternSpace ·) || number.head?.all (!·.isDigit) || unit.head?.all
      (!isPatternSpace ·) then none
    else
      (["day", "week", "month", "year"].find? fun name =>
          (stripFold name.toList word).any fun tail => tail = [] || stripFold ['s'] tail = some []).map
        fun name => (digitsNat (number.takeWhile (·.isDigit)), name)

/-- What `strconv.Atoi` returns for digits, its error being ignored. -/
def atoiDigits (n : Nat) : Int := min n (2 ^ 63 - 1)

structure Cycle where
  billingType : String
  recurrenceType : String
  intervalUnit : String
  intervalCount : Int
  deriving DecidableEq

def everyCycle (unit : String) (count : Int) : Cycle :=
  ⟨billingTypeRecurring, recurrenceTypeInterval, unit, count⟩

def mapPaymentCycle (cycle : String) : Cycle :=
  let lower := lowerTrimmed cycle
  if lower = "monthly" then everyCycle "month" 1
  else if lower = "yearly" ∨ lower = "annual" then everyCycle "year" 1
  else if lower = "weekly" then everyCycle "week" 1
  else if lower = "daily" then everyCycle "day" 1
  else if lower = "biweekly" ∨ lower = "bi-weekly" then everyCycle "week" 2
  else if lower = "quarterly" then everyCycle "month" 3
  else if lower = "semiannual" ∨ lower = "semi-annual" then everyCycle "month" 6
  else
    match everyN cycle with
    | none => ⟨"", "", "", 0⟩
    | some (n, unit) => if 0 < atoiDigits n then everyCycle unit (atoiDigits n) else ⟨"", "", "", 0⟩

example : mapPaymentCycle "Every 3 Months" = everyCycle "month" 3 := by decide +kernel

/-- The date of a year, a month and a day in digits. -/
def dateOfDigits (year month day : List Char) : Option Time :=
  match digitsValue year, digitsValue month, digitsValue day with
  | some year, some month, some day =>
    if 1 ≤ month ∧ month ≤ 12 ∧ 1 ≤ day ∧ day ≤ daysInMonth year month
      then some (dateUTC year month day) else none
  | _, _, _ => none

/-- `dateFormats`, each as `time.Parse` reads it. -/
def dateFormats : List (List Char → Option Time) := [
  fun
    | [y₁, y₂, y₃, y₄, '-', m₁, m₂, '-', d₁, d₂] => dateOfDigits [y₁, y₂, y₃, y₄] [m₁, m₂] [d₁, d₂]
    | _ => none,
  fun
    | [m₁, m₂, '/', d₁, d₂, '/', y₁, y₂, y₃, y₄] => dateOfDigits [y₁, y₂, y₃, y₄] [m₁, m₂] [d₁, d₂]
    | _ => none,
  fun
    | [y₁, y₂, y₃, y₄, '/', m₁, m₂, '/', d₁, d₂] => dateOfDigits [y₁, y₂, y₃, y₄] [m₁, m₂] [d₁, d₂]
    | _ => none,
  fun
    | [d₁, d₂, '-', m₁, m₂, '-', y₁, y₂, y₃, y₄] => dateOfDigits [y₁, y₂, y₃, y₄] [m₁, m₂] [d₁, d₂]
    | _ => none]

def parseDate (s : String) : Option Time :=
  let trimmed := trimSpace s
  if trimmed = "" then none else dateFormats.findSome? fun layout => layout trimmed.toList

def parseEnabled (s : String) : Bool := lowerTrimmed s ∈ ["enabled", "yes", "1", "true"]

/-! ## The loop -/

structure WallosSubscription where
  name : String
  paymentCycle : String
  nextPayment : String
  category : String
  paymentMethod : String
  price : String
  notes : String
  url : String
  notifications : String
  active : String

def wallosPaymentMethods : List String := [
  "PayPal", "Credit Card", "Bank Transfer", "Direct Debit", "Money", "Google Pay", "Samsung Pay",
    "Apple Pay",
  "Crypto", "Klarna", "Amazon Pay", "SEPA", "Skrill", "Sofort", "Stripe", "Affirm", "AliPay", "Elo",
    "Facebook Pay",
  "GiroPay", "iDeal", "Union Pay", "Interac", "WeChat", "Paysafe", "Poli", "Qiwi", "ShopPay",
    "Venmo", "VeriFone",
  "WebMoney"]

/-- What the loop finds outside the table, or creates there: the ids of a category and of a
payment method by name. -/
structure WallosLookups where
  parseURL : String → Option ParsedURL
  preferredCurrency : String
  categoryID : String → Option Nat
  paymentMethodID : String → Option Nat

/-- An item, with the order of the symbols and the clock where the loop reaches it. -/
structure WallosRow where
  item : WallosSubscription
  symbols : SymbolOrder
  nowUTC : Time
  now : Time

inductive WallosError where
  | emptyName
  | url (name err : String)
  | lifecycle (name err : String)
  | create (name err : String)
  deriving DecidableEq

structure WallosState where
  table : SubscriptionTable
  seen : List String
  imported : Nat
  skipped : Nat
  errors : List WallosError

def maxWallosImportItems : Nat := 5000

def errWallosImportTooLarge : String := "wallos import file is too large"

/-- The row of an item whose cycle is supported, before its lifecycle columns are known. -/
def wallosSubscription (lookups : WallosLookups) (userID : Nat) (row : WallosRow)
    (subscriptionURL : String) (lifecycle : LifecycleDraft) : Subscription :=
  let (amount, currency) := extractCurrencyAndAmount row.symbols row.item.price lookups.preferredCurrency
  let cycle := mapPaymentCycle row.item.paymentCycle
  let category :=
    if equalFold "no category" (trimSpace row.item.category) then "" else trimSpace row.item.category
  let method := trimSpace row.item.paymentMethod
  syncLegacyEnabledForLifecycle
    { id := 0
      userID := userID
      name := trimSpace row.item.name
      amount := amount.value
      currency := currency
      enabled := false
      status := lifecycle.status
      renewalMode := lifecycle.renewalMode
      endsAt := copyTimePointer lifecycle.endsAt
      billingType := cycle.billingType
      recurrenceType := cycle.recurrenceType
      intervalCount := some cycle.intervalCount
      intervalUnit := cycle.intervalUnit
      monthlyDay := none
      yearlyMonth := none
      yearlyDay := none
      nextBillingDate := parseDate row.item.nextPayment
      category := category
      categoryID := if category = "" then none else lookups.categoryID category
      paymentMethodID := if method ∈ wallosPaymentMethods then lookups.paymentMethodID method else none
      notifyEnabled := some (parseEnabled row.item.notifications)
      notifyDaysBefore := none
      icon := ""
      url := subscriptionURL
      notes := row.item.notes }

def wallosExists (userID : Nat) (name : String) (amount : Rat) (currency billingType : String)
    (rows : List Subscription) : Bool :=
  rows.any fun row =>
    row.userID = userID ∧ row.name = name ∧ row.amount = amount ∧ row.currency = currency ∧
      row.billingType = billingType

/-- An item that is neither a duplicate nor of an unsupported cycle. -/
def importNewItem (lookups : WallosLookups) (userID : Nat) (row : WallosRow) (st : WallosState) :
    WallosState :=
  let name := trimSpace row.item.name
  match normalizeSubscriptionURL lookups.parseURL row.item.url with
  | .error err => { st with errors := st.errors ++ [.url name err], skipped := st.skipped + 1 }
  | .ok subscriptionURL =>
    let nextBilling := parseDate row.item.nextPayment
    let lifecycle := deriveLegacyLifecycle (parseEnabled row.item.active) nextBilling none row.nowUTC
    match normalizeLifecycleDraft lifecycle nextBilling row.now with
    | .error err => { st with errors := st.errors ++ [.lifecycle name err] }
    | .ok lifecycle =>
      match insertSubscription
        (wallosSubscription lookups userID row subscriptionURL lifecycle) st.table with
      | none => { st with errors := st.errors ++ [.create name errConstraintFailed] }
      | some (_, table) => { st with table := table, imported := st.imported + 1 }

def importItem (lookups : WallosLookups) (userID : Nat) (st : WallosState) (row : WallosRow) :
    WallosState :=
  let name := trimSpace row.item.name
  if name = "" then { st with errors := st.errors ++ [.emptyName], skipped := st.skipped + 1 }
  else
    let (amount, currency) :=
      extractCurrencyAndAmount row.symbols row.item.price lookups.preferredCurrency
    let cycle := mapPaymentCycle row.item.paymentCycle
    let dedupKey := "|".intercalate [name, formatAmount amount, currency, cycle.billingType]
    let isDuplicate :=
      st.seen.contains dedupKey || wallosExists userID name amount.value currency cycle.billingType
        st.table.rows
    let st := { st with seen := dedupKey :: st.seen }
    if isDuplicate ∨ cycle.billingType ≠ billingTypeRecurring then { st with skipped := st.skipped + 1 }
    else importNewItem lookups userID row st

def importFromWallos (lookups : WallosLookups) (userID : Nat) (data : List WallosRow)
    (table : SubscriptionTable) :
    Except String WallosState :=
  if maxWallosImportItems < data.length then .error errWallosImportTooLarge
  else .ok (data.foldl (importItem lookups userID) ⟨table, [], 0, 0, []⟩)

end Subdux.Wallos
