import Subdux.Import
import Subdux.Scheduler
/-!
# Importing a Subdux export

The whole of `ImportFromSubdux` (`internal/service/import_subdux.go`), as a preview and
as a confirmed run. The collections of the file go through one loop, `importItem`: what
the loop needs of an item of each kind is its `Prepared` form. The subscriptions have
their own loop, whose confirmed form is `importSubscription`.

A row is kept apart from its primary key, and a table lists its rows in the order of
their keys. The JSON package, the cipher, the URL parser and the checks of a channel's
config and of a template are parameters.
-/

namespace Subdux
open GoStrings

/-! ## Tables -/

structure Row (α : Type) where
  id : Nat
  columns : α
  deriving DecidableEq

structure Table (α : Type) where
  rows : List (Row α)
  nextID : Nat
  deriving DecidableEq

/-- `tx.Create` on a table with unique indexes. -/
def Table.insert {α : Type} (conflict : α → α → Bool) (columns : α) (table : Table α) :
    Option (Table α) :=
  if table.rows.any fun row => conflict columns row.columns then none
  else some ⟨table.rows ++ [⟨table.nextID, columns⟩], table.nextID + 1⟩

namespace ImportService

structure UserCurrency where
  userID : Nat
  code : String
  symbol : String
  aliasName : String
  sortOrder : Int
  deriving DecidableEq

/-- The columns that categories and payment methods share; `sortOrder` is the
`display_order` of a category. -/
structure Named (δ : Type) where
  userID : Nat
  name : String
  systemKey : Option String
  nameCustomized : Bool
  sortOrder : Int
  icon : δ
  deriving DecidableEq

abbrev Category := Named Unit
abbrev PaymentMethod := Named String

structure NotificationChannel where
  userID : Nat
  type : String
  enabled : Bool
  config : String
  deriving DecidableEq

structure NotificationTemplate where
  userID : Nat
  channelType : Option String
  format : String
  template : String
  deriving DecidableEq

structure UserPreference where
  userID : Nat
  preferredCurrency : String
  deriving DecidableEq

/-- The tables that an import reads and writes. -/
@[ext]
structure ImportDB where
  currencies : Table UserCurrency
  categories : Table Category
  paymentMethods : Table PaymentMethod
  channels : Table NotificationChannel
  templates : Table NotificationTemplate
  subscriptions : SubscriptionTable
  preferences : List UserPreference
  policies : List NotificationPolicy

/-! ## The file -/

structure SubduxImportData where
  secretsIncluded : Option Bool
  currencies : Option (List UserCurrency)
  categories : Option (List (Row Category))
  paymentMethods : Option (List (Row PaymentMethod))
  subscriptions : Option (List Subscription)
  preference : Option UserPreference
  channels : List NotificationChannel
  templates : List NotificationTemplate
  policy : Option NotificationPolicy

def maxSubduxImportItemsPerCollection : Nat := 5000

def errInvalidSubduxImportFormat : String := "invalid subdux export format"
def errSubduxImportTooLarge : String := "subdux export file is too large"

def validateSubduxImportData (data : SubduxImportData) : Except String Unit :=
  if data.currencies.isNone || data.categories.isNone || data.paymentMethods.isNone ||
    data.subscriptions.isNone then
    .error errInvalidSubduxImportFormat
  else if [(data.currencies.getD []).length, (data.categories.getD []).length,
    (data.paymentMethods.getD []).length,
      (data.subscriptions.getD []).length, data.channels.length, data.templates.length].any
        (maxSubduxImportItemsPerCollection < ·) then
    .error errSubduxImportTooLarge
  else .ok ()

/-! ## What an import finds outside the tables -/

/-- `marshal` and `unmarshal` are those of `encoding/json` for a value of any type. There
is no `sealer` when no key can be had. -/
structure ImportEnv (Nonce Value : Type) where
  parseURL : String → Option ParsedURL
  sealer : Option (Nonce → String → String)
  opener : String → Option String
  unmarshal : String → Option Value
  marshal : Value → Option String
  isRedactedNotificationChannelConfig : String → String → Bool
  validateChannelConfig : String → String → Except String Unit
  validateTemplate : String → Except String Unit

/-- The clock and the random numbers where a loop reaches its `k`-th item. -/
structure ImportReadings (Nonce : Type) where
  nonce : Nat → Nonce
  nowUTC : Nat → Time
  now : Nat → Time

section Env
variable {Nonce Value : Type}

def settingsEncryptedPrefix : String := "enc:v1:"

/-- `strings.CutPrefix`. -/
def cutPrefix (s start : String) : Option String :=
  if start.toList.isPrefixOf s.toList then some (String.ofList (s.toList.drop start.toList.length))
    else none

def encryptNotificationChannelConfig (env : ImportEnv Nonce Value) (nonce : Nonce)
    (value : String) : Option String :=
  if value = "" then some "" else env.sealer.map fun sealed =>
    settingsEncryptedPrefix ++ sealed nonce value

def decryptNotificationChannelConfig (env : ImportEnv Nonce Value) (value : String) : Option String :=
  match cutPrefix value settingsEncryptedPrefix with
  | none => some value
  | some payload => env.opener payload

def canonicalChannelConfig (env : ImportEnv Nonce Value) (config : String) : String :=
  let trimmed := trimSpace ((decryptNotificationChannelConfig env config).getD config)
  if trimmed = "" then ""
  else
    match env.unmarshal trimmed with
    | none => trimmed
    | some parsed => (env.marshal parsed).getD trimmed

end Env

/-! ## The loop -/

inductive SubduxImportError where
  | create (what name err : String)
  | encrypt (channelType : String)
  | unsupportedChannelType (channelType : String)
  | invalidChannelConfig (channelType err : String)
  | unsupportedTemplateChannelType (channelType : String)
  | invalidTemplateFormat (format : String)
  | invalidTemplate (err : String)
  | subscription (err : ImportError)
  | policyDaysBefore
  deriving DecidableEq

structure ImportResult where
  imported : Nat
  skipped : Nat
  errors : List SubduxImportError

def ImportResult.add (r s : ImportResult) : ImportResult :=
  ⟨r.imported + s.imported, r.skipped + s.skipped, r.errors ++ s.errors⟩

/-- An item that is passed over before its key is looked at: whether it counts as
skipped, and the error that is recorded. -/
structure Refusal where
  counted : Bool
  error : Option SubduxImportError

/-- What the loop needs of an item. -/
structure Prepared (α χ : Type) where
  key : String
  /-- The primary key in the file, where links to it are followed. -/
  sourceID : Nat
  /-- The look-ups for the row that it is, in the order they are made. -/
  queries : List (α → Bool)
  /-- What the preview shows, given the row that was found. -/
  shown : Option α → χ
  create : Except SubduxImportError α
  refused : SubduxImportError

structure Change (χ : Type) where
  isNew : Bool
  shown : χ
  deriving DecidableEq

structure LoopState (α χ : Type) where
  table : Table α
  seen : List String
  /-- The newest entry is first. -/
  idMap : List (Nat × Nat)
  changes : List (Change χ)
  result : ImportResult

section Loop
variable {α χ : Type}

def Prepared.find (item : Prepared α χ) (rows : List (Row α)) : Option (Row α) :=
  item.queries.findSome? fun query => rows.find? fun row => query row.columns

def LoopState.count (st : LoopState α χ) (result : ImportResult) : LoopState α χ :=
  { st with result := st.result.add result }

def LoopState.link (st : LoopState α χ) (sourceID id : Nat) : LoopState α χ :=
  if sourceID ≠ 0 then { st with idMap := (sourceID, id) :: st.idMap } else st

def importItem (confirm : Bool) (conflict : α → α → Bool) (st : LoopState α χ) :
    Except Refusal (Prepared α χ) → LoopState α χ
  | .error refusal =>
    if confirm then st.count ⟨0, refusal.counted.toNat, refusal.error.toList⟩ else st
  | .ok item =>
    if st.seen.contains item.key then st
    else
      let existing := item.find st.table.rows
      let st := { st with
        seen := item.key :: st.seen
        changes := st.changes ++ [⟨existing.isNone, item.shown (existing.map (·.columns))⟩] }
      let st := existing.elim st fun row => st.link item.sourceID row.id
      if !confirm then st
      else if existing.isSome then st.count ⟨0, 1, []⟩
      else
        match item.create with
        | .error err => st.count ⟨0, 0, [err]⟩
        | .ok columns =>
          match st.table.insert conflict columns with
          | none => st.count ⟨0, 0, [item.refused]⟩
          | some table =>
            ({ st with table := table }.link item.sourceID st.table.nextID).count ⟨1, 0, []⟩

def importItems (confirm : Bool) (conflict : α → α → Bool) (table : Table α)
    (items : List (Except Refusal (Prepared α χ))) :
    LoopState α χ :=
  items.foldl (importItem confirm conflict) ⟨table, [], [], [], ⟨0, 0, []⟩⟩

end Loop

/-! ## Currencies -/

/-- The unique index `idx_user_currency`. -/
def currencyConflict (new row : UserCurrency) : Bool := new.userID = row.userID ∧ new.code = row.code

structure PreviewCurrencyChange where
  code : String
  symbol : String

def errUniqueFailed : String := "UNIQUE constraint failed"

def prepareCurrency (userID : Nat) (incoming : UserCurrency) :
    Except Refusal (Prepared UserCurrency PreviewCurrencyChange) :=
  let code := toUpper (trimSpace incoming.code)
  if code = "" then .error ⟨false, none⟩
  else .ok {
    key := code
    sourceID := 0
    queries := [fun row => row.userID = userID ∧ row.code = code]
    shown := fun _ => ⟨code, trimSpace incoming.symbol⟩
    create :=
      .ok ⟨userID, code, trimSpace incoming.symbol, trimSpace incoming.aliasName, incoming.sortOrder⟩
    refused := .create "currency" code errUniqueFailed }

/-! ## Categories and payment methods -/

/-- SQLite's `LOWER`. -/
def sqlLower (s : String) : String :=
  String.ofList (s.toList.map fun c => if 'A' ≤ c ∧ c ≤ 'Z' then Char.ofNat (c.toNat + 32) else c)

/-- The condition of both name look-ups, `LOWER(name) = ?`. -/
def isNamed {δ : Type} (userID : Nat) (name : String) (row : Named δ) : Bool :=
  row.userID = userID ∧ sqlLower row.name = toLower name

/-- The unique indexes on the user's names and system keys. -/
def namedConflict {δ : Type} (new row : Named δ) : Bool :=
  new.userID = row.userID ∧
    (new.name = row.name ∨ (new.systemKey.isSome ∧ new.systemKey = row.systemKey))

/-- The trimmed system key, unless it is blank. -/
def givenSystemKey {δ : Type} (incoming : Named δ) : Option String :=
  (incoming.systemKey.map trimSpace).filter (· ≠ "")

/-- The look-ups of `findCategoryBySystemKeyOrName` and its sibling. -/
def findBySystemKeyOrName {δ : Type} (userID : Nat) (incoming : Named δ) : List (Named δ → Bool) :=
  ((givenSystemKey incoming).map fun key (row : Named δ) =>
    decide (row.userID = userID ∧ row.systemKey = some key)).toList ++
    if trimSpace incoming.name = "" then [] else [isNamed userID (trimSpace incoming.name)]

def namedKey {δ : Type} (incoming : Named δ) : String :=
  match givenSystemKey incoming with
  | none => toLower (trimSpace incoming.name)
  | some key => "system:" ++ toLower key

/-- The body that both loops share. -/
def prepareNamed {δ χ : Type} (what : String) (shown : String → Option (Named δ) → χ) (userID : Nat)
    (incoming : Row (Named δ)) :
    Except Refusal (Prepared (Named δ) χ) :=
  let name := trimSpace incoming.columns.name
  if name = "" then .error ⟨true, none⟩
  else .ok {
    key := namedKey incoming.columns
    sourceID := incoming.id
    queries := findBySystemKeyOrName userID incoming.columns
    shown := shown name
    create := .ok { incoming.columns with userID := userID, name := name }
    refused := .create what name errUniqueFailed }

structure PreviewCategoryChange where
  name : String
  deriving DecidableEq

structure PreviewPaymentMethodChange where
  name : String
  matched : String
  deriving DecidableEq

def prepareCategory (userID : Nat) :
    Row Category → Except Refusal (Prepared Category PreviewCategoryChange) :=
  prepareNamed "category" (fun name _ => ⟨name⟩) userID

def preparePaymentMethod (userID : Nat) :
    Row PaymentMethod → Except Refusal (Prepared PaymentMethod PreviewPaymentMethodChange) :=
  prepareNamed "payment method" (fun name existing => ⟨name, existing.elim "" (·.name)⟩) userID

/-! ## Notification channels -/

def isValidChannelType (t : String) : Bool :=
  t ∈ ["smtp", "resend", "telegram", "webhook", "gotify", "ntfy", "bark", "serverchan", "feishu",
    "wecom", "dingtalk", "pushdeer",
    "pushplus", "pushover", "napcat"]

structure PreviewChannelChange where
  type : String
  config : String

section Channels
variable {Nonce Value : Type}

def prepareChannel (env : ImportEnv Nonce Value) (secretsRedacted : Bool) (userID : Nat)
    (incoming : NotificationChannel) (nonce : Nonce) :
    Except Refusal (Prepared NotificationChannel PreviewChannelChange) :=
  let channelType := lowerTrimmed incoming.type
  let canonicalConfig := canonicalChannelConfig env incoming.config
  if channelType = "" then .error ⟨true, none⟩
  else if !isValidChannelType channelType then .error ⟨true, some (.unsupportedChannelType channelType)⟩
  else if secretsRedacted && env.isRedactedNotificationChannelConfig channelType canonicalConfig
    then .error ⟨true, none⟩
  else
    match env.validateChannelConfig channelType canonicalConfig with
    | .error err => .error ⟨true, some (.invalidChannelConfig channelType err)⟩
    | .ok () => .ok {
        key := toLower channelType ++ "|" ++ canonicalConfig
        sourceID := 0
        queries := [fun row => row.userID = userID ∧ row.type = channelType ∧
          canonicalChannelConfig env row.config = canonicalConfig]
        shown := fun _ => ⟨channelType, canonicalConfig⟩
        create :=
          match encryptNotificationChannelConfig env nonce canonicalConfig with
          | none => .error (.encrypt channelType)
          | some encryptedConfig => .ok ⟨userID, channelType, incoming.enabled, encryptedConfig⟩
        refused := .create "notification channel" channelType errUniqueFailed }

end Channels

/-! ## Notification templates -/

structure PreviewTemplateChange where
  channelType : String
  format : String

def validateFormat (format : String) : Bool := format ∈ ["plaintext", "markdown", "html"]

def templateKey (template : NotificationTemplate) : String :=
  "|".intercalate [toLower ((template.channelType.map trimSpace).getD ""), lowerTrimmed template.format,
    trimSpace template.template]

section Templates
variable {Nonce Value : Type}

def prepareTemplate (env : ImportEnv Nonce Value) (userID : Nat) (incoming : NotificationTemplate) :
    Except Refusal (Prepared NotificationTemplate PreviewTemplateChange) :=
  let templateText := trimSpace incoming.template
  let channelTypeVal := (incoming.channelType.map trimSpace).filter (· ≠ "")
  let format := orDefault "plaintext" (lowerTrimmed incoming.format)
  if templateText = "" then .error ⟨true, none⟩
  else if channelTypeVal.any fun t => !isValidChannelType t then
    .error ⟨true, some (.unsupportedTemplateChannelType (channelTypeVal.getD ""))⟩
  else if !validateFormat format then .error ⟨true, some (.invalidTemplateFormat format)⟩
  else
    match env.validateTemplate templateText with
    | .error err => .error ⟨true, some (.invalidTemplate err)⟩
    | .ok () => .ok {
        key := templateKey ⟨0, channelTypeVal, format, templateText⟩
        sourceID := 0
        queries := [fun row => row.userID = userID ∧ row.format = format ∧ row.template = templateText ∧
          row.channelType = channelTypeVal]
        shown := fun _ => ⟨channelTypeVal.getD "", format⟩
        create := .ok ⟨userID, channelTypeVal, format, templateText⟩
        refused := .create "notification template" "" errUniqueFailed }

end Templates

/-! ## Subscriptions -/

structure PreviewSubscriptionChange where
  name : String
  amount : Rat
  currency : String
  billingType : String
  category : String
  skipped : Bool
  skipReason : String
  deriving DecidableEq

/-- The item with its texts normalized. -/
def trimmedSubscription (incoming : Subscription) : Subscription :=
  { incoming with
    name := trimSpace incoming.name
    currency := toUpper (trimSpace incoming.currency)
    billingType := lowerTrimmed incoming.billingType
    recurrenceType := lowerTrimmed incoming.recurrenceType
    intervalUnit := lowerTrimmed incoming.intervalUnit
    category := trimSpace incoming.category }

def billingOf (incoming : Subscription) : Except String (BillingDraft × Time) :=
  normalizeBillingDraft
    { incoming.billing with nextBillingDate := copyTimePointer incoming.nextBillingDate }

/-- The item with its schedule normalized as well, where it can be. -/
def normalizedSubscription (incoming : Subscription) : Subscription :=
  let incoming := trimmedSubscription incoming
  match billingOf incoming with
  | .error _ => incoming
  | .ok (draft, nextBillingDate) =>
    incoming.setSchedule (some { draft with nextBillingDate := copyTimePointer (some nextBillingDate) })

def isSupported (incoming : Subscription) : Bool := (billingOf (trimmedSubscription incoming)).isOk

/-- The loop of a preview: the keys that were seen, and the changes. -/
def previewSubscription (userID : Nat) (rows : List Subscription)
    (st : List String × List PreviewSubscriptionChange) (incoming : Subscription) :
    List String × List PreviewSubscriptionChange :=
  if trimSpace incoming.name = "" then st
  else
    let supported := isSupported incoming
    let incoming := normalizedSubscription incoming
    let isDuplicate := st.1.contains (importDedupKey incoming) || subscriptionExists userID incoming rows
    (importDedupKey incoming :: st.1, st.2 ++ [{
      name := incoming.name
      amount := incoming.amount
      currency := incoming.currency
      billingType := incoming.billingType
      category := incoming.category
      skipped := isDuplicate || !supported
      skipReason := if !supported then "unsupported_billing_type" else if isDuplicate
        then "duplicate" else "" }])

def previewSubscriptions (userID : Nat) (rows : List Subscription) (data : List Subscription) :
    List String × List PreviewSubscriptionChange :=
  data.foldl (previewSubscription userID rows) ([], [])

/-! ## The preference and the policy -/

inductive Outcome (α : Type) where
  | absent
  | refused
  | create (row : α)
  | update (row : α)
  | same

/-- What `data.Preference` asks for. -/
def preferenceOutcome (userID : Nat) (data : SubduxImportData) (db : ImportDB) :
    Outcome UserPreference :=
  match data.preference with
  | none => .absent
  | some preference =>
    let incomingCurrency := toUpper (trimSpace preference.preferredCurrency)
    if incomingCurrency = "" then .absent
    else
      match db.preferences.find? (·.userID = userID) with
      | none => .create ⟨userID, incomingCurrency⟩
      | some existing =>
        if existing.preferredCurrency ≠ incomingCurrency then .update ⟨userID, incomingCurrency⟩
          else .same

/-- What `data.Notifications.Policy` asks for. -/
def policyOutcome (userID : Nat) (data : SubduxImportData) (db : ImportDB) :
    Outcome NotificationPolicy :=
  match data.policy with
  | none => .absent
  | some incoming =>
    if incoming.daysBefore < 0 ∨ maxNotificationDaysBefore < incoming.daysBefore then .refused
    else
      match db.policies.find? (·.userID = userID) with
      | none => .create { incoming with userID := userID }
      | some existing =>
        if existing.daysBefore ≠ incoming.daysBefore ∨
          existing.notifyOnDueDay ≠ incoming.notifyOnDueDay ∨
            existing.notifyManualRenewDaily ≠ incoming.notifyManualRenewDaily then
          .update { incoming with userID := userID }
        else .same

/-- The table after it; there is one row for a user. -/
def Outcome.apply {α : Type} (ofUser : α → Bool) : Outcome α → List α → List α
  | .create row, rows => rows ++ [row]
  | .update row, rows => Rows.updateWhere ofUser (fun _ => row) rows
  | _, rows => rows

def Outcome.result {α : Type} : Outcome α → ImportResult
  | .absent => ⟨0, 0, []⟩
  | .refused => ⟨0, 1, [.policyDaysBefore]⟩
  | .create _ | .update _ => ⟨1, 0, []⟩
  | .same => ⟨0, 1, []⟩

/-! ## The import -/

structure SubduxImportPreview where
  currencies : List (Change PreviewCurrencyChange)
  paymentMethods : List (Change PreviewPaymentMethodChange)
  categories : List (Change PreviewCategoryChange)
  subscriptions : List PreviewSubscriptionChange
  channels : List (Change PreviewChannelChange)
  templates : List (Change PreviewTemplateChange)
  preference : Outcome UserPreference
  policy : Outcome NotificationPolicy

inductive SubduxImportResponse where
  | preview (preview : SubduxImportPreview)
  | result (result : ImportResult)

section Import
variable {Nonce Value : Type}

def importCurrencies (userID : Nat) (confirm : Bool) (db : ImportDB) (items : List UserCurrency) :
    LoopState UserCurrency PreviewCurrencyChange :=
  importItems confirm currencyConflict db.currencies (items.map (prepareCurrency userID))

def importCategories (userID : Nat) (confirm : Bool) (db : ImportDB) (items : List (Row Category)) :
    LoopState Category PreviewCategoryChange :=
  importItems confirm namedConflict db.categories (items.map (prepareCategory userID))

def importPaymentMethods (userID : Nat) (confirm : Bool) (db : ImportDB)
    (items : List (Row PaymentMethod)) :
    LoopState PaymentMethod PreviewPaymentMethodChange :=
  importItems confirm namedConflict db.paymentMethods (items.map (preparePaymentMethod userID))

def importChannels (env : ImportEnv Nonce Value) (readings : ImportReadings Nonce)
    (secretsRedacted : Bool) (userID : Nat) (confirm : Bool) (db : ImportDB)
    (items : List NotificationChannel) : LoopState NotificationChannel PreviewChannelChange :=
  importItems confirm (fun _ _ => false) db.channels
    (items.zipIdx.map fun (incoming, k) => prepareChannel env secretsRedacted userID incoming
      (readings.nonce k))

def importTemplates (env : ImportEnv Nonce Value) (userID : Nat) (confirm : Bool) (db : ImportDB)
    (items : List NotificationTemplate) : LoopState NotificationTemplate PreviewTemplateChange :=
  importItems confirm (fun _ _ => false) db.templates (items.map (prepareTemplate env userID))

/-- The maps that the first loops have filled, and the categories as they are then. -/
def importLookups (env : ImportEnv Nonce Value) (userID : Nat) (db : ImportDB)
    (data : SubduxImportData) : ImportLookups :=
  let categories := importCategories userID true db (data.categories.getD [])
  let paymentMethods := importPaymentMethods userID true db (data.paymentMethods.getD [])
  { parseURL := env.parseURL
    categoryIDMap := fun id => categories.idMap.lookup id
    paymentMethodIDMap := fun id => paymentMethods.idMap.lookup id
    categoryByName := fun name =>
      (categories.table.rows.find? fun row => row.columns.userID = userID ∧
        sqlLower row.columns.name = name).map (·.id) }

def importSubscriptions (env : ImportEnv Nonce Value) (readings : ImportReadings Nonce)
    (userID : Nat) (db : ImportDB) (data : SubduxImportData) (items : List Subscription) : ImportState :=
  importFromSubdux (importLookups env userID db data) userID
    (items.zipIdx.map fun (incoming, k) => ⟨incoming, readings.nowUTC k, readings.now k⟩)
      db.subscriptions

def subduxImportSecretsRedacted (data : SubduxImportData) : Bool := data.secretsIncluded = some false

/-- `ImportFromSubdux`. A preview is rolled back. -/
def importFromSubdux (env : ImportEnv Nonce Value) (readings : ImportReadings Nonce) (userID : Nat)
    (data : SubduxImportData) (confirm : Bool) (db : ImportDB) :
    Except String (SubduxImportResponse × ImportDB) :=
  match validateSubduxImportData data with
  | .error err => .error err
  | .ok () =>
    let currencies := importCurrencies userID confirm db (data.currencies.getD [])
    let categories := importCategories userID confirm db (data.categories.getD [])
    let paymentMethods := importPaymentMethods userID confirm db (data.paymentMethods.getD [])
    let channels :=
      importChannels env readings (subduxImportSecretsRedacted data) userID confirm db data.channels
    let templates := importTemplates env userID confirm db data.templates
    let preference := preferenceOutcome userID data db
    let policy := policyOutcome userID data db
    if confirm then
      let subscriptions := importSubscriptions env readings userID db data (data.subscriptions.getD [])
      let results :=
        [currencies.result, categories.result, paymentMethods.result, channels.result, templates.result,
        ⟨subscriptions.imported, subscriptions.skipped, subscriptions.errors.map .subscription⟩,
          preference.result,
        policy.result]
      .ok (.result (results.foldl .add ⟨0, 0, []⟩), {
        currencies := currencies.table
        categories := categories.table
        paymentMethods := paymentMethods.table
        channels := channels.table
        templates := templates.table
        subscriptions := subscriptions.table
        preferences := preference.apply (·.userID = userID) db.preferences
        policies := policy.apply (·.userID = userID) db.policies })
    else
      let subscriptions := previewSubscriptions userID db.subscriptions.rows (data.subscriptions.getD [])
      .ok (.preview {
        currencies := currencies.changes
        paymentMethods := paymentMethods.changes
        categories := categories.changes
        subscriptions := subscriptions.2
        channels := channels.changes
        templates := templates.changes
        preference := preference
        policy := policy }, db)

end Import

end ImportService

end Subdux
