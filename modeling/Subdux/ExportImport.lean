import Mathlib.Data.List.Pairwise
import Subdux.ImportLinks
import Subdux.ImportStored
/-!
# Exporting an account and importing it again

`ExportUserData` (`internal/service/export.go`), and when a confirmed import of its file
into an account without rows restores the subscriptions (`restores_iff`).

A query without an order returns its rows in an order that the database chooses
(`QueryOrder`). The removal of secrets from a channel's config is a parameter.
-/

namespace Subdux.ImportService
open GoStrings Upserts

/-! ## The code -/

structure User where
  id : Nat
  username : String
  email : String

structure QueryOrder (α : Type) where
  arrange : List α → List α
  perm : ∀ rows, (arrange rows).Perm rows

structure QueryOrders where
  subscriptions : QueryOrder Subscription
  categories : QueryOrder (Row Category)
  paymentMethods : QueryOrder (Row PaymentMethod)
  currencies : QueryOrder (Row UserCurrency)
  channels : QueryOrder (Row NotificationChannel)
  templates : QueryOrder (Row NotificationTemplate)

structure UserExportData where
  exportedAt : Time
  secretsIncluded : Bool
  user : User
  subscriptions : List Subscription
  categories : List (Row Category)
  paymentMethods : List (Row PaymentMethod)
  currencies : List (Row UserCurrency)
  preference : Option UserPreference
  channels : List (Row NotificationChannel)
  policy : Option NotificationPolicy
  templates : List (Row NotificationTemplate)

inductive ExportError where
  | userNotFound
  | decrypt
  deriving DecidableEq

section Export
variable {Nonce Value : Type}

def exportChannel (env : ImportEnv Nonce Value)
    (sanitizeNotificationConfig : String → String → String) (includeSecrets : Bool)
    (channel : Row NotificationChannel) : Except ExportError (Row NotificationChannel) :=
  match decryptNotificationChannelConfig env channel.columns.config with
  | none => .error .decrypt
  | some config =>
    let config :=
      if includeSecrets then config else sanitizeNotificationConfig channel.columns.type config
    .ok { channel with columns := { channel.columns with config := config } }

def exportUserData (env : ImportEnv Nonce Value)
    (sanitizeNotificationConfig : String → String → String) (orders : QueryOrders)
    (users : List User) (db : ImportDB) (userID : Nat) (includeSecrets : Bool) (now : Time) :
    Except ExportError UserExportData :=
  match users.find? (·.id = userID) with
  | none => .error .userNotFound
  | some user =>
    let channels := orders.channels.arrange (db.channels.rows.filter (·.columns.userID = userID))
    match channels.mapM (exportChannel env sanitizeNotificationConfig includeSecrets) with
    | .error err => .error err
    | .ok channels => .ok {
        exportedAt := now
        secretsIncluded := includeSecrets
        user := user
        subscriptions := orders.subscriptions.arrange (db.subscriptions.rows.filter (·.userID = userID))
        categories := orders.categories.arrange (db.categories.rows.filter (·.columns.userID = userID))
        paymentMethods :=
          orders.paymentMethods.arrange (db.paymentMethods.rows.filter (·.columns.userID = userID))
        currencies := orders.currencies.arrange (db.currencies.rows.filter (·.columns.userID = userID))
        preference := db.preferences.find? (·.userID = userID)
        channels := channels
        policy := db.policies.find? (·.userID = userID)
        templates := orders.templates.arrange (db.templates.rows.filter (·.columns.userID = userID)) }

/-- What an import reads of the file. -/
def UserExportData.toImport (data : UserExportData) : SubduxImportData where
  secretsIncluded := some data.secretsIncluded
  currencies := some (data.currencies.map (·.columns))
  categories := some data.categories
  paymentMethods := some data.paymentMethods
  subscriptions := some data.subscriptions
  preference := data.preference
  channels := data.channels.map (·.columns)
  templates := data.templates.map (·.columns)
  policy := data.policy

end Export

/-! ## What is restored -/

/-- No table has a row of the user. -/
structure FreshAccount (userID : Nat) (db : ImportDB) : Prop where
  currencies : ∀ row ∈ db.currencies.rows, row.columns.userID ≠ userID
  categories : ∀ row ∈ db.categories.rows, row.columns.userID ≠ userID
  paymentMethods : ∀ row ∈ db.paymentMethods.rows, row.columns.userID ≠ userID
  channels : ∀ row ∈ db.channels.rows, row.columns.userID ≠ userID
  templates : ∀ row ∈ db.templates.rows, row.columns.userID ≠ userID
  subscriptions : ∀ row ∈ db.subscriptions.rows, row.userID ≠ userID
  preferences : ∀ row ∈ db.preferences, row.userID ≠ userID
  policies : ∀ row ∈ db.policies, row.userID ≠ userID

/-- A table of categories or payment methods: its keys, and names that `Create` allows. -/
structure NamedTableAllowed {δ : Type} (owner : Nat) (rows : List (Row (Named δ))) : Prop where
  ids : (rows.map (·.id)).Nodup
  positive : ∀ row ∈ rows, row.id ≠ 0
  trimmed : ∀ row ∈ rows, row.columns.userID = owner →
    trimSpace row.columns.name = row.columns.name ∧ row.columns.name ≠ ""
  distinct : rows.Pairwise fun r s => namedConflict r.columns s.columns = false

/-- An account whose export is looked at. -/
structure AccountAllowed (userID : Nat) (db : ImportDB) : Prop where
  categories : NamedTableAllowed userID db.categories.rows
  paymentMethods : NamedTableAllowed userID db.paymentMethods.rows
  checks : ∀ sub ∈ db.subscriptions.rows, sub.meetsChecks = true
  zeros : ∀ sub ∈ db.subscriptions.rows, sub.negativeZero = false
  accepted : ∀ sub ∈ db.subscriptions.rows, sub.userID = userID → ∃ result,
    normalizeBillingDraft sub.billing = .ok result
  distinct : ((db.subscriptions.rows.filter (·.userID = userID)).map fun sub =>
    importDedupKey (normalizedSubscription sub)).Nodup

/-- A row that stands for a subscription of another account. -/
structure Reproduces (source : ImportDB) (owner : Nat) (sub : Subscription) (target : ImportDB)
    (userID : Nat) (row : Subscription) :
    Prop where
  user : row.userID = userID
  name : row.name = sub.name
  amount : row.amount = sub.amount
  currency : row.currency = sub.currency
  billing : row.billing = sub.billing
  lifecycle : row.lifecycle = sub.lifecycle
  category : linkedName target.categories.rows userID row.categoryID =
    linkedName source.categories.rows owner sub.categoryID
  paymentMethod : linkedName target.paymentMethods.rows userID row.paymentMethodID =
    linkedName source.paymentMethods.rows owner sub.paymentMethodID

/-- A confirmed import of the file reproduces every subscription of the account. -/
def Restores {Nonce Value : Type} (env : ImportEnv Nonce Value) (readings : ImportReadings Nonce)
    (source : ImportDB) (owner : Nat) (data : UserExportData) (target : ImportDB)
    (userID : Nat) : Prop :=
  ∃ result target', importFromSubdux env readings userID data.toImport true target = .ok
    (.result result, target') ∧
    ∀ sub ∈ source.subscriptions.rows, sub.userID = owner →
      ∃ row ∈ target'.subscriptions.rows, Reproduces source owner sub target' userID row

/-- What an import leaves as it is. -/
structure SubscriptionKept (parseURL : String → Option ParsedURL) (data : UserExportData)
    (sub : Subscription) : Prop where
  name : trimSpace sub.name = sub.name ∧ sub.name ≠ ""
  currency : toUpper (trimSpace sub.currency) = sub.currency ∧ sub.currency ≠ ""
  schedule : ∃ date, normalizeBillingDraft sub.billing = .ok (sub.billing, date)
  lifecycle : ∀ now, normalizeLifecycleDraft sub.lifecycle sub.nextBillingDate now = .ok sub.lifecycle
  url : (normalizeSubscriptionURL parseURL sub.url).isOk = true
  category : ∀ c ∈ data.categories, sub.categoryID = some c.id →
    c.columns ∈ keptNamed (data.categories.map (·.columns))
  label : (∀ c ∈ data.categories, sub.categoryID ≠ some c.id) → trimSpace sub.category = "" ∨
    ∀ d ∈ keptNamed (data.categories.map (·.columns)), sqlLower d.name ≠ toLower (trimSpace sub.category)
  paymentMethod : ∀ m ∈ data.paymentMethods, sub.paymentMethodID = some m.id →
    m.columns ∈ keptNamed (data.paymentMethods.map (·.columns))

/-! ## Links -/

section Links
variable {δ χ : Type} {owner userID : Nat} {what : String} {shown : String → Option (Named δ) → χ}
  {rows items : List (Row (Named δ))}
  {table : Table (Named δ)}

theorem namedConflict_comm (c d : Named δ) : namedConflict c d = namedConflict d c := by
  refine decide_eq_decide.2 (and_congr eq_comm (or_congr eq_comm ⟨?_, ?_⟩)) <;>
  · rintro ⟨hsome, hkey⟩
    exact ⟨hkey ▸ hsome, hkey.symm⟩

/-- Two rows of one account do not share a name. -/
theorem NamesAllowed.eq_of_name {names : List (Named δ)} (h : NamesAllowed owner names)
    {c d : Named δ} (hc : c ∈ names) (hd : d ∈ names) (hname : c.name = d.name) : c = d := by
  have hsymm : Std.Symm fun c d : Named δ => namedConflict c d = false :=
    ⟨fun c d hcd => by rw [namedConflict_comm, hcd]⟩
  by_contra hne
  have hconflict := h.distinct.forall hc hd hne
  have howner : c.userID = d.userID := (h.owner c hc).trans (h.owner d hd).symm
  exact of_decide_eq_false hconflict ⟨howner, .inl hname⟩

/-- The user's rows, as they are exported. -/
theorem NamedTableAllowed.exported (h : NamedTableAllowed owner rows)
    (hitems : items.Perm (rows.filter (·.columns.userID = owner))) :
    NamesAllowed owner (items.map (·.columns)) ∧ (items.map (·.id)).Nodup ∧ ∀ c ∈ items, c.id ≠ 0 := by
  have hmem : ∀ c ∈ items, c ∈ rows ∧ c.columns.userID = owner := fun c hc => by
    simpa using List.mem_filter.1 (hitems.mem_iff.1 hc)
  refine ⟨⟨?_, ?_, ?_⟩, ?_, fun c hc => h.positive c (hmem c hc).1⟩
  · intro d hd
    obtain ⟨c, hc, rfl⟩ := List.mem_map.1 hd
    exact (hmem c hc).2
  · intro d hd
    obtain ⟨c, hc, rfl⟩ := List.mem_map.1 hd
    exact h.trimmed c (hmem c hc).1 (hmem c hc).2
  · rw [List.pairwise_map]
    refine (hitems.pairwise_iff fun hcd => ?_).2 (h.distinct.sublist List.filter_sublist)
    rw [namedConflict_comm]
    exact hcd
  · exact (hitems.map _).nodup_iff.2 (h.ids.sublist (List.filter_sublist.map _))

/-- What a link of the account is exported as. -/
theorem linkedName_source (h : NamedTableAllowed owner rows)
    (hitems : items.Perm (rows.filter (·.columns.userID = owner))) {c : Row (Named δ)}
    (hc : c ∈ items) : linkedName rows owner (some c.id) = some c.columns.name := by
  obtain ⟨hrow, howner⟩ : c ∈ rows ∧ c.columns.userID = owner := by
    simpa using List.mem_filter.1 (hitems.mem_iff.1 hc)
  rw [linkedName, Option.bind_some]
  cases hfind : rows.find? fun row => decide (row.id = c.id ∧ row.columns.userID = owner) with
  | none => exact absurd (decide_eq_true ⟨rfl, howner⟩) (List.find?_eq_none.1 hfind c hrow)
  | some found =>
    have hp := List.find?_some hfind
    rw [Option.map_some, List.inj_on_of_nodup_map h.ids (List.mem_of_find?_eq_some hfind) hrow
      (decide_eq_true_iff.1 hp).1]

theorem linkedName_source_none (hitems : items.Perm (rows.filter (·.columns.userID = owner)))
    {id : Option Nat} (hid : ∀ c ∈ items, id ≠ some c.id) : linkedName rows owner id = none := by
  cases id with
  | none => rfl
  | some id =>
    rw [linkedName, Option.bind_some, Option.map_eq_none_iff, List.find?_eq_none]
    intro row hrow hfound
    obtain ⟨rfl, howner⟩ := decide_eq_true_iff.1 hfound
    exact hid row (hitems.mem_iff.2 (List.mem_filter.2 ⟨hrow, decide_eq_true howner⟩)) rfl

/-- A link is restored if and only if its row is kept, or there is none and the import
makes none. -/
theorem link_restored_iff (h : NamedTableAllowed owner rows)
    (hitems : items.Perm (rows.filter (·.columns.userID = owner)))
    (hold : ∀ row ∈ table.rows, row.columns.userID ≠ userID) (id fallback : Option Nat) :
    let st := namedState what shown userID table items
    linkedName st.table.rows userID
      ((id.bind fun id => st.idMap.lookup id).or fallback) = linkedName rows owner id ↔
      (∀ c ∈ items, id = some c.id → c.columns ∈ keptNamed (items.map (·.columns))) ∧
        ((∀ c ∈ items, id ≠ some c.id) → linkedName st.table.rows userID fallback = none) := by
  dsimp only
  obtain ⟨hnames, hids, hpositive⟩ := h.exported hitems
  by_cases hlinked : ∃ c ∈ items, id = some c.id
  · obtain ⟨c, hc, rfl⟩ := hlinked
    have honly : ∀ d ∈ items, some c.id = some d.id → d = c := fun d hd hid =>
      List.inj_on_of_nodup_map hids hd hc (Option.some.inj hid).symm
    rw [linkedName_source h hitems hc, Option.bind_some]
    constructor
    · intro hrestored
      refine ⟨fun d hd hid => ?_, fun hnone => absurd rfl (hnone c hc)⟩
      obtain rfl := honly d hd hid
      obtain ⟨e, he, hname⟩ := linkedName_mem hnames hold hrestored
      rw [← hnames.eq_of_name (keptNamed_subset _ he) (List.mem_map_of_mem hd) hname]
      exact he
    · rintro ⟨hkept, -⟩
      obtain ⟨id, hlookup, -⟩ : ∃ id,
          (namedState what shown userID table items).idMap.lookup c.id = some id ∧ _ :=
        named_linked hnames hids hpositive hold hc (hkept c hc rfl)
      have hname : linkedName (namedState what shown userID table items).table.rows userID _ = _ :=
        linkedName_kept hnames hids hpositive hold hc (hkept c hc rfl)
      rw [hlookup] at hname ⊢
      exact hname
  · simp only [not_exists, not_and] at hlinked
    have hlookup : (id.bind fun id => (namedState what shown userID table items).idMap.lookup id) =
        none := by
      cases id with
      | none => rfl
      | some id => exact namedState_lookup hnames fun c hc heq => hlinked c hc (heq ▸ rfl)
    rw [hlookup, linkedName_source_none hitems hlinked, Option.none_or]
    exact ⟨fun hnone => ⟨fun c hc hid => absurd hid (hlinked c hc), fun _ => hnone⟩, fun hboth =>
      hboth.2 hlinked⟩

end Links

/-! ## Subscriptions -/

section Subscriptions
variable {sub incoming row : Subscription} {userID : Nat} {result : BillingDraft × Time}

theorem normalizedSubscription_columns (incoming : Subscription) :
    (normalizedSubscription incoming).amount = incoming.amount ∧
    (normalizedSubscription incoming).status = incoming.status ∧
      (normalizedSubscription incoming).renewalMode = incoming.renewalMode ∧
        (normalizedSubscription incoming).endsAt = incoming.endsAt ∧
        (normalizedSubscription incoming).category = trimSpace incoming.category ∧
          (normalizedSubscription incoming).categoryID = incoming.categoryID ∧
            (normalizedSubscription incoming).paymentMethodID = incoming.paymentMethodID ∧
              (normalizedSubscription incoming).url = incoming.url := by
  cases hbilling : billingOf (trimmedSubscription incoming) with
  | error err =>
    rw [normalizedSubscription_error hbilling]
    simp only [trimmedSubscription, and_self]
  | ok result =>
    rw [normalizedSubscription_ok hbilling]
    simp only [trimmedSubscription, Subscription.setSchedule, and_self]

theorem normalizedSubscription_negativeZero (incoming : Subscription) :
    (normalizedSubscription incoming).negativeZero = incoming.negativeZero := by
  cases hbilling : billingOf (trimmedSubscription incoming) with
  | error err => rw [normalizedSubscription_error hbilling, trimmedSubscription]
  | ok result =>
    rw [normalizedSubscription_ok hbilling, trimmedSubscription, Subscription.setSchedule]

/-- The schedule that an accepted item is stored with. -/
theorem normalizedSubscription_billing (h : normalizeBillingDraft sub.billing = .ok result) :
    isSupported sub = true ∧ (normalizedSubscription sub).billing = result.1 := by
  have hdraft : { (trimmedSubscription sub).billing with
      nextBillingDate := copyTimePointer (trimmedSubscription sub).nextBillingDate } =
      { sub.billing with
        billingType := lowerTrimmed sub.billing.billingType
        recurrenceType := lowerTrimmed sub.billing.recurrenceType
        intervalUnit := lowerTrimmed sub.billing.intervalUnit
        nextBillingDate := copyTimePointer sub.billing.nextBillingDate } := rfl
  have hbilling : billingOf (trimmedSubscription sub) = .ok result := by
    rw [billingOf, hdraft]
    exact @normalizeBillingDraft_lowered sub.billing result h
  obtain ⟨draft, date⟩ := result
  refine ⟨by rw [isSupported, hbilling]; rfl, ?_⟩
  rw [normalizedSubscription_ok hbilling, setSchedule_billing, (normalizeBillingDraft_ok h).copy]

/-- The key of an item is made of the columns that are compared. -/
theorem importDedupKey_congr
    (h : { identity sub with userID := userID } = { identity incoming with userID := userID })
    (hzero : sub.negativeZero = incoming.negativeZero) :
    importDedupKey sub = importDedupKey incoming := by
  simp only [identity, Identity.mk.injEq] at h
  obtain ⟨-, hname, hamount, hcurrency, htype, hrecurrence, hunit, hcount, hday, hmonth, hyearDay⟩ := h
  simp only [importDedupKey, recurrenceSignature, hname, hamount, hzero, hcurrency, htype,
    hrecurrence, hcount, hunit, hday, hmonth, hyearDay]

/-- A currency that was stored by an import is stored as it is the next time. -/
theorem storedCurrency_fixed (s : String) :
    toUpper (trimSpace (orDefault "USD" (toUpper (trimSpace s)))) = orDefault "USD"
    (toUpper (trimSpace s)) ∧
      orDefault "USD" (toUpper (trimSpace s)) ≠ "" := by
  by_cases hblank : toUpper (trimSpace s) = ""
  · rw [hblank]
    decide
  · rw [orDefault_of_ne hblank, trimSpace_toUpper, toUpper_idem]
    exact ⟨rfl, hblank⟩

theorem normalizeLifecycleDraft_copy (status renewalMode : String)
    (endsAt nextBillingDate : Option Time) (now : Time) :
    normalizeLifecycleDraft ⟨status, renewalMode, copyTimePointer endsAt⟩ nextBillingDate now =
      normalizeLifecycleDraft ⟨status, renewalMode, endsAt⟩ nextBillingDate now := by
  have hcopy : (copyTimePointer endsAt).map normalizeDateUTC = endsAt.map normalizeDateUTC := by
    cases endsAt <;> simp [copyTimePointer]
  unfold normalizeLifecycleDraft
  dsimp only
  rw [hcopy]

/-- Given a next billing date, the clock does not matter. -/
theorem normalizeLifecycleDraft_now (draft : LifecycleDraft) (date now now' : Time) :
    normalizeLifecycleDraft draft (some date) now = normalizeLifecycleDraft draft (some date) now' := rfl

end Subscriptions

/-! ## The round trip -/

section Restores
variable {Nonce Value Nonce' Value' : Type} {env : ImportEnv Nonce Value}
  {readings : ImportReadings Nonce}
  {exporter : ImportEnv Nonce' Value'} {sanitizeNotificationConfig : String → String → String}
    {orders : QueryOrders}
  {users : List User} {source target target' : ImportDB} {owner userID : Nat}
    {includeSecrets : Bool} {now : Time}
  {data : UserExportData} {sub incoming row : Subscription}

/-- The file lists the rows of the account. -/
theorem exportUserData_ok
    (h : exportUserData exporter sanitizeNotificationConfig orders users source owner includeSecrets
      now = .ok data) :
    data.subscriptions.Perm (source.subscriptions.rows.filter (·.userID = owner)) ∧
      data.categories.Perm (source.categories.rows.filter (·.columns.userID = owner)) ∧
        data.paymentMethods.Perm (source.paymentMethods.rows.filter (·.columns.userID = owner)) := by
  unfold exportUserData at h
  split at h
  · cases h
  dsimp only at h
  split at h
  · cases h
  · obtain rfl := Except.ok.inj h
    exact ⟨orders.subscriptions.perm _, orders.categories.perm _, orders.paymentMethods.perm _⟩

/-- The links of a stored row are those of its item if and only if they are kept. -/
theorem links_restored_iff (haccount : AccountAllowed owner source) (hfresh : FreshAccount userID target)
    (hcategories : data.categories.Perm (source.categories.rows.filter (·.columns.userID = owner)))
    (hpaymentMethods : data.paymentMethods.Perm
      (source.paymentMethods.rows.filter (·.columns.userID = owner)))
    (hstored : Stored (importLookups env userID target data.toImport) userID now
      (normalizedSubscription sub) row) :
    let categories := (importCategories userID true target data.categories).table.rows
    let paymentMethods := (importPaymentMethods userID true target data.paymentMethods).table.rows
    (linkedName categories userID row.categoryID = linkedName source.categories.rows owner
      sub.categoryID ∧
        linkedName paymentMethods userID row.paymentMethodID = linkedName source.paymentMethods.rows
          owner sub.paymentMethodID) ↔
      ((∀ c ∈ data.categories, sub.categoryID = some c.id →
        c.columns ∈ keptNamed (data.categories.map (·.columns))) ∧
          ((∀ c ∈ data.categories, sub.categoryID ≠ some c.id) → trimSpace sub.category = "" ∨
            ∀ d ∈ keptNamed (data.categories.map (·.columns)), sqlLower d.name ≠ toLower
              (trimSpace sub.category))) ∧
        ∀ m ∈ data.paymentMethods, sub.paymentMethodID = some m.id →
          m.columns ∈ keptNamed (data.paymentMethods.map (·.columns)) := by
  dsimp only
  obtain ⟨-, -, -, -, hlabel, hcategoryID, hpaymentMethodID, -⟩ := normalizedSubscription_columns sub
  have hcategory := hstored.categoryID
  have hpaymentMethod := hstored.paymentMethodID
  rw [hlabel, hcategoryID] at hcategory
  rw [hpaymentMethodID] at hpaymentMethod
  have hnames := (haccount.categories.exported hcategories).1
  have hcategoryLink :=
    @link_restored_iff _ _ owner userID "category"
      (fun name _ => PreviewCategoryChange.mk name) _ _ target.categories
    haccount.categories hcategories hfresh.categories sub.categoryID
    (if trimSpace sub.category ≠ ""
      then (importLookups env userID target data.toImport).categoryByName
      (toLower (trimSpace sub.category))
      else none)
  have hpaymentLink := @link_restored_iff _ _ owner userID "payment method"
    (fun name existing => PreviewPaymentMethodChange.mk name (existing.elim "" (·.name)))
      _ _ target.paymentMethods
    haccount.paymentMethods hpaymentMethods hfresh.paymentMethods sub.paymentMethodID none
  rw [hcategory, hpaymentMethod]
  refine and_congr (hcategoryLink.trans (and_congr_right fun _ => imp_congr_right fun _ => ?_)) ?_
  · by_cases hblank : trimSpace sub.category = ""
    · rw [if_neg (not_not.2 hblank)]
      exact ⟨fun _ => .inl hblank, fun _ => rfl⟩
    · rw [if_pos hblank, or_iff_right hblank]
      exact linkedName_byName hnames hfresh.categories (toLower (trimSpace sub.category))
  · dsimp only at hpaymentLink
    rw [Option.or_none] at hpaymentLink
    exact hpaymentLink.trans ⟨And.left, fun h => ⟨h, fun _ => rfl⟩⟩

/-- The subscriptions of an account that is exported, and what is known of them. -/
structure Exported (source : ImportDB) (owner : Nat) (data : UserExportData) : Prop where
  mem : ∀ sub, sub ∈ data.subscriptions ↔ sub ∈ source.subscriptions.rows ∧ sub.userID = owner
  checks : ∀ sub ∈ data.subscriptions, sub.meetsChecks = true
  zeros : ∀ sub ∈ data.subscriptions, sub.negativeZero = false
  accepted : ∀ sub ∈ data.subscriptions, ∃ result, normalizeBillingDraft sub.billing = .ok result
  distinct : (data.subscriptions.map fun sub => importDedupKey (normalizedSubscription sub)).Nodup

theorem AccountAllowed.exported (h : AccountAllowed owner source)
    (hsubscriptions : data.subscriptions.Perm
      (source.subscriptions.rows.filter (·.userID = owner))) : Exported source owner data := by
  have hmem : ∀ sub, sub ∈ data.subscriptions ↔ sub ∈ source.subscriptions.rows ∧
      sub.userID = owner := fun sub => by
    rw [hsubscriptions.mem_iff, List.mem_filter, decide_eq_true_iff]
  exact ⟨hmem, fun sub hsub => h.checks sub ((hmem sub).1 hsub).1,
    fun sub hsub => h.zeros sub ((hmem sub).1 hsub).1,
    fun sub hsub => h.accepted sub ((hmem sub).1 hsub).1 ((hmem sub).1 hsub).2,
      (hsubscriptions.map _).nodup_iff.2 h.distinct⟩

theorem Exported.hasLifecycle (h : Exported source owner data) :
    ∀ sub ∈ data.subscriptions, hasLifecycle sub := by
  intro sub hsub
  have hchecks := h.checks sub hsub
  simp only [Subscription.meetsChecks, Bool.and_eq_true] at hchecks
  exact ⟨by rw [normalizeStatus_valid hchecks.1.1.2, hchecks.1.1.2],
    by rw [normalizeRenewalMode_valid hchecks.1.2, hchecks.1.2]⟩

theorem Exported.normalized_negativeZero (h : Exported source owner data)
    (hsub : sub ∈ data.subscriptions) : (normalizedSubscription sub).negativeZero = false := by
  rw [normalizedSubscription_negativeZero, h.zeros sub hsub]

/-- Items with the columns of one key are the same. -/
theorem Exported.eq_of_columns (h : Exported source owner data) (hsub : sub ∈ data.subscriptions)
    (hincoming : incoming ∈ data.subscriptions)
    (hname : trimSpace sub.name = trimSpace incoming.name) (hamount : sub.amount = incoming.amount)
    (hcurrency : toUpper (trimSpace sub.currency) = toUpper (trimSpace incoming.currency))
    (hbilling : (normalizedSubscription sub).billing = (normalizedSubscription incoming).billing) :
    sub = incoming := by
  apply List.inj_on_of_nodup_map h.distinct hsub hincoming
  refine @importDedupKey_congr _ _ owner ?_
    ((h.normalized_negativeZero hsub).trans (h.normalized_negativeZero hincoming).symm)
  simp only [Subscription.billing, BillingDraft.mk.injEq] at hbilling
  obtain ⟨htype, hrecurrence, hcount, hunit, -, hday, hmonth, hyearDay⟩ := hbilling
  rw [Identity.mk.injEq]
  refine ⟨rfl, ?_, ?_, ?_, htype, hrecurrence, hunit, hcount, hday, hmonth, hyearDay⟩
  · exact (normalizedSubscription_texts sub).1.trans
      (hname.trans (normalizedSubscription_texts incoming).1.symm)
  · exact (normalizedSubscription_columns sub).1.trans
      (hamount.trans (normalizedSubscription_columns incoming).1.symm)
  · exact (normalizedSubscription_texts sub).2.trans
      (hcurrency.trans (normalizedSubscription_texts incoming).2.symm)

section Confirmed
variable {imported : Nat} (hexported : Exported source owner data) (hfresh : FreshAccount userID target)
  (hconfirmed : Confirmed env readings userID data.toImport target imported target')
include hexported hfresh hconfirmed

/-- A row that reproduces a subscription is the one that was stored for it. -/
theorem stored_of_reproduces
    (hall : ∀ sub ∈ data.subscriptions, ∃ row ∈ target'.subscriptions.rows,
      Reproduces source owner sub target' userID row)
    (hsub : sub ∈ data.subscriptions) :
    ∃ row now, Reproduces source owner sub target' userID row ∧ trimSpace sub.name ≠ "" ∧
      Stored (importLookups env userID target data.toImport) userID now
        (normalizedSubscription sub) row := by
  have hitem : ∀ sub ∈ data.subscriptions, ∃ row, Reproduces source owner sub target' userID row ∧
      ∃ incoming ∈ data.subscriptions, ∃ now,
        (trimSpace incoming.name ≠ "" ∧ isSupported incoming = true) ∧
        Stored (importLookups env userID target data.toImport) userID now
          (normalizedSubscription incoming) row := by
    intro sub hsub
    obtain ⟨row, hrow, hreproduces⟩ := hall sub hsub
    rw [hconfirmed.subscriptions] at hrow
    rcases mem_importSubscriptions hexported.hasLifecycle hrow with hold | hnew
    · exact absurd hreproduces.user (hfresh.subscriptions row hold)
    · exact ⟨row, hreproduces, hnew⟩
  -- What is reproduced has the currency of a row that was stored.
  have hcurrency : ∀ sub ∈ data.subscriptions, toUpper (trimSpace sub.currency) = sub.currency ∧
      sub.currency ≠ "" := by
    intro sub hsub
    obtain ⟨row, hreproduces, incoming, -, now, -, hstored⟩ := hitem sub hsub
    rw [← hreproduces.currency, hstored.currency, (normalizedSubscription_texts incoming).2]
    exact storedCurrency_fixed incoming.currency
  obtain ⟨row, hreproduces, incoming, hincoming, now, ⟨hname, hsupported⟩, hstored⟩ := hitem sub hsub
  obtain ⟨date, hdate⟩ := normalized_of_isSupported hsupported
  have hbilling : sub.billing = (normalizedSubscription incoming).billing :=
    hreproduces.billing.symm.trans hstored.billing
  have hsame : sub = incoming := by
    apply hexported.eq_of_columns hsub hincoming
    · rw [← hreproduces.name, hstored.name, (normalizedSubscription_texts incoming).1, trimSpace_idem]
    · rw [← hreproduces.amount, hstored.amount, (normalizedSubscription_columns incoming).1]
    · rw [← hreproduces.currency, hstored.currency, (normalizedSubscription_texts incoming).2,
        (hcurrency incoming hincoming).1,
        orDefault_of_ne (hcurrency incoming hincoming).2, (hcurrency incoming hincoming).1]
    · rw [← hbilling] at hdate
      rw [(normalizedSubscription_billing hdate.fixed).2, hbilling]
  subst hsame
  exact ⟨row, now, hreproduces, hname, hstored⟩

theorem kept_of_reproduces (haccount : AccountAllowed owner source)
    (hcategories : data.categories.Perm (source.categories.rows.filter (·.columns.userID = owner)))
    (hpaymentMethods : data.paymentMethods.Perm
      (source.paymentMethods.rows.filter (·.columns.userID = owner)))
    (hall : ∀ sub ∈ data.subscriptions, ∃ row ∈ target'.subscriptions.rows,
      Reproduces source owner sub target' userID row)
    (hsub : sub ∈ data.subscriptions) : SubscriptionKept env.parseURL data sub := by
  obtain ⟨row, now, hreproduces, hname, hstored⟩ :=
    stored_of_reproduces hexported hfresh hconfirmed hall hsub
  obtain ⟨hnameText, hcurrencyText⟩ := normalizedSubscription_texts sub
  obtain ⟨-, hstatus, hmode, hendsAt, -, -, -, hurl⟩ := normalizedSubscription_columns sub
  obtain ⟨result, hresult⟩ := hexported.accepted sub hsub
  obtain ⟨draft, date⟩ := result
  have hbilling : sub.billing = draft := by
    rw [← hreproduces.billing, hstored.billing, (normalizedSubscription_billing hresult).2]
  have htrimmed : trimSpace sub.name = sub.name := by rw [← hnameText, ← hstored.name, hreproduces.name]
  have hlinks := (links_restored_iff haccount hfresh hcategories hpaymentMethods hstored).1 (by
    have hcategory := hreproduces.category
    have hpaymentMethod := hreproduces.paymentMethod
    rw [hconfirmed.categories] at hcategory
    rw [hconfirmed.paymentMethods] at hpaymentMethod
    exact ⟨hcategory, hpaymentMethod⟩)
  have hcurrency : sub.currency = orDefault "USD" (toUpper (trimSpace sub.currency)) := by
    rw [← hcurrencyText, ← hstored.currency, hreproduces.currency]
  refine ⟨⟨htrimmed, htrimmed ▸ hname⟩, ?_, ⟨date, by rw [hresult, hbilling]⟩, ?_, ?_, hlinks.1.1,
    hlinks.1.2, hlinks.2⟩
  · have hfixed := storedCurrency_fixed sub.currency
    rw [← hcurrency] at hfixed
    exact hfixed
  · intro now'
    have hdate : sub.nextBillingDate = some date := by
      have hnormalized := (normalizeBillingDraft_ok hresult).nextBillingDate
      rw [← hbilling] at hnormalized
      exact hnormalized
    have hnormalizedDate : (normalizedSubscription sub).nextBillingDate = some date :=
      (congrArg BillingDraft.nextBillingDate (normalizedSubscription_billing hresult).2).trans
        (normalizeBillingDraft_ok hresult).nextBillingDate
    have hlifecycle := hstored.lifecycle
    rw [hstatus, hmode, hendsAt, hnormalizedDate, normalizeLifecycleDraft_copy,
      hreproduces.lifecycle] at hlifecycle
    rw [hdate, normalizeLifecycleDraft_now _ _ _ now]
    exact hlifecycle
  · have haccepted : normalizeSubscriptionURL env.parseURL sub.url = .ok row.url := by
      rw [← hurl]
      exact hstored.url
    rw [haccepted]
    rfl

omit hconfirmed in
/-- Every subscription that is kept is inserted. -/
theorem creates_of_kept (hkept : ∀ sub ∈ data.subscriptions, SubscriptionKept env.parseURL data sub)
    {before after : List Subscription} (hitems : data.subscriptions = before ++ sub :: after) :
    (subscriptionUpsert env.parseURL userID).creates
      ((subscriptionUpsert env.parseURL userID).run (target.subscriptions.rows.map identity) before)
        before sub =
        some (storedIdentity userID (normalizedSubscription sub)) := by
  have hsub : sub ∈ data.subscriptions := by simp [hitems]
  have hkeptSub := hkept sub hsub
  have hname : trimSpace sub.name ≠ "" := by
    rw [hkeptSub.name.1]
    exact hkeptSub.name.2
  obtain ⟨result, hresult⟩ := hexported.accepted sub hsub
  have hsupported : isSupported sub = true := (normalizedSubscription_billing hresult).1
  have hchecks := hexported.checks sub hsub
  simp only [Subscription.meetsChecks, Bool.and_eq_true] at hchecks
  have hstorable : isStorable env.parseURL sub = true := by
    rw [isStorable, hkeptSub.url, hchecks.1.1.1, hchecks.2]
    rfl
  have hdistinct := hexported.distinct
  rw [hitems, List.map_append, List.map_cons, List.nodup_append] at hdistinct
  have hother : ∀ incoming ∈ before,
      importDedupKey (normalizedSubscription incoming) ≠ importDedupKey (normalizedSubscription sub) :=
    fun incoming hincoming => hdistinct.2.2 _ (List.mem_map_of_mem hincoming) _ List.mem_cons_self
  have hkey : (subscriptionUpsert env.parseURL userID).key sub = some
      (importDedupKey (normalizedSubscription sub)) := if_neg hname
  refine Upsert.creates_iff.2 ⟨?_, if_pos hstorable, fun s hs => ⟨?_, rfl⟩⟩
  · -- the export holds each key once
    have hunseen : importDedupKey (normalizedSubscription sub) ∉
        (subscriptionUpsert env.parseURL userID).seen before := by
      intro hseen
      obtain ⟨incoming, hincoming, hincomingKey⟩ := List.mem_filterMap.1 hseen
      simp only [subscriptionUpsert, Option.ite_none_left_eq_some, Option.some.injEq] at hincomingKey
      exact hother incoming hincoming hincomingKey.2
    rw [Upsert.fresh, hkey, Option.any_some, decide_eq_true hunseen, Bool.and_true]
    exact hsupported
  · apply decide_eq_false
    rw [wanted_normalized hsupported]
    rintro rfl
    rcases Upsert.mem_run hs with hold | ⟨before', incoming, after', hbefore, hcreates⟩
    · -- the account that imports starts without rows
      obtain ⟨row, hrow, hidentity⟩ := List.mem_map.1 hold
      exact hfresh.subscriptions row hrow (congrArg Identity.userID hidentity)
    · have hincoming : incoming ∈ before := by simp [hbefore]
      have hkeptIncoming := hkept incoming (by rw [hitems]; exact List.mem_append_left _ hincoming)
      have hcurrency : (normalizedSubscription incoming).currency ≠ "" := by
        rw [(normalizedSubscription_texts incoming).2, hkeptIncoming.currency.1]
        exact hkeptIncoming.currency.2
      obtain ⟨-, hrow, -⟩ := Upsert.creates_iff.1 hcreates
      simp only [subscriptionUpsert, Option.ite_none_right_eq_some, Option.some.injEq] at hrow
      have hincoming' : incoming ∈ data.subscriptions := by
        rw [hitems]
        exact List.mem_append_left _ hincoming
      refine hother incoming hincoming (@importDedupKey_congr _ _ userID ?_
        ((hexported.normalized_negativeZero hincoming').trans
          (hexported.normalized_negativeZero hsub).symm))
      rw [← hrow.2, storedIdentity, orDefault_of_ne hcurrency]
      rfl

theorem reproduces_of_kept (haccount : AccountAllowed owner source)
    (hcategories : data.categories.Perm (source.categories.rows.filter (·.columns.userID = owner)))
    (hpaymentMethods : data.paymentMethods.Perm
      (source.paymentMethods.rows.filter (·.columns.userID = owner)))
    (hkept : ∀ sub ∈ data.subscriptions, SubscriptionKept env.parseURL data sub)
    (hsub : sub ∈ data.subscriptions) :
    ∃ row ∈ target'.subscriptions.rows, Reproduces source owner sub target' userID row := by
  obtain ⟨before, after, hitems⟩ := List.append_of_mem hsub
  have hcreates := creates_of_kept hexported hfresh hkept hitems
  have hlifecycles := hexported.hasLifecycle
  rw [hitems] at hlifecycles
  obtain ⟨row, hrow, hstored⟩ : ∃ row ∈
      (importSubscriptions env readings userID target data.toImport
        (before ++ sub :: after)).table.rows, _ :=
    exists_stored hlifecycles (by rw [hcreates]; exact Option.some_ne_none _)
  have htarget : target'.subscriptions =
      (importSubscriptions env readings userID target data.toImport (before ++ sub :: after)).table := by
    rw [← hitems]
    exact hconfirmed.subscriptions
  obtain ⟨hname, hcurrency⟩ := normalizedSubscription_texts sub
  obtain ⟨hamount, hstatus, hmode, hendsAt, -, -, -, -⟩ := normalizedSubscription_columns sub
  have hkeptSub := hkept sub hsub
  obtain ⟨date, hdate⟩ := hkeptSub.schedule
  have hbilling : (normalizedSubscription sub).billing = sub.billing :=
    (normalizedSubscription_billing hdate).2
  have hlinks := (links_restored_iff haccount hfresh hcategories hpaymentMethods hstored).2
    ⟨⟨hkeptSub.category, hkeptSub.label⟩, hkeptSub.paymentMethod⟩
  refine ⟨row, by rw [htarget]; exact hrow, hstored.userID, ?_, hstored.amount.trans hamount, ?_,
    hstored.billing.trans hbilling, ?_, ?_, ?_⟩
  · rw [hstored.name, hname, hkeptSub.name.1]
  · rw [hstored.currency, hcurrency, hkeptSub.currency.1, orDefault_of_ne hkeptSub.currency.2]
  · have hlifecycle := hstored.lifecycle
    have hnext : (normalizedSubscription sub).nextBillingDate = sub.nextBillingDate :=
      congrArg BillingDraft.nextBillingDate hbilling
    rw [hstatus, hmode, hendsAt, hnext, normalizeLifecycleDraft_copy] at hlifecycle
    exact Except.ok.inj (hlifecycle.symm.trans (hkeptSub.lifecycle _))
  · rw [hconfirmed.categories]
    exact hlinks.1
  · rw [hconfirmed.paymentMethods]
    exact hlinks.2

end Confirmed

/-- A confirmed import of an export into an account without rows restores every
subscription if and only if the file is not too large and the import leaves each
subscription, and the rows it is linked to, as they are. -/
theorem restores_iff (haccount : AccountAllowed owner source) (hfresh : FreshAccount userID target)
    (hexport : exportUserData exporter sanitizeNotificationConfig orders users source owner
      includeSecrets now = .ok data) :
    Restores env readings source owner data target userID ↔
      validateSubduxImportData data.toImport = .ok () ∧
        ∀ sub ∈ source.subscriptions.rows, sub.userID = owner →
          SubscriptionKept env.parseURL data sub := by
  obtain ⟨hsubscriptions, hcategories, hpaymentMethods⟩ := exportUserData_ok hexport
  have hexported := haccount.exported hsubscriptions
  constructor
  · rintro ⟨result, target', himport, hall⟩
    have hvalid : validateSubduxImportData data.toImport = .ok () := by
      unfold importFromSubdux at himport
      split at himport
      · cases himport
      · assumption
    obtain ⟨result₁, target₁, himport₁, hconfirmed⟩ :=
      importFromSubdux_confirm hvalid env readings userID target
    obtain rfl : target₁ = target' := by
      rw [himport₁] at himport
      cases himport
      rfl
    refine ⟨hvalid, fun sub hrow howner => ?_⟩
    exact kept_of_reproduces hexported hfresh hconfirmed haccount hcategories hpaymentMethods
      (fun sub hsub => hall sub ((hexported.mem sub).1 hsub).1 ((hexported.mem sub).1 hsub).2)
        ((hexported.mem sub).2 ⟨hrow, howner⟩)
  · rintro ⟨hvalid, hkept⟩
    obtain ⟨result, target', himport, hconfirmed⟩ :=
      importFromSubdux_confirm hvalid env readings userID target
    refine ⟨result, target', himport, fun sub hrow howner => ?_⟩
    exact reproduces_of_kept hexported hfresh hconfirmed haccount hcategories hpaymentMethods
      (fun sub hsub => hkept sub ((hexported.mem sub).1 hsub).1 ((hexported.mem sub).1 hsub).2)
        ((hexported.mem sub).2 ⟨hrow, howner⟩)

end Restores

/-! ## Two spellings of one name -/

def musicUpper : Row Category := ⟨1, ⟨1, "Music", none, true, 0, ()⟩⟩

def musicSubscription : Subscription := { listedSubscription "USD" with categoryID := some 2 }

/-- An account with these categories, and a subscription that is linked to the second one. -/
def musicAccount (categories : List (Row Category)) : ImportDB :=
  { emptyDB with categories := ⟨categories, 3⟩, subscriptions := ⟨[musicSubscription], 2⟩ }

/-- Rows in the order of their keys. -/
def plainOrders : QueryOrders :=
  ⟨⟨id, List.Perm.refl⟩, ⟨id, List.Perm.refl⟩, ⟨id, List.Perm.refl⟩, ⟨id, List.Perm.refl⟩,
    ⟨id, List.Perm.refl⟩, ⟨id, List.Perm.refl⟩⟩

def musicExport (categories : List (Row Category)) : Except ExportError UserExportData :=
  exportUserData bareEnv (fun _ config => config) plainOrders [⟨1, "", ""⟩]
    (musicAccount categories) 1 false (midnight 0)

def musicFile (categories : List (Row Category)) : UserExportData :=
  ⟨midnight 0, false, ⟨1, "", ""⟩, [musicSubscription], categories, [], [], none, [], none, []⟩

theorem musicAccount_allowed {categories : List (Row Category)} (h : NamedTableAllowed 1 categories) :
    AccountAllowed 1 (musicAccount categories) := by
  have hnone : NamedTableAllowed 1 (musicAccount categories).paymentMethods.rows :=
    ⟨by simp [musicAccount, emptyDB],
    by simp [musicAccount, emptyDB], by simp [musicAccount, emptyDB], by simp [musicAccount, emptyDB]⟩
  have haccepted : (normalizeBillingDraft musicSubscription.billing).isOk = true := by decide +kernel
  refine ⟨h, hnone, fun sub hsub => ?_, fun sub hsub => ?_, fun sub hsub _ => ?_,
    List.nodup_singleton _⟩
  · obtain rfl := List.mem_singleton.1 hsub
    decide +kernel
  · obtain rfl := List.mem_singleton.1 hsub
    rfl
  · obtain rfl := List.mem_singleton.1 hsub
    cases hresult : normalizeBillingDraft musicSubscription.billing with
    | error err =>
      rw [hresult] at haccepted
      cases haccepted
    | ok result => exact ⟨result, rfl⟩

theorem emptyDB_fresh (userID : Nat) : FreshAccount userID emptyDB := by
  constructor <;> simp [emptyDB]

theorem restores_music : musicExport [musicByName] = .ok (musicFile [musicByName]) ∧
    Restores bareEnv bareReadings (musicAccount [musicByName]) 1
    (musicFile [musicByName]) emptyDB 2 := by
  have hallowed : NamedTableAllowed 1 [musicByName] := by constructor <;> decide
  have hexport : musicExport [musicByName] = .ok (musicFile [musicByName]) := rfl
  refine ⟨hexport, (restores_iff (musicAccount_allowed hallowed) (emptyDB_fresh 2) hexport).2
    ⟨by decide, fun sub hsub _ => ?_⟩⟩
  obtain rfl := List.mem_singleton.1 hsub
  refine ⟨by decide, by decide, ⟨midnight 20000, by decide +kernel⟩, fun now => ?_, by decide,
    by decide, by decide, by decide⟩
  exact (normalizeLifecycleDraft_now _ _ now (midnight 0)).trans (by decide +kernel)

/-- The tables after the import. -/
def musicRestored (categories : List (Row Category)) : ImportDB :=
  match importFromSubdux bareEnv bareReadings 2 (musicFile categories).toImport true emptyDB with
  | .ok (_, db) => db
  | .error _ => emptyDB

/-- The second spelling is skipped as seen, and the link to it is lost. -/
theorem restores_fails_music :
    musicExport [musicUpper, musicByName] = .ok (musicFile [musicUpper, musicByName]) ∧
    AccountAllowed 1 (musicAccount [musicUpper, musicByName]) ∧ FreshAccount 2 emptyDB ∧
      ¬ Restores bareEnv bareReadings (musicAccount [musicUpper, musicByName]) 1
        (musicFile [musicUpper, musicByName]) emptyDB 2 := by
  have hallowed : NamedTableAllowed 1 [musicUpper, musicByName] := by constructor <;> decide
  refine ⟨rfl, musicAccount_allowed hallowed, emptyDB_fresh 2, ?_⟩
  rintro ⟨result, target', himport, hall⟩
  have htarget : musicRestored [musicUpper, musicByName] = target' := by
    simp only [musicRestored, himport]
  obtain ⟨row, hrow, hreproduces⟩ := hall musicSubscription (List.mem_singleton.2 rfl) rfl
  have hcategory := hreproduces.category
  rw [← htarget] at hrow hcategory
  have hlost : ∀ row ∈ (musicRestored [musicUpper, musicByName]).subscriptions.rows,
      linkedName (musicRestored [musicUpper, musicByName]).categories.rows 2 row.categoryID ≠
        linkedName (musicAccount [musicUpper, musicByName]).categories.rows 1
          musicSubscription.categoryID := by decide +kernel
  exact hlost row hrow hcategory

end Subdux.ImportService
