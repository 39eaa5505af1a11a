import Subdux.ImportLoops
/-!
# Previews and confirmed imports

When the categories, payment methods and subscriptions that a preview marks as new are
those that a confirmed run creates.
-/

namespace Subdux.ImportService
open GoStrings Upserts

/-! ## Categories and payment methods -/

/-- The loop of both kinds: an item is the first of its key, is matched by system key or
name, and is refused by the unique indexes. -/
def namedUpsert {δ : Type} (userID : Nat) : Upsert (Row (Named δ)) String (Named δ) where
  key incoming := if trimSpace incoming.columns.name = "" then none else some (namedKey incoming.columns)
  valid _ := true
  row incoming :=
    if trimSpace incoming.columns.name = "" then none
    else some { incoming.columns with userID := userID, name := trimSpace incoming.columns.name }
  hit incoming row :=
    decide (trimSpace incoming.columns.name ≠ "") &&
      (findBySystemKeyOrName userID incoming.columns).any (· row)
  conflict := namedConflict

section Named
variable {δ χ : Type}

theorem itemUpsert_named (what : String) (shown : String → Option (Named δ) → χ) (userID : Nat) :
    itemUpsert (prepareNamed what shown userID) namedConflict = namedUpsert userID := by
  have hprepare : ∀ incoming : Row (Named δ), (prepareNamed what shown userID incoming).toOption =
      if trimSpace incoming.columns.name = "" then none
      else some {
        key := namedKey incoming.columns
        sourceID := incoming.id
        queries := findBySystemKeyOrName userID incoming.columns
        shown := shown (trimSpace incoming.columns.name)
        create := .ok { incoming.columns with userID := userID, name := trimSpace incoming.columns.name }
        refused := .create what (trimSpace incoming.columns.name) errUniqueFailed } := by
    intro incoming
    unfold prepareNamed
    dsimp only
    split <;> rfl
  unfold itemUpsert namedUpsert
  congr 1
  · funext incoming
    rw [hprepare]
    split <;> rfl
  · funext incoming
    rw [hprepare]
    split <;> rfl
  · funext incoming row
    rw [hprepare]
    split
    · rename_i h
      simp [h]
    · rename_i h
      simp [h]

end Named

/-! ## Agreement -/

/-- Item by item, one count grows when the other does. -/
def AgreeOn {ι : Type} (marked created : List ι → Nat) (items : List ι) : Prop :=
  ∀ before i after, items = before ++ i :: after →
    (marked before < marked (before ++ [i]) ↔ created before < created (before ++ [i]))

/-- What a preview marks as new is what a confirmed run creates a row for, and the one
succeeds when the other does. -/
structure PreviewAgrees {Nonce Value : Type} (env : ImportEnv Nonce Value)
    (previewing confirming : ImportReadings Nonce) (userID : Nat) (data : SubduxImportData)
    (db : ImportDB) : Prop where
  outcome : (importFromSubdux env previewing userID data false db).isOk =
    (importFromSubdux env confirming userID data true db).isOk
  categories : validateSubduxImportData data = .ok () →
    AgreeOn (fun items => newCount (importCategories userID false db items))
      (fun items => (importCategories userID true db items).table.rows.length) (data.categories.getD [])
  paymentMethods : validateSubduxImportData data = .ok () →
    AgreeOn (fun items => newCount (importPaymentMethods userID false db items))
      (fun items => (importPaymentMethods userID true db items).table.rows.length)
        (data.paymentMethods.getD [])
  subscriptions : validateSubduxImportData data = .ok () →
    AgreeOn (fun items => newSubscriptionCount (previewSubscriptions userID db.subscriptions.rows items))
      (fun items => (importSubscriptions env confirming userID db data items).table.rows.length)
        (data.subscriptions.getD [])

section Agreement
variable {Nonce Value : Type} (env : ImportEnv Nonce Value)
  (previewing confirming : ImportReadings Nonce) (userID : Nat)
  (data : SubduxImportData) (db : ImportDB)

theorem importFromSubdux_isOk (readings : ImportReadings Nonce) (confirm : Bool) :
    (importFromSubdux env readings userID data confirm db).isOk =
    (validateSubduxImportData data).isOk := by
  unfold importFromSubdux
  split
  · rename_i h
    rw [h]
    rfl
  · rename_i h
    rw [h]
    cases confirm <;> rfl

/-- The shared loop. -/
theorem agreeOn_items {ι α χ : Type} (prepare : ι → Except Refusal (Prepared α χ))
    (conflict : α → α → Bool) (table : Table α) (items : List ι) :
    AgreeOn (fun items => newCount (loopState false prepare conflict table items))
      (fun items => (loopState true prepare conflict table items).table.rows.length) items ↔
        (itemUpsert prepare conflict).Clear table.columns items := by
  rw [← Upsert.agree_iff]
  simp only [AgreeOn, newCount_loopState, rows_loopState]

theorem agreeOn_subscriptions (items : List Subscription) :
    AgreeOn (fun items => newSubscriptionCount (previewSubscriptions userID db.subscriptions.rows items))
      (fun items => (importSubscriptions env confirming userID db data items).table.rows.length) items ↔
        (subscriptionUpsert env.parseURL userID).Clear (db.subscriptions.rows.map identity) items := by
  rw [← Upsert.agree_iff]
  simp only [AgreeOn, newSubscriptionCount_preview env.parseURL, rows_importSubscriptions]

/-- A preview agrees with a confirmed run if and only if every item that it marks can be
inserted: its checks pass, no stored row clashes with it, and no marked item before it
matches or clashes with it. -/
theorem preview_agrees_iff :
    PreviewAgrees env previewing confirming userID data db ↔
      (validateSubduxImportData data = .ok () →
        (namedUpsert userID).Clear db.categories.columns (data.categories.getD []) ∧
          (namedUpsert userID).Clear db.paymentMethods.columns (data.paymentMethods.getD []) ∧
            (subscriptionUpsert env.parseURL userID).Clear (db.subscriptions.rows.map identity)
              (data.subscriptions.getD [])) := by
  have hcategories :=
    agreeOn_items (prepareCategory userID) namedConflict db.categories (data.categories.getD [])
  have hpaymentMethods :=
    agreeOn_items (preparePaymentMethod userID) namedConflict db.paymentMethods
      (data.paymentMethods.getD [])
  have hsubscriptions := agreeOn_subscriptions env confirming userID data db (data.subscriptions.getD [])
  rw [prepareCategory, itemUpsert_named] at hcategories
  rw [preparePaymentMethod, itemUpsert_named] at hpaymentMethods
  rw [← hcategories, ← hpaymentMethods, ← hsubscriptions]
  constructor
  · intro h hvalid
    exact ⟨h.categories hvalid, h.paymentMethods hvalid, h.subscriptions hvalid⟩
  · intro h
    exact ⟨by rw [importFromSubdux_isOk, importFromSubdux_isOk], fun hvalid => (h hvalid).1,
      fun hvalid => (h hvalid).2.1,
      fun hvalid => (h hvalid).2.2⟩

end Agreement

/-! ## A category listed twice -/

/-- No key, and JSON that is never read. -/
def bareEnv : ImportEnv Unit Unit where
  parseURL _ := none
  sealer := none
  opener _ := none
  unmarshal _ := none
  marshal _ := none
  isRedactedNotificationChannelConfig _ _ := false
  validateChannelConfig _ _ := .ok ()
  validateTemplate _ := .ok ()

def bareReadings : ImportReadings Unit := ⟨fun _ => (), fun _ => midnight 0, fun _ => midnight 0⟩

def emptyDB : ImportDB := ⟨⟨[], 1⟩, ⟨[], 1⟩, ⟨[], 1⟩, ⟨[], 1⟩, ⟨[], 1⟩, ⟨[], 1⟩, [], []⟩

def musicByKey : Row Category := ⟨1, ⟨1, "Music", some "music", false, 0, ()⟩⟩
def musicByName : Row Category := ⟨2, ⟨1, "music", none, true, 1, ()⟩⟩

/-- A file with nothing but these categories and subscriptions. -/
def bareFile (categories : List (Row Category)) (subscriptions : List Subscription) :
    SubduxImportData where
  secretsIncluded := none
  currencies := some []
  categories := some categories
  paymentMethods := some []
  subscriptions := some subscriptions
  preference := none
  channels := []
  templates := []
  policy := none

/-- The row of the first is found by the name of the second, but only in a confirmed run. -/
theorem preview_disagrees_music :
    ¬ PreviewAgrees bareEnv bareReadings bareReadings 1
    (bareFile [musicByKey, musicByName] []) emptyDB := by
  intro h
  have hvalid : validateSubduxImportData (bareFile [musicByKey, musicByName] []) = .ok () := by decide
  have hagree := h.categories hvalid [musicByKey] musicByName [] rfl
  have hmarked : newCount (importCategories 1 false emptyDB [musicByKey]) <
      newCount (importCategories 1 false emptyDB ([musicByKey] ++ [musicByName])) := by decide +kernel
  have hcreated : ¬ (importCategories 1 true emptyDB [musicByKey]).table.rows.length <
      (importCategories 1 true emptyDB ([musicByKey] ++ [musicByName])).table.rows.length := by
        decide +kernel
  exact hcreated (hagree.1 hmarked)

end Subdux.ImportService
