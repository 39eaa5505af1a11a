import Mathlib.Data.List.Sort
import Subdux.TenantTables
/-!
# Statements of an account's requests

Each statement that the requests of `TenantRequests` are made of, with the rule by which it is
confined to the account: what it may touch, and what the request must know before it.
-/

namespace Subdux
open OwnedTables Rows

inductive TenantAnswer where
  | categories (rows : List CategoryRow)
  | category (row : CategoryRow)
  | paymentMethods (rows : List PaymentMethodRow)
  | paymentMethod (row : PaymentMethodRow)
  | currencies (rows : List CurrencyRow)
  | currency (row : CurrencyRow)
  | subscriptions (rows : List Subscription)
  | subscription (row : Subscription)
  | icon (value : String)
  | nothing
  deriving DecidableEq

abbrev TenantRequest := Tenants.Request TenantTables (Except String TenantAnswer)

/-- The request sees and touches nothing but what is of account `u`. -/
abbrev OwnRowsOnly (u : Nat) (F : TenantFact → Prop) (request : TenantRequest) : Prop :=
  Tenants.Confined TenantTables.OK TenantTables.Holds TenantTables.Sees u F request

structure ReorderItem where
  id : Nat
  sortOrder : Int

/-! ## The statements -/

section Statements
variable {β : Type} [HasOwner β]

/-- The updates of a `Reorder`. -/
def reordered (userID : Nat) (set : Int → β → β) (items : List ReorderItem) (T : RowTable β) :
    RowTable β :=
  items.foldl (fun T item => T.update (isOwnRow userID item.id) (set item.sortOrder)) T

namespace SettingTable

def find (c : SettingTable β) (p : β → Bool) (next : Option β → TenantRequest) : TenantRequest :=
  .read (fun t => (c.get t).rows.find? p) next

/-- `user_id = ?`, in this order. -/
def list (c : SettingTable β) (userID : Nat) (order : β → β → Bool)
    (next : List β → TenantRequest) : TenantRequest :=
  .read (fun t => ((c.get t).rows.filter (HasOwner.owner · = userID)).insertionSort (order · ·)) next

def create (c : SettingTable β) (row : Nat → β) (next : Option β → TenantRequest) : TenantRequest :=
  .write (fun id t => ((c.get t).insert t.users (row id)).map fun inserted =>
    match inserted with
    | some T => (c.set T t, some (row id))
    | none => (t, none)) next

def save (c : SettingTable β) (row : β) (next : Bool → TenantRequest) : TenantRequest :=
  .write (fun _ t => some <|
    match (c.get t).save t.users row with
    | some T => (c.set T t, true)
    | none => (t, false)) next

/-- One `UPDATE` for each item, in a transaction. -/
def reorder (c : SettingTable β) (userID : Nat) (set : Int → β → β) (items : List ReorderItem)
    (next : TenantRequest) :
    TenantRequest :=
  .write (fun _ t =>
    some (c.set (reordered userID set items (c.get t)) t, ())) fun _ => next

/-- One `UPDATE` of a row of the account. -/
def updateRow (c : SettingTable β) (userID id : Nat) (change : β → β) (next : TenantRequest) :
    TenantRequest :=
  .write (fun _ t => some (c.set ((c.get t).update (isOwnRow userID id) change) t, ())) fun _ => next

def deleteRows (c : SettingTable β) (p : β → Bool) (next : TenantRequest) : TenantRequest :=
  .write (fun _ t => some (c.delete p t, ())) fun _ => next

end SettingTable

end Statements

/-- Whether a subscription of the account meets a condition. -/
def anySubscription (p : Subscription → Bool) (next : Bool → TenantRequest) : TenantRequest :=
  .read (fun t => t.subscriptions.rows.any p) next

def readSubscriptions (p : Subscription → Bool) (order : Subscription → Subscription → Bool)
    (next : List Subscription → TenantRequest) : TenantRequest :=
  .read (fun t => (t.subscriptions.rows.filter p).insertionSort (order · ·)) next

def readSubscription (userID id : Nat) (next : Option Subscription → TenantRequest) : TenantRequest :=
  .read (fun t => findSubscription userID id t.subscriptions.rows) next

def errForeignKey : String := "FOREIGN KEY constraint failed"

/-- `tx.Create` of a subscription. -/
def createSubscription (sub : Subscription) (next : Except String Subscription → TenantRequest) :
    TenantRequest :=
  .write (fun id t =>
    match insertSubscription sub ⟨[], id⟩ with
    | none => some (t, .error errConstraintFailed)
    | some (row, _) =>
      if !t.hasReferences row then some (t, .error errForeignKey)
      else (t.subscriptions.insert t.users row).map fun inserted =>
        match inserted with
        | some T => ({ t with subscriptions := T }, .ok row)
        | none => (t, .error errForeignKey)) next

def TenantTables.persist (userID : Nat) (sub : Subscription) (now : Time) (t : TenantTables) :
    TenantTables :=
  { t with subscriptions := { t.subscriptions with
    rows := persistAdvancedSubscriptionLifecycle userID sub now t.subscriptions.rows } }

/-- The transaction that ends an update. -/
def TenantTables.commit (userID id : Nat) (set : Subscription → Subscription) (updatedAt : Time)
    (t : TenantTables) :
    TenantTables × Except String Subscription :=
  if t.subscriptions.rows.any fun row => isRow userID id row && !t.hasReferences (set row) then
    (t, .error errForeignKey)
  else
    let (answer, rows) := commitUpdates userID id set updatedAt t.subscriptions.rows
    ({ t with subscriptions := { t.subscriptions with rows := rows } }, answer)

def persistLifecycle (userID : Nat) (sub : Subscription) (now : Time) (next : TenantRequest) :
    TenantRequest :=
  .write (fun _ t => some (t.persist userID sub now, ())) fun _ => next

def commitSubscription (userID id : Nat) (set : Subscription → Subscription) (updatedAt : Time)
    (next : Except String Subscription → TenantRequest) : TenantRequest :=
  .write (fun _ t => some (t.commit userID id set updatedAt)) next

def removeSubscription (userID id : Nat) (next : TenantRequest) : TenantRequest :=
  .write (fun _ t =>
    some ({ t with subscriptions := t.subscriptions.delete (isRow userID id) }, ())) fun _ => next

def removeUser (userID : Nat) (next : TenantRequest) : TenantRequest :=
  .write (fun _ t => some (t.deleteUser userID, ())) fun _ => next

/-! ## Rules for settings -/

section Rules
open HasOwner
variable {β : Type} [HasOwner β] {c : SettingTable β} {u : Nat} {F : TenantFact → Prop} {p : β → Bool}

theorem confined_find (h : c.Lawful) {next : Option β → TenantRequest}
    (hp : ∀ r, p r = true → owner r = u) (hnone : ∀ G, (∀ k, F k → G k) → OwnRowsOnly u G (next none))
    (hsome : ∀ G row, (∀ k, F k → G k) → G (c.fact (rowID row)) → p row = true →
      OwnRowsOnly u G (next (some row))) :
    OwnRowsOnly u F (c.find p next) := by
  refine .read ?_ ?_
  · intro t X _ _ hsees
    rw [RowTable.find_own fun r _ => hp r, RowTable.find_own fun r _ => hp r, (h.seen hsees).rows]
  · intro t ht hF
    cases hfind : (c.get t).rows.find? p with
    | none => exact hnone _ hF
    | some row =>
      have hpr := List.find?_some hfind
      refine hsome _ row hF (h.holds.2 ?_) hpr
      rw [← hp row hpr]
      exact (h.ok ht).handed row (List.mem_of_find?_eq_some hfind)

theorem confined_list (h : c.Lawful) {order : β → β → Bool} {next : List β → TenantRequest}
    (hnext : ∀ G rows, OwnRowsOnly u G (next rows)) : OwnRowsOnly u F (c.list u order next) := by
  refine .read ?_ fun _ _ _ => hnext _ _
  intro t X _ _ hsees
  exact congrArg (·.insertionSort (order · ·)) (h.seen hsees).rows

theorem confined_create (h : c.Lawful) {row : Nat → β} {next : Option β → TenantRequest}
    (hrow : ∀ id, owner (row id) = u)
    (hnext : ∀ G inserted, OwnRowsOnly u G (next inserted)) : OwnRowsOnly u F (c.create row next) := by
  refine .write ?_ ?_ hnext
  · intro id t s b ht _ hrun
    obtain ⟨inserted, hinsert, hsame⟩ := Option.map_eq_some_iff.1 hrun
    cases inserted with
    | none =>
      obtain ⟨rfl, -⟩ := Prod.mk.inj hsame
      exact ⟨ht, fun _ _ _ h => h, fun _ _ h => h⟩
    | some T =>
      obtain ⟨rfl, -⟩ := Prod.mk.inj hsame
      refine ⟨h.set_ok ht ((h.ok ht).insert hinsert) ?_, ?_,
        h.set_holds (RowTable.insert_issued hinsert)⟩
      · intro r hr
        obtain ⟨-, -, -, rfl⟩ := RowTable.insert_cases hinsert
        exact ⟨r, List.mem_append_left _ hr, rfl, rfl⟩
      · intro v hv X hsees
        exact h.set_seen_other hsees
          ((h.seen hsees).insert_other hinsert fun howner => hv (howner.symm.trans (hrow id)))
  · intro id t X s b _ _ _ _ hsees hrun
    obtain ⟨inserted, hinsert, hsame⟩ := Option.map_eq_some_iff.1 hrun
    have hown : (c.get t).Sees (owner (row id)) (c.get X) := hrow id ▸ h.seen hsees
    have husers : HasOwner.owner (row id) ∈ t.users ↔ HasOwner.owner (row id) ∈ X.users := by
      rw [hrow id]
      exact hsees.users
    obtain ⟨inserted', hinsert', hresult⟩ := hown.insert husers hinsert
    simp only [hinsert']
    cases inserted with
    | none =>
      cases inserted' with
      | none =>
        obtain ⟨rfl, rfl⟩ := Prod.mk.inj hsame
        exact ⟨X, rfl, hsees⟩
      | some T' => exact hresult.elim
    | some T =>
      cases inserted' with
      | none => exact hresult.elim
      | some T' =>
        obtain ⟨rfl, rfl⟩ := Prod.mk.inj hsame
        exact ⟨c.set T' X, rfl, h.set_seen hsees (hrow id ▸ hresult)⟩

theorem confined_save (h : c.Lawful) {row : β} {next : Bool → TenantRequest} (howner : owner row = u)
    (hfact : F (c.fact (rowID row)))
    (hnext : ∀ G saved, OwnRowsOnly u G (next saved)) : OwnRowsOnly u F (c.save row next) := by
  subst howner
  refine .write ?_ ?_ hnext
  · intro _ t s b ht hF hrun
    have hissued := h.holds.1 (hF _ hfact)
    cases hsave : (c.get t).save t.users row with
    | none =>
      simp only [hsave] at hrun
      obtain ⟨rfl, -⟩ := Prod.mk.inj (Option.some.inj hrun)
      exact ⟨ht, fun _ _ _ h => h, fun _ _ h => h⟩
    | some T =>
      simp only [hsave] at hrun
      obtain ⟨rfl, -⟩ := Prod.mk.inj (Option.some.inj hrun)
      refine ⟨h.set_ok ht ((h.ok ht).save hissued hsave) ?_, ?_,
        h.set_holds (RowTable.save_issued hsave ▸ List.Subset.refl _)⟩
      · intro r hr
        obtain ⟨-, ⟨rfl, -⟩ | ⟨rfl, -⟩⟩ := RowTable.save_cases hsave
        · by_cases hid : rowID r = rowID row
          · refine ⟨row, List.mem_map.2 ⟨r, hr, if_pos (decide_eq_true hid)⟩, hid.symm, ?_⟩
            exact ((h.ok ht).owner_eq hissued hr hid).symm
          · exact ⟨r, List.mem_map.2 ⟨r, hr, if_neg (by simpa using hid)⟩, rfl, rfl⟩
        · exact ⟨r, List.mem_append_left _ hr, rfl, rfl⟩
      · intro v hv X hsees
        exact h.set_seen_other hsees ((h.seen hsees).save_other (h.ok ht) hissued hsave hv.symm)
  · intro _ t X s b ht hX hF hF' hsees hrun
    have hresult := (h.seen hsees).save (h.ok ht) (h.ok hX) (h.holds.1 (hF _ hfact)) hsees.users
    cases hsave : (c.get t).save t.users row with
    | none =>
      cases hsave' : (c.get X).save X.users row with
      | none =>
        simp only [hsave] at hrun
        obtain ⟨rfl, rfl⟩ := Prod.mk.inj (Option.some.inj hrun)
        exact ⟨X, rfl, hsees⟩
      | some T' =>
        rw [hsave, hsave'] at hresult
        exact hresult.elim
    | some T =>
      cases hsave' : (c.get X).save X.users row with
      | none =>
        rw [hsave, hsave'] at hresult
        exact hresult.elim
      | some T' =>
        rw [hsave, hsave'] at hresult
        simp only [hsave] at hrun
        obtain ⟨rfl, rfl⟩ := Prod.mk.inj (Option.some.inj hrun)
        exact ⟨c.set T' X, rfl, h.set_seen hsees hresult⟩

/-! ### Reordering -/

section Reorder
variable {set : Int → β → β} (hid : ∀ order r, rowID (set order r) = rowID r)
  (howner : ∀ order r, owner (set order r) = owner r)
  {T X : RowTable β} {users : List Nat}

theorem isOwnRow_owner {r : β} {id : Nat} (h : isOwnRow u id r = true) : owner r = u :=
  (of_decide_eq_true h).2

include howner in
theorem reordered_sees (items : List ReorderItem) (h : T.Sees u X) :
    (reordered u set items T).Sees u (reordered u set items X) := by
  induction items generalizing T X with
  | nil => exact h
  | cons item items ih => exact ih (h.update (howner item.sortOrder))

include howner in
theorem reordered_sees_other {v : Nat} (hv : v ≠ u) (items : List ReorderItem) (h : T.Sees v X) :
    (reordered u set items T).Sees v X := by
  induction items generalizing T with
  | nil => exact h
  | cons item items ih =>
    refine ih (h.update_other (howner item.sortOrder) fun r _ hr hown => hv ?_)
    exact hown.symm.trans (isOwnRow_owner hr)

include hid howner in
theorem reordered_ok (hkeys : ∀ order r, keys (set order r) = keys r) (items : List ReorderItem)
    (h : T.OK users) : (reordered u set items T).OK users := by
  induction items generalizing T with
  | nil => exact h
  | cons item items ih =>
    exact ih (h.update (hid item.sortOrder) (howner item.sortOrder) (hkeys item.sortOrder))

theorem reordered_issued (u : Nat) (set : Int → β → β) (items : List ReorderItem) (T : RowTable β) :
    (reordered u set items T).issued = T.issued := by
  induction items generalizing T with
  | nil => rfl
  | cons item items ih => exact ih _

include hid howner in
theorem reordered_rows (items : List ReorderItem) {r : β} (hr : r ∈ T.rows) :
    ∃ r' ∈ (reordered u set items T).rows, rowID r' = rowID r ∧ owner r' = owner r := by
  induction items generalizing T r with
  | nil => exact ⟨r, hr, rfl, rfl⟩
  | cons item items ih =>
    obtain ⟨r₁, hr₁, hid₁, howner₁⟩ : ∃ r₁ ∈ (T.update (isOwnRow u item.id) (set item.sortOrder)).rows,
        rowID r₁ = rowID r ∧ owner r₁ = owner r := by
      by_cases hrow : isOwnRow u item.id r = true
      · exact ⟨_, List.mem_map.2 ⟨r, hr, if_pos hrow⟩, hid _ _, howner _ _⟩
      · exact ⟨r, List.mem_map.2 ⟨r, hr, if_neg hrow⟩, rfl, rfl⟩
    obtain ⟨r₂, hr₂, hid₂, howner₂⟩ := ih hr₁
    exact ⟨r₂, hr₂, hid₂.trans hid₁, howner₂.trans howner₁⟩

include hid howner in
theorem confined_reorder (h : c.Lawful) (hkeys : ∀ order r, keys (set order r) = keys r)
    (items : List ReorderItem) {next : TenantRequest} (hnext : ∀ G, OwnRowsOnly u G next) :
    OwnRowsOnly u F (c.reorder u set items next) := by
  refine .write ?_ ?_ fun G _ => hnext G
  · intro _ t s b ht _ hrun
    obtain ⟨rfl, -⟩ := Prod.mk.inj (Option.some.inj hrun)
    refine ⟨h.set_ok ht (reordered_ok hid howner hkeys items (h.ok ht)) fun r hr =>
      reordered_rows hid howner items hr, ?_, ?_⟩
    · exact fun v hv X hsees =>
        h.set_seen_other hsees (reordered_sees_other howner hv items (h.seen hsees))
    · exact h.set_holds (reordered_issued u set items (c.get t) ▸ List.Subset.refl _)
  · intro _ t X s b _ _ _ _ hsees hrun
    obtain ⟨rfl, -⟩ := Prod.mk.inj (Option.some.inj hrun)
    exact ⟨_, rfl, h.set_seen hsees (reordered_sees howner items (h.seen hsees))⟩

end Reorder

/-- A reordering of one row, by another column. -/
theorem confined_updateRow (h : c.Lawful) {id : Nat} {change : β → β} {next : TenantRequest}
    (hid : ∀ r, rowID (change r) = rowID r) (howner : ∀ r, owner (change r) = owner r)
    (hkeys : ∀ r, keys (change r) = keys r) (hnext : ∀ G, OwnRowsOnly u G next) : OwnRowsOnly u F
    (c.updateRow u id change next) := by
  have hone :=
    confined_reorder (F := F) (fun _ => hid) (fun _ => howner) h (fun _ => hkeys) [⟨id, 0⟩] hnext
  exact hone

theorem confined_deleteRows (h : c.Lawful) {next : TenantRequest}
    (hp : ∀ t : TenantTables, t.OK → (∀ k, F k → t.Holds u k) → ∀ r ∈ (c.get t).rows, p r = true →
      owner r = u)
    (hnext : ∀ G, OwnRowsOnly u G next) : OwnRowsOnly u F (c.deleteRows p next) := by
  refine .write ?_ ?_ fun G _ => hnext G
  · intro _ t s b ht hF hrun
    obtain ⟨rfl, -⟩ := Prod.mk.inj (Option.some.inj hrun)
    refine ⟨h.delete_ok p ht, ?_, fun _ _ => h.delete_holds⟩
    exact fun v hv X hsees => h.delete_seen_other ht hsees fun r hr hpr hown =>
      hv (hown.symm.trans (hp t ht hF r hr hpr))
  · intro _ t X s b ht hX hF hF' hsees hrun
    obtain ⟨rfl, -⟩ := Prod.mk.inj (Option.some.inj hrun)
    exact ⟨_, rfl, h.delete_seen hsees (hp t ht hF) (hp X hX hF')⟩

end Rules

/-! ## Rules for subscriptions -/

/-- What is known of a subscription of account `u`: the ids that it refers to were handed out for it. -/
structure Refers (u : Nat) (K : TenantFact → Prop) (sub : Subscription) : Prop where
  owner : sub.userID = u
  category : ∀ id, sub.categoryID = some id → K (.category id)
  method : ∀ id, sub.paymentMethodID = some id → K (.method id)

section References
open HasOwner
variable {β : Type} [HasOwner β] {c : SettingTable β} {t X : TenantTables} {u : Nat}
  {sub row : Subscription}

theorem stored_refers (hok : t.OK) (hsub : sub ∈ t.subscriptions.rows) (huser : sub.userID = u) :
    Refers u (t.Holds u) sub := by
  refine ⟨huser, fun id hid => ?_, fun id hid => ?_⟩
  · obtain ⟨r, hr, rfl, howner⟩ := hok.categoryRefs sub hsub id hid
    have hhanded := hok.categories.handed r hr
    rwa [howner, huser] at hhanded
  · obtain ⟨r, hr, rfl, howner⟩ := hok.methodRefs sub hsub id hid
    have hhanded := hok.methods.handed r hr
    rwa [howner, huser] at hhanded

/-- What the foreign key checks is for the account to see. -/
theorem referenced_eq (h : c.Lawful) (hok : t.OK) (hX : X.OK) (hsees : t.Sees u X)
    (hfact : ∀ id, c.ref sub = some id → t.Holds u (c.fact id)) : c.referenced t sub = c.referenced
    X sub := by
  unfold SettingTable.referenced
  cases href : c.ref sub with
  | none => rfl
  | some id =>
    have hissued := h.holds.1 (hfact id href)
    have hissued' := ((h.seen hsees).issued id).1 hissued
    rw [Option.all_some, Option.all_some, (h.ok hok).any_id hissued, (h.ok hX).any_id hissued',
      (h.seen hsees).rows]

theorem hasReferences_eq (hok : t.OK) (hX : X.OK) (hsees : t.Sees u X)
    (hsub : Refers u (t.Holds u) sub) :
    t.hasReferences sub = X.hasReferences sub := by
  unfold TenantTables.hasReferences
  rw [referenced_eq categoryTable_lawful hok hX hsees hsub.category,
    referenced_eq methodTable_lawful hok hX hsees hsub.method]

theorem refOK_of_referenced (h : c.Lawful) (hok : t.OK) (hreferenced : c.referenced t sub = true)
    (huser : sub.userID = u)
    (hfact : ∀ id, c.ref sub = some id → t.Holds u (c.fact id)) : c.RefOK t sub := by
  intro id hid
  unfold SettingTable.referenced at hreferenced
  rw [hid, Option.all_some] at hreferenced
  obtain ⟨r, hr, hrid⟩ := List.any_eq_true.1 hreferenced
  have hrid := of_decide_eq_true hrid
  refine ⟨r, hr, hrid, ?_⟩
  exact ((h.ok hok).once _ _ _ ((h.ok hok).handed r hr) (hrid ▸ h.holds.1 (hfact id hid))).trans
    huser.symm

theorem refsOK_of_hasReferences (hok : t.OK) (hsub : Refers u (t.Holds u) sub)
    (href : t.hasReferences sub = true) :
    categoryTable.RefOK t sub ∧ methodTable.RefOK t sub := by
  obtain ⟨hcategory, hmethod⟩ := Bool.and_eq_true_iff.1 href
  exact ⟨refOK_of_referenced categoryTable_lawful hok hcategory hsub.owner hsub.category,
    refOK_of_referenced methodTable_lawful hok hmethod hsub.owner hsub.method⟩

/-- What `tx.Create` makes of a row. -/
theorem inserted_columns {table table' : SubscriptionTable}
    (h : insertSubscription sub table = some (row, table')) :
    row.id = table.nextID ∧ row.userID = sub.userID ∧ row.categoryID = sub.categoryID ∧
    row.paymentMethodID = sub.paymentMethodID := by
  unfold insertSubscription at h
  dsimp only at h
  split at h
  · obtain ⟨rfl, -⟩ := Prod.mk.inj (Option.some.inj h)
    exact ⟨rfl, rfl, rfl, rfl⟩
  · cases h

theorem isRow_owner {id : Nat} (h : isRow u id row = true) : row.userID = u :=
  of_decide_eq_true (Bool.and_eq_true_iff.1 h).2

end References

section SubscriptionRules
variable {u : Nat} {F : TenantFact → Prop} {p : Subscription → Bool}

theorem confined_anySubscription {next : Bool → TenantRequest} (hp : ∀ r, p r = true → r.userID = u)
    (hnext : ∀ G any, (∀ k, F k → G k) → OwnRowsOnly u G (next any)) : OwnRowsOnly u F
    (anySubscription p next) := by
  refine .read ?_ fun t _ hF => hnext _ _ hF
  intro t X _ _ hsees
  rw [RowTable.any_own fun r _ => hp r, RowTable.any_own fun r _ => hp r, hsees.subscriptions.rows]

theorem confined_readSubscriptions {order : Subscription → Subscription → Bool}
    {next : List Subscription → TenantRequest} (hp : ∀ r, p r = true → r.userID = u)
    (hnext : ∀ G rows, OwnRowsOnly u G (next rows)) :
    OwnRowsOnly u F (readSubscriptions p order next) := by
  refine .read ?_ fun _ _ _ => hnext _ _
  intro t X _ _ hsees
  rw [RowTable.filter_own fun r _ => hp r, RowTable.filter_own fun r _ => hp r, hsees.subscriptions.rows]

theorem confined_readSubscription {id : Nat} {next : Option Subscription → TenantRequest}
    (hnext : ∀ G row, (∀ k, F k → G k) → OwnRowsOnly u G (next row)) : OwnRowsOnly u F
    (readSubscription u id next) := by
  refine .read ?_ fun _ _ hF => hnext _ _ hF
  intro t X _ _ hsees
  have hp : ∀ r : Subscription, decide (r.id = id ∧ r.userID = u) = true → r.userID = u :=
    fun r hr => (of_decide_eq_true hr).2
  unfold findSubscription
  rw [RowTable.find_own fun r _ => hp r, RowTable.find_own fun r _ => hp r, hsees.subscriptions.rows]

theorem TenantTables.OK.write_rows {t : TenantTables} {S : RowTable Subscription} (h : t.OK)
    (hS : S.OK t.users)
    (hrows : ∀ x ∈ S.rows,
      x ∈ t.subscriptions.rows ∨ categoryTable.RefOK t x ∧ methodTable.RefOK t x) :
    TenantTables.OK { t with subscriptions := S } :=
  h.withSubscriptions hS (fun x hx => (hrows x hx).elim (h.categoryRefs x) (·.1))
    fun x hx => (hrows x hx).elim (h.methodRefs x) (·.2)

theorem confined_createSubscription {sub : Subscription}
    {next : Except String Subscription → TenantRequest} (hsub : Refers u F sub)
    (hnext : ∀ G answer, OwnRowsOnly u G (next answer)) :
    OwnRowsOnly u F (createSubscription sub next) := by
  -- the row inserted has the columns of the draft, whose references were checked
  have hrefers : ∀ {t : TenantTables} {id : Nat} {row table}, (∀ k, F k → t.Holds u k) →
      insertSubscription sub ⟨[], id⟩ = some (row, table) → Refers u (t.Holds u) row := by
    intro t id row table hF hins
    obtain ⟨-, huser, hcategory, hmethod⟩ := inserted_columns hins
    exact ⟨huser.trans hsub.owner, fun i hi => hF _ (hsub.category i (hcategory ▸ hi)),
      fun i hi => hF _ (hsub.method i (hmethod ▸ hi))⟩
  refine .write ?_ ?_ hnext
  · intro id t s b ht hF hrun
    cases hins : insertSubscription sub ⟨[], id⟩ with
    | none =>
      simp only [hins] at hrun
      obtain ⟨rfl, -⟩ := Prod.mk.inj (Option.some.inj hrun)
      exact ⟨ht, fun _ _ _ h => h, fun _ _ h => h⟩
    | some inserted =>
      obtain ⟨row, table⟩ := inserted
      have hrow := hrefers hF hins
      simp only [hins] at hrun
      split at hrun
      · obtain ⟨rfl, -⟩ := Prod.mk.inj (Option.some.inj hrun)
        exact ⟨ht, fun _ _ _ h => h, fun _ _ h => h⟩
      · rename_i href
        obtain ⟨inserted, hinsert, hsame⟩ := Option.map_eq_some_iff.1 hrun
        cases inserted with
        | none =>
          obtain ⟨rfl, -⟩ := Prod.mk.inj hsame
          exact ⟨ht, fun _ _ _ h => h, fun _ _ h => h⟩
        | some T =>
          obtain ⟨rfl, -⟩ := Prod.mk.inj hsame
          refine ⟨ht.write_rows (ht.subscriptions.insert hinsert) ?_, ?_, ?_⟩
          · intro x hx
            obtain ⟨-, -, -, rfl⟩ := RowTable.insert_cases hinsert
            rcases List.mem_append.1 hx with hx | hx
            · exact .inl hx
            · rw [List.mem_singleton.1 hx]
              exact .inr (refsOK_of_hasReferences ht hrow (by simpa using href))
          · intro v hv X hsees
            refine hsees.withSubscriptions (hsees.subscriptions.insert_other hinsert fun howner => hv ?_)
            exact howner.symm.trans hrow.owner
          · intro v k hk
            cases k with
            | category i => exact hk
            | method i => exact hk
            | currency i => exact hk
  · intro id t X s b ht hX hF hF' hsees hrun
    cases hins : insertSubscription sub ⟨[], id⟩ with
    | none =>
      simp only [hins] at hrun ⊢
      obtain ⟨rfl, rfl⟩ := Prod.mk.inj (Option.some.inj hrun)
      exact ⟨X, rfl, hsees⟩
    | some inserted =>
      obtain ⟨row, table⟩ := inserted
      have hrow := hrefers hF hins
      simp only [hins] at hrun ⊢
      rw [← hasReferences_eq ht hX hsees hrow]
      split at hrun
      · rename_i href
        rw [if_pos href]
        obtain ⟨rfl, rfl⟩ := Prod.mk.inj (Option.some.inj hrun)
        exact ⟨X, rfl, hsees⟩
      · rename_i href
        rw [if_neg href]
        obtain ⟨inserted, hinsert, hsame⟩ := Option.map_eq_some_iff.1 hrun
        have howner : HasOwner.owner row = u := hrow.owner
        have husers : HasOwner.owner row ∈ t.users ↔ HasOwner.owner row ∈ X.users := by
          rw [howner]
          exact hsees.users
        obtain ⟨inserted', hinsert', hresult⟩ := (howner ▸ hsees.subscriptions).insert husers hinsert
        rw [hinsert']
        cases inserted with
        | none =>
          cases inserted' with
          | none =>
            obtain ⟨rfl, rfl⟩ := Prod.mk.inj hsame
            exact ⟨X, rfl, hsees⟩
          | some T' => exact hresult.elim
        | some T =>
          cases inserted' with
          | none => exact hresult.elim
          | some T' =>
            obtain ⟨rfl, rfl⟩ := Prod.mk.inj hsame
            exact ⟨_, rfl, hsees.withSubscriptions (howner ▸ hresult)⟩

/-! ### Writing a row -/

section Row
variable {t X : TenantTables} {id : Nat} {set : Subscription → Subscription} {updatedAt now : Time}
  {sub : Subscription}

/-- The rows that `commitUpdates` leaves. -/
theorem commitUpdates_rows (u id : Nat) (set : Subscription → Subscription) (updatedAt : Time)
    (rows : List Subscription) : (commitUpdates u id set updatedAt rows).2 = rows ∨
      (commitUpdates u id set updatedAt rows).2 = updateWhere (isRow u id) set rows := by
  unfold commitUpdates updateSubscription
  split
  · exact .inl rfl
  · rename_i hrows
    right
    split at hrows
    · obtain rfl := Option.some.inj hrows
      split <;> rfl
    · cases hrows

/-- It does with an account's rows what it does with all. -/
theorem commitUpdates_own (u id : Nat) (updatedAt : Time) (huser : ∀ r, (set r).userID = r.userID)
    (T : RowTable Subscription) :
    commitUpdates u id set updatedAt (T.own u) =
      ((commitUpdates u id set updatedAt T.rows).1,
        (commitUpdates u id set updatedAt T.rows).2.filter (·.userID = u)) := by
  have hchecks : (T.own u).all (fun row => !isRow u id row || (set row).meetsChecks) =
      T.rows.all fun row => !isRow u id row || (set row).meetsChecks := by
    rw [Bool.eq_iff_iff, List.all_eq_true, List.all_eq_true]
    constructor
    · intro h r hr
      cases hrow : isRow u id r with
      | false => rfl
      | true => exact hrow ▸ h r (List.mem_filter.2 ⟨hr, decide_eq_true (isRow_owner hrow)⟩)
    · exact fun h r hr => h r (List.mem_of_mem_filter hr)
  have hupdate : updateWhere (isRow u id) set (T.own u) =
      (updateWhere (isRow u id) set T.rows).filter (·.userID = u) :=
    (RowTable.own_update (T := T) (u := u) (p := isRow u id) huser).symm
  have hfind : findSubscription u id (updateWhere (isRow u id) set (T.own u)) =
      findSubscription u id (updateWhere (isRow u id) set T.rows) := by
    rw [hupdate]
    exact (RowTable.find_own (T := ⟨updateWhere (isRow u id) set T.rows, []⟩) fun r _ hr =>
      (of_decide_eq_true hr).2).symm
  unfold commitUpdates updateSubscription
  rw [hchecks]
  split
  · rename_i hnone
    split at hnone
    · cases hnone
    · rename_i hbad
      rw [if_neg hbad]
      rfl
  · rename_i rows hrows
    split at hrows
    · rename_i hgood
      obtain rfl := Option.some.inj hrows
      rw [if_pos hgood, hfind]
      dsimp only
      split <;> simp only [hupdate]
    · cases hrows

/-- The row is written, by a change that keeps its id and its account. -/
theorem update_keeps (ht : t.OK) (hid : ∀ r, (set r).id = r.id) (huser : ∀ r, (set r).userID = r.userID)
    (hrefs : ∀ r ∈ t.subscriptions.rows, isRow u id r = true → categoryTable.RefOK t (set r) ∧
      methodTable.RefOK t (set r)) :
    Tenants.Keeps TenantTables.OK TenantTables.Holds TenantTables.Sees u t
      { t with subscriptions := t.subscriptions.update (isRow u id) set } := by
  refine ⟨ht.write_rows (ht.subscriptions.update hid huser fun _ => rfl) ?_, ?_, ?_⟩
  · intro x hx
    rcases mem_updateWhere_cases hx with ⟨hx, -⟩ | ⟨r, hr, hrow, rfl⟩
    · exact .inl hx
    · exact .inr (hrefs r hr hrow)
  · intro v hv X hsees
    exact hsees.withSubscriptions
      (hsees.subscriptions.update_other huser fun r _ hr hown => hv (hown.symm.trans (isRow_owner hr)))
  · intro v k hk
    cases k with
    | category i => exact hk
    | method i => exact hk
    | currency i => exact hk

theorem update_agrees (hsees : t.Sees u X) (huser : ∀ r, (set r).userID = r.userID) :
    TenantTables.Sees u { t with subscriptions := t.subscriptions.update (isRow u id) set }
      { X with subscriptions := X.subscriptions.update (isRow u id) set } :=
  hsees.withSubscriptions (hsees.subscriptions.update huser)

/-- A change of other columns keeps the references of a row. -/
theorem refsOK_of_same (ht : t.OK) {r : Subscription} (hr : r ∈ t.subscriptions.rows)
    (huser : (set r).userID = r.userID) (hcategory : (set r).categoryID = r.categoryID)
    (hmethod : (set r).paymentMethodID = r.paymentMethodID) :
    categoryTable.RefOK t (set r) ∧ methodTable.RefOK t (set r) := by
  constructor
  · intro i hi
    obtain ⟨row, hrow, hid, howner⟩ := ht.categoryRefs r hr i (hcategory.symm.trans hi)
    exact ⟨row, hrow, hid, howner.trans huser.symm⟩
  · intro i hi
    obtain ⟨row, hrow, hid, howner⟩ := ht.methodRefs r hr i (hmethod.symm.trans hi)
    exact ⟨row, hrow, hid, howner.trans huser.symm⟩

theorem lifecycleWrite_categoryID (advanced row : Subscription) :
    (lifecycleWrite advanced row).categoryID = row.categoryID := rfl

theorem lifecycleWrite_paymentMethodID (advanced row : Subscription) :
    (lifecycleWrite advanced row).paymentMethodID = row.paymentMethodID := rfl

theorem persist_eq (u : Nat) (sub : Subscription) (now : Time) (t : TenantTables) : t.persist u sub now =
    let advanced := advanceSubscriptionLifecycle sub now
    if advanced.2 then
      { t with
        subscriptions := t.subscriptions.update (isRow u advanced.1.id) (lifecycleWrite advanced.1) }
    else t := by
  unfold TenantTables.persist persistAdvancedSubscriptionLifecycle
  dsimp only
  cases (advanceSubscriptionLifecycle sub now).2 <;> rfl

theorem confined_persistLifecycle {next : TenantRequest} (hnext : ∀ G, OwnRowsOnly u G next) :
    OwnRowsOnly u F (persistLifecycle u sub now next) := by
  refine .write ?_ ?_ fun G _ => hnext G
  · intro _ t s b ht _ hrun
    obtain ⟨rfl, -⟩ := Prod.mk.inj (Option.some.inj hrun)
    rw [persist_eq]
    generalize advanceSubscriptionLifecycle sub now = advanced
    dsimp only
    split
    · exact update_keeps ht (lifecycleWrite_id _) (lifecycleWrite_userID _) fun r hr _ =>
        refsOK_of_same ht hr (lifecycleWrite_userID _ r) (lifecycleWrite_categoryID _ r)
          (lifecycleWrite_paymentMethodID _ r)
    · exact ⟨ht, fun _ _ _ h => h, fun _ _ h => h⟩
  · intro _ t X s b _ _ _ _ hsees hrun
    obtain ⟨rfl, -⟩ := Prod.mk.inj (Option.some.inj hrun)
    refine ⟨_, rfl, ?_⟩
    rw [persist_eq, persist_eq]
    generalize advanceSubscriptionLifecycle sub now = advanced
    dsimp only
    split
    · exact update_agrees hsees (lifecycleWrite_userID _)
    · exact hsees

/-- The row that the change makes refers to ids of the account. -/
theorem confined_commitSubscription {next : Except String Subscription → TenantRequest}
    (hid : ∀ r, (set r).id = r.id) (huser : ∀ r, (set r).userID = r.userID)
    (hset : ∀ K : TenantFact → Prop, (∀ k, F k → K k) → ∀ r, Refers u K r → Refers u K (set r))
    (hnext : ∀ G answer, OwnRowsOnly u G (next answer)) : OwnRowsOnly u F
    (commitSubscription u id set updatedAt next) := by
  have hrefers : ∀ {t : TenantTables}, t.OK → (∀ k, F k → t.Holds u k) → ∀ r ∈ t.subscriptions.rows,
      isRow u id r = true →
      Refers u (t.Holds u) (set r) :=
        fun ht hF r hr hrow => hset _ hF r (stored_refers ht hr (isRow_owner hrow))
  refine .write ?_ ?_ hnext
  · intro _ t s b ht hF hrun
    obtain rfl : (t.commit u id set updatedAt).1 = s := congrArg Prod.fst (Option.some.inj hrun)
    unfold TenantTables.commit
    split
    · exact ⟨ht, fun _ _ _ h => h, fun _ _ h => h⟩
    · rename_i hgood
      dsimp only
      rcases commitUpdates_rows u id set updatedAt t.subscriptions.rows with hrows | hrows
      · rw [hrows]
        exact ⟨ht, fun _ _ _ h => h, fun _ _ h => h⟩
      · rw [hrows]
        refine update_keeps ht hid huser fun r hr hrow => refsOK_of_hasReferences ht
          (hrefers ht hF r hr hrow) ?_
        cases href : t.hasReferences (set r) with
        | true => rfl
        | false => exact absurd (List.any_eq_true.2 ⟨r, hr, by rw [hrow, href]; rfl⟩) hgood
  · intro _ t X s b ht hX hF hF' hsees hrun
    have hguard : (t.subscriptions.rows.any fun row => isRow u id row && !t.hasReferences (set row)) =
        X.subscriptions.rows.any fun row => isRow u id row && !X.hasReferences (set row) := by
      rw [RowTable.any_own fun r _ hr => isRow_owner (Bool.and_eq_true_iff.1 hr).1,
        RowTable.any_own (T := X.subscriptions) fun r _ hr => isRow_owner (Bool.and_eq_true_iff.1 hr).1,
        ← hsees.subscriptions.rows]
      rw [Bool.eq_iff_iff, List.any_eq_true, List.any_eq_true]
      refine exists_congr fun r => and_congr_right fun hr => ?_
      cases hrow : isRow u id r with
      | false => rfl
      | true => rw [hasReferences_eq ht hX hsees (hrefers ht hF r (List.mem_of_mem_filter hr) hrow)]
    have hown := commitUpdates_own u id updatedAt huser t.subscriptions
    rw [hsees.subscriptions.rows, commitUpdates_own u id updatedAt huser] at hown
    obtain ⟨hanswer, hrows⟩ := Prod.mk.inj hown
    have hboth : (t.commit u id set updatedAt).2 = (X.commit u id set updatedAt).2 ∧
        TenantTables.Sees u (t.commit u id set updatedAt).1 (X.commit u id set updatedAt).1 := by
      unfold TenantTables.commit
      rw [hguard]
      split
      · exact ⟨rfl, hsees⟩
      · exact ⟨hanswer.symm, hsees.withSubscriptions
          ⟨hrows.symm, hsees.subscriptions.issued, hsees.subscriptions.room⟩⟩
    rw [Option.some.inj hrun] at hboth
    exact ⟨(X.commit u id set updatedAt).1, congrArg some (Prod.ext rfl hboth.1.symm), hboth.2⟩

theorem confined_removeSubscription {next : TenantRequest} (hnext : ∀ G, OwnRowsOnly u G next) :
    OwnRowsOnly u F (removeSubscription u id next) := by
  refine .write ?_ ?_ fun G _ => hnext G
  · intro _ t s b ht _ hrun
    obtain ⟨rfl, -⟩ := Prod.mk.inj (Option.some.inj hrun)
    refine ⟨ht.write_rows (ht.subscriptions.delete _) fun x hx =>
      .inl (List.mem_of_mem_filter hx), ?_, ?_⟩
    · intro v hv X hsees
      exact hsees.withSubscriptions
        (hsees.subscriptions.delete_other fun r _ hr hown => hv (hown.symm.trans (isRow_owner hr)))
    · intro v k hk
      cases k with
      | category i => exact hk
      | method i => exact hk
      | currency i => exact hk
  · intro _ t X s b _ _ _ _ hsees hrun
    obtain ⟨rfl, -⟩ := Prod.mk.inj (Option.some.inj hrun)
    exact ⟨_, rfl, hsees.withSubscriptions (hsees.subscriptions.delete _)⟩

end Row

/-! ### Deleting an account -/

section DeleteUser
open HasOwner
variable {t X : TenantTables} {users : List Nat} {v : Nat}

theorem mem_users_of_ne (hv : v ≠ u) : v ∈ users.filter (· ≠ u) ↔ v ∈ users := by simp [hv]

/-- The tables of an account without the account's rows. -/
def withoutSubscriptions (userID : Nat) (t : TenantTables) : TenantTables :=
  { t with subscriptions := t.subscriptions.delete (·.userID = userID) }

theorem withoutSubscriptions_ok (ht : t.OK) : (withoutSubscriptions u t).OK :=
  ht.write_rows (ht.subscriptions.delete _) fun _ hx => .inl (List.mem_of_mem_filter hx)

/-- An account none of whose rows is left. -/
theorem TenantTables.OK.withoutUser (ht : t.OK) (hcategories : ∀ r ∈ t.categories.rows, r.userID ≠ u)
    (hmethods : ∀ r ∈ t.methods.rows, r.userID ≠ u) (hcurrencies : ∀ r ∈ t.currencies.rows, r.userID ≠ u)
    (hsubs : ∀ r ∈ t.subscriptions.rows, r.userID ≠ u) :
    TenantTables.OK { t with users := t.users.filter (· ≠ u) } where
  categories :=
    { ht.categories with
      owners := fun r hr => (mem_users_of_ne (hcategories r hr)).2 (ht.categories.owners r hr) }
  methods :=
    { ht.methods with
      owners := fun r hr => (mem_users_of_ne (hmethods r hr)).2 (ht.methods.owners r hr) }
  currencies :=
    { ht.currencies with
      owners := fun r hr => (mem_users_of_ne (hcurrencies r hr)).2 (ht.currencies.owners r hr) }
  subscriptions :=
    { ht.subscriptions with
      owners := fun r hr => (mem_users_of_ne (hsubs r hr)).2 (ht.subscriptions.owners r hr) }
  categoryRefs := ht.categoryRefs
  methodRefs := ht.methodRefs

/-- A condition that clearing a reference does not change. -/
theorem cleared_rows {β : Type} [HasOwner β] {c : SettingTable β} (h : c.Lawful) {p : β → Bool}
    (hrows : ∀ r ∈ t.subscriptions.rows, r.userID ≠ u) :
    ∀ r ∈ (c.delete p t).subscriptions.rows, r.userID ≠ u := by
  intro x hx
  rw [h.delete_subscriptions] at hx
  rcases mem_updateWhere_cases hx with ⟨hx, -⟩ | ⟨r, hr, -, rfl⟩
  · exact hrows x hx
  · rw [h.clear_userID]
    exact hrows r hr

theorem deleteUser_ok (ht : t.OK) : (t.deleteUser u).OK := by
  have h₁ := withoutSubscriptions_ok (u := u) ht
  have h₂ := methodTable_lawful.delete_ok (·.userID = u) h₁
  have h₃ := currencyTable_lawful.delete_ok (·.userID = u) h₂
  have h₄ := categoryTable_lawful.delete_ok (·.userID = u) h₃
  refine h₄.withoutUser ?_ ?_ ?_ ?_
  · intro r hr
    simpa using (List.mem_filter.1 hr).2
  · intro r hr
    simpa using (List.mem_filter.1 hr).2
  · intro r hr
    simpa using (List.mem_filter.1 hr).2
  · refine cleared_rows categoryTable_lawful
      (cleared_rows currencyTable_lawful (cleared_rows methodTable_lawful ?_))
    intro r hr
    simpa using (List.mem_filter.1 hr).2

theorem deleteUser_holds {k : TenantFact} (hk : t.Holds v k) : (t.deleteUser u).Holds v k := by
  cases k with
  | category i => exact hk
  | method i => exact hk
  | currency i => exact hk

theorem deleteUser_others (ht : t.OK) (hv : v ≠ u) (hsees : t.Sees v X) : (t.deleteUser u).Sees v X := by
  have h₁ := withoutSubscriptions_ok (u := u) ht
  have h₂ := methodTable_lawful.delete_ok (·.userID = u) h₁
  have h₃ := currencyTable_lawful.delete_ok (·.userID = u) h₂
  have hsees₁ : (withoutSubscriptions u t).Sees v X :=
    hsees.withSubscriptions
      (hsees.subscriptions.delete_other fun r _ hr hown => hv (hown.symm.trans (of_decide_eq_true hr)))
  have hsees₂ :=
    methodTable_lawful.delete_seen_other h₁ hsees₁ fun r _ hr hown =>
      hv (hown.symm.trans (of_decide_eq_true hr))
  have hsees₃ :=
    currencyTable_lawful.delete_seen_other h₂ hsees₂ fun r _ hr hown =>
      hv (hown.symm.trans (of_decide_eq_true hr))
  have hsees₄ :=
    categoryTable_lawful.delete_seen_other h₃ hsees₃ fun r _ hr hown =>
      hv (hown.symm.trans (of_decide_eq_true hr))
  exact ⟨(mem_users_of_ne hv).trans hsees₄.users, hsees₄.categories, hsees₄.methods,
    hsees₄.currencies, hsees₄.subscriptions⟩

theorem deleteUser_seen (hsees : t.Sees u X) : (t.deleteUser u).Sees u (X.deleteUser u) := by
  have hsees₁ : (withoutSubscriptions u t).Sees u (withoutSubscriptions u X) :=
    hsees.withSubscriptions (hsees.subscriptions.delete _)
  have hsees₂ :=
    methodTable_lawful.delete_seen (p := (·.userID = u)) hsees₁ (fun r _ hr => of_decide_eq_true hr)
    fun r _ hr => of_decide_eq_true hr
  have hsees₃ :=
    currencyTable_lawful.delete_seen (p := (·.userID = u)) hsees₂ (fun r _ hr => of_decide_eq_true hr)
    fun r _ hr => of_decide_eq_true hr
  have hsees₄ :=
    categoryTable_lawful.delete_seen (p := (·.userID = u)) hsees₃ (fun r _ hr => of_decide_eq_true hr)
    fun r _ hr => of_decide_eq_true hr
  have hgone : ∀ users : List Nat, u ∉ users.filter (· ≠ u) :=
    fun users hin => by simpa using (List.mem_filter.1 hin).2
  exact ⟨iff_of_false (hgone _) (hgone _), hsees₄.categories, hsees₄.methods, hsees₄.currencies,
    hsees₄.subscriptions⟩

theorem confined_removeUser {next : TenantRequest} (hnext : ∀ G, OwnRowsOnly u G next) :
    OwnRowsOnly u F (removeUser u next) := by
  refine .write ?_ ?_ fun G _ => hnext G
  · intro _ t s b ht _ hrun
    obtain ⟨rfl, -⟩ := Prod.mk.inj (Option.some.inj hrun)
    exact ⟨deleteUser_ok ht, fun v hv X => deleteUser_others ht hv, fun v k => deleteUser_holds⟩
  · intro _ t X s b _ _ _ _ hsees hrun
    obtain ⟨rfl, -⟩ := Prod.mk.inj (Option.some.inj hrun)
    exact ⟨_, rfl, deleteUser_seen hsees⟩

end DeleteUser

end SubscriptionRules

end Subdux
