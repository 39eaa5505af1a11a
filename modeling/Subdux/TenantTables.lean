import Subdux.Crud
import Subdux.Lib.OwnedTables
import Subdux.Lib.Tenants
/-!
# The tables of the accounts

Categories, payment methods, currencies and subscriptions, with what the schema says of them
(`internal/model`): ids are handed out once, names and codes are unique per account, a row goes
with its account, and a category or payment method that is deleted is cleared from the
subscriptions that had it. The schema does not say that a subscription's category is of its own
account; that is for the requests to keep.
-/

namespace Subdux
open GoStrings OwnedTables Rows

/-! ## Rows -/

structure CategoryRow where
  id : Nat
  userID : Nat
  name : String
  systemKey : Option String
  nameCustomized : Bool
  displayOrder : Int
  deriving DecidableEq

structure PaymentMethodRow where
  id : Nat
  userID : Nat
  name : String
  systemKey : Option String
  nameCustomized : Bool
  icon : String
  sortOrder : Int
  deriving DecidableEq

structure CurrencyRow where
  id : Nat
  userID : Nat
  code : String
  symbol : String
  aliasName : String
  sortOrder : Int
  deriving DecidableEq

/-- The index on the system key leaves rows without one out. -/
def namedKeys (name : String) (systemKey : Option String) : List (String × String) :=
  ("name", name) :: (systemKey.map fun key => ("system_key", key)).toList

instance categoryOwned : HasOwner CategoryRow :=
  ⟨(·.id), (·.userID), fun row => namedKeys row.name row.systemKey⟩

instance paymentMethodOwned : HasOwner PaymentMethodRow :=
  ⟨(·.id), (·.userID), fun row => namedKeys row.name row.systemKey⟩

instance currencyOwned : HasOwner CurrencyRow := ⟨(·.id), (·.userID), fun row => [("code", row.code)]⟩

instance subscriptionOwned : HasOwner Subscription := ⟨(·.id), (·.userID), fun _ => []⟩

structure TenantTables where
  users : List Nat
  categories : RowTable CategoryRow
  methods : RowTable PaymentMethodRow
  currencies : RowTable CurrencyRow
  subscriptions : RowTable Subscription

/-- An id of a table. -/
inductive TenantFact where
  | category (id : Nat)
  | method (id : Nat)
  | currency (id : Nat)

/-- The id was handed out for a row of the account. -/
def TenantTables.Holds (t : TenantTables) (u : Nat) : TenantFact → Prop
  | .category id => (id, u) ∈ t.categories.issued
  | .method id => (id, u) ∈ t.methods.issued
  | .currency id => (id, u) ∈ t.currencies.issued

/-- One of the three tables of settings. `ref` is the column of a subscription that refers to
it, and `clear` sets that column to `NULL`. -/
structure SettingTable (β : Type) where
  get : TenantTables → RowTable β
  set : RowTable β → TenantTables → TenantTables
  fact : Nat → TenantFact
  ref : Subscription → Option Nat
  clear : Subscription → Subscription

def categoryTable : SettingTable CategoryRow where
  get := (·.categories)
  set T t := { t with categories := T }
  fact := .category
  ref := (·.categoryID)
  clear sub := { sub with categoryID := none }

def methodTable : SettingTable PaymentMethodRow where
  get := (·.methods)
  set T t := { t with methods := T }
  fact := .method
  ref := (·.paymentMethodID)
  clear sub := { sub with paymentMethodID := none }

def currencyTable : SettingTable CurrencyRow where
  get := (·.currencies)
  set T t := { t with currencies := T }
  fact := .currency
  ref _ := none
  clear sub := sub

section Statements
variable {β : Type} [HasOwner β]

/-- `id = ? AND user_id = ?`. -/
def isOwnRow (userID id : Nat) (row : β) : Bool := HasOwner.rowID row = id ∧ HasOwner.owner row = userID

/-- `DELETE`, and what `ON DELETE SET NULL` does. -/
def SettingTable.delete (c : SettingTable β) (p : β → Bool) (t : TenantTables) : TenantTables :=
  let gone := ((c.get t).rows.filter p).map HasOwner.rowID
  let t := c.set ((c.get t).delete p) t
  { t with subscriptions := t.subscriptions.update (fun sub => (c.ref sub).any (· ∈ gone)) c.clear }

/-- The foreign key of `ref`, for a row that is written. -/
def SettingTable.referenced (c : SettingTable β) (t : TenantTables) (sub : Subscription) : Bool :=
  (c.ref sub).all fun id => (c.get t).rows.any (HasOwner.rowID · = id)

/-- A subscription refers to a row of its own account. -/
def SettingTable.RefOK (c : SettingTable β) (t : TenantTables) (sub : Subscription) : Prop :=
  ∀ id, c.ref sub = some id → ∃ row ∈ (c.get t).rows, HasOwner.rowID row = id ∧
    HasOwner.owner row = sub.userID

def SettingTable.RefsOK (c : SettingTable β) (t : TenantTables) : Prop :=
  ∀ sub ∈ t.subscriptions.rows, c.RefOK t sub

end Statements

namespace TenantTables

def hasReferences (t : TenantTables) (sub : Subscription) : Bool :=
  categoryTable.referenced t sub && methodTable.referenced t sub

/-- The transaction of `DeleteUser`. -/
def deleteUser (userID : Nat) (t : TenantTables) : TenantTables :=
  let t := { t with subscriptions := t.subscriptions.delete (·.userID = userID) }
  let t := methodTable.delete (·.userID = userID) t
  let t := currencyTable.delete (·.userID = userID) t
  let t := categoryTable.delete (·.userID = userID) t
  { t with users := t.users.filter (· ≠ userID) }

structure OK (t : TenantTables) : Prop where
  categories : t.categories.OK t.users
  methods : t.methods.OK t.users
  currencies : t.currencies.OK t.users
  subscriptions : t.subscriptions.OK t.users
  categoryRefs : categoryTable.RefsOK t
  methodRefs : methodTable.RefsOK t

structure Sees (u : Nat) (t t' : TenantTables) : Prop where
  users : u ∈ t.users ↔ u ∈ t'.users
  categories : t.categories.Sees u t'.categories
  methods : t.methods.Sees u t'.methods
  currencies : t.currencies.Sees u t'.currencies
  subscriptions : t.subscriptions.Sees u t'.subscriptions

theorem Sees.refl (u : Nat) (t : TenantTables) : Sees u t t :=
  ⟨Iff.rfl, .refl u _, .refl u _, .refl u _, .refl u _⟩

theorem Sees.holds {u : Nat} {t t' : TenantTables} (h : Sees u t t') (k : TenantFact) :
    t.Holds u k ↔ t'.Holds u k := by
  cases k with
  | category id => exact h.categories.issued id
  | method id => exact h.methods.issued id
  | currency id => exact h.currencies.issued id

end TenantTables

/-! ## What statements keep -/

section Lawful
open HasOwner
variable {β : Type} [HasOwner β] {c : SettingTable β} {t X : TenantTables} {T T' : RowTable β}
  {S S' : RowTable Subscription}
  {u v : Nat} {sub : Subscription} {p : β → Bool} {users : List Nat}

theorem TenantTables.Sees.withSubscriptions (h : t.Sees u X) (hS : S.Sees u S') :
    TenantTables.Sees u { t with subscriptions := S } { X with subscriptions := S' } :=
  ⟨h.users, h.categories, h.methods, h.currencies, hS⟩

theorem TenantTables.OK.withSubscriptions (h : t.OK) (hS : S.OK t.users)
    (hcategories : categoryTable.RefsOK { t with subscriptions := S })
    (hmethods : methodTable.RefsOK { t with subscriptions := S }) :
    TenantTables.OK { t with subscriptions := S } :=
      ⟨h.categories, h.methods, h.currencies, hS, hcategories, hmethods⟩

/-- What the three tables have in common. -/
structure SettingTable.Lawful (c : SettingTable β) : Prop where
  set_get : ∀ t, c.set (c.get t) t = t
  get_set : ∀ T t, c.get (c.set T t) = T
  get_subscriptions : ∀ t S, c.get { t with subscriptions := S } = c.get t
  users : ∀ T t, (c.set T t).users = t.users
  subscriptions : ∀ T t, (c.set T t).subscriptions = t.subscriptions
  ok : ∀ {t : TenantTables}, t.OK → (c.get t).OK t.users
  refs : ∀ {t : TenantTables}, t.OK → c.RefsOK t
  seen : ∀ {u : Nat} {t X : TenantTables}, t.Sees u X → (c.get t).Sees u (c.get X)
  holds : ∀ {t : TenantTables} {u id : Nat}, t.Holds u (c.fact id) ↔ (id, u) ∈ (c.get t).issued
  set_ok : ∀ {t : TenantTables} {T : RowTable β}, t.OK → T.OK t.users →
    (∀ r ∈ (c.get t).rows, ∃ r' ∈ T.rows, rowID r' = rowID r ∧ owner r' = owner r) → (c.set T t).OK
  delete_ok : ∀ {t : TenantTables} (p : β → Bool), t.OK → (c.delete p t).OK
  set_seen : ∀ {u : Nat} {t X : TenantTables} {T T' : RowTable β}, t.Sees u X → T.Sees u T' →
    (c.set T t).Sees u (c.set T' X)
  set_holds : ∀ {t : TenantTables} {T : RowTable β}, (c.get t).issued ⊆ T.issued → ∀ u k,
    t.Holds u k → (c.set T t).Holds u k
  clear_id : ∀ sub, (c.clear sub).id = sub.id
  clear_userID : ∀ sub, (c.clear sub).userID = sub.userID

theorem SettingTable.RefsOK.of_rows (h : c.RefsOK t) (hsubs : X.subscriptions = t.subscriptions)
    (hrows : ∀ r ∈ (c.get t).rows, ∃ r' ∈ (c.get X).rows, rowID r' = rowID r ∧
      owner r' = owner r) : c.RefsOK X := by
  intro sub hsub id hid
  rw [hsubs] at hsub
  obtain ⟨r, hr, hrid, howner⟩ := h sub hsub id hid
  obtain ⟨r', hr', hid', howner'⟩ := hrows r hr
  exact ⟨r', hr', hid'.trans hrid, howner'.trans howner⟩

/-- Subscriptions that refer to no more than they did. -/
theorem SettingTable.RefsOK.of_subscriptions (h : c.RefsOK t) (hget : c.get X = c.get t)
    (hsubs : ∀ x ∈ X.subscriptions.rows, ∃ sub ∈ t.subscriptions.rows, x.userID = sub.userID ∧
      ∀ id, c.ref x = some id → c.ref sub = some id) : c.RefsOK X := by
  intro x hx id hid
  obtain ⟨sub, hsub, huser, href⟩ := hsubs x hx
  obtain ⟨r, hr, hrid, howner⟩ := h sub hsub id (href id hid)
  exact ⟨r, hget ▸ hr, hrid, howner.trans huser.symm⟩

/-- A table whose rows are deleted, with the references to them. -/
theorem SettingTable.RefsOK.delete (h : c.RefsOK t) (hget : c.get (c.delete p t) = (c.get t).delete p)
    (hsubs : (c.set ((c.get t).delete p) t).subscriptions = t.subscriptions)
    (hclear : ∀ sub, c.ref (c.clear sub) = none) :
    c.RefsOK (c.delete p t) := by
  intro x hx id hid
  rcases mem_updateWhere_cases hx with ⟨hx, hkept⟩ | ⟨sub, -, -, rfl⟩
  · rw [hsubs] at hx
    obtain ⟨r, hr, hrid, howner⟩ := h x hx id hid
    refine ⟨r, ?_, hrid, howner⟩
    rw [hget]
    refine List.mem_filter.2 ⟨hr, ?_⟩
    cases hpr : p r with
    | false => rfl
    | true =>
      have hgone : id ∈ ((c.get t).rows.filter p).map rowID :=
        hrid ▸ List.mem_map_of_mem (List.mem_filter.2 ⟨hr, hpr⟩)
      rw [hid] at hkept
      simp [hgone] at hkept
  · rw [hclear] at hid
    cases hid

theorem categoryTable_lawful : categoryTable.Lawful where
  set_get _ := rfl
  get_set _ _ := rfl
  get_subscriptions _ _ := rfl
  users _ _ := rfl
  subscriptions _ _ := rfl
  ok h := h.categories
  refs h := h.categoryRefs
  seen h := h.categories
  holds := Iff.rfl
  set_ok h hT hrows :=
    ⟨hT, h.methods, h.currencies, h.subscriptions, h.categoryRefs.of_rows rfl hrows, h.methodRefs⟩
  delete_ok p h := by
    refine ⟨h.categories.delete p, h.methods, h.currencies, h.subscriptions.update ?_ ?_ ?_,
      h.categoryRefs.delete rfl rfl ?_,
      h.methodRefs.of_subscriptions rfl ?_⟩
    · exact fun _ => rfl
    · exact fun _ => rfl
    · exact fun _ => rfl
    · exact fun _ => rfl
    · intro x hx
      rcases mem_updateWhere_cases hx with ⟨hx, -⟩ | ⟨sub, hsub, -, rfl⟩
      · exact ⟨x, hx, rfl, fun _ h => h⟩
      · exact ⟨sub, hsub, rfl, fun _ h => h⟩
  set_seen h hT := ⟨h.users, hT, h.methods, h.currencies, h.subscriptions⟩
  set_holds hsub u k hk := by
    cases k with
    | category id => exact hsub hk
    | method id => exact hk
    | currency id => exact hk
  clear_id _ := rfl
  clear_userID _ := rfl

theorem methodTable_lawful : methodTable.Lawful where
  set_get _ := rfl
  get_set _ _ := rfl
  get_subscriptions _ _ := rfl
  users _ _ := rfl
  subscriptions _ _ := rfl
  ok h := h.methods
  refs h := h.methodRefs
  seen h := h.methods
  holds := Iff.rfl
  set_ok h hT hrows :=
    ⟨h.categories, hT, h.currencies, h.subscriptions, h.categoryRefs, h.methodRefs.of_rows rfl hrows⟩
  delete_ok p h := by
    refine ⟨h.categories, h.methods.delete p, h.currencies, h.subscriptions.update ?_ ?_ ?_,
      h.categoryRefs.of_subscriptions rfl ?_,
      h.methodRefs.delete rfl rfl ?_⟩
    · exact fun _ => rfl
    · exact fun _ => rfl
    · exact fun _ => rfl
    · intro x hx
      rcases mem_updateWhere_cases hx with ⟨hx, -⟩ | ⟨sub, hsub, -, rfl⟩
      · exact ⟨x, hx, rfl, fun _ h => h⟩
      · exact ⟨sub, hsub, rfl, fun _ h => h⟩
    · exact fun _ => rfl
  set_seen h hT := ⟨h.users, h.categories, hT, h.currencies, h.subscriptions⟩
  set_holds hsub u k hk := by
    cases k with
    | category id => exact hk
    | method id => exact hsub hk
    | currency id => exact hk
  clear_id _ := rfl
  clear_userID _ := rfl

theorem currencyTable_lawful : currencyTable.Lawful where
  set_get _ := rfl
  get_set _ _ := rfl
  get_subscriptions _ _ := rfl
  users _ _ := rfl
  subscriptions _ _ := rfl
  ok h := h.currencies
  refs _ _ _ _ hid := by cases hid
  seen h := h.currencies
  holds := Iff.rfl
  set_ok h hT _ := ⟨h.categories, h.methods, hT, h.subscriptions, h.categoryRefs, h.methodRefs⟩
  delete_ok {t} p h := by
    have hsame : ∀ x ∈ (currencyTable.delete p t).subscriptions.rows, x ∈ t.subscriptions.rows := by
      intro x hx
      rcases mem_updateWhere_cases hx with ⟨hx, -⟩ | ⟨sub, hsub, -, rfl⟩
      · exact hx
      · exact hsub
    refine ⟨h.categories, h.methods, h.currencies.delete p, h.subscriptions.update ?_ ?_ ?_,
      h.categoryRefs.of_subscriptions rfl ?_, h.methodRefs.of_subscriptions rfl ?_⟩
    · exact fun _ => rfl
    · exact fun _ => rfl
    · exact fun _ => rfl
    · exact fun x hx => ⟨x, hsame x hx, rfl, fun _ h => h⟩
    · exact fun x hx => ⟨x, hsame x hx, rfl, fun _ h => h⟩
  set_seen h hT := ⟨h.users, h.categories, h.methods, hT, h.subscriptions⟩
  set_holds hsub u k hk := by
    cases k with
    | category id => exact hk
    | method id => exact hk
    | currency id => exact hsub hk
  clear_id _ := rfl
  clear_userID _ := rfl

namespace SettingTable.Lawful
variable (h : c.Lawful)
include h

theorem set_seen_other (hsees : t.Sees v X) (hT : T.Sees v (c.get X)) : (c.set T t).Sees v X := by
  have hset := h.set_seen hsees hT
  rwa [h.set_get] at hset

theorem delete_subscriptions : (c.delete p t).subscriptions =
    t.subscriptions.update
    (fun sub => (c.ref sub).any (· ∈ ((c.get t).rows.filter p).map rowID)) c.clear := by
  rw [delete, h.subscriptions]

theorem delete_holds {k : TenantFact} (hk : t.Holds u k) : (c.delete p t).Holds u k := by
  have hset : (c.set ((c.get t).delete p) t).Holds u k :=
    h.set_holds (T := (c.get t).delete p) (fun _ h => h) u k hk
  cases k with
  | category id => exact hset
  | method id => exact hset
  | currency id => exact hset

/-- Rows of others are deleted. -/
theorem delete_seen_other (hok : t.OK) (hsees : t.Sees v X)
    (hp : ∀ r ∈ (c.get t).rows, p r = true → owner r ≠ v) : (c.delete p t).Sees v X := by
  have hset := h.set_seen_other hsees ((h.seen hsees).delete_other hp)
  have hsubs : ((c.set ((c.get t).delete p) t).subscriptions.update
      (fun sub => (c.ref sub).any (· ∈ ((c.get t).rows.filter p).map rowID)) c.clear).Sees v
        X.subscriptions := by
    refine hset.subscriptions.update_other h.clear_userID ?_
    intro sub hsub hgone hown
    rw [h.subscriptions] at hsub
    obtain ⟨id, href, hid⟩ := (Option.any_eq_true _ _).1 hgone
    obtain ⟨r, hr, hrid⟩ := List.mem_map.1 (of_decide_eq_true hid)
    obtain ⟨hr, hpr⟩ := List.mem_filter.1 hr
    obtain ⟨r', hr', hrid', howner'⟩ := h.refs hok sub hsub id href
    have hsame :=
      (h.ok hok).once _ _ _ ((h.ok hok).handed r hr) (hrid.trans hrid'.symm ▸ (h.ok hok).handed r' hr')
    exact hp r hr hpr (hsame.trans (howner'.trans hown))
  exact hset.withSubscriptions hsubs

/-- Rows of the account are deleted. -/
theorem delete_seen (hsees : t.Sees u X) (hp : ∀ r ∈ (c.get t).rows, p r = true → owner r = u)
    (hp' : ∀ r ∈ (c.get X).rows, p r = true → owner r = u) : (c.delete p t).Sees u (c.delete p X) := by
  have hset := h.set_seen hsees ((h.seen hsees).delete p)
  have hgone : (c.get t).rows.filter p = (c.get X).rows.filter p := by
    rw [RowTable.filter_own hp, RowTable.filter_own hp', (h.seen hsees).rows]
  have hsubs :=
    hset.subscriptions.update (p := fun sub => (c.ref sub).any (· ∈ ((c.get t).rows.filter p).map rowID))
    h.clear_userID
  unfold delete
  dsimp only
  rw [← hgone]
  exact hset.withSubscriptions hsubs

end SettingTable.Lawful

end Lawful

end Subdux
