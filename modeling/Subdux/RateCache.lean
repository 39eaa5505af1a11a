import Mathlib.Data.List.Basic
import Subdux.Time
import Subdux.Lib.GoStrings
import Subdux.Lib.Overwrites
import Subdux.Lib.Rows
import Subdux.Lib.Runs
/-!
# The exchange-rate cache

`Convert` and `saveRates` of `internal/service/exchange_rate.go`. `Convert` looks a rate up in
the cache, else in the database, and then stores what it found in the cache; `saveRates` writes
its rates in one transaction and then stores them in the cache under the lock. These are the
steps of `RateSystem`, and calls overlap between them. A rate is of any type that the code
multiplies amounts by.
-/

namespace Subdux
open GoStrings Rows Overwrites
open Runs (Path exec)

structure ExchangeRate (ρ : Type*) where
  baseCurrency : String
  targetCurrency : String
  rate : ρ
  source : String
  fetchedAt : Time
  deriving DecidableEq

section Model
variable {ρ : Type*}

def ExchangeRate.pair (r : ExchangeRate ρ) : String × String := (r.baseCurrency, r.targetCurrency)

abbrev Cache (ρ : Type*) := String → Option ρ

def cacheKey (base target : String) : String := toLower base ++ ":" ++ toLower target

/-- `INSERT ... ON CONFLICT (base_currency, target_currency) DO UPDATE`. -/
def upsertRate (rows : List (ExchangeRate ρ)) (r : ExchangeRate ρ) : List (ExchangeRate ρ) :=
  if rows.any (·.pair = r.pair) then
    updateWhere (·.pair = r.pair)
      ({ · with rate := r.rate, source := r.source, fetchedAt := r.fetchedAt }) rows
  else rows ++ [r]

/-- The transaction of `saveRates`. -/
def saveRows (rows rates : List (ExchangeRate ρ)) : List (ExchangeRate ρ) := rates.foldl upsertRate rows

/-- The loop of `saveRates` and of `loadCacheFromDB` over the cache. -/
def cacheRates (cache : Cache ρ) (rates : List (ExchangeRate ρ)) : Cache ρ :=
  rates.foldl (fun cache r => Function.update cache (cacheKey r.baseCurrency r.targetCurrency)
    (some r.rate)) cache

/-- The rate stored for a pair. -/
def rateOf (rows : List (ExchangeRate ρ)) (pair : String × String) : Option ρ :=
  (rows.find? (·.pair = pair)).map (·.rate)

/-- The rate that `rates` holds for a pair at last. -/
def lastRate (rates : List (ExchangeRate ρ)) (pair : String × String) : Option ρ :=
  last (rates.map fun r => (r.pair, r.rate)) pair

/-- `Convert` where nobody else writes. -/
def convert [Mul ρ] (cache : Cache ρ) (rows : List (ExchangeRate ρ)) (amount : ρ)
    (source target : String) : ρ :=
  let source := toUpper source
  let target := toUpper target
  if source = target then amount
  else match cache (cacheKey source target) with
    | some rate => amount * rate
    | none => match rateOf rows (toLower source, toLower target) with
      | some rate => amount * rate
      | none => amount

/-! ## Calls that overlap -/

/-- What a call does next. -/
inductive RateCall (ρ : Type*) where
  | readingCache (source target : String)
  | querying (source target : String)
  | fillingCache (source target : String) (rate : ρ)
  | saving (rates : List (ExchangeRate ρ))
  | caching (rates : List (ExchangeRate ρ))

structure RateSystem (ρ : Type*) where
  rows : List (ExchangeRate ρ)
  cache : Cache ρ
  /-- The calls under way. -/
  calls : Nat → Option (RateCall ρ)

inductive RateEvent (ρ : Type*) where
  | convert (i : Nat) (source target : String)
  | readCache (i : Nat)
  | query (i : Nat) (fails : Bool)
  | fillCache (i : Nat)
  | saveRates (i : Nat) (rates : List (ExchangeRate ρ))
  | commit (i : Nat) (fails : Bool)
  | cacheRates (i : Nat)

/-- The service starts with what the database holds. -/
def RateSystem.initial (rows : List (ExchangeRate ρ)) : RateSystem ρ :=
  ⟨rows, cacheRates (fun _ => none) rows, fun _ => none⟩

namespace RateSystem

def setCall (s : RateSystem ρ) (i : Nat) (call : Option (RateCall ρ)) : RateSystem ρ :=
  { s with calls := Runs.set s.calls i call }

def step (s : RateSystem ρ) : RateEvent ρ → Option (RateSystem ρ)
  | .convert i source target =>
    match s.calls i with
    | some _ => none
    | none =>
      let source := toUpper source
      let target := toUpper target
      some (if source = target then s else s.setCall i (some (.readingCache source target)))
  | .readCache i =>
    match s.calls i with
    | some (.readingCache source target) =>
      some (s.setCall i (match s.cache (cacheKey source target) with
        | some _ => none
        | none => some (.querying source target)))
    | _ => none
  | .query i fails =>
    match s.calls i with
    | some (.querying source target) =>
      let found := if fails then none else rateOf s.rows (toLower source, toLower target)
      some (s.setCall i (found.map (.fillingCache source target)))
    | _ => none
  | .fillCache i =>
    match s.calls i with
    | some (.fillingCache source target rate) =>
      some
        ({ s with cache := Function.update s.cache (cacheKey source target) (some rate) }.setCall i none)
    | _ => none
  | .saveRates i rates =>
    match s.calls i with
    | some _ => none
    | none => some (s.setCall i (some (.saving rates)))
  | .commit i fails =>
    match s.calls i with
    | some (.saving rates) =>
      some (if fails then s.setCall i none else { s with rows := saveRows s.rows rates }.setCall i
        (some (.caching rates)))
    | _ => none
  | .cacheRates i =>
    match s.calls i with
    | some (.caching rates) => some ({ s with cache := Subdux.cacheRates s.cache rates }.setCall i none)
    | _ => none

end RateSystem

/-- Every rate in the cache is the one stored for its pair. -/
def Coherent (cache : Cache ρ) (rows : List (ExchangeRate ρ)) : Prop :=
  ∀ base target rate, cache (cacheKey base target) = some rate →
    rateOf rows (toLower base, toLower target) = some rate

/-- A currency code as the fetched rates have it: in lower case, and without the separator of
cache keys. -/
def IsCode (currency : String) : Prop := toLower currency = currency ∧ ':' ∉ currency.toList

/-- The pair and the rate that a call of `Convert` is about to store in the cache. -/
def RateCall.fills : RateCall ρ → Option ((String × String) × ρ)
  | .fillingCache source target rate => some ((toLower source, toLower target), rate)
  | _ => none

/-- The rates that a call of `saveRates` has committed and is about to store in the cache. -/
def RateCall.caches : RateCall ρ → List (ExchangeRate ρ)
  | .caching rates => rates
  | _ => []

def RateSystem.caches (s : RateSystem ρ) (i : Nat) : List (ExchangeRate ρ) :=
  (s.calls i).elim [] RateCall.caches

/-- What a call stores in the cache is still what the database holds, and only rates between
proper codes are saved. -/
def FillsCurrent (s : RateSystem ρ) : RateEvent ρ → Prop
  | .fillCache i => ∀ fill ∈ (s.calls i).bind RateCall.fills, rateOf s.rows fill.1 = some fill.2
  | .saveRates _ rates => ∀ r ∈ rates, IsCode r.baseCurrency ∧ IsCode r.targetCurrency
  | .cacheRates i => ∀ r ∈ s.caches i, rateOf s.rows r.pair = lastRate (s.caches i) r.pair
  | _ => True

instance (currency : String) : Decidable (IsCode currency) := inferInstanceAs (Decidable (_ ∧ _))

instance [DecidableEq ρ] (s : RateSystem ρ) (e : RateEvent ρ) : Decidable (FillsCurrent s e) := by
  cases e <;> unfold FillsCurrent <;> infer_instance

end Model

/-! ## Tables and caches as maps -/

section Maps
variable {ρ : Type*} {rows rates : List (ExchangeRate ρ)} {r : ExchangeRate ρ} {cache : Cache ρ}
  {base target base' target' : String}

theorem rateOf_upsertRate : rateOf (upsertRate rows r) = write (rateOf rows) (r.pair, r.rate) := by
  funext pair
  unfold upsertRate write
  split
  · rename_i hany
    obtain ⟨x, hx, hpair⟩ := List.any_eq_true.1 hany
    have hkeep : ((fun row : ExchangeRate ρ => decide (row.pair = pair)) ∘ fun row =>
        if decide (row.pair = r.pair) then
        { row with rate := r.rate, source := r.source, fetchedAt := r.fetchedAt } else row) =
          fun row => decide (row.pair = pair) := by
      funext row
      simp only [Function.comp_apply]
      split <;> rfl
    rw [rateOf, updateWhere, List.find?_map, hkeep]
    by_cases hk : pair = r.pair
    · subst hk
      rw [Function.update_self]
      cases hfind : rows.find? (fun row => decide (row.pair = r.pair)) with
      | none => exact absurd hpair (List.find?_eq_none.1 hfind x hx)
      | some row =>
        have hrow := List.find?_some hfind
        simp only [Option.map_some, hrow, if_true]
    · rw [Function.update_of_ne hk, rateOf]
      cases hfind : rows.find? (fun row => decide (row.pair = pair)) with
      | none => rfl
      | some row =>
        have hrow : row.pair = pair := by simpa using List.find?_some hfind
        simp [hrow, hk]
  · rename_i hany
    simp only [List.any_eq_true, decide_eq_true_eq, not_exists, not_and] at hany
    rw [rateOf, List.find?_append]
    by_cases hk : pair = r.pair
    · subst hk
      have hnone : rows.find? (fun row => decide (row.pair = r.pair)) = none :=
        List.find?_eq_none.2 fun row hrow => by simpa using hany row hrow
      rw [hnone, Function.update_self]
      simp
    · have hone : [r].find? (fun row => decide (row.pair = pair)) = none := by simp [Ne.symm hk]
      rw [hone, Option.or_none, Function.update_of_ne hk, rateOf]

/-- The table after the transaction: the last rate written for a pair, or the one it held. -/
theorem rateOf_saveRows (rows rates : List (ExchangeRate ρ)) (pair : String × String) :
    rateOf (saveRows rows rates) pair = (lastRate rates pair).or (rateOf rows pair) := by
  have hmap : rateOf (saveRows rows rates) = (rates.map fun r => (r.pair, r.rate)).foldl write
      (rateOf rows) := by
    induction rates generalizing rows with
    | nil => rfl
    | cons r rates ih =>
      rw [List.map_cons, List.foldl_cons, ← rateOf_upsertRate, ← ih (upsertRate rows r)]
      rfl
  rw [hmap, foldl_write, lastRate]

theorem toList_cacheKey (base target : String) :
    (cacheKey base target).toList = (toLower base).toList ++ ':' :: (toLower target).toList := by
  simp [cacheKey]

/-- A key of proper codes is split at its only colon. -/
theorem cacheKey_inj (hbase : IsCode base) (htarget : IsCode target)
    (h : cacheKey base' target' = cacheKey base target) :
    toLower base' = base ∧ toLower target' = target := by
  have hlist := congrArg String.toList h
  rw [toList_cacheKey, toList_cacheKey, hbase.1, htarget.1] at hlist
  obtain ⟨hb, -, ht⟩ := (List.append_cons_inj_of_notMem hbase.2 htarget.2).1 hlist.symm
  exact ⟨String.toList_inj.1 hb.symm, String.toList_inj.1 ht.symm⟩

/-- The cache after a loop over rates with proper codes. -/
theorem cacheRates_apply (hcodes : ∀ r ∈ rates, IsCode r.baseCurrency ∧ IsCode r.targetCurrency)
    (hbase : IsCode base) (htarget : IsCode target) :
    cacheRates cache rates (cacheKey base target) = (lastRate rates (base, target)).or
    (cache (cacheKey base target)) := by
  have hmap : cacheRates cache rates =
      ((rates.map fun r => (r.pair, r.rate)).map fun w => (cacheKey w.1.1 w.1.2, w.2)).foldl write
        cache := by
    rw [List.map_map, List.foldl_map]
    rfl
  rw [hmap, foldl_write, lastRate]
  congr 1
  apply last_map (fun pair : String × String => cacheKey pair.1 pair.2) (k := (base, target))
  intro w hw hkey
  obtain ⟨r, hr, rfl⟩ := List.mem_map.1 hw
  obtain ⟨hb, ht⟩ := cacheKey_inj hbase htarget hkey
  exact Prod.ext ((hcodes r hr).1.1.symm.trans hb) ((hcodes r hr).2.1.symm.trans ht)

end Maps

/-! ## What every state keeps -/

section Invariant
variable {ρ : Type*} {rows rates : List (ExchangeRate ρ)} {r : ExchangeRate ρ} {cache : Cache ρ}
  {base target key : String} {rate : ρ}
  {s t : RateSystem ρ} {i : Nat} {pair : String × String} {call : Option (RateCall ρ)}

def Coded (rates : List (ExchangeRate ρ)) : Prop :=
  ∀ r ∈ rates, IsCode r.baseCurrency ∧ IsCode r.targetCurrency

theorem mem_of_lastRate (h : lastRate rates pair = some rate) : ∃ r ∈ rates, r.pair = pair := by
  obtain ⟨r, hr, heq⟩ := List.mem_map.1 (mem_of_last h)
  exact ⟨r, hr, congrArg Prod.fst heq⟩

/-- Where a rate in the cache comes from after a loop over `rates`. -/
theorem cacheRates_cases (hcodes : Coded rates) (h : cacheRates cache rates key = some rate) :
    (∃ r ∈ rates, key = cacheKey r.baseCurrency r.targetCurrency ∧ lastRate rates r.pair = some rate) ∨
      ((∀ r ∈ rates, cacheKey r.baseCurrency r.targetCurrency ≠ key) ∧ cache key = some rate) := by
  by_cases hkey : ∃ r ∈ rates, key = cacheKey r.baseCurrency r.targetCurrency
  · obtain ⟨r, hr, rfl⟩ := hkey
    left
    rw [cacheRates_apply hcodes (hcodes r hr).1 (hcodes r hr).2] at h
    cases hlast : lastRate rates (r.baseCurrency, r.targetCurrency) with
    | none =>
      have hnone := last_eq_none.1 hlast (r.pair, r.rate) (List.mem_map.2 ⟨r, hr, rfl⟩)
      exact absurd rfl hnone
    | some v =>
      rw [hlast, Option.some_or] at h
      exact ⟨r, hr, rfl, hlast.trans h⟩
  · right
    push Not at hkey
    refine ⟨fun r hr => (hkey r hr).symm, ?_⟩
    have hmap : cacheRates cache rates =
        (rates.map fun r => (cacheKey r.baseCurrency r.targetCurrency, r.rate)).foldl write cache := by
      rw [List.foldl_map]
      rfl
    have hnone : last (rates.map fun r => (cacheKey r.baseCurrency r.targetCurrency, r.rate)) key =
        none := by
      rw [last_eq_none]
      intro w hw
      obtain ⟨r, hr, rfl⟩ := List.mem_map.1 hw
      exact (hkey r hr).symm
    rwa [hmap, foldl_write, hnone, Option.none_or] at h

/-- A call of `saveRates` has committed a rate for `pair` and not yet cached it. -/
def Pending (s : RateSystem ρ) (pair : String × String) : Prop := ∃ i, ∃ r ∈ s.caches i, r.pair = pair

structure RateInv (s : RateSystem ρ) : Prop where
  stored : ∀ pair rate, rateOf s.rows pair = some rate → IsCode pair.1 ∧ IsCode pair.2
  saving : ∀ i rates, s.calls i = some (.saving rates) → Coded rates
  caching : ∀ i, Coded (s.caches i)
  cached : ∀ key rate, s.cache key = some rate → ∃ base target, IsCode base ∧ IsCode target ∧
    key = cacheKey base target ∧
    (rateOf s.rows (base, target) = some rate ∨ Pending s (base, target))

theorem caches_setCall_of_ne {j : Nat} (h : j ≠ i) : (s.setCall i call).caches j = s.caches j := by
  simp [RateSystem.caches, RateSystem.setCall, Runs.set_of_ne _ _ h]

theorem caches_setCall_self : (s.setCall i call).caches i = call.elim [] RateCall.caches := by
  simp [RateSystem.caches, RateSystem.setCall]

/-- A commit that another call is not about to cache stays to be cached. -/
theorem Pending.setCall (h : Pending s pair) (hi : ∀ r ∈ s.caches i, r.pair ≠ pair) :
    Pending (s.setCall i call) pair := by
  obtain ⟨j, r, hr, hpair⟩ := h
  have hne : j ≠ i := by
    rintro rfl
    exact hi r hr hpair
  exact ⟨j, r, by rwa [caches_setCall_of_ne hne], hpair⟩

/-- A call that writes nothing goes on. -/
theorem RateInv.setCall (h : RateInv s) (hcaches : s.caches i = [])
    (hcall : call.elim [] RateCall.caches = [])
    (hsaving : ∀ rates, call = some (.saving rates) → Coded rates) : RateInv (s.setCall i call) where
  stored := h.stored
  saving := by
    intro j rates hj
    by_cases hsame : j = i
    · subst hsame
      exact hsaving rates (by simpa [RateSystem.setCall] using hj)
    · exact h.saving j rates (by simpa [RateSystem.setCall, Runs.set_of_ne _ _ hsame] using hj)
  caching := by
    intro j
    by_cases hsame : j = i
    · subst hsame
      rw [caches_setCall_self, hcall]
      exact fun r hr => absurd hr List.not_mem_nil
    · rw [caches_setCall_of_ne hsame]
      exact h.caching j
  cached := by
    intro key rate hkey
    obtain ⟨base, target, hbase, htarget, hk, hrate⟩ := h.cached key rate hkey
    refine ⟨base, target, hbase, htarget, hk, hrate.imp_right fun hpending => hpending.setCall ?_⟩
    rw [hcaches]
    exact fun r hr => absurd hr List.not_mem_nil

theorem RateInv.commit (h : RateInv s) (hcall : s.calls i = some (.saving rates)) :
    RateInv ({ s with rows := saveRows s.rows rates }.setCall i (some (.caching rates))) := by
  have hcodes := h.saving i rates hcall
  have hcaches : s.caches i = [] := by simp [RateSystem.caches, hcall, RateCall.caches]
  constructor
  case stored =>
    intro pair rate hrate
    change rateOf (saveRows s.rows rates) pair = some rate at hrate
    rw [rateOf_saveRows] at hrate
    cases hlast : lastRate rates pair with
    | none =>
      rw [hlast, Option.none_or] at hrate
      exact h.stored pair rate hrate
    | some v =>
      obtain ⟨r, hr, rfl⟩ := mem_of_lastRate hlast
      exact hcodes r hr
  case saving =>
    intro j rates' hj
    by_cases hsame : j = i
    · subst hsame
      simp [RateSystem.setCall] at hj
    · exact h.saving j rates' (by simpa [RateSystem.setCall, Runs.set_of_ne _ _ hsame] using hj)
  case caching =>
    intro j
    by_cases hsame : j = i
    · subst hsame
      rw [caches_setCall_self]
      exact hcodes
    · rw [caches_setCall_of_ne hsame]
      exact h.caching j
  case cached =>
    intro key rate hkey
    obtain ⟨base, target, hbase, htarget, hk, hrate⟩ := h.cached key rate hkey
    refine ⟨base, target, hbase, htarget, hk, ?_⟩
    cases hlast : lastRate rates (base, target) with
    | none =>
      refine hrate.imp (fun hrate => ?_) fun hpending => ?_
      · change rateOf (saveRows s.rows rates) (base, target) = some rate
        rw [rateOf_saveRows, hlast, Option.none_or, hrate]
      · refine Pending.setCall (s := { s with rows := saveRows s.rows rates }) hpending fun r hr => ?_
        have hr' : r ∈ s.caches i := hr
        rw [hcaches] at hr'
        exact absurd hr' List.not_mem_nil
    | some v =>
      -- the pair is among those to be cached
      obtain ⟨r, hr, hpair⟩ := mem_of_lastRate hlast
      refine .inr ⟨i, r, ?_, hpair⟩
      rw [caches_setCall_self]
      exact hr

theorem RateInv.cacheRates (h : RateInv s) (hcall : s.calls i = some (.caching rates))
    (hcurrent : ∀ r ∈ rates, rateOf s.rows r.pair = lastRate rates r.pair) :
    RateInv ({ s with cache := Subdux.cacheRates s.cache rates }.setCall i none) := by
  have hcaches : s.caches i = rates := by simp [RateSystem.caches, hcall, RateCall.caches]
  have hcodes : Coded rates := hcaches ▸ h.caching i
  constructor
  case stored => exact h.stored
  case saving =>
    intro j rates' hj
    by_cases hsame : j = i
    · subst hsame
      simp [RateSystem.setCall] at hj
    · exact h.saving j rates' (by simpa [RateSystem.setCall, Runs.set_of_ne _ _ hsame] using hj)
  case caching =>
    intro j
    by_cases hsame : j = i
    · subst hsame
      rw [caches_setCall_self]
      exact fun r hr => absurd hr List.not_mem_nil
    · rw [caches_setCall_of_ne hsame]
      exact h.caching j
  case cached =>
    intro key rate hkey
    rcases cacheRates_cases hcodes hkey with ⟨r, hr, hk, hlast⟩ | ⟨hother, hold⟩
    · exact ⟨r.baseCurrency, r.targetCurrency, (hcodes r hr).1, (hcodes r hr).2, hk,
        .inl ((hcurrent r hr).trans hlast)⟩
    · obtain ⟨base, target, hbase, htarget, hk, hrate⟩ := h.cached key rate hold
      refine ⟨base, target, hbase, htarget, hk, hrate.imp_right fun hpending => ?_⟩
      refine Pending.setCall (s := { s with cache := Subdux.cacheRates s.cache rates }) hpending
        fun r hr hpair => ?_
      have hr' : r ∈ s.caches i := hr
      rw [hcaches] at hr'
      apply hother r hr'
      obtain ⟨hb, ht⟩ := Prod.mk.inj hpair
      rw [hk, hb, ht]

theorem RateInv.fillCache (h : RateInv s) {source target : String}
    (hcall : s.calls i = some (.fillingCache source target rate))
    (hcurrent : rateOf s.rows (toLower source, toLower target) = some rate) :
    RateInv
    ({ s with cache := Function.update s.cache (cacheKey source target) (some rate) }.setCall i
      none) := by
  have hcaches : s.caches i = [] := by simp [RateSystem.caches, hcall, RateCall.caches]
  obtain ⟨hbase, htarget⟩ := h.stored _ _ hcurrent
  refine RateInv.setCall
    (s := { s with cache := Function.update s.cache (cacheKey source target) (some rate) })
    ⟨h.stored, h.saving, h.caching, ?_⟩ hcaches rfl (by rintro _ ⟨⟩)
  intro key v hkey
  dsimp only at hkey
  by_cases hk : key = cacheKey source target
  · subst hk
    rw [Function.update_self] at hkey
    obtain rfl := Option.some.inj hkey
    refine ⟨_, _, hbase, htarget, ?_, .inl hcurrent⟩
    rw [cacheKey, cacheKey, hbase.1, htarget.1]
  · rw [Function.update_of_ne hk] at hkey
    exact h.cached key v hkey

theorem RateInv.step (e : RateEvent ρ) (h : RateInv s) (hok : FillsCurrent s e)
    (hstep : s.step e = some t) : RateInv t := by
  cases e with
  | convert i source target =>
    simp only [RateSystem.step] at hstep
    split at hstep
    · cases hstep
    · rename_i hcall
      obtain rfl := Option.some.inj hstep
      split
      · exact h
      · exact h.setCall (by simp [RateSystem.caches, hcall]) rfl (by rintro _ ⟨⟩)
  | readCache i =>
    simp only [RateSystem.step] at hstep
    split at hstep
    · rename_i hcall
      obtain rfl := Option.some.inj hstep
      refine h.setCall (by simp [RateSystem.caches, hcall, RateCall.caches]) ?_ ?_
      · split <;> rfl
      · intro rates hrates
        split at hrates <;> cases hrates
    · cases hstep
  | query i fails =>
    simp only [RateSystem.step] at hstep
    split at hstep
    · rename_i source target hcall
      obtain rfl := Option.some.inj hstep
      generalize (if fails then none else rateOf s.rows (toLower source, toLower target)) = found
      refine h.setCall (by simp [RateSystem.caches, hcall, RateCall.caches]) ?_ ?_
      · cases found <;> rfl
      · intro rates hrates
        cases found <;> cases hrates
    · cases hstep
  | fillCache i =>
    simp only [RateSystem.step] at hstep
    split at hstep
    · rename_i source target rate hcall
      obtain rfl := Option.some.inj hstep
      exact h.fillCache hcall
        (hok ((toLower source, toLower target), rate) (by simp [hcall, RateCall.fills]))
    · cases hstep
  | saveRates i rates =>
    simp only [RateSystem.step] at hstep
    split at hstep
    · cases hstep
    · rename_i hcall
      obtain rfl := Option.some.inj hstep
      refine h.setCall (by simp [RateSystem.caches, hcall]) rfl ?_
      rintro _ ⟨⟩
      exact hok
  | commit i fails =>
    simp only [RateSystem.step] at hstep
    split at hstep
    · rename_i rates hcall
      obtain rfl := Option.some.inj hstep
      split
      · exact h.setCall (by simp [RateSystem.caches, hcall, RateCall.caches]) rfl (by rintro _ ⟨⟩)
      · -- from the commit on the saved rates are the stored ones, and wait for the cache
        exact h.commit hcall
    · cases hstep
  | cacheRates i =>
    simp only [RateSystem.step] at hstep
    split at hstep
    · rename_i rates hcall
      obtain rfl := Option.some.inj hstep
      have hcaches : s.caches i = rates := by simp [RateSystem.caches, hcall, RateCall.caches]
      refine h.cacheRates hcall fun r hr => ?_
      have hcurrent := hok r (by rw [hcaches]; exact hr)
      rwa [hcaches] at hcurrent
    · cases hstep

theorem lastRate_of_unique (hunique : (rows.map (·.pair)).Nodup) (hr : r ∈ rows) :
    rateOf rows r.pair = lastRate rows r.pair := by
  cases hfind : rows.find? (fun row => decide (row.pair = r.pair)) with
  | none => simpa using List.find?_eq_none.1 hfind r hr
  | some x =>
    have hx : x.pair = r.pair := by simpa using List.find?_some hfind
    cases hlast : lastRate rows r.pair with
    | none =>
      have hnone := last_eq_none.1 hlast (r.pair, r.rate) (List.mem_map.2 ⟨r, hr, rfl⟩)
      exact absurd rfl hnone
    | some v =>
      obtain ⟨y, hy, heq⟩ := List.mem_map.1 (mem_of_last hlast)
      obtain ⟨hpair, rfl⟩ := Prod.mk.inj heq
      rw [rateOf, hfind, Option.map_some, eq_of_key hunique (List.mem_of_find?_eq_some hfind) hy
        (hx.trans hpair.symm)]

theorem RateInv.initial (hunique : (rows.map (·.pair)).Nodup) (hcodes : Coded rows) :
    RateInv (RateSystem.initial rows) where
  stored := by
    intro pair rate hrate
    obtain ⟨r, hfind, -⟩ := Option.map_eq_some_iff.1 hrate
    have hpair : r.pair = pair := by simpa using List.find?_some hfind
    rw [← hpair]
    exact hcodes r (List.mem_of_find?_eq_some hfind)
  saving := by
    intro _ _ h
    cases h
  caching := fun _ _ h => absurd h List.not_mem_nil
  cached := by
    intro key rate hkey
    rcases cacheRates_cases hcodes hkey with ⟨r, hr, hk, hlast⟩ | ⟨-, hnone⟩
    · exact ⟨r.baseCurrency, r.targetCurrency, (hcodes r hr).1, (hcodes r hr).2, hk,
        .inl ((lastRate_of_unique hunique hr).trans hlast)⟩
    · cases hnone

/-- With no call under way the cache is coherent. -/
theorem RateInv.coherent (h : RateInv s) (hdone : ∀ i, s.calls i = none) : Coherent s.cache s.rows := by
  intro base target rate hkey
  obtain ⟨b, t, hb, ht, hk, hrate⟩ := h.cached _ rate hkey
  obtain ⟨hbase, htarget⟩ := cacheKey_inj hb ht hk
  rw [hbase, htarget]
  rcases hrate with hrate | ⟨i, r, hr, -⟩
  · exact hrate
  · simp [RateSystem.caches, hdone i] at hr

/-- A coherent cache makes no difference to `Convert`. -/
theorem Coherent.convert [Mul ρ] (h : Coherent cache rows) (amount : ρ) (source target : String) :
    convert cache rows amount source target = convert (fun _ => none) rows amount source target := by
  simp only [Subdux.convert]
  split
  · rfl
  · cases hcache : cache (cacheKey (toUpper source) (toUpper target)) with
    | none => rfl
    | some rate => rw [h _ _ rate hcache]

/-- Once all calls have finished the cache is coherent, in every run in which a call finds in the
database what it stores in the cache. -/
theorem rate_cache_coherent [Mul ρ] (rows : List (ExchangeRate ρ)) (hunique : (rows.map (·.pair)).Nodup)
    (hcodes : ∀ r ∈ rows, IsCode r.baseCurrency ∧ IsCode r.targetCurrency) (s : RateSystem ρ)
    (h : Path RateSystem.step FillsCurrent (.initial rows) s) (hdone : ∀ i, s.calls i = none) :
    Coherent s.cache s.rows ∧
      ∀ amount source target, convert s.cache s.rows amount source target = convert
        (fun _ => none) s.rows amount source target := by
  have hinv :=
    h.invariant RateInv (fun _ e _ hinv hok hstep => hinv.step e hok hstep) (.initial hunique hcodes)
  exact ⟨hinv.coherent hdone, (hinv.coherent hdone).convert⟩

end Invariant

/-! ## A conversion that overlaps a refresh -/

section Sample
variable {ρ : Type*}

/-- The call that an event is a step of. -/
def RateEvent.call : RateEvent ρ → Nat
  | .convert i _ _ | .readCache i | .query i _ | .fillCache i | .saveRates i _ | .commit i
    _ | .cacheRates i => i

theorem calls_step {s t : RateSystem ρ} {e : RateEvent ρ} {i : Nat} (hi : e.call ≠ i)
    (hstep : s.step e = some t) :
    t.calls i = s.calls i := by
  have hset : ∀ (u : RateSystem ρ) (call : Option (RateCall ρ)),
      (u.setCall e.call call).calls i = u.calls i :=
    fun u call => Runs.set_of_ne u.calls call (Ne.symm hi)
  cases e with
  | convert j source target =>
    simp only [RateSystem.step] at hstep
    split at hstep
    · cases hstep
    · obtain rfl := Option.some.inj hstep
      split
      · rfl
      · exact hset s _
  | readCache j =>
    simp only [RateSystem.step] at hstep
    split at hstep
    · obtain rfl := Option.some.inj hstep
      exact hset s _
    · cases hstep
  | query j fails =>
    simp only [RateSystem.step] at hstep
    split at hstep
    · obtain rfl := Option.some.inj hstep
      exact hset s _
    · cases hstep
  | fillCache j =>
    simp only [RateSystem.step] at hstep
    split at hstep
    · obtain rfl := Option.some.inj hstep
      exact hset { s with cache := _ } _
    · cases hstep
  | saveRates j rates =>
    simp only [RateSystem.step] at hstep
    split at hstep
    · cases hstep
    · obtain rfl := Option.some.inj hstep
      exact hset s _
  | commit j fails =>
    simp only [RateSystem.step] at hstep
    split at hstep
    · obtain rfl := Option.some.inj hstep
      split
      · exact hset s _
      · exact hset { s with rows := _ } _
    · cases hstep
  | cacheRates j =>
    simp only [RateSystem.step] at hstep
    split at hstep
    · obtain rfl := Option.some.inj hstep
      exact hset { s with cache := _ } _
    · cases hstep

def sampleRate (rate : Nat) (fetchedAt : Time) : ExchangeRate Nat :=
  ⟨"usd", "eur", rate, "free", fetchedAt⟩

/-- `Convert` reads a rate from the database that a refresh is about to cache, and caches it
after the next refresh has committed and cached a new one. -/
def overlappingRefresh : List (RateEvent Nat) :=
  [.saveRates 0 [sampleRate 2 ⟨0, 0⟩], .commit 0 false, .convert 1 "USD" "EUR", .readCache 1,
   .query 1 false, .cacheRates 0, .saveRates 2 [sampleRate 3 ⟨1, 0⟩], .commit 2 false,
     .cacheRates 2, .fillCache 1]

/-- No call is under way after a run of `events`, whose calls are 0, 1 and 2. -/
theorem calls_done {ok : RateSystem Nat → RateEvent Nat → Prop} [∀ s e, Decidable (ok s e)]
    {events : List (RateEvent Nat)} {rows : List (ExchangeRate Nat)} {s : RateSystem Nat}
    (hcalls : ∀ e ∈ events, e.call < 3) (hs : exec RateSystem.step ok (.initial rows) events = some s)
    (hdone : (s.calls 0).isNone ∧ (s.calls 1).isNone ∧ (s.calls 2).isNone) (i : Nat) :
    s.calls i = none := by
  by_cases hi : i < 3
  · obtain ⟨h0, h1, h2⟩ := hdone
    rw [Option.isNone_iff_eq_none] at h0 h1 h2
    match i, hi with
    | 0, _ => exact h0
    | 1, _ => exact h1
    | 2, _ => exact h2
  · have hkeep := Runs.exec_keeps (fun s : RateSystem Nat => s.calls i) (P := fun e => e.call ≠ i)
      (fun _ _ _ he hstep => calls_step he hstep) (fun e he => by have := hcalls e he; omega) hs
    exact hkeep

theorem rate_cache_stale :
    ¬ ∀ s : RateSystem Nat, Path RateSystem.step Runs.Always (.initial []) s →
    (∀ i, s.calls i = none) → Coherent s.cache s.rows := by
  intro hall
  have hrun : (exec RateSystem.step Runs.Always (.initial []) overlappingRefresh).any
      (fun s => (s.cache (cacheKey "usd" "eur") = some 2 ∧
        rateOf s.rows (toLower "usd", toLower "eur") = some 3) ∧
        (s.calls 0).isNone ∧ (s.calls 1).isNone ∧ (s.calls 2).isNone) = true := by
    decide +kernel
  obtain ⟨s, hs, hstate⟩ := (Option.any_eq_true _ _).1 hrun
  obtain ⟨⟨hcached, hstored⟩, hdone⟩ := of_decide_eq_true hstate
  have hcoherent := hall s (Path.of_exec hs) (calls_done (by decide) hs hdone) "usd" "eur" 2 hcached
  rw [hstored] at hcoherent
  cases hcoherent

/-- The same calls, where `Convert` has finished before the next refresh commits. -/
def orderedRefresh : List (RateEvent Nat) :=
  [.saveRates 0 [sampleRate 2 ⟨0, 0⟩], .commit 0 false, .convert 1 "USD" "EUR", .readCache 1,
   .query 1 false, .cacheRates 0, .fillCache 1, .saveRates 2 [sampleRate 3 ⟨1, 0⟩], .commit 2 false,
     .cacheRates 2]

theorem rate_cache_coherent_sample :
    ∃ s : RateSystem Nat, rateOf s.rows ("usd", "eur") = some 3 ∧
    s.cache (cacheKey "usd" "eur") = some 3 ∧
      Coherent s.cache s.rows := by
  have hrun : (exec RateSystem.step FillsCurrent (.initial []) orderedRefresh).any
      (fun s => (rateOf s.rows ("usd", "eur") = some 3 ∧ s.cache (cacheKey "usd" "eur") = some 3) ∧
        (s.calls 0).isNone ∧ (s.calls 1).isNone ∧ (s.calls 2).isNone) = true := by
    decide +kernel
  obtain ⟨s, hs, hstate⟩ := (Option.any_eq_true _ _).1 hrun
  obtain ⟨⟨hstored, hcached⟩, hdone⟩ := of_decide_eq_true hstate
  exact ⟨s, hstored, hcached,
    (rate_cache_coherent [] List.nodup_nil (fun r hr => absurd hr List.not_mem_nil) s (Path.of_exec hs)
    (calls_done (by decide) hs hdone)).1⟩

end Sample

end Subdux
