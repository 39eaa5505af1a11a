import Mathlib.Data.List.Count
import Subdux.Lib.Runs
/-!
# The cache of subscription details

`src/web/src/features/subscriptions/subscription-detail-cache.ts`. The details of a subscription are
fetched once for all who ask, kept for two minutes, and dropped when the page invalidates them; a
version of each subscription keeps what was fetched before that out of the cache.

A promise is named by its number. Its callbacks run one after the other, each without interruption,
and anything may happen between two of them. `past` lists what the server had before each event,
`calls` what the callers got, and `invalidated` the invalidations with their event.
-/

namespace Subdux.DetailCache
open Runs

variable {D : Type*}

def detailCacheTTLMs : Int := 120000

structure CachedSubscriptionDetail (D : Type*) where
  cachedAt : Int
  detail : D
  deriving DecidableEq

/-- The three maps; a promise is its number. -/
structure DetailMaps (D : Type*) where
  detailCache : Nat → Option (CachedSubscriptionDetail D)
  detailRequests : Nat → Option Nat
  detailVersions : Nat → Option Nat

def DetailMaps.empty : DetailMaps D := ⟨fun _ => none, fun _ => none, fun _ => none⟩

def detailVersion (maps : DetailMaps D) (id : Nat) : Nat := (maps.detailVersions id).getD 0

def bumpDetailVersion (id : Nat) (maps : DetailMaps D) : DetailMaps D :=
  { maps with detailVersions := set maps.detailVersions id (some (detailVersion maps id + 1)) }

def getCachedSubscriptionDetail (id : Nat) (now : Int) (maps : DetailMaps D) : DetailMaps D × Option D :=
  match maps.detailCache id with
  | none => (maps, none)
  | some cached =>
    if now - cached.cachedAt > detailCacheTTLMs then
      ({ maps with detailCache := set maps.detailCache id none }, none)
    else (maps, some cached.detail)

/-- What `loadSubscriptionDetail` returns: a detail, the promise that there is, or a new one. -/
inductive Loaded (D : Type*) where
  | detail (detail : D)
  | existing (request : Nat)
  | started (request : Nat)
  deriving DecidableEq

/-- `next` is the promise that a request would be. -/
def loadSubscriptionDetail (id : Nat) (now : Int) (next : Nat) (maps : DetailMaps D) :
    DetailMaps D × Loaded D :=
  let looked := getCachedSubscriptionDetail id now maps
  match looked.2, looked.1.detailRequests id with
  | some detail, _ => (looked.1, .detail detail)
  | none, some existing => (looked.1, .existing existing)
  | none, none =>
    ({ looked.1 with detailRequests := set looked.1.detailRequests id (some next) }, .started next)

def invalidateSubscriptionDetail (id : Nat) (maps : DetailMaps D) : DetailMaps D :=
  let bumped := bumpDetailVersion id maps
  { bumped with
    detailCache := set bumped.detailCache id none, detailRequests := set bumped.detailRequests id none }

/-- The callback of `then`. -/
def storeDetail (id version : Nat) (detail : D) (now : Int) (maps : DetailMaps D) : DetailMaps D :=
  if detailVersion maps id = version
    then { maps with detailCache := set maps.detailCache id (some ⟨now, detail⟩) } else maps

/-- The callback of `finally`. -/
def forgetRequest (id version : Nat) (maps : DetailMaps D) : DetailMaps D :=
  if detailVersion maps id = version
    then { maps with detailRequests := set maps.detailRequests id none } else maps

/-! ## Runs -/

/-- How far a promise is; a result is `none` where the request failed. -/
inductive RequestPhase (D : Type*) where
  | sent
  | answered (result : Option D)
  /-- Before the callback of `finally`. -/
  | stored (result : Option D)
  | settled (result : Option D)
  deriving DecidableEq

structure DetailRequest (D : Type*) where
  id : Nat
  version : Nat
  begun : Nat
  phase : RequestPhase D
  deriving DecidableEq

structure DetailCall (D : Type*) where
  id : Nat
  event : Nat
  loaded : Loaded D
  deriving DecidableEq

structure DetailSystem (D : Type*) where
  maps : DetailMaps D
  server : Nat → D
  requests : Nat → Option (DetailRequest D)
  next : Nat
  past : List (Nat → D)
  calls : List (DetailCall D)
  invalidated : List (Nat × Nat)

def DetailSystem.initial (server : Nat → D) : DetailSystem D :=
  ⟨.empty, server, fun _ => none, 0, [], [], []⟩

inductive DetailEvent (D : Type*) where
  /-- A subscription is changed, here or elsewhere. -/
  | change (id : Nat) (detail : D)
  | get (id : Nat) (now : Int)
  | load (id : Nat) (now : Int)
  /-- The server reads the detail, or the request fails. -/
  | answer (n : Nat) (fails : Bool)
  | store (n : Nat) (now : Int)
  | settle (n : Nat)
  | invalidate (id : Nat)

def DetailRequest.result (r : DetailRequest D) : Option D :=
  match r.phase with
  | .sent => none
  | .answered result | .stored result | .settled result => result

def DetailRequest.live (r : DetailRequest D) : Bool :=
  match r.phase with
  | .settled _ => false
  | _ => true

/-- What a call got, where it has got it. -/
def DetailCall.got (s : DetailSystem D) (c : DetailCall D) : Option D :=
  match c.loaded with
  | .detail detail => some detail
  | .existing n | .started n => (s.requests n).bind DetailRequest.result

def DetailSystem.advance (s : DetailSystem D) (n : Nat) (r : DetailRequest D)
    (phase : RequestPhase D) : DetailSystem D :=
  { s with requests := set s.requests n (some { r with phase := phase }) }

def DetailSystem.get (s : DetailSystem D) (id : Nat) (now : Int) : DetailSystem D :=
  let looked := getCachedSubscriptionDetail id now s.maps
  { s with
    maps := looked.1
    calls := s.calls ++ (looked.2.map fun detail => ⟨id, s.past.length, .detail detail⟩).toList }

def DetailSystem.load (s : DetailSystem D) (id : Nat) (now : Int) : DetailSystem D :=
  let loaded := loadSubscriptionDetail id now s.next s.maps
  let called := { s with maps := loaded.1, calls := s.calls ++ [⟨id, s.past.length, loaded.2⟩] }
  match loaded.2 with
  | .started n =>
    { called with
      requests := set s.requests n (some ⟨id, detailVersion s.maps id, s.past.length, .sent⟩)
      next := s.next + 1 }
  | _ => called

/-- An event, but for what `past` keeps of it. -/
def DetailSystem.act (s : DetailSystem D) : DetailEvent D → Option (DetailSystem D)
  | .change id detail => some { s with server := Function.update s.server id detail }
  | .get id now => some (s.get id now)
  | .load id now => some (s.load id now)
  | .answer n fails =>
    match s.requests n with
    | some ⟨id, version, begun, .sent⟩ =>
      some (s.advance n ⟨id, version, begun, .sent⟩
        (.answered (if fails then none else some (s.server id))))
    | _ => none
  | .store n now =>
    match s.requests n with
    | some ⟨id, version, begun, .answered result⟩ =>
      let stored := s.advance n ⟨id, version, begun, .answered result⟩ (.stored result)
      some { stored with
        maps := result.elim s.maps fun detail => storeDetail id version detail now s.maps }
    | _ => none
  | .settle n =>
    match s.requests n with
    | some ⟨id, version, begun, .stored result⟩ =>
      let settled := s.advance n ⟨id, version, begun, .stored result⟩ (.settled result)
      some { settled with maps := forgetRequest id version s.maps }
    | _ => none
  | .invalidate id =>
    some
      { s with
        maps := invalidateSubscriptionDetail id s.maps, invalidated := s.invalidated ++
          [(id, s.past.length)] }

def DetailSystem.record (s t : DetailSystem D) : DetailSystem D :=
  { t with past := s.past ++ [s.server] }

def DetailSystem.step (s : DetailSystem D) (e : DetailEvent D) : Option (DetailSystem D) :=
  (s.act e).map s.record

/-! ## What every state keeps -/

/-- The server had the detail, at an event after every invalidation of the subscription before
`event`. -/
def DetailSystem.Fresh (s : DetailSystem D) (id : Nat) (detail : D) (event : Nat) : Prop :=
  ∃ k server, s.past[k]? = some server ∧ server id = detail ∧ ∀ j, (id, j) ∈ s.invalidated →
    j < event → j < k

/-- The invalidations of a subscription before an event. -/
def DetailSystem.invalidations (s : DetailSystem D) (id event : Nat) : Nat :=
  s.invalidated.countP fun x => x.1 = id ∧ x.2 < event

structure DetailInv (s : DetailSystem D) : Prop where
  before : ∀ x ∈ s.invalidated, x.2 < s.past.length
  versions : ∀ id, detailVersion s.maps id = s.invalidations id s.past.length
  cached : ∀ id e, s.maps.detailCache id = some e → s.Fresh id e.detail s.past.length
  numbers : ∀ n, s.next ≤ n → s.requests n = none
  requests : ∀ n r, s.requests n = some r → r.begun < s.past.length ∧
    r.version = s.invalidations r.id r.begun ∧
    ∀ d, r.result = some d → ∃ k server, s.past[k]? = some server ∧ server r.id = d ∧ r.begun < k
  /-- A request of the present version is the one that others join. -/
  joined : ∀ n r, s.requests n = some r → r.live = true → r.version = detailVersion s.maps r.id →
    s.maps.detailRequests r.id = some n
  joinable : ∀ id n, s.maps.detailRequests id = some n → ∃ r, s.requests n = some r ∧ r.id = id ∧
    r.version = detailVersion s.maps id
  single : ∀ n m r q, s.requests n = some r → s.requests m = some q → r.id = q.id →
    r.version = q.version → r.live = true →
    q.live = true → n = m
  calls : ∀ c ∈ s.calls, c.event < s.past.length ∧ match c.loaded with
    | .detail d => s.Fresh c.id d c.event
    | .existing n | .started n =>
      ∃ r, s.requests n = some r ∧ r.id = c.id ∧ ∀ j, (c.id, j) ∈ s.invalidated → j < c.event →
        j < r.begun

section Steps
variable {s t : DetailSystem D} {id event n : Nat} {detail : D} {now : Int}

theorem record_length (s t : DetailSystem D) : (s.record t).past.length = s.past.length + 1 := by
  simp [DetailSystem.record]

theorem record_past {k : Nat} {server : Nat → D} (t : DetailSystem D) (h : s.past[k]? = some server) :
    (s.record t).past[k]? = some server := by
  rw [DetailSystem.record, List.getElem?_append_left (List.getElem?_eq_some_iff.1 h).1, h]

/-- What the server has now. -/
theorem record_now (s t : DetailSystem D) : (s.record t).past[s.past.length]? = some s.server :=
  List.getElem?_concat_length ..

/-- The invalidations of an event are of now. -/
def OnlyNow (s t : DetailSystem D) : Prop := ∀ x ∈ t.invalidated, x ∈ s.invalidated ∨ x.2 = s.past.length

theorem DetailSystem.Fresh.mono (h : s.Fresh id detail event) (hnow : OnlyNow s t)
    (hle : event ≤ s.past.length) : (s.record t).Fresh id detail event := by
  obtain ⟨k, server, hk, hserver, hafter⟩ := h
  refine ⟨k, server, record_past t hk, hserver, fun j hj hlt => ?_⟩
  rcases hnow _ hj with hj | hj
  · exact hafter j hj hlt
  · dsimp only at hj
    omega

/-- Where nothing is invalidated, what was fresh before the event is fresh after it. -/
theorem DetailSystem.Fresh.later (h : s.Fresh id detail s.past.length)
    (hbefore : ∀ x ∈ s.invalidated, x.2 < s.past.length)
    (hsame : ∀ j, (id, j) ∈ t.invalidated → (id, j) ∈ s.invalidated) : (s.record t).Fresh id detail
    (s.record t).past.length := by
  obtain ⟨k, server, hk, hserver, hafter⟩ := h
  exact ⟨k, server, record_past t hk, hserver, fun j hj _ =>
    hafter j (hsame j hj) (hbefore _ (hsame j hj))⟩

theorem invalidations_record (hsame : t.invalidated = s.invalidated) :
    (s.record t).invalidations id event = s.invalidations id event := by
  rw [DetailSystem.invalidations, DetailSystem.record, hsame, DetailSystem.invalidations]

/-- A property of more elements, and of one that lacks the other. -/
theorem countP_lt {α : Type*} {p q : α → Bool} {l : List α} {a : α}
    (h : ∀ x, p x = true → q x = true) (ha : a ∈ l) (hq : q a = true) (hp : p a = false) :
    l.countP p < l.countP q := by
  induction l with
  | nil => cases ha
  | cons x l ih =>
    have hle : l.countP p ≤ l.countP q := List.countP_mono_left fun x _ => h x
    rw [List.countP_cons, List.countP_cons]
    rcases List.mem_cons.1 ha with rfl | ha
    · rw [hp, hq, if_neg Bool.false_ne_true, if_pos rfl]
      omega
    · have hlt := ih ha
      cases hpx : p x with
      | false =>
        rw [if_neg Bool.false_ne_true]
        omega
      | true =>
        rw [h x hpx]
        omega

/-- As many invalidations before two events: none lies between. -/
theorem no_invalidation_between {first second : Nat}
    (hsame : s.invalidations id first = s.invalidations id second) {j : Nat}
    (hj : (id, j) ∈ s.invalidated) (hlt : j < second) :
    j < first := by
  by_contra hge
  refine (Nat.ne_of_lt ?_) hsame
  refine countP_lt (fun x hx => ?_) hj (by simpa using hlt) (by simpa using hge)
  rw [decide_eq_true_iff] at hx ⊢
  exact ⟨hx.1, by omega⟩

/-- What `getCachedSubscriptionDetail` does: it may drop an entry, and answers with one. -/
theorem getCached_spec (id : Nat) (now : Int) (maps : DetailMaps D) :
    (getCachedSubscriptionDetail id now maps).1.detailRequests = maps.detailRequests ∧
      (getCachedSubscriptionDetail id now maps).1.detailVersions = maps.detailVersions ∧
      (∀ j e, (getCachedSubscriptionDetail id now maps).1.detailCache j = some e →
        maps.detailCache j = some e) ∧
      ∀ d, (getCachedSubscriptionDetail id now maps).2 = some d → ∃ e,
        maps.detailCache id = some e ∧ e.detail = d := by
  unfold getCachedSubscriptionDetail
  split
  · exact ⟨rfl, rfl, fun _ _ h => h, fun d h => by cases h⟩
  · rename_i cached hcached
    split
    · refine ⟨rfl, rfl, fun j e h => ?_, fun d h => by cases h⟩
      exact forall_set (P := fun j e => maps.detailCache j = some e) (fun j e h => h)
        (fun e h => by cases h) j e h
    · exact ⟨rfl, rfl, fun _ _ h => h, fun d h => ⟨cached, hcached, Option.some.inj h⟩⟩

/-- The versions, after an event that invalidates nothing. -/
theorem DetailInv.counted (h : DetailInv s) (hinvalidated : t.invalidated = s.invalidated)
    (hversions : t.maps.detailVersions = s.maps.detailVersions) :
    (∀ x ∈ (s.record t).invalidated, x.2 < (s.record t).past.length) ∧
      (∀ id, detailVersion (s.record t).maps id = (s.record t).invalidations id
        (s.record t).past.length) ∧
      ∀ id, detailVersion t.maps id = detailVersion s.maps id := by
  have hversion : ∀ id, detailVersion t.maps id = detailVersion s.maps id := fun id => by
    rw [detailVersion, hversions, detailVersion]
  refine ⟨fun x hx => ?_, fun id => ?_, hversion⟩
  · have hlt := h.before x (hinvalidated ▸ hx)
    rw [record_length]
    omega
  · have hall : (s.record t).invalidations id
        (s.record t).past.length = s.invalidations id s.past.length := by
      unfold DetailSystem.invalidations DetailSystem.record
      rw [hinvalidated]
      refine List.countP_congr fun x hx => ?_
      have hlt := h.before x hx
      simp only [List.length_append, List.length_singleton, decide_eq_true_eq]
      omega
    rw [hall]
    exact (hversion id).trans (h.versions id)

/-- An event that starts no request and invalidates nothing. -/
theorem DetailInv.called (h : DetailInv s) (hinvalidated : t.invalidated = s.invalidated)
    (hrequests : t.requests = s.requests) (hnext : t.next = s.next)
    (hmap : t.maps.detailRequests = s.maps.detailRequests)
    (hversions : t.maps.detailVersions = s.maps.detailVersions)
    (hcache : ∀ id e, t.maps.detailCache id = some e → s.maps.detailCache id = some e)
    (hcalls : ∀ c ∈ t.calls, c ∈ s.calls ∨ (c.event = s.past.length ∧ match c.loaded with
      | .detail d => s.Fresh c.id d c.event
      | .existing n | .started n => s.maps.detailRequests c.id = some n)) : DetailInv (s.record t) := by
  obtain ⟨hbefore, hcounted, hversion⟩ := h.counted hinvalidated hversions
  have hnow : OnlyNow s t := fun x hx => .inl (hinvalidated ▸ hx)
  constructor
  case before => exact hbefore
  case versions => exact hcounted
  case cached =>
    intro id e he
    exact (h.cached id e (hcache id e he)).later h.before fun j hj => hinvalidated ▸ hj
  case numbers =>
    intro n hn
    exact hrequests ▸ h.numbers n (hnext ▸ hn)
  case requests =>
    intro n r hr
    obtain ⟨hbegun, hcount, hresult⟩ := h.requests n r (hrequests ▸ hr)
    refine ⟨by rw [record_length]; omega, ?_, fun d hd => ?_⟩
    · rw [invalidations_record hinvalidated]
      exact hcount
    · obtain ⟨k, server, hk, hserver, hlt⟩ := hresult d hd
      exact ⟨k, server, record_past t hk, hserver, hlt⟩
  case joined =>
    intro n r hr hlive hcurrent
    have hold := h.joined n r (hrequests ▸ hr) hlive (hcurrent.trans (hversion r.id))
    rw [DetailSystem.record, hmap]
    exact hold
  case joinable =>
    intro id n hn
    obtain ⟨r, hr, hid, hcurrent⟩ := h.joinable id n (hmap ▸ hn)
    exact ⟨r, hrequests ▸ hr, hid, hcurrent.trans (hversion id).symm⟩
  case single =>
    intro n m r q hr hq
    exact h.single n m r q (hrequests ▸ hr) (hrequests ▸ hq)
  case calls =>
    intro c hc
    rw [record_length]
    rcases hcalls c hc with hc | ⟨hevent, hloaded⟩
    · obtain ⟨hlt, hold⟩ := h.calls c hc
      refine ⟨by omega, ?_⟩
      cases hload : c.loaded with
      | detail d =>
        simp only [hload] at hold
        exact hold.mono hnow hlt.le
      | existing n | started n =>
        simp only [hload] at hold
        obtain ⟨r, hr, hid, hafter⟩ := hold
        exact ⟨r, hrequests ▸ hr, hid, fun j hj => hafter j (hinvalidated ▸ hj)⟩
    · refine ⟨by omega, ?_⟩
      cases hload : c.loaded with
      | detail d =>
        simp only [hload] at hloaded
        exact hloaded.mono hnow hevent.le
      | existing n | started n =>
        -- the request that others join was begun after every invalidation
        simp only [hload] at hloaded
        obtain ⟨r, hr, hid, hcurrent⟩ := h.joinable c.id n hloaded
        obtain ⟨hbegun, hcount, -⟩ := h.requests n r hr
        refine ⟨r, hrequests ▸ hr, hid, fun j hj hlt => ?_⟩
        have hsame : s.invalidations r.id r.begun = s.invalidations r.id s.past.length := by
          rw [← hcount, hcurrent, ← h.versions, hid]
        exact no_invalidation_between hsame (hid ▸ hinvalidated ▸ hj) (by omega)

/-- What a call knows of its request lasts. -/
theorem DetailInv.calls_record (h : DetailInv s) (hnow : OnlyNow s t)
    (hkept : ∀ n r, s.requests n = some r → ∃ q, t.requests n = some q ∧ q.id = r.id ∧
      q.begun = r.begun) {c : DetailCall D} (hc : c ∈ s.calls) :
    c.event < (s.record t).past.length ∧ match c.loaded with
      | .detail d => (s.record t).Fresh c.id d c.event
      | .existing n | .started n => ∃ r, (s.record t).requests n = some r ∧ r.id = c.id ∧
          ∀ j, (c.id, j) ∈ (s.record t).invalidated → j < c.event → j < r.begun := by
  obtain ⟨hlt, hold⟩ := h.calls c hc
  rw [record_length]
  refine ⟨by omega, ?_⟩
  cases hload : c.loaded with
  | detail d =>
    simp only [hload] at hold
    exact hold.mono hnow hlt.le
  | existing n | started n =>
    simp only [hload] at hold
    obtain ⟨r, hr, hid, hafter⟩ := hold
    obtain ⟨q, hq, hqid, hbegun⟩ := hkept n r hr
    refine ⟨q, hq, hqid.trans hid, fun j hj hlate => ?_⟩
    rcases hnow _ hj with hj | hj
    · exact hbegun ▸ hafter j hj hlate
    · dsimp only at hj
      omega

/-- A promise goes on. -/
theorem DetailInv.advanced (h : DetailInv s) {r : DetailRequest D} (hr : s.requests n = some r)
    {phase : RequestPhase D} {maps : DetailMaps D}
    (hversions : maps.detailVersions = s.maps.detailVersions)
    (hcache : ∀ id e, maps.detailCache id = some e → s.maps.detailCache id = some e ∨
      s.Fresh id e.detail s.past.length)
      (hlive : (DetailRequest.mk r.id r.version r.begun phase).live = true → r.live = true)
    (hmap : maps.detailRequests = s.maps.detailRequests ∨
      (maps.detailRequests = set s.maps.detailRequests r.id none ∧
        r.version = detailVersion s.maps r.id ∧ r.live = true ∧
        (DetailRequest.mk r.id r.version r.begun phase).live = false))
    (hresult : ∀ d, (DetailRequest.mk r.id r.version r.begun phase).result = some d →
      r.result = some d ∨ s.server r.id = d) :
    DetailInv (s.record { s.advance n r phase with maps := maps }) := by
  obtain ⟨hbefore, hcounted, hversion⟩ :=
    h.counted (t := { s.advance n r phase with maps := maps }) rfl hversions
  -- what a request was before the event
  have hold : ∀ m q, set s.requests n (some { r with phase := phase }) m = some q →
      ∃ q', s.requests m = some q' ∧ q'.id = q.id ∧ q'.version = q.version ∧ q'.begun = q.begun ∧
        (q.live = true → q'.live = true) ∧
        ∀ d, q.result = some d → q'.result = some d ∨ s.server q.id = d := by
    refine forall_set (fun m q hq => ⟨q, hq, rfl, rfl, rfl, fun hq => hq, fun d hd => .inl hd⟩)
      fun q hq => ?_
    obtain rfl := Option.some.inj hq
    exact ⟨r, hr, rfl, rfl, rfl, hlive, hresult⟩
  have hnow : ∀ m q, s.requests m = some q → ∃ q',
      set s.requests n (some { r with phase := phase }) m = some q' ∧ q'.id = q.id ∧
      q'.version = q.version ∧ q'.begun = q.begun := by
    intro m q hq
    by_cases hm : m = n
    · subst hm
      obtain rfl := Option.some.inj (hr.symm.trans hq)
      exact ⟨_, set_self _ _ _, rfl, rfl, rfl⟩
    · exact ⟨q, by rw [set_of_ne _ _ hm, hq], rfl, rfl, rfl⟩
  constructor
  case before => exact hbefore
  case versions => exact hcounted
  case cached =>
    intro id e he
    rcases hcache id e he with he | hfresh
    · exact (h.cached id e he).later h.before fun j hj => hj
    · exact hfresh.later h.before fun j hj => hj
  case numbers =>
    intro m hm
    have hne : m ≠ n := fun heq => by
      have hnone := h.numbers m hm
      rw [heq, hr] at hnone
      cases hnone
    exact (set_of_ne _ _ hne).trans (h.numbers m hm)
  case requests =>
    intro m q hq
    obtain ⟨q', hq', hid, hver, hbegun, -, hres⟩ := hold m q hq
    obtain ⟨hlt, hcount, hread⟩ := h.requests m q' hq'
    rw [record_length, invalidations_record (s := s)
      (t := { s.advance n r phase with maps := maps }) rfl, ← hid, ← hver, ← hbegun]
    refine ⟨by omega, hcount, fun d hd => ?_⟩
    rcases hres d hd with hd | hd
    · obtain ⟨k, server, hk, hserver, hafter⟩ := hread d hd
      exact ⟨k, server, record_past _ hk, hserver, hafter⟩
    · exact ⟨_, s.server, record_now s _, by rw [hid, hd], hlt⟩
  case joined =>
    intro m q hq hqlive hcurrent
    obtain ⟨q', hq', hid, hver, -, hlive', -⟩ := hold m q hq
    have hwas := h.joined m q' hq' (hlive' hqlive) (by rw [hver, hcurrent, hid]; exact hversion q.id)
    rw [hid] at hwas
    rcases hmap with hmap | ⟨hmap, hrcurrent, hrlive, hdead⟩
    · exact (congrFun hmap q.id).trans hwas
    · -- the promise that is forgotten was the only one
      by_cases hsame : q.id = r.id
      · have hm : m = n := h.single m n q' r hq' hr (hid.trans hsame)
          (hver.trans (hcurrent.trans ((hversion q.id).trans (hsame ▸ hrcurrent.symm))))
            (hlive' hqlive) hrlive
        rw [hm] at hq
        obtain rfl := Option.some.inj ((set_self _ _ _).symm.trans hq)
        rw [hdead] at hqlive
        cases hqlive
      · exact (congrFun hmap q.id).trans ((set_of_ne _ _ hsame).trans hwas)
  case joinable =>
    intro id m hm
    have hwas : s.maps.detailRequests id = some m := by
      rcases hmap with hmap | ⟨hmap, -⟩
      · exact (congrFun hmap id).symm.trans hm
      · exact forall_set (P := fun j k => s.maps.detailRequests j = some k) (fun _ _ h => h)
          (fun _ h => by cases h) id m
          ((congrFun hmap id).symm.trans hm)
    obtain ⟨q, hq, hid, hcurrent⟩ := h.joinable id m hwas
    obtain ⟨q', hq', hid', hver', -⟩ := hnow m q hq
    exact ⟨q', hq', hid'.trans hid, hver'.trans (hcurrent.trans (hversion id).symm)⟩
  case single =>
    intro m k q p hq hp hid hver hqlive hplive
    obtain ⟨q', hq', hqid, hqver, -, hqlive', -⟩ := hold m q hq
    obtain ⟨p', hp', hpid, hpver, -, hplive', -⟩ := hold k p hp
    exact h.single m k q' p' hq' hp' (hqid.trans (hid.trans hpid.symm))
      (hqver.trans (hver.trans hpver.symm)) (hqlive' hqlive) (hplive' hplive)
  case calls =>
    intro c hc
    refine h.calls_record (t := { s.advance n r phase with maps := maps }) (fun x hx => .inl hx)
      (fun m q hq => ?_) hc
    obtain ⟨q', hq', hid', -, hbegun'⟩ := hnow m q hq
    exact ⟨q', hq', hid', hbegun'⟩

/-- A request is begun, where there was none to join. -/
theorem DetailInv.started (h : DetailInv s) {maps : DetailMaps D}
    (hnone : s.maps.detailRequests id = none) (hversions : maps.detailVersions = s.maps.detailVersions)
    (hcache : ∀ id e, maps.detailCache id = some e → s.maps.detailCache id = some e)
    (hmap : maps.detailRequests = set s.maps.detailRequests id (some s.next)) :
    DetailInv (s.record { s with
      maps := maps
      calls := s.calls ++ [⟨id, s.past.length, .started s.next⟩]
      requests := set s.requests s.next (some ⟨id, detailVersion s.maps id, s.past.length, .sent⟩)
      next := s.next + 1 }) := by
  generalize hnew : (⟨id, detailVersion s.maps id, s.past.length, .sent⟩ : DetailRequest D) = new
  generalize ht : DetailSystem.mk maps s.server (set s.requests s.next (some new)) (s.next + 1) s.past
    (s.calls ++ [⟨id, s.past.length, .started s.next⟩]) s.invalidated = t
  have hinvalidated : t.invalidated = s.invalidated := ht ▸ rfl
  have hmaps : t.maps = maps := ht ▸ rfl
  have hrequests : t.requests = set s.requests s.next (some new) := ht ▸ rfl
  have hcalls : t.calls = s.calls ++ [⟨id, s.past.length, .started s.next⟩] := ht ▸ rfl
  have hnext : t.next = s.next + 1 := ht ▸ rfl
  obtain ⟨hbefore, hcounted, hversion⟩ := h.counted (t := t) hinvalidated (hmaps ▸ hversions)
  have hfree : s.requests s.next = none := h.numbers s.next le_rfl
  have hold : ∀ m q, t.requests m = some q → s.requests m = some q ∨ (m = s.next ∧ q = new) := by
    rw [hrequests]
    exact forall_set (P := fun m q => s.requests m = some q ∨ (m = s.next ∧ q = new))
      (fun m q hq => .inl hq)
      fun q hq => .inr ⟨rfl, (Option.some.inj hq).symm⟩
  have hkept : ∀ m q, s.requests m = some q → t.requests m = some q := by
    intro m q hq
    have hne : m ≠ s.next := fun heq => by
      rw [heq, hfree] at hq
      cases hq
    rw [hrequests, set_of_ne _ _ hne, hq]
  -- nobody else may be asking for this version
  have halone : ∀ m q, s.requests m = some q → q.id = id → q.version = detailVersion s.maps id →
      q.live = false := by
    intro m q hq hid hver
    by_contra hlive
    have hjoined := h.joined m q hq (by simpa using hlive) (hid ▸ hver)
    rw [hid, hnone] at hjoined
    cases hjoined
  constructor
  case before => exact hbefore
  case versions => exact hcounted
  case cached =>
    intro j e he
    exact (h.cached j e (hcache j e (hmaps ▸ he))).later h.before fun j hj => hinvalidated ▸ hj
  case numbers =>
    intro m hm
    have hle : s.next + 1 ≤ m := hnext ▸ hm
    have hfresh : t.requests m = s.requests m := by rw [hrequests, set_of_ne _ _ (by omega)]
    exact hfresh.trans (h.numbers m (by omega))
  case requests =>
    intro m q hq
    rw [record_length, invalidations_record (s := s) hinvalidated]
    rcases hold m q hq with hq | ⟨-, rfl⟩
    · obtain ⟨hlt, hcount, hread⟩ := h.requests m q hq
      refine ⟨by omega, hcount, fun d hd => ?_⟩
      obtain ⟨k, server, hk, hserver, hafter⟩ := hread d hd
      exact ⟨k, server, record_past t hk, hserver, hafter⟩
    · subst hnew
      exact ⟨Nat.lt_succ_self _, h.versions id, fun d hd => by cases hd⟩
  case joined =>
    intro m q hq hlive hcurrent
    have hlook : (s.record t).maps.detailRequests = set s.maps.detailRequests id (some s.next) := by
      rw [DetailSystem.record, hmaps, hmap]
    have hver : q.version = detailVersion s.maps q.id := hcurrent.trans (hversion q.id)
    rw [hlook]
    rcases hold m q hq with hq | ⟨rfl, rfl⟩
    · by_cases hid : q.id = id
      · have hdead := halone m q hq hid (hid ▸ hver)
        rw [hdead] at hlive
        cases hlive
      · rw [set_of_ne _ _ hid]
        exact h.joined m q hq hlive hver
    · subst hnew
      exact set_self _ _ _
  case joinable =>
    intro j m hm
    have hlook : set s.maps.detailRequests id (some s.next) j = some m := by
      rw [← hmap, ← hmaps]
      exact hm
    refine forall_set (P := fun j m => ∃ r, (s.record t).requests m = some r ∧ r.id = j ∧
      r.version = detailVersion (s.record t).maps j) ?_ ?_ j m hlook
    · intro j m hm
      obtain ⟨r, hr, hid, hver⟩ := h.joinable j m hm
      exact ⟨r, hkept m r hr, hid, hver.trans (hversion j).symm⟩
    · intro m hm
      obtain rfl := Option.some.inj hm
      refine ⟨new, ?_, by rw [← hnew], ?_⟩
      · exact (congrFun hrequests s.next).trans (set_self _ _ _)
      · rw [← hnew]
        exact (hversion id).symm
  case single =>
    intro m k q p hq hp hid hver hqlive hplive
    rcases hold m q hq with hq | ⟨rfl, rfl⟩ <;> rcases hold k p hp with hp | ⟨rfl, rfl⟩
    · exact h.single m k q p hq hp hid hver hqlive hplive
    · subst hnew
      rw [halone m q hq hid hver] at hqlive
      cases hqlive
    · subst hnew
      rw [halone k p hp hid.symm hver.symm] at hplive
      cases hplive
    · rfl
  case calls =>
    intro c hc
    rw [DetailSystem.record, hcalls, List.mem_append] at hc
    rcases hc with hc | hc
    · exact h.calls_record (t := t) (fun x hx => .inl (hinvalidated ▸ hx))
        (fun m q hq => ⟨q, hkept m q hq, rfl, rfl⟩) hc
    · obtain rfl := List.mem_singleton.1 hc
      refine ⟨by rw [record_length]; exact Nat.lt_succ_self _, new, ?_, by rw [← hnew],
        fun j _ hlt => by rw [← hnew]; exact hlt⟩
      exact (congrFun hrequests s.next).trans (set_self _ _ _)

theorem DetailInv.invalidated (h : DetailInv s) (id : Nat) :
    DetailInv (s.record { s with
      maps := invalidateSubscriptionDetail id s.maps
      invalidated := s.invalidated ++ [(id, s.past.length)] }) := by
  generalize ht : DetailSystem.mk
    (invalidateSubscriptionDetail id s.maps) s.server s.requests s.next s.past s.calls
    (s.invalidated ++ [(id, s.past.length)]) = t
  have hinvalidated : t.invalidated = s.invalidated ++ [(id, s.past.length)] := ht ▸ rfl
  have hmaps : t.maps = invalidateSubscriptionDetail id s.maps := ht ▸ rfl
  have hrequests : t.requests = s.requests := ht ▸ rfl
  have hcalls : t.calls = s.calls := ht ▸ rfl
  have hnext : t.next = s.next := ht ▸ rfl
  have hnow : OnlyNow s t := fun x hx => by
    rw [hinvalidated] at hx
    rcases List.mem_append.1 hx with hx | hx
    · exact .inl hx
    · exact .inr (by rw [List.mem_singleton.1 hx])
  have hother : ∀ j, j ≠ id → detailVersion t.maps j = detailVersion s.maps j := fun j hj => by
    rw [hmaps]
    exact congrArg (Option.getD · 0) (set_of_ne _ _ hj)
  have hself : detailVersion t.maps id = detailVersion s.maps id + 1 := by
    rw [hmaps]
    exact congrArg (Option.getD · 0) (set_self _ _ _)
  have hcount : ∀ j event, event ≤ s.past.length →
      (s.record t).invalidations j event = s.invalidations j event := by
    intro j event hevent
    have hlate : ¬ s.past.length < event := by omega
    rw [DetailSystem.invalidations, DetailSystem.record, hinvalidated, List.countP_append,
      List.countP_singleton]
    simp [hlate, DetailSystem.invalidations]
  have hall : ∀ j, (s.record t).invalidations j
      (s.record t).past.length = s.invalidations j s.past.length + if j = id then 1 else 0 := by
    intro j
    rw [record_length]
    simp only [DetailSystem.invalidations, DetailSystem.record, hinvalidated, List.countP_append,
      List.countP_singleton]
    have hold : s.invalidated.countP (fun x => decide (x.1 = j ∧ x.2 < s.past.length + 1)) =
        s.invalidated.countP (fun x => decide (x.1 = j ∧ x.2 < s.past.length)) := by
      refine List.countP_congr fun x hx => ?_
      have hlt := h.before x hx
      simp only [decide_eq_true_eq]
      omega
    rw [hold]
    by_cases hj : j = id
    · simp [hj]
    · simp [hj, Ne.symm hj]
  -- a request of the present version is of another subscription
  have hcurrent : ∀ n r, s.requests n = some r → r.version = detailVersion t.maps r.id → r.id ≠ id := by
    intro n r hr hver hid
    obtain ⟨hlt, hbegun, -⟩ := h.requests n r hr
    have hle : s.invalidations r.id r.begun ≤ s.invalidations r.id s.past.length := by
      refine List.countP_mono_left fun x _ hx => ?_
      rw [decide_eq_true_iff] at hx ⊢
      exact ⟨hx.1, by omega⟩
    have hnew : detailVersion t.maps r.id = s.invalidations r.id s.past.length + 1 := by
      rw [hid, hself, h.versions]
    omega
  constructor
  case before =>
    intro x hx
    rw [record_length]
    rcases hnow x hx with hx | hx
    · have hlt := h.before x hx
      omega
    · omega
  case versions =>
    intro j
    rw [hall]
    by_cases hj : j = id
    · subst hj
      rw [if_pos rfl, ← h.versions]
      exact hself
    · rw [if_neg hj, ← h.versions]
      exact hother j hj
  case cached =>
    intro j e he
    have hentry : set s.maps.detailCache id none j = some e := by
      have he' : t.maps.detailCache j = some e := he
      rw [hmaps] at he'
      exact he'
    have hj : j ≠ id := fun hj => by
      rw [hj, set_self] at hentry
      cases hentry
    rw [set_of_ne _ _ hj] at hentry
    refine (h.cached j e hentry).later h.before fun k hk => ?_
    rw [hinvalidated] at hk
    rcases List.mem_append.1 hk with hk | hk
    · exact hk
    · exact absurd (Prod.ext_iff.1 (List.mem_singleton.1 hk)).1 hj
  case numbers =>
    intro n hn
    exact hrequests ▸ h.numbers n (hnext ▸ hn)
  case requests =>
    intro n r hr
    obtain ⟨hlt, hbegun, hread⟩ := h.requests n r (hrequests ▸ hr)
    rw [record_length, hcount r.id r.begun hlt.le]
    refine ⟨by omega, hbegun, fun d hd => ?_⟩
    obtain ⟨k, server, hk, hserver, hafter⟩ := hread d hd
    exact ⟨k, server, record_past t hk, hserver, hafter⟩
  case joined =>
    intro n r hr hlive hver
    have hr' : s.requests n = some r := hrequests ▸ hr
    have hne := hcurrent n r hr' hver
    have hold := h.joined n r hr' hlive (hver.trans (hother r.id hne))
    rw [DetailSystem.record, hmaps]
    exact (set_of_ne _ _ hne).trans hold
  case joinable =>
    intro j n hn
    have hentry : set s.maps.detailRequests id none j = some n := by
      have hn' : t.maps.detailRequests j = some n := hn
      rw [hmaps] at hn'
      exact hn'
    have hj : j ≠ id := fun hj => by
      rw [hj, set_self] at hentry
      cases hentry
    rw [set_of_ne _ _ hj] at hentry
    obtain ⟨r, hr, hid, hver⟩ := h.joinable j n hentry
    exact ⟨r, hrequests ▸ hr, hid, hver.trans (hother j hj).symm⟩
  case single =>
    intro n m r q hr hq
    exact h.single n m r q (hrequests ▸ hr) (hrequests ▸ hq)
  case calls =>
    intro c hc
    exact h.calls_record (t := t) hnow (fun n r hr => ⟨r, hrequests ▸ hr, rfl, rfl⟩) (hcalls ▸ hc)

theorem DetailInv.get (h : DetailInv s) (id : Nat) (now : Int) :
    DetailInv (s.record (s.get id now)) := by
  obtain ⟨hmap, hversions, hcache, hanswer⟩ := getCached_spec id now s.maps
  refine h.called rfl rfl rfl hmap hversions hcache fun c hc => ?_
  rcases List.mem_append.1 hc with hc | hc
  · exact .inl hc
  · obtain ⟨d, hd, rfl⟩ := Option.map_eq_some_iff.1 (Option.mem_toList.1 hc)
    obtain ⟨e, he, rfl⟩ := hanswer d hd
    exact .inr ⟨rfl, h.cached id e he⟩

theorem DetailInv.load (h : DetailInv s) (id : Nat) (now : Int) :
    DetailInv (s.record (s.load id now)) := by
  obtain ⟨hmap, hversions, hcache, hanswer⟩ := getCached_spec id now s.maps
  unfold DetailSystem.load loadSubscriptionDetail
  dsimp only
  cases hlooked : (getCachedSubscriptionDetail id now s.maps).2 with
  | some d =>
    refine h.called rfl rfl rfl hmap hversions hcache fun c hc => ?_
    rcases List.mem_append.1 hc with hc | hc
    · exact .inl hc
    · obtain rfl := List.mem_singleton.1 hc
      obtain ⟨e, he, rfl⟩ := hanswer d hlooked
      exact .inr ⟨rfl, h.cached id e he⟩
  | none =>
    rw [hmap]
    cases hexisting : s.maps.detailRequests id with
    | some n =>
      refine h.called rfl rfl rfl hmap hversions hcache fun c hc => ?_
      rcases List.mem_append.1 hc with hc | hc
      · exact .inl hc
      · obtain rfl := List.mem_singleton.1 hc
        exact .inr ⟨rfl, hexisting⟩
    | none => exact h.started hexisting hversions hcache rfl

theorem DetailInv.step (h : DetailInv s) (e : DetailEvent D) (hstep : s.step e = some t) :
    DetailInv t := by
  obtain ⟨after, hact, rfl⟩ := Option.map_eq_some_iff.1 hstep
  cases e with
  | change id detail =>
    obtain rfl := Option.some.inj hact
    exact h.called rfl rfl rfl rfl rfl (fun _ _ he => he) fun c hc => .inl hc
  | get id now =>
    obtain rfl := Option.some.inj hact
    exact h.get id now
  | load id now =>
    obtain rfl := Option.some.inj hact
    exact h.load id now
  | answer n fails =>
    rw [DetailSystem.act] at hact
    split at hact
    · rename_i id version begun hr
      obtain rfl := Option.some.inj hact
      -- an answer is the detail of the server at this instant
      refine h.advanced hr rfl (fun _ _ he => .inl he) (fun _ => rfl) (.inl rfl) fun d hd => ?_
      cases fails with
      | true => cases hd
      | false => exact .inr (Option.some.inj hd)
    · cases hact
  | store n now =>
    rw [DetailSystem.act] at hact
    split at hact
    · rename_i id version begun result hr
      obtain rfl := Option.some.inj hact
      cases result with
      | none =>
        exact h.advanced hr rfl (fun _ _ he => .inl he) (fun _ => rfl) (.inl rfl) fun d hd => by cases hd
      | some d =>
        have hsame : (storeDetail id version d now s.maps).detailRequests = s.maps.detailRequests ∧
            (storeDetail id version d now s.maps).detailVersions = s.maps.detailVersions := by
          unfold storeDetail
          split <;> exact ⟨rfl, rfl⟩
        refine h.advanced hr hsame.2 ?_ (fun _ => rfl) (.inl hsame.1) fun d' hd => .inl hd
        intro j e he
        rw [Option.elim_some, storeDetail] at he
        split at he
        · -- the version is the present one: nothing was invalidated since the request began
          rename_i hcurrent
          obtain ⟨hlt, hbegun, hread⟩ := h.requests n _ hr
          refine forall_set (P := fun j e => s.maps.detailCache j = some e ∨
            s.Fresh j e.detail s.past.length) (fun _ _ he => .inl he)
            (fun e he => .inr ?_) j e he
          obtain rfl := Option.some.inj he
          obtain ⟨k, server, hk, hserver, hafter⟩ := hread d rfl
          refine ⟨k, server, hk, hserver, fun i hi hlate => ?_⟩
          have hnone :=
            no_invalidation_between (hbegun.symm.trans (hcurrent.symm.trans (h.versions id))) hi hlate
          dsimp only at hafter hnone
          omega
        · exact .inl he
    · cases hact
  | settle n =>
    rw [DetailSystem.act] at hact
    split at hact
    · rename_i id version begun result hr
      obtain rfl := Option.some.inj hact
      unfold forgetRequest
      split
      · -- the request is forgotten only when it is the one registered
        rename_i hcurrent
        exact h.advanced hr rfl (fun _ _ he => .inl he) (fun _ => rfl)
          (.inr ⟨rfl, hcurrent.symm, rfl, rfl⟩) fun d hd => .inl hd
      · exact h.advanced hr rfl (fun _ _ he => .inl he) (fun _ => rfl) (.inl rfl) fun d hd => .inl hd
    · cases hact
  | invalidate id =>
    obtain rfl := Option.some.inj hact
    exact h.invalidated id

theorem DetailInv.initial (server : Nat → D) : DetailInv (.initial server) where
  before _ hx := absurd hx List.not_mem_nil
  versions _ := rfl
  cached _ _ he := by cases he
  numbers _ _ := rfl
  requests _ _ hr := by cases hr
  joined _ _ hr := by cases hr
  joinable _ _ hn := by cases hn
  single _ _ _ _ hr := by cases hr
  calls _ hc := absurd hc List.not_mem_nil

/-- Over every run: what a call gets, the server had after every invalidation of the subscription
that came before the call; and of two requests for one subscription that run at the same time, one
was begun after an invalidation that came after the other began. -/
theorem detail_cache_coherent (server : Nat → D) (s : DetailSystem D)
    (h : Path DetailSystem.step Always (.initial server) s) :
    (∀ c ∈ s.calls, ∀ d, c.got s = some d → s.Fresh c.id d c.event) ∧
      ∀ n m r q, s.requests n = some r → s.requests m = some q → r.id = q.id → r.live = true →
        q.live = true → n ≠ m →
        ∃ j, (r.id, j) ∈ s.invalidated ∧ min r.begun q.begun ≤ j ∧ j < max r.begun q.begun := by
  have hinv : DetailInv s :=
    h.invariant DetailInv (fun _ e _ hinv _ hstep => hinv.step e hstep) (.initial server)
  constructor
  · intro c hc d hd
    obtain ⟨-, hloaded⟩ := hinv.calls c hc
    unfold DetailCall.got at hd
    cases hload : c.loaded with
    | detail d' =>
      simp only [hload] at hd hloaded
      exact Option.some.inj hd ▸ hloaded
    | existing n | started n =>
      simp only [hload] at hd hloaded
      obtain ⟨r, hr, hid, hafter⟩ := hloaded
      rw [hr, Option.bind_some] at hd
      obtain ⟨-, -, hread⟩ := hinv.requests n r hr
      obtain ⟨k, server, hk, hserver, hlt⟩ := hread d hd
      exact ⟨k, server, hk, hid ▸ hserver, fun j hj hlate => (hafter j hj hlate).trans hlt⟩
  · intro n m r q hr hq hid hrlive hqlive hne
    by_contra hnone
    push Not at hnone
    obtain ⟨hrlt, hrcount, -⟩ := hinv.requests n r hr
    obtain ⟨hqlt, hqcount, -⟩ := hinv.requests m q hq
    refine hne (hinv.single n m r q hr hq hid ?_ hrlive hqlive)
    rw [hrcount, hqcount, ← hid]
    refine List.countP_congr fun x hx => ?_
    simp only [decide_eq_true_eq]
    refine and_congr_right fun hx' => ?_
    have hbetween := hnone x.2 (hx' ▸ hx)
    omega

end Steps

/-- A page loads a subscription twice at once, saves it and invalidates it while the request runs, and
loads it again: the first two share a request, and the third has one of its own. -/
def sampleDetailEvents : List (DetailEvent Nat) :=
  [.load 1 0, .load 1 1, .answer 0 false, .change 1 20, .invalidate 1, .load 1 2, .store 0 3,
   .get 1 4, .answer 1 false, .store 1 5, .settle 0, .settle 1, .get 1 6]

theorem detail_cache_coherent_sample :
    ∃ s : DetailSystem Nat, s.calls.map (fun c => (c.event, c.got s)) =
    [(0, some 10), (1, some 10), (5, some 20), (12, some 20)] ∧
      ∀ c ∈ s.calls, ∀ d, c.got s = some d → s.Fresh c.id d c.event := by
  have hrun : (exec DetailSystem.step Always (.initial fun _ => 10) sampleDetailEvents).any
      (fun s => s.calls.map (fun c => (c.event, c.got s)) =
        [(0, some 10), (1, some 10), (5, some 20), (12, some 20)]) = true := by
    decide +kernel
  obtain ⟨s, hs, hcalls⟩ := (Option.any_eq_true _ _).1 hrun
  exact ⟨s, of_decide_eq_true hcalls, (detail_cache_coherent _ s (Path.of_exec hs)).1⟩

end Subdux.DetailCache
