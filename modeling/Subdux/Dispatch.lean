import Subdux.OutboxRuns
import Subdux.Scheduler
/-!
# Dispatching

`DispatchDueNotificationOutbox` of `internal/service/notification_outbox.go`, run by
any number of processes on one store. A batch is claimed under one lease and worked
off by up to four workers, each of which checks its job, loads the channel, sends,
and marks the row. The tables a check reads are not part of the state: a check comes
with whatever it finds there.

A dispatcher holds a row from its claim to its mark. In a `Timely` run nobody expires
or claims a held row whose expiry or lease has passed; `DispatchInv` is what then holds.
-/

namespace Subdux
open Runs Rows

/-! ## Dispatchers -/

def maxParallelNotificationDispatches : Nat := 4

/-- Where `dispatchNotificationOutboxJob` stands. -/
inductive WorkerPhase where
  | checking
  | cancelling (now : Time) (update : TerminalUpdate)
  | loading
  | sending (channel : NotificationChannel)
  | markingSent (now : Time)
  | markingFailed (now : Time) (sanitizedErr : String)

structure Worker where
  job : NotificationOutbox
  phase : WorkerPhase

/-- Where `DispatchDueNotificationOutbox` stands. -/
inductive DispatchPhase where
  | expiring (now : Time)
  | selecting (now : Time)
  | claiming (now : Time) (candidates claimedIDs : List Nat)
  | working (queue : List NotificationOutbox) (workers : List Worker)

/-- `leaseUntil` is set with the candidates. -/
structure Dispatcher where
  ownerID : String
  leaseUntil : Time
  phase : DispatchPhase

/-- A statement of a dispatcher, or a move of one of its workers. `cancelled` is
what the code reads from its context. -/
inductive DispatchAction where
  | next (cancelled : Bool)
  | take (cancelled : Bool)
  | check (j : Nat) (view : NotificationDB)
  | cancel (j : Nat)
  | load (j : Nat) (channels : List NotificationChannel)
  | send (j : Nat) (sanitizedErr : Option String)
  | mark (j : Nat)
  | finish

/-- The dispatcher (`none` once it returns), the store and the rows whose message
was handed over, after an action. -/
def Dispatcher.act (loc : Location) (clock : Time) (s : OutboxStore) (d : Dispatcher) :
    DispatchAction → Option (Option Dispatcher × OutboxStore × List Nat)
  | .next cancelled =>
    match d.phase with
    | .expiring now =>
      some (some { d with phase := .selecting clock }, expireNotificationOutbox now s, [])
    | .selecting now =>
      let leaseUntil := now.add notificationOutboxLeaseTTL
      match claimCandidates now maxNotificationOutboxClaimBatch s with
      | [] => some (none, s, [])
      | candidates =>
        some (some { d with leaseUntil := leaseUntil, phase := .claiming now candidates [] }, s, [])
    | .claiming now (id :: candidates) claimedIDs =>
      if cancelled then some (some { d with phase := .claiming now [] claimedIDs }, s, [])
      else
        let claimedIDs := if claimAffected now id s = 1 then claimedIDs ++ [id] else claimedIDs
        some (some { d with phase := .claiming now candidates claimedIDs },
          claimOne d.ownerID now d.leaseUntil id s, [])
    | .claiming _ [] claimedIDs =>
      some (some { d with phase := .working (loadClaimed d.ownerID claimedIDs s) [] }, s, [])
    | .working _ _ => none
  | .take cancelled =>
    match d.phase with
    | .working (job :: queue) workers =>
      if workers.length < maxParallelNotificationDispatches then
        let workers := if cancelled then workers else workers ++ [⟨job, .checking⟩]
        some (some { d with phase := .working queue workers }, s, [])
      else none
    | _ => none
  | .check j view =>
    match d.phase with
    | .working queue workers =>
      match workers[j]? with
      | some ⟨job, .checking⟩ =>
        let phase :=
          match cancelOutboxIfNoLongerDeliverable loc clock view job with
          | some update => WorkerPhase.cancelling clock update
          | none => .loading
        some (some { d with phase := .working queue (workers.set j ⟨job, phase⟩) }, s, [])
      | _ => none
    | _ => none
  | .cancel j =>
    match d.phase with
    | .working queue workers =>
      match workers[j]? with
      | some ⟨job, .cancelling now update⟩ =>
        some (some { d with phase := .working queue (workers.eraseIdx j) },
          updateNotificationOutboxTerminal d.ownerID now job update s, [])
      | _ => none
    | _ => none
  | .load j channels =>
    match d.phase with
    | .working queue workers =>
      match workers[j]? with
      | some ⟨job, .loading⟩ =>
        let phase :=
          match loadOutboxChannel channels job with
          | .error update => WorkerPhase.cancelling clock update
          | .ok channel => .sending channel
        some (some { d with phase := .working queue (workers.set j ⟨job, phase⟩) }, s, [])
      | _ => none
    | _ => none
  | .send j sanitizedErr =>
    match d.phase with
    | .working queue workers =>
      match workers[j]?, sanitizedErr with
      | some ⟨job, .sending _⟩, none =>
        some (some { d with phase := .working queue (workers.set j ⟨job, .markingSent clock⟩) }, s,
          [job.id])
      | some ⟨job, .sending _⟩, some err =>
        some
          (some { d with phase := .working queue (workers.set j ⟨job, .markingFailed clock err⟩) },
            s, [])
      | _, _ => none
    | _ => none
  | .mark j =>
    match d.phase with
    | .working queue workers =>
      match workers[j]? with
      | some ⟨job, .markingSent now⟩ =>
        some (some { d with phase := .working queue (workers.eraseIdx j) },
          markNotificationOutboxSent d.ownerID now job s, [])
      | some ⟨job, .markingFailed now err⟩ =>
        some (some { d with phase := .working queue (workers.eraseIdx j) },
          markNotificationOutboxFailed d.ownerID now job err s, [])
      | _ => none
    | _ => none
  | .finish =>
    match d.phase with
    | .working [] [] => some (none, s, [])
    | _ => none

/-! ## The system -/

/-- `delivered` lists the rows whose send returned success, in order. -/
structure DispatchSystem where
  clock : Int
  store : OutboxStore
  dispatchers : Nat → Option Dispatcher
  delivered : List Nat

def DispatchSystem.now (s : DispatchSystem) : Time := ⟨s.clock, 0⟩

inductive DispatchEvent where
  | tick (nanos : Nat)
  | enqueue (job : NotificationOutboxJob)
  | start (i : Nat) (ownerID : String)
  | act (i : Nat) (action : DispatchAction)

def DispatchSystem.step (loc : Location) (s : DispatchSystem) : DispatchEvent → Option DispatchSystem
  | .tick nanos => some { s with clock := s.clock + nanos }
  | .enqueue job => some { s with store := enqueueNotificationOutbox loc s.now job s.store }
  | .start i ownerID =>
    match s.dispatchers i with
    | some _ => none
    | none => some { s with dispatchers := set s.dispatchers i (some ⟨ownerID, s.now, .expiring s.now⟩) }
  | .act i action =>
    (s.dispatchers i).bind fun d =>
      (d.act loc s.now s.store action).map fun (d, store, handed) =>
        { s with
          store := store, dispatchers := set s.dispatchers i d, delivered := s.delivered ++ handed }

/-- No dispatcher is running, and nothing was handed over in this run yet. -/
structure DispatchSystem.Initial (s : DispatchSystem) : Prop where
  store : OutboxInv s.store
  idle : s.dispatchers = fun _ => none
  delivered : s.delivered = []

/-- The rows between their claim and their mark. -/
def Dispatcher.held (d : Dispatcher) : List Nat :=
  match d.phase with
  | .claiming _ _ claimedIDs => claimedIDs
  | .working queue workers => queue.map (·.id) ++ workers.map (·.job.id)
  | _ => []

/-- A worker is about to mark the row sent. -/
def Dispatcher.Marks (d : Dispatcher) (id : Nat) : Prop :=
  match d.phase with
  | .working _ workers => ∃ w ∈ workers, w.job.id = id ∧ ∃ now, w.phase = .markingSent now
  | _ => False

/-- Where a dispatcher expires rows, no held row is over; where it claims a row that
is held, the lease of the row is not over. -/
def Timely (s : DispatchSystem) : DispatchEvent → Prop
  | .act i (.next _) =>
    match (s.dispatchers i).map Dispatcher.phase with
    | some (.expiring now) =>
      ∀ j d, s.dispatchers j = some d → ∀ row ∈ s.store.rows, row.id ∈ d.held →
        ∀ expiresAt ∈ row.expiresAt, now.nanos < expiresAt.nanos
    | some (.claiming now (id :: _) _) =>
      ∀ j d, s.dispatchers j = some d → id ∈ d.held → now.nanos < d.leaseUntil.nanos
    | _ => True
  | _ => True

/-! ## What a run keeps -/

/-- The row is in processing under this dispatcher's lease. -/
def Dispatcher.Holds (d : Dispatcher) (s : OutboxStore) (id : Nat) : Prop :=
  ∃ row ∈ s.rows, row.id = id ∧ row.status = .processing ∧ row.lockedBy = d.ownerID ∧
    row.lockedUntil = some d.leaseUntil

structure Dispatcher.OK (d : Dispatcher) (s : OutboxStore) : Prop where
  nodup : d.held.Nodup
  holds : ∀ id ∈ d.held, d.Holds s id

def SentRow (s : OutboxStore) (id : Nat) : Prop := ∃ row ∈ s.rows, row.id = id ∧ row.status = .sent

structure DispatchInv (s : DispatchSystem) : Prop where
  store : OutboxInv s.store
  each : ∀ i d, s.dispatchers i = some d → d.OK s.store
  apart : ∀ i j d e, i ≠ j → s.dispatchers i = some d → s.dispatchers j = some e → ∀ id ∈ d.held,
    id ∉ e.held
  once : s.delivered.Nodup
  marked : ∀ id ∈ s.delivered, (∃ i d, s.dispatchers i = some d ∧ d.Marks id) ∨ SentRow s.store id

section Statements
variable {s t : OutboxStore} {d e : Dispatcher} {id : Nat}

/-- A row in a final status stays sent. -/
theorem SentRow.of_frozen (h : SentRow s id) (hfrozen : Frozen s t) : SentRow t id := by
  obtain ⟨row, hrow, hid, hst⟩ := h
  obtain ⟨row', hrow', hid', hst'⟩ := hfrozen row hrow
  exact ⟨row', hrow', hid'.trans hid, (hst' (by simp [hst, OutboxStatus.isOpen])).trans hst⟩

/-- A held row that an update does not select is still held. -/
theorem Dispatcher.Holds.of_update (h : d.Holds s id) {p : NotificationOutbox → Bool}
    {f : NotificationOutbox → NotificationOutbox}
    (hp : ∀ row ∈ s.rows, row.id = id → row.status = .processing →
      row.lockedUntil = some d.leaseUntil → p row = false) (ht : t.rows = updateWhere p f s.rows) :
      d.Holds t id := by
  obtain ⟨row, hrow, hid, hst, hby, huntil⟩ := h
  exact ⟨row, ht ▸ mem_updateWhere_of_not hrow (hp row hrow hid hst huntil), hid, hst, hby, huntil⟩

theorem Dispatcher.Holds.congr (h : d.Holds s id) (hown : e.ownerID = d.ownerID)
    (huntil : e.leaseUntil = d.leaseUntil) :
    e.Holds s id := by
  obtain ⟨row, hrow, hid, hst, hby, hu⟩ := h
  exact ⟨row, hrow, hid, hst, hby.trans hown.symm, hu.trans (huntil ▸ rfl)⟩

/-- A held row was not sent: rows are unique. -/
theorem Dispatcher.Holds.not_sent (h : d.Holds s id) (hinv : OutboxInv s) : ¬ SentRow s id := by
  rintro ⟨row, hrow, hid, hst⟩
  obtain ⟨row', hrow', hid', hst', -⟩ := h
  rw [eq_of_key hinv.ids hrow hrow' (hid.trans hid'.symm), hst'] at hst
  cases hst

end Statements

theorem Dispatcher.Marks.held {d : Dispatcher} {id : Nat} (h : d.Marks id) : id ∈ d.held := by
  obtain ⟨ownerID, leaseUntil, _ | _ | _ | ⟨queue, workers⟩⟩ := d
  case working =>
    obtain ⟨w, hw, hid, -⟩ := h
    exact List.mem_append_right _ (List.mem_map.2 ⟨w, hw, hid⟩)
  all_goals exact h.elim

/-- Dispatcher `i` moves on. Its own rows are rows it held, or rows nobody held; the
others still hold theirs. -/
theorem DispatchInv.move {s : DispatchSystem} (h : DispatchInv s) {i : Nat} {d : Dispatcher}
    (hi : s.dispatchers i = some d) {d' : Option Dispatcher} {store : OutboxStore}
    (hstore : OutboxInv store) (hfrozen : Frozen s.store store)
    (hothers : ∀ j e, j ≠ i → s.dispatchers j = some e → ∀ id ∈ e.held, e.Holds store id)
    (hself : ∀ e, d' = some e → e.OK store)
    (hheld : ∀ e, d' = some e → ∀ id ∈ e.held, id ∈ d.held ∨ ∀ j f, j ≠ i →
      s.dispatchers j = some f → id ∉ f.held)
      (hmarks : ∀ id, d.Marks id → (∃ e, d' = some e ∧ e.Marks id) ∨ SentRow store id) :
    DispatchInv { s with store := store, dispatchers := set s.dispatchers i d' } where
  store := hstore
  each := by
    intro j e hj
    by_cases hji : j = i
    · subst hji
      exact hself e (by simpa using hj)
    · simp only [set_of_ne _ _ hji] at hj
      have he := h.each j e hj
      exact ⟨he.nodup, hothers j e hji hj⟩
  apart := by
    -- A row of the moved dispatcher is in no other's list.
    have hmoved : ∀ e, d' = some e → ∀ j f, j ≠ i → s.dispatchers j = some f → ∀ id ∈ e.held,
        id ∉ f.held := by
      intro e he j f hji hj id hid
      rcases hheld e he id hid with hid | hfree
      · exact h.apart i j d f (Ne.symm hji) hi hj id hid
      · exact hfree j f hji hj
    intro j k e f hne hj hk id hid
    by_cases hji : j = i
    · subst hji
      have hkj : k ≠ j := Ne.symm hne
      simp only [set_self] at hj
      simp only [set_of_ne _ _ hkj] at hk
      exact hmoved e hj k f hkj hk id hid
    · simp only [set_of_ne _ _ hji] at hj
      by_cases hki : k = i
      · subst hki
        simp only [set_self] at hk
        exact fun hid' => hmoved f hk j e hji hj id hid' hid
      · simp only [set_of_ne _ _ hki] at hk
        exact h.apart j k e f hne hj hk id hid
  once := h.once
  marked := by
    intro id hid
    rcases h.marked id hid with ⟨j, e, hj, hmark⟩ | hsent
    · by_cases hji : j = i
      · subst hji
        obtain rfl : e = d := Option.some.inj (hj.symm.trans hi)
        rcases hmarks id hmark with ⟨e', he', hmark'⟩ | hsent
        · exact .inl ⟨j, e', by simpa using he', hmark'⟩
        · exact .inr hsent
      · exact .inl ⟨j, e, by simpa [set_of_ne _ _ hji] using hj, hmark⟩
    · exact .inr (hsent.of_frozen hfrozen)

/-! ## The moves of a worker -/

section Workers
variable {workers : List Worker} {j : Nat} {w : Worker}

theorem mem_set_of_ne {v : Worker} (hv : v ∈ workers) (hj : workers[j]? = some w) (hne : v ≠ w)
    (x : Worker) :
    v ∈ workers.set j x := by
  obtain ⟨k, hk⟩ := List.mem_iff_getElem?.1 hv
  have hkj : j ≠ k := by
    rintro rfl
    exact hne (Option.some.inj (hk.symm.trans hj))
  exact List.mem_iff_getElem?.2 ⟨k, by rw [List.getElem?_set_ne hkj, hk]⟩

theorem mem_eraseIdx_of_ne {v : Worker} (hv : v ∈ workers) (hj : workers[j]? = some w) (hne : v ≠ w) :
    v ∈ workers.eraseIdx j := by
  obtain ⟨k, hk⟩ := List.mem_iff_getElem?.1 hv
  refine List.mem_eraseIdx_iff_getElem?.2 ⟨k, ?_, hk⟩
  rintro rfl
  exact hne (Option.some.inj (hk.symm.trans hj))

/-- A worker that changes its phase keeps its row. -/
theorem map_set_job (hj : workers[j]? = some w) (phase : WorkerPhase) :
    (workers.set j ⟨w.job, phase⟩).map (·.job.id) = workers.map (·.job.id) := by
  obtain ⟨hlt, hw⟩ := List.getElem?_eq_some_iff.1 hj
  subst hw
  rw [List.map_set]
  have hself : (workers.map (·.job.id)).set j workers[j].job.id = workers.map (·.job.id) := by
    simpa using List.set_getElem_self (show j < (workers.map (·.job.id)).length by simpa using hlt)
  exact hself

/-- A worker that is done gives its row up. -/
theorem map_eraseIdx_job (hj : workers[j]? = some w) (hnodup : (workers.map (·.job.id)).Nodup) :
    w.job.id ∉ (workers.eraseIdx j).map (·.job.id) := by
  intro hmem
  obtain ⟨v, hv, hid⟩ := List.mem_map.1 hmem
  obtain ⟨k, hkj, hk⟩ := List.mem_eraseIdx_iff_getElem?.1 hv
  obtain ⟨hjlt, rfl⟩ := List.getElem?_eq_some_iff.1 hj
  obtain ⟨hklt, rfl⟩ := List.getElem?_eq_some_iff.1 hk
  have hklt' : k < (workers.map (·.job.id)).length := by simpa using hklt
  have hjlt' : j < (workers.map (·.job.id)).length := by simpa using hjlt
  have hsame : (workers.map (·.job.id))[k] = (workers.map (·.job.id))[j] := by simpa using hid
  exact hkj (hnodup.getElem_inj_iff.1 hsame)

end Workers

/-! ## The actions of a dispatcher -/

section Actions
variable {s : DispatchSystem} {i : Nat} {ownerID : String} {leaseUntil : Time}
  {queue : List NotificationOutbox}
  {workers : List Worker} {j : Nat} {w : Worker}

/-- A move that leaves the store alone and takes no row. -/
theorem DispatchInv.quiet (h : DispatchInv s) {d : Dispatcher} (hi : s.dispatchers i = some d)
    {g : Dispatcher} (hown : g.ownerID = d.ownerID) (huntil : g.leaseUntil = d.leaseUntil)
    (hnodup : g.held.Nodup) (hheld : ∀ id ∈ g.held, id ∈ d.held)
    (hmarks : ∀ id, d.Marks id → g.Marks id) :
    DispatchInv { s with dispatchers := set s.dispatchers i (some g) } := by
  refine h.move hi h.store (Frozen.refl _) (fun j e _ hj => (h.each j e hj).holds) ?_ ?_
    fun id hid => .inl ⟨g, rfl, hmarks id hid⟩
  · rintro e ⟨⟩
    exact ⟨hnodup, fun id hid => ((h.each i d hi).holds id (hheld id hid)).congr hown huntil⟩
  · rintro e ⟨⟩ id hid
    exact .inl (hheld id hid)

/-- A dispatcher that holds nothing returns. -/
theorem DispatchInv.leave (h : DispatchInv s) {d : Dispatcher} (hi : s.dispatchers i = some d)
    (hmarks : ∀ id, ¬ d.Marks id) :
    DispatchInv { s with dispatchers := set s.dispatchers i none } :=
  h.move hi h.store (Frozen.refl _) (fun j e _ hj => (h.each j e hj).holds) (by simp) (by simp)
    fun id hid => absurd hid (hmarks id)

/-- A worker that is not marking a row sent goes on to another phase. -/
theorem DispatchInv.setPhase (h : DispatchInv s)
    (hi : s.dispatchers i = some ⟨ownerID, leaseUntil, .working queue workers⟩)
    (hj : workers[j]? = some w) (hw : ∀ now, w.phase ≠ .markingSent now) (phase : WorkerPhase) :
    DispatchInv { s with
      dispatchers := set s.dispatchers i
        (some ⟨ownerID, leaseUntil, .working queue (workers.set j ⟨w.job, phase⟩)⟩) } := by
  have hsame : (⟨ownerID, leaseUntil, .working queue (workers.set j ⟨w.job, phase⟩)⟩ : Dispatcher).held =
      (⟨ownerID, leaseUntil, .working queue workers⟩ : Dispatcher).held := by
    simp only [Dispatcher.held, map_set_job hj]
  refine h.quiet hi rfl rfl (hsame ▸ (h.each i _ hi).nodup) (fun id hid => hsame ▸ hid) ?_
  rintro id ⟨v, hv, hid, now, hphase⟩
  exact ⟨v, mem_set_of_ne hv hj (by rintro rfl; exact hw now hphase) _, hid, now, hphase⟩

/-- A worker's last update: it changes no row but its own, which the dispatcher then
gives up. -/
theorem DispatchInv.done (h : DispatchInv s)
    (hi : s.dispatchers i = some ⟨ownerID, leaseUntil, .working queue workers⟩)
    (hj : workers[j]? = some w) {store : OutboxStore} (hstore : OutboxInv store)
    (hfrozen : Frozen s.store store) {f : NotificationOutbox → NotificationOutbox}
    (hrows : store.rows = updateWhere (heldBy ownerID w.job.id) f s.store.rows)
    (hmark : ∀ now, w.phase = .markingSent now → SentRow store w.job.id) :
    DispatchInv { s with
      store := store
      dispatchers := set s.dispatchers i
        (some ⟨ownerID, leaseUntil, .working queue (workers.eraseIdx j)⟩) } := by
  have hd := h.each i _ hi
  have hown : w.job.id ∈ (⟨ownerID, leaseUntil, .working queue workers⟩ : Dispatcher).held :=
    List.mem_append_right _ (List.mem_map_of_mem (List.mem_of_getElem? hj))
  obtain ⟨hqueue, hworkers, hdisjoint⟩ := List.nodup_append.1 hd.nodup
  have hsub : ((workers.eraseIdx j).map (·.job.id)).Sublist (workers.map (·.job.id)) :=
    (List.eraseIdx_sublist ..).map _
  have hgone : w.job.id ∉
      (⟨ownerID, leaseUntil, .working queue (workers.eraseIdx j)⟩ : Dispatcher).held := by
    intro hmem
    rcases List.mem_append.1 hmem with hmem | hmem
    · exact hdisjoint _ hmem _ (List.mem_map_of_mem (List.mem_of_getElem? hj)) rfl
    · exact map_eraseIdx_job hj hworkers hmem
  have hother : ∀ (e : Dispatcher) (id : Nat), id ≠ w.job.id → e.Holds s.store id →
      e.Holds store id := fun e id hne hholds =>
    hholds.of_update (fun row _ hid _ _ => by simp [heldBy, hid, hne]) hrows
  refine h.move hi hstore hfrozen (fun k e hk he id hid => ?_) ?_ ?_ ?_
  · refine hother e id ?_ ((h.each k e he).holds id hid)
    rintro rfl
    exact h.apart k i e _ hk he hi _ hid hown
  · rintro e ⟨⟩
    refine ⟨?_, fun id hid => ?_⟩
    · exact hd.nodup.sublist (List.Sublist.append_left hsub _)
    · refine hother _ id (by rintro rfl; exact hgone hid) (hd.holds id ?_ |>.congr rfl rfl)
      exact (List.Sublist.append_left hsub _).subset hid
  · rintro e ⟨⟩ id hid
    exact .inl ((List.Sublist.append_left hsub _).subset hid)
  · rintro id ⟨v, hv, hid, now, hphase⟩
    by_cases hvw : v = w
    · subst hvw
      exact .inr (hid ▸ hmark now hphase)
    · exact .inl ⟨_, rfl, v, mem_eraseIdx_of_ne hv hj hvw, hid, now, hphase⟩

/-- The send of a worker succeeds. Its row was not handed over before: nobody else
marks it, and it is not sent. -/
theorem DispatchInv.deliver (h : DispatchInv s)
    (hi : s.dispatchers i = some ⟨ownerID, leaseUntil, .working queue workers⟩)
    (hj : workers[j]? = some w) (hw : ∀ now, w.phase ≠ .markingSent now) (now : Time) :
    DispatchInv { s with
      dispatchers :=
        set s.dispatchers i
          (some ⟨ownerID, leaseUntil, .working queue (workers.set j ⟨w.job, .markingSent now⟩)⟩)
      delivered := s.delivered ++ [w.job.id] } := by
  have hd := h.each i _ hi
  have hmem : w ∈ workers := List.mem_of_getElem? hj
  have hown : w.job.id ∈ (⟨ownerID, leaseUntil, .working queue workers⟩ : Dispatcher).held :=
    List.mem_append_right _ (List.mem_map_of_mem hmem)
  have hfresh : w.job.id ∉ s.delivered := by
    intro hdelivered
    rcases h.marked _ hdelivered with ⟨k, e, hk, hmark⟩ | hsent
    · by_cases hki : k = i
      · subst hki
        obtain rfl := Option.some.inj (hk.symm.trans hi)
        obtain ⟨v, hv, hid, now, hphase⟩ := hmark
        have hvw : v = w := List.inj_on_of_nodup_map (List.nodup_append.1 hd.nodup).2.1 hv hmem hid
        exact hw now (hvw ▸ hphase)
      · exact h.apart i k _ e (Ne.symm hki) hi hk _ hown hmark.held
    · exact (hd.holds _ hown).not_sent h.store hsent
  have hinv := h.setPhase hi hj hw (.markingSent now)
  refine ⟨hinv.store, hinv.each, hinv.apart, ?_, ?_⟩
  · refine List.nodup_append.2 ⟨h.once, by simp, fun id hid id' hid' => ?_⟩
    rintro rfl
    exact hfresh (List.mem_singleton.1 hid' ▸ hid)
  · intro id hid
    rcases List.mem_append.1 hid with hid | hid
    · exact hinv.marked id hid
    · rw [List.mem_singleton.1 hid]
      obtain ⟨hlt, -⟩ := List.getElem?_eq_some_iff.1 hj
      exact .inl ⟨i, _, set_self .., _, List.mem_set hlt _, rfl, now, rfl⟩

/-! ## The claim of a dispatcher -/

theorem DispatchInv.expire (h : DispatchInv s) {now : Time}
    (hi : s.dispatchers i = some ⟨ownerID, leaseUntil, .expiring now⟩) {cancelled : Bool}
    (ht : Timely s (.act i (.next cancelled))) :
    DispatchInv { s with
      store := expireNotificationOutbox now s.store
      dispatchers := set s.dispatchers i (some ⟨ownerID, leaseUntil, .selecting s.now⟩) } := by
  have hspared : ∀ j f, s.dispatchers j = some f → ∀ row ∈ s.store.rows, row.id ∈ f.held →
      expirable now row = false := by
    intro j f hj row hrow hid
    simp only [Timely, hi, Option.map_some] at ht
    cases hexp : row.expiresAt with
    | none => simp [expirable, hexp]
    | some expiresAt =>
      have hlate : expiresAt.after now = true := by
        simpa [Time.after] using ht j f hj row hrow hid expiresAt (by simp [hexp])
      simp [expirable, hexp, hlate]
  refine h.move hi (h.store.expire now) (frozen_expire now) (fun j f _ hj id hid => ?_) ?_ ?_
    fun _ hmark => hmark.elim
  · exact ((h.each j f hj).holds id hid).of_update
      (fun row hrow hrid _ _ => hspared j f hj row hrow (hrid ▸ hid)) rfl
  · rintro f ⟨⟩
    exact ⟨by simp [Dispatcher.held], by simp [Dispatcher.held]⟩
  · rintro f ⟨⟩
    simp [Dispatcher.held]

/-- The batch is chosen; nothing is held yet. -/
theorem DispatchInv.select (h : DispatchInv s) {now leaseUntil' : Time} {candidates : List Nat}
    (hi : s.dispatchers i = some ⟨ownerID, leaseUntil, .selecting now⟩) :
    DispatchInv { s with
      dispatchers := set s.dispatchers i
        (some ⟨ownerID, leaseUntil', .claiming now candidates []⟩) } := by
  refine h.move hi h.store (Frozen.refl _) (fun j f _ hj => (h.each j f hj).holds) ?_ ?_
    fun _ hmark => hmark.elim
  · rintro f ⟨⟩
    exact ⟨by simp [Dispatcher.held], by simp [Dispatcher.held]⟩
  · rintro f ⟨⟩
    simp [Dispatcher.held]

/-- The update of one candidate. If it affects a row, nobody held that row. -/
theorem DispatchInv.claim (h : DispatchInv s) {now : Time} {id : Nat} {candidates claimedIDs : List Nat}
    (hi : s.dispatchers i = some ⟨ownerID, leaseUntil, .claiming now (id :: candidates) claimedIDs⟩)
    {cancelled : Bool} (ht : Timely s (.act i (.next cancelled))) :
    DispatchInv { s with
      store := claimOne ownerID now leaseUntil id s.store
      dispatchers := set s.dispatchers i (some ⟨ownerID, leaseUntil, .claiming now candidates
        (if claimAffected now id s.store = 1 then claimedIDs ++ [id] else claimedIDs)⟩) } := by
  have hd := h.each i _ hi
  -- A held row is locked past `now`.
  have hspared : ∀ j f, s.dispatchers j = some f → id ∈ f.held → ∀ row ∈ s.store.rows, row.id = id →
      claimable now row = false := by
    intro j f hj hid row hrow hrid
    simp only [Timely, hi, Option.map_some] at ht
    obtain ⟨held, hheld, hhid, -, -, huntil⟩ := (h.each j f hj).holds id hid
    obtain rfl : row = held := eq_of_key h.store.ids hrow hheld (hrid.trans hhid.symm)
    have hlate : f.leaseUntil.after now = true := by simpa [Time.after] using ht j f hj hid
    simp [claimable, huntil, hlate]
  have hkeeps : ∀ j f, s.dispatchers j = some f → ∀ id' ∈ f.held,
      f.Holds (claimOne ownerID now leaseUntil id s.store) id' := by
    intro j f hj id' hid'
    refine ((h.each j f hj).holds id' hid').of_update (fun row hrow hrid _ _ => ?_) rfl
    by_cases hid : id' = id
    · subst hid
      simp [hspared j f hj hid' row hrow hrid]
    · simp [hrid, hid]
  have hfree : claimAffected now id s.store = 1 → ∀ j f, s.dispatchers j = some f → id ∉ f.held := by
    intro haff j f hj hid
    have hzero : claimAffected now id s.store = 0 := affected_eq_zero.2 fun row hrow => by
      by_cases hrid : row.id = id
      · simp [hspared j f hj hid row hrow hrid]
      · simp [hrid]
    omega
  have hnew : claimAffected now id s.store = 1 →
      (⟨ownerID, leaseUntil, .claiming now candidates claimedIDs⟩ : Dispatcher).Holds
        (claimOne ownerID now leaseUntil id s.store) id := by
    intro haff
    obtain ⟨row, hrow, hp⟩ : ∃ row ∈ s.store.rows, (row.id = id && claimable now row) = true := by
      have hne : claimAffected now id s.store ≠ 0 := by omega
      simpa [claimAffected, affected_eq_zero] using hne
    refine ⟨_, mem_updateWhere_of hrow hp, ?_, rfl, rfl, rfl⟩
    simp only [Bool.and_eq_true, decide_eq_true_eq] at hp
    exact hp.1
  refine h.move hi (h.store.claim ownerID now leaseUntil id) (frozen_claim ownerID now leaseUntil id)
    (fun j f _ => hkeeps j f) ?_ ?_ fun _ hmark => hmark.elim
  · rintro f ⟨⟩
    constructor
    · simp only [Dispatcher.held]
      split
      · rename_i haff
        exact List.nodup_append.2 ⟨hd.nodup, by simp, fun id' hid' id'' hid'' => by
          rintro rfl
          exact hfree haff i _ hi (List.mem_singleton.1 hid'' ▸ hid')⟩
      · exact hd.nodup
    · simp only [Dispatcher.held]
      split
      · rename_i haff
        intro id' hid'
        rcases List.mem_append.1 hid' with hid' | hid'
        · exact (hkeeps i _ hi id' hid').congr rfl rfl
        · exact List.mem_singleton.1 hid' ▸ (hnew haff).congr rfl rfl
      · exact fun id' hid' => (hkeeps i _ hi id' hid').congr rfl rfl
  · rintro f ⟨⟩
    simp only [Dispatcher.held]
    split
    · rename_i haff
      intro id' hid'
      rcases List.mem_append.1 hid' with hid' | hid'
      · exact .inl hid'
      · exact .inr fun j f _ hj => List.mem_singleton.1 hid' ▸ hfree haff j f hj
    · exact fun id' hid' => .inl hid'

/-- The jobs that are loaded are among the claimed rows. -/
theorem DispatchInv.load (h : DispatchInv s) {now : Time} {claimedIDs : List Nat}
    (hi : s.dispatchers i = some ⟨ownerID, leaseUntil, .claiming now [] claimedIDs⟩) :
    DispatchInv { s with
      dispatchers := set s.dispatchers i
        (some ⟨ownerID, leaseUntil, .working (loadClaimed ownerID claimedIDs s.store) []⟩) } := by
  have hperm : (loadClaimed ownerID claimedIDs s.store).Perm _ := List.perm_insertionSort _ _
  refine h.quiet hi rfl rfl ?_ ?_ fun _ hmark => hmark.elim
  · simp only [Dispatcher.held, List.map_nil, List.append_nil]
    exact (hperm.map _).nodup_iff.2 (h.store.ids.sublist (List.filter_sublist.map _))
  · intro id hid
    simp only [Dispatcher.held, List.map_nil, List.append_nil] at hid ⊢
    obtain ⟨row, hrow, rfl⟩ := List.mem_map.1 hid
    exact (by simpa using (List.mem_filter.1 (hperm.mem_iff.1 hrow)).2 : row.id ∈ claimedIDs ∧ _).1

/-- A dispatcher starts: it holds nothing. -/
theorem DispatchInv.start (h : DispatchInv s) (hi : s.dispatchers i = none) (ownerID : String) :
    DispatchInv { s with
      dispatchers := set s.dispatchers i (some ⟨ownerID, s.now, .expiring s.now⟩) } where
  store := h.store
  each := forall_set h.each <| by
    rintro _ ⟨⟩
    exact ⟨by simp [Dispatcher.held], by simp [Dispatcher.held]⟩
  apart := by
    intro j k e f hne hj hk id hid hid'
    by_cases hji : j = i
    · subst hji
      obtain rfl : _ = e := by simpa using hj
      simp [Dispatcher.held] at hid
    · by_cases hki : k = i
      · subst hki
        obtain rfl : _ = f := by simpa using hk
        simp [Dispatcher.held] at hid'
      · simp only [set_of_ne _ _ hji] at hj
        simp only [set_of_ne _ _ hki] at hk
        exact h.apart j k e f hne hj hk id hid hid'
  once := h.once
  marked := by
    intro id hid
    rcases h.marked id hid with ⟨j, e, hj, hmark⟩ | hsent
    · have hji : j ≠ i := by
        rintro rfl
        rw [hi] at hj
        cases hj
      exact .inl ⟨j, e, by simpa [set_of_ne _ _ hji] using hj, hmark⟩
    · exact .inr hsent

/-- A row is enqueued: the held rows stay. -/
theorem DispatchInv.enqueue (h : DispatchInv s) (loc : Location) (now : Time)
    (job : NotificationOutboxJob) :
    DispatchInv { s with store := enqueueNotificationOutbox loc now job s.store } := by
  unfold enqueueNotificationOutbox
  split
  · exact h
  · refine ⟨h.store.insert rfl rfl, fun j e hj => ?_, h.apart, h.once, fun id hid => ?_⟩
    · have he := h.each j e hj
      refine ⟨he.nodup, fun id hid => ?_⟩
      obtain ⟨row, hrow, hholds⟩ := he.holds id hid
      exact ⟨row, mem_insertOutbox_of hrow, hholds⟩
    · exact (h.marked id hid).imp_right fun hsent => hsent.of_frozen (frozen_insert _)

/-- A job goes to a worker, or is left when the context is cancelled. -/
theorem DispatchInv.take (h : DispatchInv s) {job : NotificationOutbox} {cancelled : Bool}
    (hi : s.dispatchers i = some ⟨ownerID, leaseUntil, .working (job :: queue) workers⟩) :
    DispatchInv { s with
      dispatchers := set s.dispatchers i (some ⟨ownerID, leaseUntil, .working queue
        (if cancelled then workers else workers ++ [⟨job, .checking⟩])⟩) } := by
  have hd := h.each i _ hi
  have hsub : ∃ ids : List Nat,
      ids.Sublist (⟨ownerID, leaseUntil, .working (job :: queue) workers⟩ : Dispatcher).held ∧
      ids.Perm
        (⟨ownerID, leaseUntil,
          .working queue (if cancelled then workers
            else workers ++ [⟨job, .checking⟩])⟩ : Dispatcher).held := by
    cases cancelled with
    | true => exact ⟨_, List.sublist_cons_self .., by simp [Dispatcher.held]⟩
    | false =>
      refine ⟨_, List.Sublist.refl _, ?_⟩
      simp only [Dispatcher.held, List.map_cons, List.map_append, List.map_nil, Bool.false_eq_true,
        if_false]
      rw [← List.append_assoc]
      exact (List.perm_append_singleton _ _).symm
  obtain ⟨ids, hsub, hperm⟩ := hsub
  refine h.quiet hi rfl rfl (hperm.nodup_iff.1 (hd.nodup.sublist hsub))
    (fun id hid => hsub.subset (hperm.mem_iff.2 hid)) ?_
  rintro id ⟨v, hv, hid, hphase⟩
  refine ⟨v, ?_, hid, hphase⟩
  split
  · exact hv
  · exact List.mem_append_left _ hv

/-- The row of a worker is sent once the worker has marked it. -/
theorem Dispatcher.Holds.marked {store : OutboxStore} {d : Dispatcher} {job : NotificationOutbox}
    (h : d.Holds store job.id) (now : Time) :
    SentRow (markNotificationOutboxSent d.ownerID now job store) job.id := by
  obtain ⟨row, hrow, hid, hst, hby, -⟩ := h
  refine ⟨sentRow now row, ?_, hid, rfl⟩
  rw [markNotificationOutboxSent, updateHeldAndLog_rows]
  exact mem_updateWhere_of hrow (by simp [heldBy, hid, hst, hby])

end Actions

/-! ## Runs -/

/-- One action of a dispatcher. -/
theorem DispatchInv.act {s : DispatchSystem} (h : DispatchInv s) {i : Nat} {action : DispatchAction}
    (ht : Timely s (.act i action)) {d : Dispatcher} (hi : s.dispatchers i = some d)
    {loc : Location} {d' : Option Dispatcher} {store : OutboxStore} {handed : List Nat}
    (hact : d.act loc s.now s.store action = some (d', store, handed)) :
    DispatchInv { s with
      store := store, dispatchers := set s.dispatchers i d', delivered := s.delivered ++ handed } := by
  obtain ⟨ownerID, leaseUntil, phase⟩ := d
  cases action with
  | next cancelled =>
    cases phase with
    | expiring now =>
      cases hact
      -- the expiry and the claim are the two statements whose clock reading matters
      simpa using h.expire hi ht
    | selecting now =>
      simp only [Dispatcher.act] at hact
      split at hact <;> cases hact
      · simpa using h.leave hi fun _ hmark => hmark.elim
      · simpa using h.select hi
    | claiming now candidates claimedIDs =>
      cases candidates with
      | nil =>
        cases hact
        simpa using h.load hi
      | cons id candidates =>
        simp only [Dispatcher.act] at hact
        split at hact <;> cases hact
        · -- the context is cancelled: what was claimed so far is worked on
          have hd := h.each i _ hi
          simpa using h.quiet (g := ⟨ownerID, leaseUntil, .claiming _ [] claimedIDs⟩) hi rfl rfl hd.nodup
            (fun _ hid => hid) fun _ hmark => hmark.elim
        · simpa using h.claim hi ht
    | working => cases hact
  | take cancelled =>
    simp only [Dispatcher.act] at hact
    split at hact
    · split at hact <;> cases hact
      simpa using h.take hi
    · cases hact
  | check j view =>
    simp only [Dispatcher.act] at hact
    split at hact
    · split at hact <;> cases hact
      rename_i hj
      simpa using h.setPhase hi hj (by simp) _
    · cases hact
  | cancel j =>
    simp only [Dispatcher.act] at hact
    split at hact
    · split at hact <;> cases hact
      rename_i hj
      simpa using h.done hi hj (h.store.terminal ownerID _ _ _)
        (frozen_update (fun _ => rfl) heldBy_open) rfl (by simp)
    · cases hact
  | load j channels =>
    simp only [Dispatcher.act] at hact
    split at hact
    · split at hact <;> cases hact
      rename_i hj
      simpa using h.setPhase hi hj (by simp) _
    · cases hact
  | send j sanitizedErr =>
    simp only [Dispatcher.act] at hact
    split at hact
    · split at hact <;> cases hact
      · rename_i hj
        -- the one step that hands a message over
        exact h.deliver hi hj (by simp) _
      · rename_i hj
        simpa using h.setPhase hi hj (by simp) _
    · cases hact
  | mark j =>
    simp only [Dispatcher.act] at hact
    split at hact
    · split at hact <;> cases hact
      · rename_i job now hj
        -- the sender still holds the row, so its mark reaches it
        have hown : (⟨ownerID, leaseUntil, _⟩ : Dispatcher).Holds s.store job.id :=
          (h.each i _ hi).holds job.id
            (List.mem_append_right _ (List.mem_map_of_mem (List.mem_of_getElem? hj)))
        simpa using h.done hi hj (h.store.markSent ownerID now job)
          (frozen_updateHeldAndLog fun _ => rfl)
          (updateHeldAndLog_rows ..) fun _ _ => hown.marked now
      · rename_i hj
        simpa using h.done hi hj (h.store.markFailed ownerID _ _ _)
          (frozen_updateHeldAndLog fun _ => rfl)
          (updateHeldAndLog_rows ..) (by simp)
    · cases hact
  | finish =>
    simp only [Dispatcher.act] at hact
    split at hact <;> cases hact
    simpa using h.leave hi fun _ ⟨_, hw, _⟩ => by simp at hw

theorem DispatchSystem.step_inv {loc : Location} {s t : DispatchSystem} {e : DispatchEvent}
    (h : DispatchInv s) (ht : Timely s e) (hstep : s.step loc e = some t) : DispatchInv t := by
  cases e with
  | tick nanos =>
    cases hstep
    exact ⟨h.store, h.each, h.apart, h.once, h.marked⟩
  | enqueue job =>
    cases hstep
    exact h.enqueue loc s.now job
  | start i ownerID =>
    simp only [DispatchSystem.step] at hstep
    split at hstep <;> cases hstep
    rename_i hi
    exact h.start hi ownerID
  | act i action =>
    obtain ⟨d, hi, hstep⟩ := Option.bind_eq_some_iff.1 hstep
    obtain ⟨⟨d', store, handed⟩, hact, rfl⟩ := Option.map_eq_some_iff.1 hstep
    exact h.act ht hi hact

theorem DispatchSystem.Initial.inv {s : DispatchSystem} (h : s.Initial) : DispatchInv s where
  store := h.store
  each := by simp [h.idle]
  apart := by simp [h.idle]
  once := by simp [h.delivered]
  marked := by simp [h.delivered]

theorem DispatchSystem.path_inv {loc : Location} {s t : DispatchSystem} (h : DispatchInv s)
    (hpath : Path (DispatchSystem.step loc) Timely s t) : DispatchInv t :=
  hpath.invariant DispatchInv (fun _ _ _ h ht hstep => step_inv h ht hstep) h

/-- In a timely run no message is handed over twice, and a row whose message was
handed over is sent, with one sent log, unless its worker is just about to mark it. -/
theorem delivered_at_most_once {loc : Location} {s t : DispatchSystem} (hs : s.Initial)
    (hpath : Path (DispatchSystem.step loc) Timely s t) :
    t.delivered.Nodup ∧ ∀ id ∈ t.delivered, (∃ i d, t.dispatchers i = some d ∧ d.Marks id) ∨
      ∃ row ∈ t.store.rows, row.id = id ∧ row.status = .sent ∧ sentLogs t.store id = 1 := by
  have ht := DispatchSystem.path_inv hs.inv hpath
  refine ⟨ht.once, fun id hid => (ht.marked id hid).imp_right ?_⟩
  rintro ⟨row, hrow, rfl, hst⟩
  exact ⟨row, hrow, rfl, hst, by simpa [hst] using ht.store.sent row hrow⟩

/-! ## One dispatcher at a time -/

/-- Every dispatcher is number 0, which starts again when it has returned. -/
def Solo (_ : DispatchSystem) : DispatchEvent → Prop
  | .start i _ => i = 0
  | _ => True

/-- Nobody else is there, and a batch is claimed under a fresh lease. -/
structure SoloInv (s : DispatchSystem) : Prop where
  others : ∀ i, i ≠ 0 → s.dispatchers i = none
  lease : ∀ i d, s.dispatchers i = some d → ∀ now candidates claimedIDs,
    d.phase = .claiming now candidates claimedIDs →
    d.leaseUntil = now.add notificationOutboxLeaseTTL

theorem Dispatcher.act_lease {loc : Location} {clock : Time} {s store : OutboxStore}
    {d e : Dispatcher} {action : DispatchAction} {handed : List Nat}
    (hact : d.act loc clock s action = some (some e, store, handed))
    (h : ∀ now candidates claimedIDs, d.phase = .claiming now candidates claimedIDs →
      d.leaseUntil = now.add notificationOutboxLeaseTTL) {now : Time}
      {candidates claimedIDs : List Nat} (he : e.phase = .claiming now candidates claimedIDs) :
    e.leaseUntil = now.add notificationOutboxLeaseTTL := by
  obtain ⟨ownerID, leaseUntil, phase⟩ := d
  cases action
  case next cancelled =>
    cases phase with
    | expiring => cases hact; cases he
    | selecting =>
      simp only [Dispatcher.act] at hact
      split at hact <;> cases hact
      cases he
      rfl
    | claiming now candidates claimedIDs =>
      have hlease := h now candidates claimedIDs rfl
      cases candidates with
      | nil => cases hact; cases he
      | cons id candidates =>
        simp only [Dispatcher.act] at hact
        split at hact <;> cases hact <;> cases he <;> exact hlease
    | working => cases hact
  -- The other actions are those of a dispatcher that works off its batch.
  all_goals
    simp only [Dispatcher.act] at hact
    repeat' split at hact
    all_goals cases hact <;> cases he

theorem DispatchSystem.step_solo {loc : Location} {s t : DispatchSystem} {e : DispatchEvent}
    (h : SoloInv s) (hsolo : Solo s e) (hstep : s.step loc e = some t) : SoloInv t := by
  cases e with
  | tick nanos => cases hstep; exact ⟨h.others, h.lease⟩
  | enqueue job => cases hstep; exact ⟨h.others, h.lease⟩
  | start i ownerID =>
    obtain rfl : i = 0 := hsolo
    simp only [DispatchSystem.step] at hstep
    split at hstep <;> cases hstep
    refine ⟨fun i hi => by simpa [set_of_ne _ _ hi] using h.others i hi, forall_set h.lease ?_⟩
    rintro _ ⟨⟩ now candidates claimedIDs ⟨⟩
  | act i action =>
    obtain ⟨d, hi, hstep⟩ := Option.bind_eq_some_iff.1 hstep
    obtain ⟨⟨d', store, handed⟩, hact, rfl⟩ := Option.map_eq_some_iff.1 hstep
    obtain rfl : i = 0 := by
      by_contra hne
      rw [h.others i hne] at hi
      cases hi
    refine ⟨fun i hi => by simpa [set_of_ne _ _ hi] using h.others i hi, forall_set h.lease ?_⟩
    rintro e rfl now candidates claimedIDs he
    exact Dispatcher.act_lease hact (h.lease 0 d hi) he

/-- Alone, a dispatcher is timely however long its sends take: it expires and claims
only before it works off its batch. -/
theorem SoloInv.timely {s : DispatchSystem} (h : SoloInv s) (e : DispatchEvent) : Timely s e := by
  have hzero : ∀ j d, s.dispatchers j = some d → j = 0 := by
    intro j d hj
    by_contra hne
    rw [h.others j hne] at hj
    cases hj
  obtain _ | _ | _ | ⟨i, action⟩ := e
  case act =>
    cases action
    case next cancelled =>
      simp only [Timely]
      split
      · rename_i hi
        obtain ⟨d, hi, hphase⟩ := Option.map_eq_some_iff.1 hi
        intro j e hj row _ hid
        obtain rfl := hzero i d hi
        obtain rfl := hzero j e hj
        obtain rfl := Option.some.inj (hi.symm.trans hj)
        simp [Dispatcher.held, hphase] at hid
      · rename_i hi
        obtain ⟨d, hi, hphase⟩ := Option.map_eq_some_iff.1 hi
        intro j e hj _
        obtain rfl := hzero i d hi
        obtain rfl := hzero j e hj
        obtain rfl := Option.some.inj (hi.symm.trans hj)
        rw [h.lease 0 d hi _ _ _ hphase]
        simp [Time.add, notificationOutboxLeaseTTL, nsPerSecond]
      · trivial
    all_goals trivial
  all_goals trivial

theorem solo_timely {loc : Location} {s t : DispatchSystem} (hs : s.Initial)
    (h : Path (DispatchSystem.step loc) Solo s t) : Path (DispatchSystem.step loc) Timely s t := by
  refine h.weaken SoloInv (fun _ _ _ h hsolo hstep => DispatchSystem.step_solo h hsolo hstep)
    (fun _ e h _ => h.timely e) ⟨fun i _ => ?_, fun i d hi => ?_⟩
  · rw [hs.idle]
  · rw [hs.idle] at hi
    cases hi

/-! ## A slow send -/

/-- The subscription of `sampleJob`. -/
def sampleView : NotificationDB where
  subscriptions := [{ monthEndRow with nextBillingDate := some (dateUTC 2025 3 9) }]
  policies := []
  channels := [sampleChannel]
  users := [⟨1, "user@example.com"⟩]
  paymentMethods := []
  outbox := ⟨[], [], 1⟩

def sampleDispatch : DispatchSystem := ⟨(dateUTC 2025 3 9).nanos, ⟨[], [], 1⟩, fun _ => none, []⟩

/-- A dispatcher claims one row and is about to send it. -/
def claimEvents (i : Nat) (ownerID : String) : List DispatchEvent :=
  [.start i ownerID, .act i (.next false), .act i (.next false), .act i (.next false),
   .act i (.next false), .act i (.take false), .act i (.check 0 sampleView),
     .act i (.load 0 [sampleChannel])]

def sendEvents (i : Nat) : List DispatchEvent :=
  [.act i (.send 0 none), .act i (.mark 0), .act i .finish]

instance (s : DispatchSystem) (e : DispatchEvent) : Decidable (Always s e) :=
  inferInstanceAs (Decidable True)

/-- While `a` sends for six minutes, `b` claims the row and sends it too. -/
def slowEvents : List DispatchEvent :=
  .enqueue sampleJob :: claimEvents 0 "a" ++ .tick (6 * 60 * 1000000000) :: claimEvents 1 "b" ++
    sendEvents 1 ++ sendEvents 0

theorem delivered_twice :
    ¬ ∀ (loc : Location) (s t : DispatchSystem), s.Initial → Path (DispatchSystem.step loc) Always s t →
      t.delivered.Nodup ∧ ∀ id ∈ t.delivered, (∃ i d, t.dispatchers i = some d ∧ d.Marks id) ∨
        ∃ row ∈ t.store.rows, row.id = id ∧ row.status = .sent ∧ sentLogs t.store id = 1 := by
  intro h
  obtain ⟨t, ht, hdelivered⟩ : ∃ t,
      exec (DispatchSystem.step (Location.fixed 0)) Always sampleDispatch slowEvents = some t ∧
      t.delivered = [1, 1] := ⟨_, rfl, by decide +kernel⟩
  have hnodup := (h _ _ t ⟨.empty rfl (by simp [sampleDispatch]), rfl, rfl⟩ (Path.of_exec ht)).1
  rw [hdelivered] at hnodup
  exact absurd hnodup (by decide)

/-! ## Two dispatchers at once -/

/-- `Timely`, where the dispatchers are numbered below `n`. -/
def TimelyBelow (n : Nat) (s : DispatchSystem) : DispatchEvent → Prop
  | .start i _ => i < n
  | .act i (.next _) =>
    match (s.dispatchers i).map Dispatcher.phase with
    | some (.expiring now) =>
      ∀ j < n, ∀ d ∈ s.dispatchers j, ∀ row ∈ s.store.rows, row.id ∈ d.held →
        ∀ expiresAt ∈ row.expiresAt, now.nanos < expiresAt.nanos
    | some (.claiming now (id :: _) _) =>
      ∀ j < n, ∀ d ∈ s.dispatchers j, id ∈ d.held → now.nanos < d.leaseUntil.nanos
    | _ => True
  | _ => True

instance (n : Nat) (s : DispatchSystem) (e : DispatchEvent) : Decidable (TimelyBelow n s e) := by
  unfold TimelyBelow
  split
  · infer_instance
  · split <;> infer_instance
  · infer_instance

theorem timelyBelow_timely {loc : Location} {s t : DispatchSystem} {n : Nat}
    (h : Path (DispatchSystem.step loc) (TimelyBelow n) s t) (hs : Below s.dispatchers n) :
    Path (DispatchSystem.step loc) Timely s t := by
  -- No dispatcher from `n` on ever starts, so nobody there holds a row.
  refine h.weaken (fun s => Below s.dispatchers n) (fun u e v hu hok hstep => ?_)
    (fun u e hu hok => ?_) hs
  · cases e with
    | tick nanos => cases hstep; exact hu
    | enqueue job => cases hstep; exact hu
    | start i ownerID =>
      simp only [DispatchSystem.step] at hstep
      split at hstep <;> cases hstep
      exact hu.set hok _
    | act i action =>
      obtain ⟨d, hi, hstep⟩ := Option.bind_eq_some_iff.1 hstep
      obtain ⟨⟨d', store, handed⟩, -, rfl⟩ := Option.map_eq_some_iff.1 hstep
      exact hu.set (hu.lt hi) _
  · obtain _ | _ | _ | ⟨i, action⟩ := e
    case act =>
      cases action
      case next cancelled =>
        simp only [TimelyBelow] at hok
        simp only [Timely]
        split at hok
        · exact fun j d hj => hok j (hu.lt hj) d hj
        · exact fun j d hj => hok j (hu.lt hj) d hj
        · trivial
      all_goals trivial
    all_goals trivial

def otherChannel : NotificationChannel := ⟨2, 1, "gotify", true, "{}"⟩

/-- The reminder of `sampleJob` for another channel. -/
def otherJob : NotificationOutboxJob := { sampleJob with channel := otherChannel }

/-- Both find both rows. `a` claims the first, which `b` then misses; `b` claims the
second, which `a` then misses; each sends its own for four minutes. -/
def overlappingEvents : List DispatchEvent :=
  [.enqueue sampleJob, .enqueue otherJob, .start 0 "a", .start 1 "b",
   .act 0 (.next false), .act 1 (.next false), .act 0 (.next false), .act 1 (.next false),
   .act 0 (.next false), .act 1 (.next false), .act 1 (.next false), .act 0 (.next false),
   .act 0 (.next false), .act 1 (.next false), .act 1 (.take false), .act 0 (.take false),
   .act 0 (.check 0 sampleView), .act 1 (.check 0 sampleView),
   .act 1 (.load 0 [sampleChannel, otherChannel]), .act 0 (.load 0 [sampleChannel, otherChannel]),
   .tick (4 * 60 * 1000000000), .act 1 (.send 0 none), .act 0 (.send 0 none), .act 0 (.mark 0)]

theorem exec_overlappingEvents :
    ((exec (DispatchSystem.step (Location.fixed 0)) (TimelyBelow 2) sampleDispatch overlappingEvents).any
      fun t => t.delivered = [2, 1]) = true := by decide +kernel

/-- The second row is still to be marked by `b`. -/
theorem delivered_at_most_once_sample :
    ∃ t : DispatchSystem, t.delivered = [2, 1] ∧ t.delivered.Nodup ∧
      ∀ id ∈ t.delivered, (∃ i d, t.dispatchers i = some d ∧ d.Marks id) ∨
        ∃ row ∈ t.store.rows, row.id = id ∧ row.status = .sent ∧ sentLogs t.store id = 1 := by
  obtain ⟨t, ht, hdelivered⟩ := (Option.any_eq_true _ _).1 exec_overlappingEvents
  have hpath := timelyBelow_timely (.of_exec ht) fun _ _ => rfl
  exact ⟨t, of_decide_eq_true hdelivered,
    delivered_at_most_once ⟨.empty rfl (by simp [sampleDispatch]), rfl, rfl⟩ hpath⟩

end Subdux
