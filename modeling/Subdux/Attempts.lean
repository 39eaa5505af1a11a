import Mathlib.Data.List.Perm.Basic
import Subdux.Dispatch
/-!
# How often a row is tried

The dispatchers of `Dispatch` with everything that can go wrong between a claim and
a mark: a process dies, a query of the check fails and its job is released, the
write of an outcome fails. `sends` lists every send that was tried. Only
`markNotificationOutboxFailed` looks at the limit; `sends_bounded` holds of the runs
in which nobody takes a row over once its last attempt is under way.
-/

namespace Subdux
open Runs Rows

/-! ## The system -/

structure AttemptSystem where
  dispatch : DispatchSystem
  sends : List Nat

inductive AttemptEvent where
  | run (e : DispatchEvent)
  /-- A process dies, or a statement of its claim fails. -/
  | crash (i : Nat)
  /-- A query of `cancelOutboxIfNoLongerDeliverable` or `loadOutboxChannel` fails. -/
  | release (i j : Nat) (sanitizedErr : String)
  /-- The write of a worker's outcome fails: `logOutboxPersistError`. -/
  | unsaved (i j : Nat)

/-- The rows that an event tries to send. -/
def triedBy (s : DispatchSystem) : DispatchEvent → List Nat
  | .act i (.send j _) =>
    match (s.dispatchers i).map Dispatcher.phase with
    | some (.working _ workers) => (workers[j]?.map (·.job.id)).toList
    | _ => []
  | _ => []

def Worker.isQuerying (w : Worker) : Bool :=
  match w.phase with
  | .checking | .loading => true
  | _ => false

def Worker.isWriting (w : Worker) : Bool :=
  match w.phase with
  | .cancelling _ _ | .markingSent _ | .markingFailed _ _ => true
  | _ => false

def AttemptSystem.step (loc : Location) (s : AttemptSystem) : AttemptEvent → Option AttemptSystem
  | .run e => (s.dispatch.step loc e).map fun dispatch => ⟨dispatch, s.sends ++ triedBy s.dispatch e⟩
  | .crash i =>
    some { s with dispatch := { s.dispatch with dispatchers := set s.dispatch.dispatchers i none } }
  | .release i j err =>
    match s.dispatch.dispatchers i with
    | some ⟨ownerID, leaseUntil, .working queue workers⟩ =>
      match workers[j]? with
      | some w =>
        if w.isQuerying then
          some { s with
            dispatch :=
              { s.dispatch with
                store :=
                  releaseNotificationOutboxForRetry ownerID s.dispatch.now w.job err s.dispatch.store
                dispatchers := set s.dispatch.dispatchers i
                  (some ⟨ownerID, leaseUntil, .working queue (workers.eraseIdx j)⟩) } }
        else none
      | none => none
    | _ => none
  | .unsaved i j =>
    match s.dispatch.dispatchers i with
    | some ⟨ownerID, leaseUntil, .working queue workers⟩ =>
      match workers[j]? with
      | some w =>
        if w.isWriting then
          some { s with
            dispatch :=
              { s.dispatch with
                dispatchers := set s.dispatch.dispatchers i
                  (some ⟨ownerID, leaseUntil, .working queue (workers.eraseIdx j)⟩) } }
        else none
      | none => none
    | _ => none

/-- No dispatcher is running, and nothing was tried in this run yet. -/
structure AttemptSystem.Initial (s : AttemptSystem) : Prop where
  store : OutboxInv s.dispatch.store
  counts : ∀ row ∈ s.dispatch.store.rows, 0 ≤ row.attemptCount
  idle : s.dispatch.dispatchers = fun _ => none
  sends : s.sends = []

/-- Once a row has used its attempts, its lease is not taken over, and no failure of
an earlier attempt, whose worker has the same owner id, puts it back to pending. -/
def LastAttemptKept (s : AttemptSystem) : AttemptEvent → Prop
  | .run (.act i (.next _)) =>
    match (s.dispatch.dispatchers i).map Dispatcher.phase with
    | some (.claiming now (id :: _) _) =>
      ∀ row ∈ s.dispatch.store.rows, row.id = id → claimable now row = true →
        row.status = .processing → row.attemptCount < effectiveNotificationOutboxMaxAttempts row
    | _ => True
  | .run (.act i (.mark j)) =>
    match s.dispatch.dispatchers i with
    | some ⟨ownerID, _, .working _ workers⟩ =>
      match workers[j]? with
      | some ⟨job, .markingFailed _ _⟩ =>
        ∀ row ∈ s.dispatch.store.rows, heldBy ownerID job.id row = true →
          effectiveNotificationOutboxMaxAttempts row ≤ row.attemptCount →
            effectiveNotificationOutboxMaxAttempts job ≤ job.attemptCount
      | _ => True
    | _ => True
  | _ => True

/-! ## Sends to come -/

/-- A worker that has not come to its send yet, nor given up. -/
def Worker.maySend (id : Nat) (w : Worker) : Bool :=
  w.job.id = id &&
    match w.phase with
    | .markingSent _ | .markingFailed _ _ => false
    | _ => true

/-- How often a dispatcher may still send a row. -/
def Dispatcher.toCome (id : Nat) (d : Dispatcher) : Nat :=
  match d.phase with
  | .claiming _ _ claimedIDs => claimedIDs.count id
  | .working queue workers => queue.countP (·.id = id) + workers.countP (Worker.maySend id)
  | _ => 0

/-- The sends of a row that were tried or may still come. -/
def AttemptSystem.charged (s : AttemptSystem) (S : Finset Nat) (id : Nat) : Nat :=
  s.sends.count id + weight (Dispatcher.toCome id) s.dispatch.dispatchers S

/-- What a row allows: a send for each claim, up to its limit; a pending row has one left. -/
structure Allows (row : NotificationOutbox) (charged : Nat) : Prop where
  claims : (charged : Int) ≤ row.attemptCount
  limit : (charged : Int) ≤ effectiveNotificationOutboxMaxAttempts row
  pending : row.status = .pending → (charged : Int) < effectiveNotificationOutboxMaxAttempts row

/-- `S` holds the dispatchers that are running. -/
structure AttemptInv (S : Finset Nat) (s : AttemptSystem) : Prop where
  store : OutboxInv s.dispatch.store
  within : ∀ i, i ∉ S → s.dispatch.dispatchers i = none
  allows : ∀ row ∈ s.dispatch.store.rows, Allows row (s.charged S row.id)
  fresh : ∀ id, s.dispatch.store.nextID ≤ id → s.charged S id = 0

theorem effectiveNotificationOutboxMaxAttempts_pos (row : NotificationOutbox) :
    0 < effectiveNotificationOutboxMaxAttempts row := by
  unfold effectiveNotificationOutboxMaxAttempts notificationOutboxDefaultMaxAttempts
  split
  · decide
  · omega

theorem Allows.mono {row : NotificationOutbox} {c c' : Nat} (h : Allows row c) (hle : c' ≤ c) :
    Allows row c' := by
  have hle' : (c' : Int) ≤ c := by exact_mod_cast hle
  exact ⟨hle'.trans h.claims, hle'.trans h.limit, fun hst => hle'.trans_lt (h.pending hst)⟩

theorem allows_zero {row : NotificationOutbox} (h : 0 ≤ row.attemptCount) : Allows row 0 :=
  ⟨h, (effectiveNotificationOutboxMaxAttempts_pos row).le, fun _ =>
    effectiveNotificationOutboxMaxAttempts_pos row⟩

/-- Dispatcher `i` moves on: for each row, the charge that the move leaves is allowed. -/
theorem AttemptInv.move {S : Finset Nat} {s : AttemptSystem} (h : AttemptInv S s) {i : Nat}
    {d : Dispatcher} (hi : s.dispatch.dispatchers i = some d) {d' : Option Dispatcher}
    {store : OutboxStore} {tried delivered : List Nat} (hstore : OutboxInv store)
    (hnext : store.nextID = s.dispatch.store.nextID)
    (hrows : ∀ row' ∈ store.rows, ∃ row ∈ s.dispatch.store.rows, row.id = row'.id ∧
      ∀ c, Allows row (c + d.toCome row.id) →
        Allows row' (c + d'.elim 0 (Dispatcher.toCome row.id) + tried.count row.id))
    (hfresh : ∀ id, s.dispatch.store.nextID ≤ id → d.toCome id = 0 →
      d'.elim 0 (Dispatcher.toCome id) + tried.count id = 0) :
    AttemptInv S ⟨{ s.dispatch with
      store := store, dispatchers := set s.dispatch.dispatchers i d', delivered := delivered },
        s.sends ++ tried⟩ := by
  have hS : i ∈ S := by
    by_contra hnot
    rw [h.within i hnot] at hi
    cases hi
  -- What is charged without dispatcher `i`, which the move leaves alone.
  have hsplit : ∀ id, ∃ c, s.charged S id = c + d.toCome id ∧
      (s.sends ++ tried).count id + weight (Dispatcher.toCome id) (set s.dispatch.dispatchers i d') S =
        c + d'.elim 0 (Dispatcher.toCome id) + tried.count id := by
    intro id
    have hset := @weight_set _ (Dispatcher.toCome id) s.dispatch.dispatchers S i hS d'
    have hle := @le_weight _ (Dispatcher.toCome id) s.dispatch.dispatchers S i hS
    simp only [hi, Option.elim_some] at hset hle
    refine ⟨s.charged S id - d.toCome id, ?_, ?_⟩ <;> simp only
      [AttemptSystem.charged, List.count_append] <;> omega
  constructor
  case store => exact hstore
  case within =>
    intro j hj
    have hji : j ≠ i := by
      rintro rfl
      exact hj hS
    simpa [set_of_ne _ _ hji] using h.within j hj
  case allows =>
    intro row' hrow'
    obtain ⟨row, hrow, hid, hallows⟩ := hrows row' hrow'
    obtain ⟨c, hc, hc'⟩ := hsplit row.id
    have hold := h.allows row hrow
    rw [hc] at hold
    have hnew := hallows c hold
    rw [← hc', hid] at hnew
    exact hnew
  case fresh =>
    intro id hid
    obtain ⟨c, hc, hc'⟩ := hsplit id
    have hzero := h.fresh id (hnext ▸ hid)
    have := hfresh id (hnext ▸ hid) (by omega)
    exact hc'.trans (by omega)

/-! ## The moves of a dispatcher -/

section Moves
variable {S : Finset Nat} {s : AttemptSystem} {i j : Nat} {d : Dispatcher} {ownerID : String}
  {leaseUntil : Time}
  {queue : List NotificationOutbox} {workers : List Worker} {w : Worker}

/-- A move that leaves the rows alone and adds no send. -/
theorem AttemptInv.quiet (h : AttemptInv S s) (hi : s.dispatch.dispatchers i = some d)
    {d' : Option Dispatcher} {tried delivered : List Nat}
    (hle : ∀ id, d'.elim 0 (Dispatcher.toCome id) + tried.count id ≤ d.toCome id) :
    AttemptInv S
    ⟨{ s.dispatch with dispatchers := set s.dispatch.dispatchers i d', delivered := delivered },
      s.sends ++ tried⟩ := by
  refine h.move hi h.store rfl (fun row hrow => ⟨row, hrow, rfl, fun c hc => ?_⟩) fun id _ hzero => ?_
  · have := hle row.id
    exact hc.mono (by omega)
  · have := hle id
    omega

/-- A move that leaves the rows alone and tries nothing. -/
theorem AttemptInv.stay (h : AttemptInv S s) (hi : s.dispatch.dispatchers i = some d)
    (d' : Option Dispatcher) (hle : ∀ id, d'.elim 0 (Dispatcher.toCome id) ≤ d.toCome id) :
    AttemptInv S { s with
      dispatch := { s.dispatch with dispatchers := set s.dispatch.dispatchers i d' } } := by
  suffices hquiet : AttemptInv S ⟨{ s.dispatch with
      dispatchers := set s.dispatch.dispatchers i d', delivered := s.dispatch.delivered },
        s.sends ++ []⟩ by
    simpa using hquiet
  exact h.quiet hi fun id => by simpa using hle id

/-- A move that writes rows and adds no send. -/
theorem AttemptInv.write (h : AttemptInv S s) (hi : s.dispatch.dispatchers i = some d)
    {d' : Option Dispatcher} {store : OutboxStore} (hstore : OutboxInv store)
    (hnext : store.nextID = s.dispatch.store.nextID) {p : NotificationOutbox → Bool}
    {f : NotificationOutbox → NotificationOutbox}
    (hstoreRows : store.rows = updateWhere p f s.dispatch.store.rows)
    (hid : ∀ row, (f row).id = row.id) (hle : ∀ id, d'.elim 0 (Dispatcher.toCome id) ≤ d.toCome id)
    (hallows : ∀ row ∈ s.dispatch.store.rows, p row = true → ∀ c, Allows row (c + d.toCome row.id) →
      Allows (f row) (c + d'.elim 0 (Dispatcher.toCome row.id))) :
    AttemptInv S { s with
      dispatch := { s.dispatch with
        store := store, dispatchers := set s.dispatch.dispatchers i d' } } := by
  suffices hmove : AttemptInv S ⟨{ s.dispatch with
      store := store, dispatchers := set s.dispatch.dispatchers i d',
      delivered := s.dispatch.delivered }, s.sends ++ []⟩ by
    simpa using hmove
  refine h.move hi hstore hnext ?_ ?_
  · intro row' hrow'
    rw [hstoreRows] at hrow'
    rcases mem_updateWhere_cases hrow' with ⟨hrow, -⟩ | ⟨row, hrow, hp, rfl⟩
    · refine ⟨row', hrow, rfl, fun c hc => hc.mono ?_⟩
      have := hle row'.id
      simp only [List.count_nil]
      omega
    · refine ⟨row, hrow, (hid row).symm, fun c hc => ?_⟩
      simpa using hallows row hrow hp c hc
  · intro id _ hzero
    have := hle id
    simp only [List.count_nil]
    omega

theorem countP_eraseIdx (p : Worker → Bool) (hj : workers[j]? = some w) :
    workers.countP p = (workers.eraseIdx j).countP p + if p w then 1 else 0 := by
  obtain ⟨hlt, rfl⟩ := List.getElem?_eq_some_iff.1 hj
  rw [← (List.getElem_cons_eraseIdx_perm hlt).countP_eq, List.countP_cons]

theorem countP_set (p : Worker → Bool) (hj : workers[j]? = some w) (x : Worker) :
    (workers.set j x).countP p + (if p w then 1 else 0) = workers.countP p + if p x then 1 else 0 := by
  obtain ⟨hlt, -⟩ := List.getElem?_eq_some_iff.1 hj
  rw [(List.set_perm_cons_eraseIdx hlt x).countP_eq, List.countP_cons, countP_eraseIdx p hj]
  omega

/-- A worker that goes to another phase before its send, or away, adds nothing. -/
theorem AttemptInv.setPhase (h : AttemptInv S s)
    (hi : s.dispatch.dispatchers i = some ⟨ownerID, leaseUntil, .working queue workers⟩)
    (hj : workers[j]? = some w) {phase : WorkerPhase}
    (hw : ∀ id, Worker.maySend id ⟨w.job, phase⟩ = true → w.maySend id = true) :
    AttemptInv S { s with
      dispatch := { s.dispatch with
        dispatchers := set s.dispatch.dispatchers i
          (some ⟨ownerID, leaseUntil, .working queue (workers.set j ⟨w.job, phase⟩)⟩) } } := by
  refine h.stay hi _ fun id => ?_
  have hset := countP_set (Worker.maySend id) hj ⟨w.job, phase⟩
  have := hw id
  simp only [Option.elim_some, Dispatcher.toCome]
  split at hset <;> split at hset <;> simp_all
  all_goals omega

/-- A worker that is done. What it writes leaves its row with the charge it had, less
the worker's own send. -/
theorem AttemptInv.done (h : AttemptInv S s)
    (hi : s.dispatch.dispatchers i = some ⟨ownerID, leaseUntil, .working queue workers⟩)
    (hj : workers[j]? = some w) {store : OutboxStore} (hstore : OutboxInv store)
    (hnext : store.nextID = s.dispatch.store.nextID) {f : NotificationOutbox → NotificationOutbox}
    (hrows : store.rows = updateWhere (heldBy ownerID w.job.id) f s.dispatch.store.rows)
    (hid : ∀ row, (f row).id = row.id)
    (hallows : ∀ row ∈ s.dispatch.store.rows, heldBy ownerID w.job.id row = true →
      ∀ c, Allows row (c + if w.maySend row.id then 1 else 0) → Allows (f row) c) :
    AttemptInv S { s with
      dispatch := { s.dispatch with
        store := store
        dispatchers := set s.dispatch.dispatchers i
          (some ⟨ownerID, leaseUntil, .working queue (workers.eraseIdx j)⟩) } } := by
  refine h.write hi hstore hnext hrows hid ?_ ?_
  · intro id
    have := countP_eraseIdx (Worker.maySend id) hj
    simp only [Option.elim_some, Dispatcher.toCome]
    omega
  · intro row hrow hp c hc
    have herase := countP_eraseIdx (Worker.maySend row.id) hj
    simp only [Option.elim_some, Dispatcher.toCome] at hc ⊢
    refine hallows row hrow hp _ (hc.mono ?_)
    omega

/-- The update of one candidate: one more send may come, and the row has an attempt for it. -/
theorem AttemptInv.claim (h : AttemptInv S s) {now : Time} {id : Nat} {candidates claimedIDs : List Nat}
    (hi : s.dispatch.dispatchers i = some
      ⟨ownerID, leaseUntil, .claiming now (id :: candidates) claimedIDs⟩)
    (hlast : ∀ row ∈ s.dispatch.store.rows, row.id = id → claimable now row = true →
      row.status = .processing →
      row.attemptCount < effectiveNotificationOutboxMaxAttempts row) :
    AttemptInv S { s with
      dispatch := { s.dispatch with
        store := claimOne ownerID now leaseUntil id s.dispatch.store
        dispatchers := set s.dispatch.dispatchers i (some ⟨ownerID, leaseUntil, .claiming now candidates
          (if claimAffected now id s.dispatch.store = 1 then claimedIDs ++ [id] else claimedIDs)⟩)
            } } := by
  obtain ⟨claimed, hclaimed⟩ : ∃ claimed, claimed =
      if claimAffected now id s.dispatch.store = 1 then claimedIDs ++ [id] else claimedIDs := ⟨_, rfl⟩
  rw [← hclaimed]
  -- Only the claimed row's count grows, and by one.
  have hcount : ∀ id',
      (∃ row ∈ s.dispatch.store.rows, row.id = id ∧ claimable now row = true ∧ id' = id) ∨
      claimed.count id' = claimedIDs.count id' := by
    intro id'
    by_cases haff : claimAffected now id s.dispatch.store = 1
    · by_cases hid : id' = id
      · left
        obtain ⟨row, hrow, hp⟩ : ∃ row ∈ s.dispatch.store.rows,
            (row.id = id && claimable now row) = true := by
          have hne : claimAffected now id s.dispatch.store ≠ 0 := by omega
          simpa [claimAffected, affected_eq_zero] using hne
        simp only [Bool.and_eq_true, decide_eq_true_eq] at hp
        exact ⟨row, hrow, hp.1, hp.2, hid⟩
      · right
        rw [hclaimed, if_pos haff, List.count_append, List.count_singleton]
        simp [Ne.symm hid]
    · right
      rw [hclaimed, if_neg haff]
  have hle : ∀ id', claimed.count id' ≤ claimedIDs.count id' + 1 := by
    intro id'
    rw [hclaimed]
    split
    · rw [List.count_append, List.count_singleton]
      split <;> omega
    · omega
  suffices hmove : AttemptInv S ⟨{ s.dispatch with
      store := claimOne ownerID now leaseUntil id s.dispatch.store
      dispatchers :=
        set s.dispatch.dispatchers i (some ⟨ownerID, leaseUntil, .claiming now candidates claimed⟩)
      delivered := s.dispatch.delivered }, s.sends ++ []⟩ by
    simpa using hmove
  refine h.move hi (h.store.claim ownerID now leaseUntil id) rfl ?_ ?_
  · intro row' hrow'
    rcases mem_updateWhere_cases hrow' with ⟨hrow, hp⟩ | ⟨row, hrow, hp, rfl⟩
    · refine ⟨row', hrow, rfl, fun c hc => hc.mono ?_⟩
      rcases hcount row'.id with ⟨row, hr, hid, hclaimable, hid'⟩ | hsame
      · obtain rfl := eq_of_key h.store.ids hr hrow (hid.trans hid'.symm)
        simp [hid, hclaimable] at hp
      · simp [Dispatcher.toCome, hsame]
    · simp only [Bool.and_eq_true, decide_eq_true_eq] at hp
      refine ⟨row, hrow, rfl, fun c hc => ?_⟩
      have hmono := hle row.id
      have hlast' := hlast row hrow hp.1 hp.2
      simp only [Dispatcher.toCome, Option.elim_some, List.count_nil, Nat.add_zero] at hc ⊢
      have hlimit : effectiveNotificationOutboxMaxAttempts (claimRow ownerID now leaseUntil row) =
          effectiveNotificationOutboxMaxAttempts row := rfl
      refine ⟨?_, ?_, fun hst => by simp [claimRow] at hst⟩
      · have := hc.claims
        simp only [claimRow]
        omega
      · rw [hlimit]
        -- A pending row has a send left; one in processing has not used its attempts.
        cases hst : row.status with
        | pending =>
          have := hc.pending hst
          omega
        | processing =>
          have := hc.claims
          have := hlast' hst
          omega
        | _ => simp [claimable, hst, OutboxStatus.isOpen] at hp
  · intro id' hfresh hzero
    rcases hcount id' with ⟨row, hrow, hid, -, hid'⟩ | hsame
    · have := h.store.fresh row hrow
      omega
    · simpa [Dispatcher.toCome, hsame] using hzero

/-- The jobs that are loaded are among the claimed rows. -/
theorem AttemptInv.load (h : AttemptInv S s) {now : Time} {claimedIDs : List Nat}
    (hi : s.dispatch.dispatchers i = some ⟨ownerID, leaseUntil, .claiming now [] claimedIDs⟩) :
    AttemptInv S { s with
      dispatch := { s.dispatch with
        dispatchers := set s.dispatch.dispatchers i
          (some ⟨ownerID, leaseUntil, .working (loadClaimed ownerID claimedIDs s.dispatch.store)
            []⟩) } } := by
  refine h.stay hi _ fun id => ?_
  have hperm : (loadClaimed ownerID claimedIDs s.dispatch.store).Perm _ := List.perm_insertionSort _ _
  have hnodup : ((loadClaimed ownerID claimedIDs s.dispatch.store).map (·.id)).Nodup :=
    (hperm.map _).nodup_iff.2 (h.store.ids.sublist (List.filter_sublist.map _))
  simp only [Dispatcher.toCome, Option.elim_some, List.countP_nil, Nat.add_zero]
  have hcountP : (loadClaimed ownerID claimedIDs s.dispatch.store).countP (·.id = id) =
      ((loadClaimed ownerID claimedIDs s.dispatch.store).map (·.id)).count id := by
    rw [List.count, List.countP_map]
    rfl
  rw [hcountP]
  by_cases hmem : id ∈ (loadClaimed ownerID claimedIDs s.dispatch.store).map (·.id)
  · have hclaimed : id ∈ claimedIDs := by
      obtain ⟨row, hrow, rfl⟩ := List.mem_map.1 hmem
      exact (by simpa using (List.mem_filter.1 (hperm.mem_iff.1 hrow)).2 : row.id ∈ claimedIDs ∧ _).1
    have := List.nodup_iff_count_le_one.1 hnodup id
    have := List.count_pos_iff.2 hclaimed
    omega
  · rw [List.count_eq_zero_of_not_mem hmem]
    exact Nat.zero_le _

theorem AttemptInv.expire (h : AttemptInv S s) {now : Time}
    (hi : s.dispatch.dispatchers i = some ⟨ownerID, leaseUntil, .expiring now⟩) (phase : DispatchPhase)
    (hphase : ∀ id, Dispatcher.toCome id ⟨ownerID, leaseUntil, phase⟩ = 0) :
    AttemptInv S { s with
      dispatch := { s.dispatch with
        store := expireNotificationOutbox now s.dispatch.store
        dispatchers := set s.dispatch.dispatchers i (some ⟨ownerID, leaseUntil, phase⟩) } } := by
  refine h.write hi (h.store.expire now) rfl rfl (fun _ => rfl) (fun id => ?_) fun row _ _ c hc => ?_
  · rw [Option.elim_some, hphase]
    exact Nat.zero_le _
  · rw [Option.elim_some, hphase]
    have hc' : Allows row c := hc
    exact ⟨hc'.claims, hc'.limit, fun hst => by simp [expireRow] at hst⟩

/-- A send: the worker had it to come, and now it is tried. -/
theorem AttemptInv.send (h : AttemptInv S s)
    (hi : s.dispatch.dispatchers i = some ⟨ownerID, leaseUntil, .working queue workers⟩)
    (hj : workers[j]? = some w) (hw : ∀ id, w.maySend id = decide (w.job.id = id)) {phase : WorkerPhase}
    (hphase : ∀ id, Worker.maySend id ⟨w.job, phase⟩ = false) (delivered : List Nat) :
    AttemptInv S ⟨{ s.dispatch with
      dispatchers :=
        set s.dispatch.dispatchers i
          (some ⟨ownerID, leaseUntil, .working queue (workers.set j ⟨w.job, phase⟩)⟩)
      delivered := delivered }, s.sends ++ [w.job.id]⟩ := by
  refine h.quiet hi fun id => ?_
  have hset := countP_set (Worker.maySend id) hj ⟨w.job, phase⟩
  rw [hw, hphase] at hset
  simp only [Option.elim_some, Dispatcher.toCome, List.count_singleton, beq_iff_eq,
    decide_eq_true_eq, Bool.false_eq_true,
    if_false] at hset ⊢
  omega

/-- A dispatcher starts: it has claimed nothing. -/
theorem AttemptInv.start (h : AttemptInv S s) (hi : s.dispatch.dispatchers i = none) (d : Dispatcher)
    (hd : ∀ id, d.toCome id = 0) :
    AttemptInv (insert i S) { s with
      dispatch := { s.dispatch with dispatchers := set s.dispatch.dispatchers i (some d) } } := by
  have hcharged : ∀ id, AttemptSystem.charged { s with
      dispatch := { s.dispatch with dispatchers := set s.dispatch.dispatchers i (some d) } }
        (insert i S) id = s.charged S id := by
    intro id
    have hset :=
      @weight_set _ (Dispatcher.toCome id) s.dispatch.dispatchers (insert i S) i
        (Finset.mem_insert_self i S) (some d)
    have hinsert := @weight_insert _ (Dispatcher.toCome id) s.dispatch.dispatchers S i hi
    simp only [hi, Option.elim_none, Option.elim_some, hd] at hset
    simp only [AttemptSystem.charged]
    omega
  refine ⟨h.store, fun j hj => ?_, fun row hrow => hcharged row.id ▸ h.allows row hrow,
    fun id hid => hcharged id ▸ h.fresh id hid⟩
  rw [Finset.mem_insert, not_or] at hj
  simpa [set_of_ne _ _ hj.1] using h.within j hj.2

/-- A new row has all its attempts. -/
theorem AttemptInv.enqueue (h : AttemptInv S s) (loc : Location) (now : Time)
    (job : NotificationOutboxJob) :
    AttemptInv S { s with
      dispatch := { s.dispatch with
        store := enqueueNotificationOutbox loc now job s.dispatch.store } } := by
  have hrows := fun row => @mem_enqueueNotificationOutbox s.dispatch.store loc now job row
  unfold enqueueNotificationOutbox at hrows ⊢
  split at hrows
  · rename_i hskip
    rw [if_pos hskip]
    exact h
  · rename_i hskip
    rw [if_neg hskip]
    refine ⟨h.store.insert rfl rfl, h.within, fun row hrow => ?_, fun id hid => h.fresh id ?_⟩
    · rcases hrows row hrow with hrow | rfl
      · exact h.allows row hrow
      · have hzero : s.charged S s.dispatch.store.nextID = 0 := h.fresh _ le_rfl
        have hnew : Allows { enqueueRow job now with id := s.dispatch.store.nextID } 0 :=
          allows_zero (by simp [enqueueRow])
        rw [← hzero] at hnew
        exact hnew
    · refine le_trans ?_ hid
      unfold insertOutbox
      split
      · exact le_rfl
      · exact Nat.le_succ _

/-- A job goes to a worker, or is left when the context is cancelled. -/
theorem AttemptInv.take (h : AttemptInv S s) {job : NotificationOutbox} {cancelled : Bool}
    (hi : s.dispatch.dispatchers i = some ⟨ownerID, leaseUntil, .working (job :: queue) workers⟩) :
    AttemptInv S { s with
      dispatch := { s.dispatch with
        dispatchers := set s.dispatch.dispatchers i (some ⟨ownerID, leaseUntil, .working queue
          (if cancelled then workers else workers ++ [⟨job, .checking⟩])⟩) } } := by
  refine h.stay hi _ fun id => ?_
  simp only [Option.elim_some, Dispatcher.toCome, List.countP_cons]
  cases cancelled with
  | true =>
    simp only [if_true]
    omega
  | false =>
    simp only [Bool.false_eq_true, if_false, List.countP_append, List.countP_singleton,
      Worker.maySend, Bool.and_true]
    omega

theorem updateHeldAndLog_nextID (ownerID : String) (id : Nat)
    (f : NotificationOutbox → NotificationOutbox) (log : NotificationLog) (store : OutboxStore) :
    (updateHeldAndLog ownerID id f log store).nextID = store.nextID := by
  unfold updateHeldAndLog
  split <;> rfl

/-- A worker gives its job a final status. -/
theorem AttemptInv.final (h : AttemptInv S s)
    (hi : s.dispatch.dispatchers i = some ⟨ownerID, leaseUntil, .working queue workers⟩)
    (hj : workers[j]? = some w) {store : OutboxStore} (hstore : OutboxInv store)
    (hnext : store.nextID = s.dispatch.store.nextID) {f : NotificationOutbox → NotificationOutbox}
    (hrows : store.rows = updateWhere (heldBy ownerID w.job.id) f s.dispatch.store.rows)
    (hid : ∀ row, (f row).id = row.id) (hcount : ∀ row, (f row).attemptCount = row.attemptCount)
    (hmax : ∀ row, (f row).maxAttempts = row.maxAttempts) (hst : ∀ row, (f row).status ≠ .pending) :
    AttemptInv S { s with
      dispatch := { s.dispatch with
        store := store
        dispatchers := set s.dispatch.dispatchers i
          (some ⟨ownerID, leaseUntil, .working queue (workers.eraseIdx j)⟩) } } := by
  refine h.done hi hj hstore hnext hrows hid fun row _ _ c hc => ?_
  have hc' := hc.mono (Nat.le_add_right c _)
  refine ⟨(hcount row).symm ▸ hc'.claims, ?_, fun hpending => absurd hpending (hst row)⟩
  unfold effectiveNotificationOutboxMaxAttempts
  rw [hmax]
  exact hc'.limit

/-- A failure: the row is pending again only when it has attempts left. -/
theorem AttemptInv.markFailed (h : AttemptInv S s)
    (hi : s.dispatch.dispatchers i = some ⟨ownerID, leaseUntil, .working queue workers⟩)
    (hj : workers[j]? = some w) (now : Time) (err : String)
    (hlast : ∀ row ∈ s.dispatch.store.rows, heldBy ownerID w.job.id row = true →
      effectiveNotificationOutboxMaxAttempts row ≤ row.attemptCount →
        effectiveNotificationOutboxMaxAttempts w.job ≤ w.job.attemptCount) :
    AttemptInv S { s with
      dispatch := { s.dispatch with
        store := markNotificationOutboxFailed ownerID now w.job err s.dispatch.store
        dispatchers := set s.dispatch.dispatchers i
          (some ⟨ownerID, leaseUntil, .working queue (workers.eraseIdx j)⟩) } } := by
  refine h.done hi hj (h.store.markFailed ownerID now w.job err) (updateHeldAndLog_nextID ..)
    (updateHeldAndLog_rows ..)
    (fun _ => rfl) fun row hrow hp c hc => ?_
  have hc' := hc.mono (Nat.le_add_right c _)
  refine ⟨hc'.claims, hc'.limit, fun hpending => ?_⟩
  have hleft : ¬ effectiveNotificationOutboxMaxAttempts w.job ≤ w.job.attemptCount := by
    intro hused
    simp [failedRow, hused] at hpending
  have hrowLeft := mt (hlast row hrow hp) hleft
  exact hc'.claims.trans_lt (not_le.1 hrowLeft)

/-- A release: the worker's send does not come, and the row has it left. -/
theorem AttemptInv.release (h : AttemptInv S s)
    (hi : s.dispatch.dispatchers i = some ⟨ownerID, leaseUntil, .working queue workers⟩)
    (hj : workers[j]? = some w) (hw : w.isQuerying = true) (now : Time) (err : String) :
    AttemptInv S { s with
      dispatch := { s.dispatch with
        store := releaseNotificationOutboxForRetry ownerID now w.job err s.dispatch.store
        dispatchers := set s.dispatch.dispatchers i
          (some ⟨ownerID, leaseUntil, .working queue (workers.eraseIdx j)⟩) } } := by
  refine h.done hi hj (h.store.release ownerID now w.job err) rfl rfl (fun _ => rfl)
    fun row _ hp c hc => ?_
  have hmay : w.maySend row.id = true := by
    obtain ⟨job, phase⟩ := w
    have hid := heldBy_id hp
    cases phase <;> simp_all [Worker.maySend, Worker.isQuerying]
  rw [if_pos hmay] at hc
  have hlimit := hc.limit
  have hc' := hc.mono (Nat.le_add_right c 1)
  refine ⟨hc'.claims, hc'.limit, fun _ => ?_⟩
  push_cast at hlimit
  exact lt_of_lt_of_le (by omega) hlimit

end Moves

/-! ## Runs -/

/-- One action of a dispatcher. -/
theorem AttemptInv.act {S : Finset Nat} {s : AttemptSystem} (h : AttemptInv S s) {i : Nat}
    {action : DispatchAction} (hlast : LastAttemptKept s (.run (.act i action))) {d : Dispatcher}
    (hi : s.dispatch.dispatchers i = some d) {loc : Location} {d' : Option Dispatcher}
    {store : OutboxStore} {handed : List Nat}
    (hact : d.act loc s.dispatch.now s.dispatch.store action = some (d', store, handed)) :
    AttemptInv S ⟨{ s.dispatch with
      store := store, dispatchers := set s.dispatch.dispatchers i d',
      delivered := s.dispatch.delivered ++ handed },
      s.sends ++ triedBy s.dispatch (.act i action)⟩ := by
  obtain ⟨ownerID, leaseUntil, phase⟩ := d
  cases action with
  | next cancelled =>
    cases phase with
    | expiring now =>
      cases hact
      -- the expiry leaves the attempt counts alone
      simpa [triedBy] using h.expire hi (.selecting s.dispatch.now) fun _ => rfl
    | selecting now =>
      simp only [Dispatcher.act] at hact
      split at hact <;> cases hact
      · simpa [triedBy] using h.stay hi none fun _ => Nat.zero_le _
      · simpa [triedBy] using h.stay hi (some _) fun _ => Nat.zero_le _
    | claiming now candidates claimedIDs =>
      cases candidates with
      | nil =>
        cases hact
        simpa [triedBy] using h.load hi
      | cons id candidates =>
        simp only [Dispatcher.act] at hact
        split at hact <;> cases hact
        · simpa [triedBy] using h.stay hi (some ⟨ownerID, leaseUntil, .claiming now [] claimedIDs⟩)
            fun _ => le_rfl
        · -- a claim counts the attempt that the send then makes
          simp only [LastAttemptKept, hi, Option.map_some] at hlast
          simpa [triedBy] using h.claim hi hlast
    | working => cases hact
  | take cancelled =>
    simp only [Dispatcher.act] at hact
    split at hact
    · split at hact <;> cases hact
      simpa [triedBy] using h.take hi
    · cases hact
  | check j view =>
    simp only [Dispatcher.act] at hact
    split at hact
    · split at hact <;> cases hact
      rename_i hj
      simpa [triedBy] using h.setPhase hi hj
        fun id hmay => by simpa [Worker.maySend] using (Bool.and_eq_true_iff.1 hmay).1
    · cases hact
  | cancel j =>
    simp only [Dispatcher.act] at hact
    split at hact
    · split at hact <;> cases hact
      -- a cancelled row is closed: nothing is sent for it again
      rename_i update hj
      have hst : update.status ≠ .pending := by rcases update.terminal with ht | ht <;> simp [ht]
      simpa [triedBy] using h.final hi hj (h.store.terminal ownerID _ _ _) rfl rfl (fun _ => rfl)
        (fun _ => rfl)
        (fun _ => rfl) fun _ => hst
    · cases hact
  | load j channels =>
    simp only [Dispatcher.act] at hact
    split at hact
    · split at hact <;> cases hact
      rename_i hj
      simpa [triedBy] using h.setPhase hi hj
        fun id hmay => by simpa [Worker.maySend] using (Bool.and_eq_true_iff.1 hmay).1
    · cases hact
  | send j sanitizedErr =>
    simp only [Dispatcher.act] at hact
    split at hact
    · split at hact <;> cases hact
      all_goals
        rename_i hj
        simpa [triedBy, hi, hj] using h.send hi hj (fun id => by simp [Worker.maySend])
          (fun id => by simp [Worker.maySend]) _
    · cases hact
  | mark j =>
    simp only [Dispatcher.act] at hact
    split at hact
    · split at hact <;> cases hact
      · rename_i job now hj
        simpa [triedBy] using h.final hi hj (h.store.markSent ownerID now job)
          (updateHeldAndLog_nextID ..)
          (updateHeldAndLog_rows ..) (fun _ => rfl) (fun _ => rfl) (fun _ => rfl)
            fun _ => by simp [sentRow]
      · -- a failure may put the row back for another try, if its attempts allow it
        rename_i hj
        simp only [LastAttemptKept, hi, hj] at hlast
        simpa [triedBy] using h.markFailed hi hj _ _ hlast
    · cases hact
  | finish =>
    simp only [Dispatcher.act] at hact
    split at hact <;> cases hact
    simpa [triedBy] using h.stay hi none fun _ => Nat.zero_le _

theorem AttemptSystem.step_inv {loc : Location} {s t : AttemptSystem} {e : AttemptEvent}
    (h : ∃ S, AttemptInv S s) (hlast : LastAttemptKept s e) (hstep : s.step loc e = some t) :
    ∃ S, AttemptInv S t := by
  obtain ⟨S, h⟩ := h
  cases e with
  | run e =>
    obtain ⟨dispatch, hdispatch, rfl⟩ := Option.map_eq_some_iff.1 hstep
    cases e with
    | tick nanos =>
      cases hdispatch
      exact ⟨S, by simpa [triedBy] using (⟨h.store, h.within, h.allows, h.fresh⟩ : AttemptInv S
        { s with dispatch := { s.dispatch with clock := s.dispatch.clock + nanos } })⟩
    | enqueue job =>
      cases hdispatch
      exact ⟨S, by simpa [triedBy] using h.enqueue loc s.dispatch.now job⟩
    | start i ownerID =>
      simp only [DispatchSystem.step] at hdispatch
      split at hdispatch <;> cases hdispatch
      rename_i hi
      exact ⟨insert i S, by
        simpa [triedBy] using h.start hi ⟨ownerID, s.dispatch.now, .expiring s.dispatch.now⟩
          fun _ => rfl⟩
    | act i action =>
      obtain ⟨d, hi, hdispatch⟩ := Option.bind_eq_some_iff.1 hdispatch
      obtain ⟨⟨d', store, handed⟩, hact, rfl⟩ := Option.map_eq_some_iff.1 hdispatch
      exact ⟨S, h.act hlast hi hact⟩
  | crash i =>
    cases hstep
    cases hi : s.dispatch.dispatchers i with
    | none =>
      -- no dispatcher of that number runs: the crash is of nobody
      have hsame : set s.dispatch.dispatchers i none = s.dispatch.dispatchers := by
        rw [← hi]
        exact Function.update_eq_self i _
      rw [hsame]
      exact ⟨S, h⟩
    | some d => exact ⟨S, h.stay hi none fun _ => Nat.zero_le _⟩
  | release i j err =>
    simp only [AttemptSystem.step] at hstep
    split at hstep
    · rename_i hi
      split at hstep
      · rename_i hj
        split at hstep <;> cases hstep
        rename_i hw
        exact ⟨S, h.release hi hj hw _ err⟩
      · cases hstep
    · cases hstep
  | unsaved i j =>
    simp only [AttemptSystem.step] at hstep
    split at hstep
    · rename_i hi
      split at hstep
      · rename_i hj
        split at hstep <;> cases hstep
        -- the outcome is lost: the job is given up, its row stays claimed
        refine ⟨S, h.stay hi _ fun id => ?_⟩
        have := countP_eraseIdx (Worker.maySend id) hj
        simp only [Option.elim_some, Dispatcher.toCome]
        omega
      · cases hstep
    · cases hstep

theorem AttemptSystem.Initial.inv {s : AttemptSystem} (h : s.Initial) : AttemptInv ∅ s := by
  have hcharged : ∀ id, s.charged ∅ id = 0 := by
    intro id
    simp [AttemptSystem.charged, h.sends, weight]
  refine ⟨h.store, by simp [h.idle], fun row hrow => ?_, fun id _ => hcharged id⟩
  rw [hcharged]
  exact allows_zero (h.counts row hrow)

/-- In every run whose last attempts are kept, however processes die, lose their leases
and fail to write, no row is tried more often than its limit. -/
theorem sends_bounded {loc : Location} {s t : AttemptSystem} (hs : s.Initial)
    (hpath : Path (AttemptSystem.step loc) LastAttemptKept s t) :
    ∀ row ∈ t.dispatch.store.rows,
    (t.sends.count row.id : Int) ≤ effectiveNotificationOutboxMaxAttempts row := by
  obtain ⟨S, ht⟩ :=
    hpath.invariant (fun s => ∃ S, AttemptInv S s)
      (fun _ _ _ h hlast hstep => AttemptSystem.step_inv h hlast hstep)
    ⟨∅, hs.inv⟩
  intro row hrow
  have hlimit := (ht.allows row hrow).limit
  unfold AttemptSystem.charged at hlimit
  push_cast at hlimit
  omega

/-! ## A worker that dies -/

def sampleAttempts : AttemptSystem := ⟨sampleDispatch, []⟩

/-- A dispatcher claims the row and sends it, and dies before it marks it. Six minutes
later its lease is over. -/
def dyingEvents : List AttemptEvent :=
  (claimEvents 0 "a" ++ [DispatchEvent.act 0 (.send 0 none)]).map AttemptEvent.run ++
    [.crash 0, .run (.tick (6 * 60 * 1000000000))]

instance (s : AttemptSystem) (e : AttemptEvent) : Decidable (Always s e) :=
  inferInstanceAs (Decidable True)

/-- Six workers die one after the other, and the row is sent six times. -/
theorem sends_unbounded :
    ¬ ∀ (loc : Location) (s t : AttemptSystem), s.Initial → Path (AttemptSystem.step loc) Always s t →
      ∀ row ∈ t.dispatch.store.rows,
        (t.sends.count row.id : Int) ≤ effectiveNotificationOutboxMaxAttempts row := by
  intro h
  have hrun : (exec (AttemptSystem.step (Location.fixed 0)) Always sampleAttempts
      (.run (.enqueue sampleJob) :: (List.replicate 6 dyingEvents).flatten)).any
        (fun t => t.sends.count 1 = 6 ∧
        ∃ row ∈ t.dispatch.store.rows, row.id = 1 ∧
          effectiveNotificationOutboxMaxAttempts row = 5) = true := by
    decide +kernel
  obtain ⟨t, ht, hp⟩ := (Option.any_eq_true _ _).1 hrun
  obtain ⟨hsends, row, hrow, hid, hmax⟩ := of_decide_eq_true hp
  have hle :=
    h _ _ t ⟨.empty rfl (by simp [sampleAttempts, sampleDispatch]),
      by simp [sampleAttempts, sampleDispatch], rfl, rfl⟩
    (Path.of_exec ht) row hrow
  rw [hid, hsends, hmax] at hle
  exact absurd hle (by decide)

instance (s : AttemptSystem) (e : AttemptEvent) : Decidable (LastAttemptKept s e) := by
  unfold LastAttemptKept
  repeat' split
  all_goals infer_instance

/-- Four workers die, and the fifth marks the row sent. -/
theorem sends_bounded_sample :
    ∃ t, exec (AttemptSystem.step (Location.fixed 0)) LastAttemptKept sampleAttempts
        (.run (.enqueue sampleJob) :: (List.replicate 4 dyingEvents).flatten ++
          (claimEvents 0 "a" ++ sendEvents 0).map AttemptEvent.run) = some t ∧
      t.sends.count 1 = 5 ∧
      ∀ row ∈ t.dispatch.store.rows,
        (t.sends.count row.id : Int) ≤ effectiveNotificationOutboxMaxAttempts row := by
  have hrun : (exec (AttemptSystem.step (Location.fixed 0)) LastAttemptKept sampleAttempts
      (.run (.enqueue sampleJob) :: (List.replicate 4 dyingEvents).flatten ++
        (claimEvents 0 "a" ++ sendEvents 0).map AttemptEvent.run)).any
          (fun t => t.sends.count 1 = 5) = true := by
    decide +kernel
  obtain ⟨t, ht, hp⟩ := (Option.any_eq_true _ _).1 hrun
  exact ⟨t, ht, of_decide_eq_true hp, sends_bounded
    ⟨.empty rfl (by simp [sampleAttempts, sampleDispatch]),
      by simp [sampleAttempts, sampleDispatch], rfl, rfl⟩ (Path.of_exec ht)⟩

end Subdux
