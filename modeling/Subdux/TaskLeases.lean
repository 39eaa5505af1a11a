import Subdux.Time
import Subdux.Lib.Leases
import Subdux.Lib.Rows
import Subdux.Lib.Runs
/-!
# Background task leases

`acquireBackgroundTaskLease` of `internal/service/background_task_lease.go`. A call reads
the clock, tries to insert the row of its task, and else takes the row over; the three
are steps of their own, so calls of several owners overlap (`LeaseSystem`). An owner has
at most one call under way for a task. `acquired` lists for each task the calls that
returned true, with their readings of the clock: it is a history of grants (`Subdux.Lib.Leases`)
of which the stored row is the last. The columns `created_at` and `updated_at` are read by nobody
and left out.
-/

namespace Subdux
open Rows Leases
open Runs (Path exec)

structure BackgroundTaskLease where
  taskKey : String
  ownerID : String
  leaseUntil : Time
  heartbeatAt : Time
  deriving DecidableEq

/-! ## The two statements -/

/-- `INSERT ... ON CONFLICT DO NOTHING`, and whether a row was inserted. -/
def insertLease (lease : BackgroundTaskLease) (leases : List BackgroundTaskLease) :
    List BackgroundTaskLease × Bool :=
  if leases.any (·.taskKey = lease.taskKey) then (leases, false) else (leases ++ [lease], true)

/-- The condition of the update. -/
def takeable (taskKey ownerID : String) (now : Time) (lease : BackgroundTaskLease) : Bool :=
  lease.taskKey = taskKey && (!lease.leaseUntil.after now || lease.ownerID = ownerID)

/-- The update, and the number of rows it reports. -/
def takeLease (taskKey ownerID : String) (now leaseUntil : Time) (leases : List BackgroundTaskLease) :
    List BackgroundTaskLease × Nat :=
  (updateWhere (takeable taskKey ownerID now)
    ({ · with ownerID := ownerID, leaseUntil := leaseUntil, heartbeatAt := now }) leases,
   affected (takeable taskKey ownerID now) leases)

/-- `acquireBackgroundTaskLease` at `now`, where no statement fails and nobody else writes. -/
def acquireBackgroundTaskLease (leases : List BackgroundTaskLease) (ownerID taskKey : String)
    (ttl : Int) (now : Time) :
    List BackgroundTaskLease × Bool :=
  if taskKey = "" ∨ ownerID = "" ∨ ttl ≤ 0 then (leases, false)
  else
    let leaseUntil := now.add ttl
    let inserted := insertLease ⟨taskKey, ownerID, leaseUntil, now⟩ leases
    if inserted.2 then (inserted.1, true)
    else
      let taken := takeLease taskKey ownerID now leaseUntil inserted.1
      (taken.1, taken.2 = 1)

/-- A second owner gets the lease when it has run out, not before. -/
example :
    let minute := 60 * nsPerSecond
    let now : Time := dateUTC 2026 3 15
    let first := acquireBackgroundTaskLease [] "owner-a" "notification_scan" minute now
    let second := acquireBackgroundTaskLease first.1 "owner-b" "notification_scan" minute now
    let later :=
      acquireBackgroundTaskLease second.1 "owner-b" "notification_scan" minute (now.add (2 * minute))
    (first.2, second.2, later.2) = (true, false, true) := by
  decide +kernel

/-! ## Calls that overlap -/

/-- What a call does next. -/
inductive LeasePhase where
  | reading
  | inserting (now : Time)
  | updating (now : Time)

/-- The call's reading of the clock. -/
def LeasePhase.now : LeasePhase → Option Time
  | .reading => none
  | .inserting now | .updating now => some now

structure LeaseSystem where
  leases : List BackgroundTaskLease
  /-- The call of an owner for a task. -/
  calls : String × String → Option LeasePhase
  clock : Time
  acquired : String → List (Grant String Int)

def LeaseSystem.initial (clock : Time) : LeaseSystem := ⟨[], fun _ => none, clock, fun _ => []⟩

inductive LeaseEvent where
  | call (ownerID taskKey : String)
  | readClock (ownerID taskKey : String) (now : Time)
  | insert (ownerID taskKey : String) (fails : Bool)
  | update (ownerID taskKey : String) (fails : Bool)

namespace LeaseSystem

/-- The call goes on with `phase`, or returns. -/
def setCall (s : LeaseSystem) (ownerID taskKey : String) (phase : Option LeasePhase) : LeaseSystem :=
  { s with calls := Function.update s.calls (ownerID, taskKey) phase }

/-- The call returns true. -/
def grant (s : LeaseSystem) (ownerID taskKey : String) (now : Time)
    (leases : List BackgroundTaskLease) : LeaseSystem :=
  { s.setCall ownerID taskKey none with
    leases := leases
    acquired := Function.update s.acquired taskKey (s.acquired taskKey ++ [⟨ownerID, now.nanos⟩]) }

/-- One step, where the lease of task `k` is asked for `ttl k`. -/
def step (ttl : String → Int) (s : LeaseSystem) : LeaseEvent → Option LeaseSystem
  | .call ownerID taskKey =>
    match s.calls (ownerID, taskKey) with
    | some _ => none
    | none =>
      some (if taskKey = "" ∨ ownerID = "" ∨ ttl taskKey ≤ 0 then s else s.setCall ownerID taskKey
        (some .reading))
  | .readClock ownerID taskKey now =>
    match s.calls (ownerID, taskKey) with
    | some .reading =>
      if now.before s.clock then none
        else some ({ s with clock := now }.setCall ownerID taskKey (some (.inserting now)))
    | _ => none
  | .insert ownerID taskKey fails =>
    match s.calls (ownerID, taskKey) with
    | some (.inserting now) =>
      let inserted := insertLease ⟨taskKey, ownerID, now.add (ttl taskKey), now⟩ s.leases
      some
        (if fails then s.setCall ownerID taskKey none
         else if inserted.2 then s.grant ownerID taskKey now inserted.1
         else s.setCall ownerID taskKey (some (.updating now)))
    | _ => none
  | .update ownerID taskKey fails =>
    match s.calls (ownerID, taskKey) with
    | some (.updating now) =>
      let taken := takeLease taskKey ownerID now (now.add (ttl taskKey)) s.leases
      some
        (if fails then s.setCall ownerID taskKey none
         else if taken.2 = 1 then s.grant ownerID taskKey now taken.1
         else { s with leases := taken.1 }.setCall ownerID taskKey none)
    | _ => none

end LeaseSystem

/-! ## What every state keeps -/

section Invariant
variable {ttl : String → Int} {s t : LeaseSystem} {ownerID taskKey : String} {now : Time}
  {leases : List BackgroundTaskLease}
  {phase : LeasePhase} {row : BackgroundTaskLease}

/-- The grant that a row stores. -/
def BackgroundTaskLease.lastGrant (ttl : String → Int) (row : BackgroundTaskLease) : Grant String Int :=
  ⟨row.ownerID, row.leaseUntil.nanos - ttl row.taskKey⟩

/-- The calls read the clock earlier, and not before the grant that their owner holds. -/
structure LeaseCallInv (ttl : String → Int) (s : LeaseSystem) (ownerID taskKey : String)
    (phase : LeasePhase) : Prop where
  positive : 0 < ttl taskKey
  past : ∀ now, phase.now = some now → now.nanos ≤ s.clock.nanos
  renews : ∀ now, phase.now = some now → ∀ row ∈ s.leases, row.taskKey = taskKey →
    row.ownerID = ownerID →
    (row.lastGrant ttl).time ≤ now.nanos

/-- A row stores the last grant of its task. -/
structure LeaseRowInv (ttl : String → Int) (s : LeaseSystem) (row : BackgroundTaskLease) : Prop where
  positive : 0 < ttl row.taskKey
  past : (row.lastGrant ttl).time ≤ s.clock.nanos
  held : Held (ttl row.taskKey) (s.acquired row.taskKey) (row.lastGrant ttl)

structure LeaseInv (ttl : String → Int) (s : LeaseSystem) : Prop where
  keys : (s.leases.map (·.taskKey)).Nodup
  calls : ∀ ownerID taskKey phase, s.calls (ownerID, taskKey) = some phase →
    LeaseCallInv ttl s ownerID taskKey phase
  rows : ∀ row ∈ s.leases, LeaseRowInv ttl s row
  stored : ∀ taskKey, s.acquired taskKey ≠ [] → ∃ row ∈ s.leases, row.taskKey = taskKey
  ordered : ∀ taskKey, Ordered (ttl taskKey) (s.acquired taskKey)

theorem LeaseInv.initial (clock : Time) : LeaseInv ttl (LeaseSystem.initial clock) where
  keys := List.nodup_nil
  calls := by
    intro _ _ _ h
    cases h
  rows := by
    intro row h
    cases h
  stored := by
    intro _ h
    exact absurd rfl h
  ordered := fun _ => List.Pairwise.nil

/-- A call that goes on or returns false. -/
theorem LeaseInv.setCall (h : LeaseInv ttl s) {next : Option LeasePhase}
    (hnext : ∀ phase, next = some phase → LeaseCallInv ttl s ownerID taskKey phase) :
    LeaseInv ttl (s.setCall ownerID taskKey next) where
  keys := h.keys
  calls := by
    intro o k phase hcall
    have hkeep : LeaseCallInv ttl s o k phase := by
      by_cases hsame : (o, k) = (ownerID, taskKey)
      · cases hsame
        exact hnext phase (by simpa [LeaseSystem.setCall] using hcall)
      · exact h.calls o k phase (by simpa [LeaseSystem.setCall, Function.update_of_ne hsame] using hcall)
    exact ⟨hkeep.positive, hkeep.past, hkeep.renews⟩
  rows := fun row hrow => ⟨(h.rows row hrow).positive, (h.rows row hrow).past, (h.rows row hrow).held⟩
  stored := h.stored
  ordered := h.ordered

/-- Time passes. -/
theorem LeaseInv.tick (h : LeaseInv ttl s) (hnow : s.clock.nanos ≤ now.nanos) :
    LeaseInv ttl { s with clock := now } where
  keys := h.keys
  calls := by
    intro o k phase hcall
    have hcall := h.calls o k phase hcall
    exact ⟨hcall.positive, fun t ht => (hcall.past t ht).trans hnow, hcall.renews⟩
  rows :=
    fun row hrow => ⟨(h.rows row hrow).positive, (h.rows row hrow).past.trans hnow,
      (h.rows row hrow).held⟩
  stored := h.stored
  ordered := h.ordered

/-- A call returns true: it has written the row of its task, which it was allowed to. -/
theorem LeaseInv.grant (h : LeaseInv ttl s) (hcall : s.calls (ownerID, taskKey) = some phase)
    (hnow : phase.now = some now) (hkeys : (leases.map (·.taskKey)).Nodup)
    (hrows : ∀ row ∈ leases, (row ∈ s.leases ∧ row.taskKey ≠ taskKey) ∨
      (row.taskKey = taskKey ∧ row.ownerID = ownerID ∧ row.leaseUntil = now.add (ttl taskKey)))
    (hcover : ∀ row ∈ s.leases, ∃ row' ∈ leases, row'.taskKey = row.taskKey)
    (hstored : ∃ row ∈ leases, row.taskKey = taskKey)
    (hfollows : ∀ row ∈ s.leases, row.taskKey = taskKey → (row.lastGrant ttl).Follows (ttl taskKey)
      ⟨ownerID, now.nanos⟩) :
    LeaseInv ttl (s.grant ownerID taskKey now leases) := by
  have hcallInv := h.calls ownerID taskKey phase hcall
  have hpositive := hcallInv.positive
  -- the grant that holds before: the stored one, if any
  obtain ⟨last, hheld, hnext⟩ : ∃ last, Held (ttl taskKey) (s.acquired taskKey) last ∧
      last.Follows (ttl taskKey) ⟨ownerID, now.nanos⟩ := by
    by_cases hnone : s.acquired taskKey = []
    · refine ⟨⟨ownerID, now.nanos⟩, ?_, Grant.Follows.refl _ _⟩
      rw [hnone]
      intro g hg
      cases hg
    · obtain ⟨row, hrow, rfl⟩ := h.stored taskKey hnone
      exact ⟨_, (h.rows row hrow).held, hfollows row hrow rfl⟩
  have hnew : ∀ row ∈ leases, row.taskKey = taskKey → row.lastGrant ttl = ⟨ownerID, now.nanos⟩ := by
    intro row hrow hkey
    rcases hrows row hrow with ⟨-, hne⟩ | ⟨-, howner, huntil⟩
    · exact absurd hkey hne
    · rw [BackgroundTaskLease.lastGrant, howner, huntil, hkey, Time.add, Int.add_sub_cancel]
  constructor
  case keys => exact hkeys
  case calls =>
    intro o k phase' hcall'
    have hne : (o, k) ≠ (ownerID, taskKey) := by
      rintro ⟨⟩
      simp [LeaseSystem.grant, LeaseSystem.setCall] at hcall'
    have hkeep := h.calls o k phase'
      (by simpa [LeaseSystem.grant, LeaseSystem.setCall, Function.update_of_ne hne] using hcall')
    refine ⟨hkeep.positive, hkeep.past, ?_⟩
    intro t ht row hrow hkey howner
    rcases hrows row hrow with ⟨hmem, -⟩ | ⟨hsame, howner', -⟩
    · exact hkeep.renews t ht row hmem hkey howner
    · exact absurd (Prod.ext (howner.symm.trans howner') (hkey.symm.trans hsame)) hne
  case rows =>
    intro row hrow
    by_cases hkey : row.taskKey = taskKey
    · have hlast := hnew row hrow hkey
      refine ⟨hkey ▸ hpositive, ?_, ?_⟩
      · rw [hlast]
        exact hcallInv.past now hnow
      · rw [hlast]
        simp only [LeaseSystem.grant, hkey, Function.update_self]
        exact hheld.follows hpositive.le hnext
    · obtain ⟨hmem, -⟩ := (hrows row hrow).resolve_right fun hsame => hkey hsame.1
      have hrow := h.rows row hmem
      refine ⟨hrow.positive, hrow.past, ?_⟩
      simp only [LeaseSystem.grant, Function.update_of_ne hkey]
      exact hrow.held
  case stored =>
    intro k hk
    by_cases hkey : k = taskKey
    · rw [hkey]
      exact hstored
    · simp only [LeaseSystem.grant, Function.update_of_ne hkey] at hk
      obtain ⟨row, hrow, rfl⟩ := h.stored k hk
      exact hcover row hrow
  case ordered =>
    intro k
    by_cases hkey : k = taskKey
    · rw [hkey]
      simp only [LeaseSystem.grant, Function.update_self]
      exact (h.ordered taskKey).snoc hpositive.le hheld hnext
    · simp only [LeaseSystem.grant, Function.update_of_ne hkey]
      exact h.ordered k

/-! ### The statements -/

theorem insertLease_true {lease : BackgroundTaskLease} (h : (insertLease lease leases).2 = true) :
    (∀ row ∈ leases, row.taskKey ≠ lease.taskKey) ∧ (insertLease lease leases).1 = leases ++
    [lease] := by
  unfold insertLease at h ⊢
  split at h
  · cases h
  · rename_i hany
    rw [if_neg hany]
    refine ⟨fun row hrow hkey => hany (List.any_eq_true.2 ⟨row, hrow, decide_eq_true hkey⟩), rfl⟩

theorem insertLease_false {lease : BackgroundTaskLease} (h : (insertLease lease leases).2 ≠ true) :
    (insertLease lease leases).1 = leases := by
  unfold insertLease at h ⊢
  split at h
  · rename_i hany
    rw [if_pos hany]
  · exact absurd rfl h

section Alone
variable {d : Int} (hvalid : ¬ (taskKey = "" ∨ ownerID = "" ∨ d ≤ 0))
include hvalid

theorem acquireBackgroundTaskLease_inserted
    (h : (insertLease ⟨taskKey, ownerID, now.add d, now⟩ leases).2 = true) :
    acquireBackgroundTaskLease leases ownerID taskKey d now =
      ((insertLease ⟨taskKey, ownerID, now.add d, now⟩ leases).1, true) := by
  rw [acquireBackgroundTaskLease, if_neg hvalid]
  dsimp only
  rw [if_pos h]

theorem acquireBackgroundTaskLease_taken
    (h : (insertLease ⟨taskKey, ownerID, now.add d, now⟩ leases).2 ≠ true) :
    acquireBackgroundTaskLease leases ownerID taskKey d now =
      ((takeLease taskKey ownerID now (now.add d) leases).1,
        decide ((takeLease taskKey ownerID now (now.add d) leases).2 = 1)) := by
  rw [acquireBackgroundTaskLease, if_neg hvalid]
  dsimp only
  rw [if_neg h, insertLease_false h]

end Alone

theorem takeable_iff : takeable taskKey ownerID now row = true ↔
    row.taskKey = taskKey ∧ (row.leaseUntil.nanos ≤ now.nanos ∨ row.ownerID = ownerID) := by
  simp [takeable, Time.after]

/-- The row that the update has written. -/
theorem mem_takeLease {leaseUntil : Time}
    (h : row ∈ (takeLease taskKey ownerID now leaseUntil leases).1) :
    (row ∈ leases ∧ takeable taskKey ownerID now row = false) ∨
      ∃ old ∈ leases, takeable taskKey ownerID now old = true ∧
        row = { old with ownerID := ownerID, leaseUntil := leaseUntil, heartbeatAt := now } :=
  mem_updateWhere_cases h

theorem map_takeLease (leaseUntil : Time) :
    (takeLease taskKey ownerID now leaseUntil leases).1.map (·.taskKey) = leases.map (·.taskKey) :=
  map_updateWhere _ fun _ => rfl

/-- The row of a task after the update returned true. -/
theorem takeLease_rows (hkeys : (leases.map (·.taskKey)).Nodup) {leaseUntil : Time}
    (h : (takeLease taskKey ownerID now leaseUntil leases).2 = 1) :
    (∃ old ∈ leases, takeable taskKey ownerID now old = true) ∧
      ∀ row ∈ (takeLease taskKey ownerID now leaseUntil leases).1,
        (row ∈ leases ∧ row.taskKey ≠ taskKey) ∨
        (row.taskKey = taskKey ∧ row.ownerID = ownerID ∧ row.leaseUntil = leaseUntil) := by
  obtain ⟨old, hold, htakeable⟩ : ∃ old ∈ leases, takeable taskKey ownerID now old = true := by
    apply List.countP_pos_iff.1
    have hcount : leases.countP (takeable taskKey ownerID now) = 1 := h
    omega
  refine ⟨⟨old, hold, htakeable⟩, ?_⟩
  intro row hrow
  rcases mem_takeLease hrow with ⟨hmem, hnot⟩ | ⟨old', -, htakeable', rfl⟩
  · refine .inl ⟨hmem, fun hkey => ?_⟩
    rw [eq_of_key hkeys hmem hold (hkey.trans (takeable_iff.1 htakeable).1.symm), htakeable] at hnot
    cases hnot
  · exact .inr ⟨(takeable_iff.1 htakeable').1, rfl, rfl⟩

theorem takeLease_none (hkeys : (leases.map (·.taskKey)).Nodup) {leaseUntil : Time}
    (h : (takeLease taskKey ownerID now leaseUntil leases).2 ≠ 1) :
    (takeLease taskKey ownerID now leaseUntil leases).1 = leases := by
  apply updateWhere_of_affected_zero
  have hle : affected (takeable taskKey ownerID now) leases ≤ 1 :=
    affected_le_one hkeys fun row hrow => (takeable_iff.1 hrow).1
  have hne : affected (takeable taskKey ownerID now) leases ≠ 1 := h
  omega

/-! ### Runs -/

/-- No lease of `s` ends earlier in `t`. -/
def NoEarlierEnd (s t : LeaseSystem) : Prop :=
  ∀ row ∈ s.leases, ∃ row' ∈ t.leases, row'.taskKey = row.taskKey ∧
    row.leaseUntil.nanos ≤ row'.leaseUntil.nanos

theorem NoEarlierEnd.of_eq (h : t.leases = s.leases) : NoEarlierEnd s t :=
  fun row hrow => ⟨row, h ▸ hrow, rfl, le_rfl⟩

theorem NoEarlierEnd.trans {u : LeaseSystem} (h : NoEarlierEnd s t) (h' : NoEarlierEnd t u) :
    NoEarlierEnd s u := by
  intro row hrow
  obtain ⟨row', hrow', hkey, hle⟩ := h row hrow
  obtain ⟨row'', hrow'', hkey', hle'⟩ := h' row' hrow'
  exact ⟨row'', hrow'', hkey'.trans hkey, hle.trans hle'⟩

/-- The first grant of a task. -/
theorem LeaseInv.insert (h : LeaseInv ttl s) (hcall : s.calls (ownerID, taskKey) = some (.inserting now))
    (hinserted : (insertLease ⟨taskKey, ownerID, now.add (ttl taskKey), now⟩ s.leases).2 = true) :
    LeaseInv ttl (s.grant ownerID taskKey now
      (insertLease ⟨taskKey, ownerID, now.add (ttl taskKey), now⟩ s.leases).1) ∧
      NoEarlierEnd s (s.grant ownerID taskKey now
        (insertLease ⟨taskKey, ownerID, now.add (ttl taskKey), now⟩ s.leases).1) := by
  obtain ⟨hfresh, hleases⟩ := insertLease_true hinserted
  rw [hleases]
  constructor
  · apply h.grant hcall rfl
    · rw [List.map_append, List.nodup_append]
      refine ⟨h.keys, List.nodup_singleton _, ?_⟩
      rintro key hkey _ hnew rfl
      obtain ⟨row, hrow, hkey⟩ := List.mem_map.1 hkey
      rw [List.map_singleton, List.mem_singleton] at hnew
      exact hfresh row hrow (hkey.trans hnew)
    · intro row hrow
      rcases List.mem_append.1 hrow with hrow | hrow
      · exact .inl ⟨hrow, hfresh row hrow⟩
      · rw [List.mem_singleton.1 hrow]
        exact .inr ⟨rfl, rfl, rfl⟩
    · exact fun row hrow => ⟨row, List.mem_append_left _ hrow, rfl⟩
    · exact ⟨_, List.mem_append_right _ (List.mem_singleton_self _), rfl⟩
    · exact fun row hrow hkey => absurd hkey (hfresh row hrow)
  · exact fun row hrow => ⟨row, List.mem_append_left _ hrow, rfl, le_rfl⟩

/-- A renewal, or a grant after the last one has run out. -/
theorem LeaseInv.take (h : LeaseInv ttl s) (hcall : s.calls (ownerID, taskKey) = some (.updating now))
    (htaken : (takeLease taskKey ownerID now (now.add (ttl taskKey)) s.leases).2 = 1) :
    LeaseInv ttl (s.grant ownerID taskKey now
      (takeLease taskKey ownerID now (now.add (ttl taskKey)) s.leases).1) ∧
      NoEarlierEnd s (s.grant ownerID taskKey now
        (takeLease taskKey ownerID now (now.add (ttl taskKey)) s.leases).1) := by
  obtain ⟨⟨old, hold, htakeable⟩, hrows⟩ := takeLease_rows h.keys htaken
  obtain ⟨hkey, hfree⟩ := takeable_iff.1 htakeable
  have hmap : (takeLease taskKey ownerID now (now.add (ttl taskKey)) s.leases).1.map
      (·.taskKey) = s.leases.map (·.taskKey) :=
    map_takeLease _
  have hcallInv := h.calls ownerID taskKey _ hcall
  have hpositive := hcallInv.positive
  have hcover : ∀ row ∈ s.leases,
      ∃ row' ∈ (takeLease taskKey ownerID now (now.add (ttl taskKey)) s.leases).1,
      row'.taskKey = row.taskKey := by
    intro row hrow
    have hmem := List.mem_map_of_mem (f := (·.taskKey)) hrow
    rw [← hmap] at hmem
    exact List.mem_map.1 hmem
  -- the owner reads the clock after the grant it renews
  have hfollows : (old.lastGrant ttl).Follows (ttl taskKey) ⟨ownerID, now.nanos⟩ := by
    rcases hfree with hexpired | howner
    · left
      rw [BackgroundTaskLease.lastGrant, hkey]
      dsimp only
      omega
    · exact .inr ⟨howner, hcallInv.renews now rfl old hold hkey howner⟩
  have honly : ∀ row ∈ s.leases, row.taskKey = taskKey → row = old := fun row hrow hsame =>
    eq_of_key h.keys hrow hold (hsame.trans hkey.symm)
  constructor
  · apply h.grant hcall rfl
    · rw [hmap]
      exact h.keys
    · exact hrows
    · exact hcover
    · obtain ⟨row', hrow', hsame⟩ := hcover old hold
      exact ⟨row', hrow', hsame.trans hkey⟩
    · intro row hrow hsame
      rw [honly row hrow hsame]
      exact hfollows
  · intro row hrow
    obtain ⟨row', hrow', hsame⟩ := hcover row hrow
    refine ⟨row', hrow', hsame, ?_⟩
    rcases hrows row' hrow' with ⟨hmem, -⟩ | ⟨hkey', -, huntil⟩
    · rw [eq_of_key h.keys hmem hrow hsame]
    · have hle := hfollows.le hpositive.le
      rw [honly row hrow (hsame.symm.trans hkey'), huntil, Time.add]
      rw [BackgroundTaskLease.lastGrant, hkey] at hle
      dsimp only at hle ⊢
      omega

theorem LeaseInv.step (e : LeaseEvent) (h : LeaseInv ttl s) (hstep : s.step ttl e = some t) :
    LeaseInv ttl t ∧ NoEarlierEnd s t := by
  cases e with
  | call ownerID taskKey =>
    simp only [LeaseSystem.step] at hstep
    split at hstep
    · cases hstep
    · obtain rfl := Option.some.inj hstep
      split
      · exact ⟨h, .of_eq rfl⟩
      · rename_i hvalid
        push Not at hvalid
        refine ⟨h.setCall ?_, .of_eq rfl⟩
        rintro phase ⟨⟩
        refine ⟨hvalid.2.2, ?_, ?_⟩ <;> exact fun now hnow => by cases hnow
  | readClock ownerID taskKey now =>
    simp only [LeaseSystem.step] at hstep
    split at hstep
    · rename_i hcall
      split at hstep
      · cases hstep
      · rename_i hclock
        obtain rfl := Option.some.inj hstep
        have hle : s.clock.nanos ≤ now.nanos := by simpa [Time.before] using hclock
        -- the reading is of this instant: no row was written after it
        refine ⟨(h.tick hle).setCall ?_, .of_eq rfl⟩
        rintro phase ⟨⟩
        refine ⟨(h.calls ownerID taskKey _ hcall).positive, ?_, ?_⟩
        · rintro _ ⟨⟩
          exact le_rfl
        · rintro _ ⟨⟩ row hrow - -
          exact (h.rows row hrow).past.trans hle
    · cases hstep
  | insert ownerID taskKey fails =>
    simp only [LeaseSystem.step] at hstep
    split at hstep
    · rename_i now hcall
      obtain rfl := Option.some.inj hstep
      have hkeep := h.calls ownerID taskKey _ hcall
      split
      · exact ⟨h.setCall (by rintro _ ⟨⟩), .of_eq rfl⟩
      · split
        · rename_i hinserted
          exact h.insert hcall hinserted
        · refine ⟨h.setCall ?_, .of_eq rfl⟩
          rintro phase ⟨⟩
          exact ⟨hkeep.positive, hkeep.past, hkeep.renews⟩
    · cases hstep
  | update ownerID taskKey fails =>
    simp only [LeaseSystem.step] at hstep
    split at hstep
    · rename_i now hcall
      obtain rfl := Option.some.inj hstep
      split
      · exact ⟨h.setCall (by rintro _ ⟨⟩), .of_eq rfl⟩
      · split
        · rename_i htaken
          exact h.take hcall htaken
        · rename_i htaken
          -- the UPDATE matched no row: another owner holds the lease
          rw [takeLease_none h.keys htaken]
          exact ⟨h.setCall (by rintro _ ⟨⟩), .of_eq rfl⟩
    · cases hstep

/-! ### What a step leaves alone -/

theorem setCall_calls {o k : String} {next : Option LeasePhase}
    (h : (s.setCall ownerID taskKey next).calls (o, k) ≠ none) :
    s.calls (o, k) ≠ none ∨ ((o, k) = (ownerID, taskKey) ∧ next ≠ none) := by
  by_cases hsame : (o, k) = (ownerID, taskKey)
  · simp only [LeaseSystem.setCall, hsame, Function.update_self] at h
    exact .inr ⟨hsame, h⟩
  · simp only [LeaseSystem.setCall, Function.update_of_ne hsame] at h
    exact .inl h

/-- The clock does not go back, and only `call` begins a call. -/
theorem LeaseSystem.step_frame (e : LeaseEvent) (hstep : s.step ttl e = some t) :
    s.clock.nanos ≤ t.clock.nanos ∧ ∀ o k, t.calls (o, k) ≠ none → s.calls (o, k) ≠ none ∨
    e = .call o k := by
  cases e with
  | call ownerID taskKey =>
    simp only [LeaseSystem.step] at hstep
    split at hstep
    · cases hstep
    · obtain rfl := Option.some.inj hstep
      split
      · exact ⟨le_rfl, fun _ _ => .inl⟩
      · refine ⟨le_rfl, fun o k h => (setCall_calls h).imp_right ?_⟩
        rintro ⟨hsame, -⟩
        cases hsame
        rfl
  | readClock ownerID taskKey now =>
    simp only [LeaseSystem.step] at hstep
    split at hstep
    · rename_i hcall
      split at hstep
      · cases hstep
      · rename_i hclock
        obtain rfl := Option.some.inj hstep
        have hle : s.clock.nanos ≤ now.nanos := by simpa [Time.before] using hclock
        refine ⟨hle, fun o k h => .inl ?_⟩
        rcases setCall_calls h with h | ⟨hsame, -⟩
        · exact h
        · rw [hsame, hcall]
          exact Option.some_ne_none _
    · cases hstep
  | insert ownerID taskKey fails =>
    simp only [LeaseSystem.step] at hstep
    split at hstep
    · rename_i hcall
      have hkeep : ∀ {next : Option LeasePhase} {o k : String},
          (s.setCall ownerID taskKey next).calls (o, k) ≠ none →
          s.calls (o, k) ≠ none := by
        intro next o k h
        rcases setCall_calls h with h | ⟨hsame, -⟩
        · exact h
        · rw [hsame, hcall]
          exact Option.some_ne_none _
      obtain rfl := Option.some.inj hstep
      split
      · exact ⟨le_rfl, fun o k h => .inl (hkeep h)⟩
      · split
        · exact ⟨le_rfl, fun o k h => .inl (@hkeep none o k h)⟩
        · exact ⟨le_rfl, fun o k h => .inl (hkeep h)⟩
    · cases hstep
  | update ownerID taskKey fails =>
    simp only [LeaseSystem.step] at hstep
    split at hstep
    · rename_i hcall
      have hkeep : ∀ {o k : String}, (s.setCall ownerID taskKey none).calls (o, k) ≠ none →
          s.calls (o, k) ≠ none := by
        intro o k h
        -- the call returns here, taken or not
        exact (setCall_calls h).resolve_right fun hnone => hnone.2 rfl
      obtain rfl := Option.some.inj hstep
      split
      · exact ⟨le_rfl, fun o k h => .inl (hkeep h)⟩
      · split
        · exact ⟨le_rfl, fun o k h => .inl (hkeep h)⟩
        · exact ⟨le_rfl, fun o k h => .inl (hkeep h)⟩
    · cases hstep

/-- The history of a task grows by the reading of a call that returns. -/
theorem LeaseSystem.step_acquired (e : LeaseEvent) (hstep : s.step ttl e = some t) (k : String) :
    t.acquired k = s.acquired k ∨ ∃ o phase now, s.calls (o, k) = some phase ∧
    phase.now = some now ∧ t.calls (o, k) = none ∧
      t.acquired k = s.acquired k ++ [⟨o, now.nanos⟩] := by
  have hgrant : ∀ {ownerID taskKey : String} {phase : LeasePhase} {now : Time}
      (leases : List BackgroundTaskLease),
      s.calls (ownerID, taskKey) = some phase → phase.now = some now →
      (s.grant ownerID taskKey now leases).acquired k = s.acquired k ∨ ∃ o phase now',
        s.calls (o, k) = some phase ∧
        phase.now = some now' ∧ (s.grant ownerID taskKey now leases).calls (o, k) = none ∧
        (s.grant ownerID taskKey now leases).acquired k = s.acquired k ++ [⟨o, now'.nanos⟩] := by
    intro ownerID taskKey phase now leases hcall hnow
    by_cases hkey : k = taskKey
    · subst hkey
      exact .inr ⟨ownerID, phase, now, hcall, hnow,
        by simp [LeaseSystem.grant, LeaseSystem.setCall], by simp [LeaseSystem.grant]⟩
    · exact .inl (by simp [LeaseSystem.grant, Function.update_of_ne hkey])
  cases e with
  | call ownerID taskKey =>
    simp only [LeaseSystem.step] at hstep
    split at hstep
    · cases hstep
    · obtain rfl := Option.some.inj hstep
      split <;> exact .inl rfl
  | readClock ownerID taskKey now =>
    simp only [LeaseSystem.step] at hstep
    split at hstep
    · split at hstep
      · cases hstep
      · obtain rfl := Option.some.inj hstep
        exact .inl rfl
    · cases hstep
  | insert ownerID taskKey fails =>
    simp only [LeaseSystem.step] at hstep
    split at hstep
    · rename_i hcall
      obtain rfl := Option.some.inj hstep
      split
      · exact .inl rfl
      · split
        · exact hgrant _ hcall rfl
        · exact .inl rfl
    · cases hstep
  | update ownerID taskKey fails =>
    simp only [LeaseSystem.step] at hstep
    split at hstep
    · rename_i hcall
      obtain rfl := Option.some.inj hstep
      split
      · exact .inl rfl
      · split
        · exact hgrant _ hcall rfl
        · exact .inl rfl
    · cases hstep

/-- However the calls overlap, no lease's end moves back, and while the lease of a task that
an owner was granted runs, no other owner's call for the task returns true. -/
theorem acquireBackgroundTaskLease_excludes (ttl : String → Int) (clock : Time) (s t : LeaseSystem)
    (hs : Path (LeaseSystem.step ttl) Runs.Always (.initial clock) s)
    (ht : Path (LeaseSystem.step ttl) Runs.Always s t) :
    (∀ row ∈ s.leases, ∃ row' ∈ t.leases, row'.taskKey = row.taskKey ∧
      row.leaseUntil.nanos ≤ row'.leaseUntil.nanos) ∧
      ∀ taskKey, ∀ a ∈ t.acquired taskKey, ∀ b ∈ t.acquired taskKey, a.owner ≠ b.owner →
        ¬ (a.time ≤ b.time ∧ b.time < a.time + ttl taskKey) := by
  have hkeep : ∀ t e u, LeaseInv ttl t → Runs.Always t e → t.step ttl e = some u → LeaseInv ttl u :=
    fun _ e _ h _ hstep => (h.step e hstep).1
  have hinv := hs.invariant (LeaseInv ttl) hkeep (.initial clock)
  have hinv' := ht.invariant (LeaseInv ttl) hkeep hinv
  constructor
  · exact ht.relates (LeaseInv ttl) NoEarlierEnd (fun _ => .of_eq rfl) (fun _ _ _ => .trans)
      (fun _ e _ h _ hstep => h.step e hstep)
      hinv
  · intro taskKey a ha b hb howner
    obtain ⟨row, hrow, rfl⟩ := hinv'.stored taskKey (List.ne_nil_of_mem ha)
    exact (hinv'.ordered row.taskKey).excludes (hinv'.rows row hrow).positive ha hb howner

/-- A run in which `owner-b` reads the clock before and after the lease of `owner-a` ends. -/
def sampleLeaseEvents : List LeaseEvent :=
  [.call "owner-a" "notification_scan", .call "owner-b" "notification_scan",
   .readClock "owner-a" "notification_scan" ⟨10, 0⟩, .readClock "owner-b" "notification_scan" ⟨12, 0⟩,
   .insert "owner-a" "notification_scan" false, .insert "owner-b" "notification_scan" false,
   .update "owner-b" "notification_scan" false, .call "owner-b" "notification_scan",
   .readClock "owner-b" "notification_scan" ⟨15, 0⟩, .insert "owner-b" "notification_scan" false,
   .update "owner-b" "notification_scan" false]

theorem acquireBackgroundTaskLease_excludes_sample :
    ∃ t : LeaseSystem, t.acquired "notification_scan" = [⟨"owner-a", 10⟩, ⟨"owner-b", 15⟩] ∧
      ∀ a ∈ t.acquired "notification_scan", ∀ b ∈ t.acquired "notification_scan", a.owner ≠ b.owner →
        ¬ (a.time ≤ b.time ∧ b.time < a.time + 5) := by
  have hrun : (exec (LeaseSystem.step fun _ => 5) Runs.Always (.initial ⟨0, 0⟩) sampleLeaseEvents).any
      (fun t => t.acquired "notification_scan" = [⟨"owner-a", 10⟩, ⟨"owner-b", 15⟩]) = true := by
    decide +kernel
  obtain ⟨t, ht, hacquired⟩ := (Option.any_eq_true _ _).1 hrun
  exact ⟨t, of_decide_eq_true hacquired,
    (acquireBackgroundTaskLease_excludes (fun _ => 5) ⟨0, 0⟩ _ t .refl (Path.of_exec ht)).2
      "notification_scan"⟩

/-! ## A call that nobody overlaps -/

/-- The step grants no lease. -/
def LeaseSystem.Quiet (ttl : String → Int) (s : LeaseSystem) (e : LeaseEvent) : Prop :=
  ∀ t ∈ s.step ttl e, t.acquired = s.acquired

theorem LeaseSystem.Quiet.snoc {u : LeaseSystem} {e : LeaseEvent}
    (h : Path (LeaseSystem.step ttl) (LeaseSystem.Quiet ttl) s t) (hstep : t.step ttl e = some u)
    (hacquired : u.acquired = t.acquired) :
    Path (LeaseSystem.step ttl) (LeaseSystem.Quiet ttl) s u := by
  refine h.snoc e ?_ hstep
  intro u' hu'
  rw [hstep] at hu'
  cases hu'
  exact hacquired

section Undisturbed
variable (hcall : s.calls (ownerID, taskKey) = none) (hnow : s.clock.nanos ≤ now.nanos)
  (hvalid : ¬ (taskKey = "" ∨ ownerID = "" ∨ ttl taskKey ≤ 0))
include hcall hnow hvalid

/-- The call up to its reading of the clock. -/
theorem acquireBackgroundTaskLease_reads :
    ∃ t, Path (LeaseSystem.step ttl) (LeaseSystem.Quiet ttl) s t ∧ t.leases = s.leases ∧
    t.acquired = s.acquired ∧ t.calls (ownerID, taskKey) = some (.inserting now) ∧ t.clock = now := by
  have hclock : now.before s.clock = false := by simpa [Time.before] using hnow
  have hcalled : s.step ttl (.call ownerID taskKey) = some
      (s.setCall ownerID taskKey (some .reading)) := by
    simp [LeaseSystem.step, hcall, hvalid]
  have hread : (s.setCall ownerID taskKey (some .reading)).step ttl (.readClock ownerID taskKey now) =
      some ({ s.setCall ownerID taskKey (some .reading) with clock := now }.setCall ownerID taskKey
        (some (.inserting now))) := by
    simp [LeaseSystem.step, LeaseSystem.setCall, hclock]
  refine ⟨_, LeaseSystem.Quiet.snoc (LeaseSystem.Quiet.snoc .refl hcalled rfl) hread rfl, rfl, rfl,
    ?_, rfl⟩
  simp [LeaseSystem.setCall]

/-- The call that returns true: its last step is the grant. -/
theorem acquireBackgroundTaskLease_grants
    (h : (acquireBackgroundTaskLease s.leases ownerID taskKey (ttl taskKey) now).2 = true) :
    ∃ t e u, Path (LeaseSystem.step ttl) (LeaseSystem.Quiet ttl) s t ∧ t.acquired = s.acquired ∧
    t.step ttl e = some u ∧
      (∀ o k, e ≠ .call o k) ∧ u.clock = now ∧
        u.leases = (acquireBackgroundTaskLease s.leases ownerID taskKey (ttl taskKey) now).1 ∧
      u.acquired taskKey = s.acquired taskKey ++ [⟨ownerID, now.nanos⟩] := by
  obtain ⟨t, ht, hleases, hacquired, hphase, hclock⟩ :=
    acquireBackgroundTaskLease_reads hcall hnow hvalid
  rw [← hleases] at h ⊢
  rw [← hacquired]
  by_cases hinserted : (insertLease ⟨taskKey, ownerID, now.add (ttl taskKey), now⟩ t.leases).2 = true
  · rw [acquireBackgroundTaskLease_inserted hvalid hinserted]
    refine ⟨t, .insert ownerID taskKey false, _, ht, rfl,
      by simp [LeaseSystem.step, hphase, hinserted]; rfl, by simp, ?_, ?_, ?_⟩
    · exact hclock
    · rfl
    · simp [LeaseSystem.grant]
  · rw [acquireBackgroundTaskLease_taken hvalid hinserted] at h ⊢
    have htaken := of_decide_eq_true h
    have hinsert : t.step ttl (.insert ownerID taskKey false) = some
        (t.setCall ownerID taskKey (some (.updating now))) := by
      simp [LeaseSystem.step, hphase, hinserted]
    refine ⟨_, .update ownerID taskKey false, _, LeaseSystem.Quiet.snoc ht hinsert rfl, rfl,
      by simp [LeaseSystem.step, LeaseSystem.setCall, htaken]; rfl, by simp, ?_, ?_, ?_⟩
    · exact hclock
    · rfl
    · simp [LeaseSystem.grant, LeaseSystem.setCall]

end Undisturbed

/-- A call that nobody overlaps is `acquireBackgroundTaskLease`. -/
theorem acquireBackgroundTaskLease_alone (hcall : s.calls (ownerID, taskKey) = none)
    (hnow : s.clock.nanos ≤ now.nanos) :
    ∃ t, Path (LeaseSystem.step ttl) Runs.Always s t ∧
      t.leases = (acquireBackgroundTaskLease s.leases ownerID taskKey (ttl taskKey) now).1 ∧
      t.acquired taskKey = s.acquired taskKey ++
        if (acquireBackgroundTaskLease s.leases ownerID taskKey (ttl taskKey) now).2
          then [⟨ownerID, now.nanos⟩] else [] := by
  by_cases hrefused : taskKey = "" ∨ ownerID = "" ∨ ttl taskKey ≤ 0
  · refine ⟨s, .refl, ?_⟩
    simp [acquireBackgroundTaskLease, hrefused]
  · have halways : ∀ {t}, Path (LeaseSystem.step ttl) (LeaseSystem.Quiet ttl) s t →
        Path (LeaseSystem.step ttl) Runs.Always s t :=
      fun h => h.weaken (fun _ => True) (fun _ _ _ _ _ _ => trivial) (fun _ _ _ _ => trivial) trivial
    by_cases hgranted : (acquireBackgroundTaskLease s.leases ownerID taskKey (ttl taskKey) now).2 = true
    · obtain ⟨t, e, u, ht, -, hstep, -, -, hleases, hacquired⟩ :=
        acquireBackgroundTaskLease_grants hcall hnow hrefused hgranted
      refine ⟨u, (halways ht).snoc e trivial hstep, hleases, ?_⟩
      rw [hacquired, if_pos hgranted]
    · obtain ⟨t, ht, hleases, hacquired, hphase, -⟩ :=
        acquireBackgroundTaskLease_reads hcall hnow hrefused
      rw [← hleases] at hgranted ⊢
      rw [← hacquired, if_neg hgranted, List.append_nil]
      by_cases hinserted : (insertLease ⟨taskKey, ownerID, now.add (ttl taskKey), now⟩ t.leases).2 = true
      · exact absurd (by rw [acquireBackgroundTaskLease_inserted hrefused hinserted]) hgranted
      · rw [acquireBackgroundTaskLease_taken hrefused hinserted] at hgranted ⊢
        have hnone : (takeLease taskKey ownerID now (now.add (ttl taskKey)) t.leases).2 ≠ 1 :=
          fun h => hgranted (decide_eq_true h)
        have hinsert : t.step ttl (.insert ownerID taskKey false) = some
            (t.setCall ownerID taskKey (some (.updating now))) := by
          simp [LeaseSystem.step, hphase, hinserted]
        have hupdate : (t.setCall ownerID taskKey (some (.updating now))).step ttl
            (.update ownerID taskKey false) =
            some ({ t.setCall ownerID taskKey (some (.updating now)) with
              leases := (takeLease taskKey ownerID now (now.add (ttl taskKey)) t.leases).1 }.setCall
                ownerID taskKey none) := by
          simp [LeaseSystem.step, LeaseSystem.setCall, hnone]
        exact ⟨_, ((halways ht).snoc _ trivial hinsert).snoc _ trivial hupdate, rfl, rfl⟩

end Invariant

end Subdux
