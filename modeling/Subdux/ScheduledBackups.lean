import Subdux.BackupSchedule
import Subdux.TaskLeases
/-!
# Scheduled backups

`RunScheduledBackup` and `CreateLocalBackup` of `internal/service/backup.go`. Several
processes share the database; a tick of one asks for the lease of the task, and each
statement of its run is a step, so ticks overlap (`BackupSystem`). Each step of the run may
fail. A process makes its ticks one after another. The configuration and the directory
stay the same.

While no run outlasts its lease, at most one is under way (`BackupSystemInv.alone`).
-/

namespace Subdux
open Leases
open Runs (Path exec)

def backupTaskKey : String := "scheduled_backup"
def backupLeaseTTL : Int := 30 * 60 * nsPerSecond

/-- The lease of every background task runs for half an hour. -/
def backgroundTaskTTL (_ : String) : Int := backupLeaseTTL

/-- `backupRuntimeConfig`, with the fields that decide about a run. -/
structure BackupConfig where
  scheduleEnabled : Bool
  timeOfDay : String
  encryptEnabled : Bool
  encryptPassword : String
  retentionCount : Int

/-- The settings that a run writes, and the backup directory. -/
structure BackupStore where
  lastRunAt : Option Timestamp
  lastStatus : String
  lastError : String
  files : List BackupFile
  deriving DecidableEq

/-! ## One run -/

/-- What a run does next. -/
inductive BackupPhase where
  | configuring
  | deciding
  | reading (now : Time)
  | creating (now : Time)
  | writing (now : Time) (name : String)
  | retaining (now : Time)
  | recording (now : Time) (err : Option String)
  deriving DecidableEq

/-- What a failed write leaves: `os.Create` failed; the file was removed; or that failed as well. -/
inductive PartialArchive where
  | never
  | removed
  | left

/-- The steps of a run, with what they meet. -/
inductive TickEvent where
  | loadConfig (fails : Bool)
  | readClock (now : Time)
  | readLastRun (fails : Bool)
  /-- `CreateLocalBackup` up to `VACUUM INTO`, with the error of a step before it or its own. -/
  | create (stamp : Time) (token : String) (fault : Option String)
  /-- `writeBackupZipFromDB`. -/
  | write (modTime : Int) (fault : Option (String × PartialArchive))
  | retain (r : Retention)
  | record

def errBackupEncryptionPasswordRequired : String :=
  "encryption password is required when backup encryption is enabled"

def recordBackupRunSuccess (store : BackupStore) (runAt : Time) : BackupStore :=
  { store with lastRunAt := some runAt.formatRFC3339, lastStatus := "success", lastError := "" }

def recordBackupRunFailure (store : BackupStore) (runErr : String) : BackupStore :=
  { store with lastStatus := "failed", lastError := runErr }

/-- The directory after the write, and the error. -/
def writeArchive (files : List BackupFile) (name : String) (modTime day : Int) :
    Option (String × PartialArchive) → List BackupFile × Option String
  | none => (files.filter (·.name ≠ name) ++ [⟨name, false, modTime, some day⟩], none)
  | some (err, .never) => (files, some err)
  | some (err, .removed) => (files.filter (·.name ≠ name), some err)
  | some (err, .left) => (files.filter (·.name ≠ name) ++ [⟨name, false, modTime, some day⟩], some err)

/-- One step of a run: the clock, what is stored, and the rest of the run. -/
def runStep (cfg : BackupConfig) (loc : Location) (clock : Time) (store : BackupStore) :
    BackupPhase → TickEvent → Option (Time × BackupStore × Option BackupPhase)
  | .configuring, .loadConfig fails =>
    some (clock, store, if fails || !cfg.scheduleEnabled then none else some .deciding)
  | .deciding, .readClock now =>
    if now.before clock then none else some (now, store, some (.reading (now.inLoc loc)))
  | .reading now, .readLastRun fails =>
    some (clock, store,
      if !fails && backupDue now cfg.timeOfDay (parseBackupLastRunAt store.lastRunAt) loc
        then some (.creating now) else none)
  | .creating now, .create stamp token fault =>
    if stamp.before clock then none
    else
      let next : BackupPhase := match fault with
        | some err => .recording now (some err)
        | none =>
          if cfg.encryptEnabled && cfg.encryptPassword = "" then
            .recording now (some errBackupEncryptionPasswordRequired)
          else .writing now (backupArchiveName stamp token)
      some (stamp, store, some next)
  | .writing now name, .write modTime fault =>
    let written := writeArchive store.files name modTime now.day fault
    some (clock, { store with files := written.1 },
      some (match written.2 with | none => .retaining now | some err => .recording now (some err)))
  | .retaining now, .retain r =>
    (applyLocalBackupRetention cfg.retentionCount store.files r).map fun retained =>
      (clock, { store with files := retained.1 }, some (.recording now retained.2))
  | .recording now err, .record =>
    some (clock,
      match err with
      | none => recordBackupRunSuccess store now
      | some err => recordBackupRunFailure store err, none)
  | _, _ => none

/-! ## Runs that overlap -/

/-- A run, under the lease granted at `granted`. -/
structure BackupRun where
  granted : Int
  phase : BackupPhase
  deriving DecidableEq

structure BackupSystem where
  lease : LeaseSystem
  /-- The run of an owner. -/
  runs : String → Option BackupRun
  store : BackupStore

def BackupSystem.initial (clock : Time) (store : BackupStore) : BackupSystem :=
  ⟨.initial clock, fun _ => none, store⟩

inductive BackupEvent where
  | lease (e : LeaseEvent)
  | tick (ownerID : String) (e : TickEvent)

/-- The call of a new tick, while the owner's last one is under way. -/
def overlapsOwn (runs : String → Option BackupRun) : LeaseEvent → Bool
  | .call ownerID taskKey => taskKey = backupTaskKey && (runs ownerID).isSome
  | _ => false

/-- Whoever is granted the lease runs. -/
def startRun (before after : LeaseSystem) (runs : String → Option BackupRun) :
    String → Option BackupRun :=
  match (after.acquired backupTaskKey).drop (before.acquired backupTaskKey).length with
  | g :: _ => Function.update runs g.owner (some ⟨g.time, .configuring⟩)
  | [] => runs

namespace BackupSystem

def step (cfg : BackupConfig) (loc : Location) (s : BackupSystem) : BackupEvent → Option BackupSystem
  | .lease e =>
    if overlapsOwn s.runs e then none
    else (s.lease.step backgroundTaskTTL e).map fun lease =>
      { s with lease := lease, runs := startRun s.lease lease s.runs }
  | .tick ownerID e =>
    match s.runs ownerID with
    | none => none
    | some run =>
      (runStep cfg loc s.lease.clock s.store run.phase e).map fun (clock, store, next) =>
        { lease := { s.lease with clock := clock },
          runs := Function.update s.runs ownerID (next.map (⟨run.granted, ·⟩)),
          store := store }

/-- Every run is shorter than the lease it began under. -/
def Within (s : BackupSystem) : Prop :=
  ∀ g ∈ s.lease.acquired backupTaskKey, ∀ run ∈ s.runs g.owner, run.granted = g.time →
    s.lease.clock.nanos < g.time + backupLeaseTTL

instance (s : BackupSystem) : Decidable s.Within := by
  unfold Within
  infer_instance

end BackupSystem

/-- After the event, no run has outlasted its lease. -/
def RunsInTime (cfg : BackupConfig) (loc : Location) (s : BackupSystem) (e : BackupEvent) : Prop :=
  ∀ t ∈ s.step cfg loc e, t.Within

/-- What keeps a written archive from its record: a failure of the retention, a partial file that
stays, a time that does not read back. -/
def TickEvent.Completes (loc : Location) : TickEvent → Prop
  | .readClock now => ReadsBack loc now
  | .write _ (some (_, .left)) => False
  | .retain (.unlisted _) => False
  | .retain (.listed _ _ (some _)) => False
  | _ => True

/-- The step leaves no archive. -/
def TickEvent.LeavesNothing : TickEvent → Prop
  | .write _ none => False
  | .write _ (some (_, .left)) => False
  | _ => True

def BackupEvent.Completes (loc : Location) : BackupEvent → Prop
  | .lease _ => True
  | .tick _ e => e.Completes loc

def BackupEvent.LeavesNothing : BackupEvent → Prop
  | .lease _ => True
  | .tick _ e => e.LeavesNothing

instance (cfg : BackupConfig) (loc : Location) (s : BackupSystem) (e : BackupEvent) :
    Decidable (RunsInTime cfg loc s e) := by
  unfold RunsInTime
  infer_instance

instance (loc : Location) (e : TickEvent) : Decidable (e.Completes loc) := by
  unfold TickEvent.Completes
  split <;> infer_instance

instance (e : TickEvent) : Decidable e.LeavesNothing := by
  unfold TickEvent.LeavesNothing
  split <;> infer_instance

instance (e : BackupEvent) : Decidable e.LeavesNothing := by
  cases e <;> unfold BackupEvent.LeavesNothing <;> infer_instance

instance (loc : Location) (e : BackupEvent) : Decidable (e.Completes loc) := by
  cases e <;> unfold BackupEvent.Completes <;> infer_instance

section Runs
variable {cfg : BackupConfig} {loc : Location} {clock clock' : Time} {store store' : BackupStore}
  {phase p : BackupPhase}
  {next : Option BackupPhase} {e : TickEvent} {s t u : BackupSystem} {ownerID : String} {run : BackupRun}

/-! ## One run -/

/-- The run's reading of the clock, in the location. -/
def BackupPhase.now : BackupPhase → Option Time
  | .configuring | .deciding => none
  | .reading now | .creating now | .writing now _ | .retaining now | .recording now _ => some now

/-- The reading of a run that found a backup due and has recorded nothing, unless it failed. -/
def BackupPhase.due : BackupPhase → Option Time
  | .creating now | .writing now _ | .retaining now | .recording now none => some now
  | _ => none

/-- The day of the archive that the run has written and not recorded. -/
def BackupPhase.written : BackupPhase → Option Int
  | .retaining now | .recording now none => some now.day
  | _ => none

/-- What a run knows: the schedule is enabled, the clock is past its reading, and the backup is due. -/
structure PhaseInv (cfg : BackupConfig) (loc : Location) (clock : Time) (store : BackupStore)
    (phase : BackupPhase) : Prop where
  enabled : phase ≠ .configuring → cfg.scheduleEnabled = true
  here : ∀ now, phase.now = some now → now.inLoc loc = now ∧ now.nanos ≤ clock.nanos
  due : ∀ now, phase.due = some now → backupDue now cfg.timeOfDay
    (parseBackupLastRunAt store.lastRunAt) loc = true

theorem PhaseInv.configuring : PhaseInv cfg loc clock store .configuring := by
  refine ⟨fun h => absurd rfl h, ?_, ?_⟩ <;> exact fun _ h => by cases h

theorem PhaseInv.later (h : PhaseInv cfg loc clock store phase) (hle : clock.nanos ≤ clock'.nanos) :
    PhaseInv cfg loc clock' store phase :=
  ⟨h.enabled, fun now hnow => ⟨(h.here now hnow).1, (h.here now hnow).2.trans hle⟩, h.due⟩

/-- The next phase of a run that goes on with its reading, while the last run stays as recorded. -/
theorem PhaseInv.goesOn (h : PhaseInv cfg loc clock store phase) (henabled : phase ≠ .configuring)
    (hle : clock.nanos ≤ clock'.nanos) (hnow : p.now = phase.now)
    (hdue : ∀ now, p.due = some now → phase.due = some now)
    (hlast : store'.lastRunAt = store.lastRunAt) : PhaseInv cfg loc clock' store' p := by
  refine ⟨fun _ => h.enabled henabled, ?_, ?_⟩
  · rw [hnow]
    exact (h.later hle).here
  · rw [hlast]
    exact fun now hp => h.due now (hdue now hp)

/-- What a step of a run keeps: a run that finds a backup due goes on to make it. -/
theorem PhaseInv.step (h : PhaseInv cfg loc clock store phase)
    (hstep : runStep cfg loc clock store phase e = some (clock', store', next)) :
    clock.nanos ≤ clock'.nanos ∧ ∀ p, next = some p → PhaseInv cfg loc clock' store' p := by
  unfold runStep at hstep
  split at hstep
  · -- loading the configuration
    rename_i fails
    cases hstep
    refine ⟨le_rfl, fun p hp => ?_⟩
    split at hp
    · cases hp
    · rename_i hgo
      cases hp
      refine ⟨fun _ => by simp_all, ?_, ?_⟩ <;> exact fun _ h => by cases h
  · -- reading the clock
    rename_i now
    split at hstep
    · cases hstep
    · rename_i hclock
      cases hstep
      have hle : clock.nanos ≤ clock'.nanos := by simpa [Time.before] using hclock
      refine ⟨hle, ?_⟩
      rintro p ⟨⟩
      refine ⟨fun _ => h.enabled (by simp), ?_, fun _ h => by cases h⟩
      rintro _ ⟨⟩
      exact ⟨rfl, le_rfl⟩
  · -- reading the last run
    rename_i now fails
    cases hstep
    refine ⟨le_rfl, fun p hp => ?_⟩
    split at hp
    · rename_i hdue
      cases hp
      refine ⟨fun _ => h.enabled (by simp), h.here, ?_⟩
      rintro _ ⟨⟩
      -- the schedule asks for a backup: what `due` says of this reading
      simp only [Bool.and_eq_true] at hdue
      exact hdue.2
    · cases hp
  · -- up to `VACUUM INTO`
    rename_i now stamp token fault
    split at hstep
    · cases hstep
    · rename_i hclock
      cases hstep
      have hle : clock.nanos ≤ clock'.nanos := by simpa [Time.before] using hclock
      refine ⟨hle, ?_⟩
      rintro p ⟨⟩
      cases fault with
      | some err => exact h.goesOn (by simp) hle rfl (fun _ hp => by cases hp) rfl
      | none =>
        dsimp only
        split
        · exact h.goesOn (by simp) hle rfl (fun _ hp => by cases hp) rfl
        · exact h.goesOn (by simp) hle rfl (fun _ hp => hp) rfl
  · -- the write
    rename_i now name modTime fault
    cases hstep
    refine ⟨le_rfl, ?_⟩
    rintro p ⟨⟩
    split
    · exact h.goesOn (by simp) le_rfl rfl (fun _ hp => hp) rfl
    · exact h.goesOn (by simp) le_rfl rfl (fun _ hp => by cases hp) rfl
  · -- the retention
    rename_i now r
    obtain ⟨retained, -, heq⟩ := Option.map_eq_some_iff.1 hstep
    cases heq
    refine ⟨le_rfl, ?_⟩
    rintro p ⟨⟩
    refine h.goesOn (by simp) le_rfl rfl (fun _ hp => ?_) rfl
    cases herr : retained.2 with
    | none => simpa [BackupPhase.due, herr] using hp
    | some err => simp [BackupPhase.due, herr] at hp
  · -- the record
    cases hstep
    exact ⟨le_rfl, fun _ hp => by cases hp⟩
  · cases hstep

/-! ## At most one run at a time -/

structure BackupSystemInv (cfg : BackupConfig) (loc : Location) (s : BackupSystem) : Prop where
  lease : LeaseInv backgroundTaskTTL s.lease
  idle : ∀ o, s.lease.calls (o, backupTaskKey) ≠ none → s.runs o = none
  granted : ∀ o run, s.runs o = some run → ⟨o, run.granted⟩ ∈ s.lease.acquired backupTaskKey
  alone : ∀ o o' run run', s.runs o = some run → s.runs o' = some run' → o = o'
  phases : ∀ o run, s.runs o = some run → PhaseInv cfg loc s.lease.clock s.store run.phase

theorem BackupSystemInv.initial (clock : Time) (store : BackupStore) :
    BackupSystemInv cfg loc (.initial clock store) where
  lease := .initial clock
  idle := fun _ _ => rfl
  granted := by
    intro _ _ h
    cases h
  alone := by
    intro _ _ _ _ h
    cases h
  phases := by
    intro _ _ h
    cases h

theorem startRun_of_eq {before after : LeaseSystem} {runs : String → Option BackupRun}
    (h : after.acquired backupTaskKey = before.acquired backupTaskKey) :
    startRun before after runs = runs := by
  simp [startRun, h]

theorem startRun_of_snoc {before after : LeaseSystem} {runs : String → Option BackupRun}
    {g : Grant String Int} (h : after.acquired backupTaskKey = before.acquired backupTaskKey ++ [g]) :
    startRun before after runs = Function.update runs g.owner (some ⟨g.time, .configuring⟩) := by
  simp [startRun, h]

namespace BackupSystem

theorem lease_step {e : LeaseEvent} (h : s.step cfg loc (.lease e) = some t) :
    overlapsOwn s.runs e = false ∧ s.lease.step backgroundTaskTTL e = some t.lease ∧ t.store = s.store ∧
      t.runs = startRun s.lease t.lease s.runs := by
  simp only [step] at h
  split at h
  · cases h
  · rename_i hown
    obtain ⟨lease, hlease, rfl⟩ := Option.map_eq_some_iff.1 h
    exact ⟨by simpa using hown, hlease, rfl, rfl⟩

theorem tick_step (h : s.step cfg loc (.tick ownerID e) = some t) :
    ∃ run next, s.runs ownerID = some run ∧
      runStep cfg loc s.lease.clock s.store run.phase e = some (t.lease.clock, t.store, next) ∧
      t.lease = { s.lease with clock := t.lease.clock } ∧
      t.runs = Function.update s.runs ownerID (next.map (⟨run.granted, ·⟩)) := by
  simp only [step] at h
  split at h
  · cases h
  · rename_i run hrun
    obtain ⟨⟨clock, store, next⟩, hstep, rfl⟩ := Option.map_eq_some_iff.1 h
    exact ⟨run, next, hrun, hstep, rfl, rfl⟩

/-- The runs after a step of one. -/
theorem runs_update {runs : String → Option BackupRun} {granted : Int} {o : String} {run' : BackupRun}
    (h : Function.update runs ownerID (next.map (⟨granted, ·⟩)) o = some run') :
    (o = ownerID ∧ run'.granted = granted ∧ next = some run'.phase) ∨
    (o ≠ ownerID ∧ runs o = some run') := by
  by_cases hsame : o = ownerID
  · subst hsame
    rw [Function.update_self] at h
    obtain ⟨p, rfl, rfl⟩ := Option.map_eq_some_iff.1 h
    exact .inl ⟨rfl, rfl, rfl⟩
  · rw [Function.update_of_ne hsame] at h
    exact .inr ⟨hsame, h⟩

end BackupSystem

/-- A run under way keeps the lease from everybody else. -/
theorem BackupSystemInv.start (h : BackupSystemInv cfg loc s) {lease : LeaseSystem} {now : Int}
    (hordered : Ordered backupLeaseTTL (s.lease.acquired backupTaskKey ++ [⟨ownerID, now⟩]))
    (hnow : now ≤ lease.clock.nanos) (hidle : s.runs ownerID = none) {o : String}
    (hrun : s.runs o = some run) (hin : lease.clock.nanos < run.granted + backupLeaseTTL) : False := by
  have hfollows : (⟨o, run.granted⟩ : Grant String Int).Follows backupLeaseTTL ⟨ownerID, now⟩ :=
    (List.pairwise_append.1 hordered).2.2 _ (h.granted o run hrun) _ (List.mem_singleton_self _)
  have hne : o ≠ ownerID := by
    rintro rfl
    rw [hidle] at hrun
    cases hrun
  have hexpired := hfollows.expired hne
  dsimp only at hexpired
  omega

theorem BackupSystemInv.step {e : BackupEvent} (h : BackupSystemInv cfg loc s) (hin : t.Within)
    (hstep : s.step cfg loc e = some t) :
    BackupSystemInv cfg loc t ∧ s.lease.clock.nanos ≤ t.lease.clock.nanos := by
  cases e with
  | lease e =>
    obtain ⟨hown, hlease, hstore, hruns⟩ := BackupSystem.lease_step hstep
    obtain ⟨hclock, hcalls⟩ := LeaseSystem.step_frame e hlease
    have hinv := (h.lease.step e hlease).1
    -- an owner whose tick calls has no run
    have hidle : ∀ o, t.lease.calls (o, backupTaskKey) ≠ none → s.runs o = none := by
      intro o ho
      rcases hcalls o _ ho with ho | rfl
      · exact h.idle o ho
      · simpa [overlapsOwn] using hown
    refine ⟨?_, hclock⟩
    rcases LeaseSystem.step_acquired e hlease backupTaskKey with hacquired |
      ⟨o, phase, now, hcall, hnow, hreturned, hacquired⟩
    · rw [startRun_of_eq hacquired] at hruns
      refine ⟨hinv, ?_, ?_, ?_, ?_⟩
      · rwa [hruns]
      · rw [hruns, hacquired]
        exact h.granted
      · rw [hruns]
        exact h.alone
      · rw [hruns, hstore]
        exact fun o run hrun => (h.phases o run hrun).later hclock
    · rw [startRun_of_snoc hacquired] at hruns
      have hbusy : s.runs o = none := h.idle o (by rw [hcall]; exact Option.some_ne_none _)
      have hpast : now.nanos ≤ t.lease.clock.nanos :=
        ((h.lease.calls o _ phase hcall).past now hnow).trans hclock
      have hordered := hinv.ordered backupTaskKey
      rw [hacquired] at hordered
      -- no other run is under way
      have hnone : ∀ o', o' ≠ o → s.runs o' = none := by
        intro o' hne
        cases hrun : s.runs o' with
        | none => rfl
        | some run =>
          exfalso
          apply h.start hordered hpast hbusy hrun
          have hmem : (⟨o', run.granted⟩ : Grant String Int) ∈ t.lease.acquired backupTaskKey := by
            rw [hacquired]
            exact List.mem_append_left _ (h.granted o' run hrun)
          exact hin _ hmem run (by rw [hruns, Function.update_of_ne hne]; exact hrun) rfl
      have hcases : ∀ o' run, t.runs o' = some run → o' = o ∧ run = ⟨now.nanos, .configuring⟩ := by
        intro o' run hrun
        by_cases hsame : o' = o
        · subst hsame
          rw [hruns, Function.update_self] at hrun
          exact ⟨rfl, (Option.some.inj hrun).symm⟩
        · rw [hruns, Function.update_of_ne hsame, hnone o' hsame] at hrun
          cases hrun
      refine ⟨hinv, ?_, ?_, ?_, ?_⟩
      · intro o' ho'
        have hne : o' ≠ o := by
          rintro rfl
          exact ho' hreturned
        rw [hruns, Function.update_of_ne hne]
        exact hnone o' hne
      · intro o' run hrun
        obtain ⟨rfl, rfl⟩ := hcases o' run hrun
        rw [hacquired]
        exact List.mem_append_right _ (List.mem_singleton_self _)
      · intro o' o'' run' run'' h' h''
        rw [(hcases o' run' h').1, (hcases o'' run'' h'').1]
      · intro o' run hrun
        rw [(hcases o' run hrun).2]
        exact PhaseInv.configuring
  | tick ownerID e =>
    obtain ⟨run, next, hrun, hrunStep, hlease, hruns⟩ := BackupSystem.tick_step hstep
    obtain ⟨hclock, hphase⟩ := (h.phases ownerID run hrun).step hrunStep
    have hothers : ∀ o, o ≠ ownerID → s.runs o = none := by
      intro o hne
      cases ho : s.runs o with
      | none => rfl
      | some other => exact absurd (h.alone o ownerID other run ho hrun) hne
    have hcases : ∀ o run', t.runs o = some run' → o = ownerID ∧ run'.granted = run.granted ∧
        next = some run'.phase := by
      intro o run' hrun'
      rw [hruns] at hrun'
      rcases BackupSystem.runs_update hrun' with hsame | ⟨hne, hother⟩
      · exact hsame
      · rw [hothers o hne] at hother
        cases hother
    refine ⟨⟨?_, ?_, ?_, ?_, ?_⟩, hclock⟩
    · rw [hlease]
      exact h.lease.tick hclock
    · intro o ho
      rw [hlease] at ho
      have hne : o ≠ ownerID := by
        rintro rfl
        have hnone := h.idle o ho
        rw [hrun] at hnone
        cases hnone
      rw [hruns, Function.update_of_ne hne]
      exact hothers o hne
    · intro o run' hrun'
      obtain ⟨rfl, hgranted, -⟩ := hcases o run' hrun'
      rw [hlease, hgranted]
      exact h.granted o run hrun
    · intro o o' run' run'' h' h''
      rw [(hcases o run' h').1, (hcases o' run'' h'').1]
    · intro o run' hrun'
      obtain ⟨-, -, hnext⟩ := hcases o run' hrun'
      exact hphase _ hnext

end Runs
end Subdux
