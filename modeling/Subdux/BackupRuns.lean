import Subdux.ScheduledBackups
/-!
# One archive a day

What the runs of `Subdux.ScheduledBackups` keep. The archive of a run is recorded before
the next run decides (`ArchiveInv`), unless the retention fails in between; a run that
leaves no archive records nothing that keeps a later one from making it (`FailingInv`), and
a tick that nothing disturbs makes it (`SoleRun.writes`).
-/

namespace Subdux
open Leases
open Runs (Path exec)

section Runs
variable {cfg : BackupConfig} {loc : Location} {clock clock' : Time} {store store' : BackupStore}
  {phase p : BackupPhase}
  {next : Option BackupPhase} {e : TickEvent} {s t u : BackupSystem} {ownerID : String} {run : BackupRun}

/-! ## One archive a day -/

/-- The last run was on a day that begins no earlier than `day`. -/
def Recorded (loc : Location) (lastRunAt : Option Timestamp) (day : Int) : Prop :=
  let last := parseBackupLastRunAt lastRunAt
  last.isZero = false ∧ dayStart loc day ≤ dayStart loc (last.inLoc loc).day

/-- Each archive of a tick is recorded, or its run is about to; no day has two. -/
structure ArchiveInv (loc : Location) (store : BackupStore) (written : Int → Prop) : Prop where
  settled : ∀ f ∈ store.files, ∀ day, f.day = some day → Recorded loc store.lastRunAt day ∨ written day
  once : ∀ day, store.files.countP (·.day = some day) ≤ 1

/-- Some archives are removed, nothing is recorded. -/
theorem ArchiveInv.sublist {written written' : Int → Prop} (h : ArchiveInv loc store written)
    (hfiles : store'.files.Sublist store.files) (hlast : store'.lastRunAt = store.lastRunAt)
    (hwritten : ∀ day, written day → written' day) : ArchiveInv loc store' written' where
  settled := by
    intro f hf day hday
    rw [hlast]
    exact (h.settled f (hfiles.subset hf) day hday).imp_right (hwritten day)
  once := fun day => (hfiles.countP_le).trans (h.once day)

theorem applyLocalBackupRetention_sublist {keep : Int} {files : List BackupFile} {r : Retention}
    {retained : List BackupFile × Option String}
    (h : applyLocalBackupRetention keep files r = some retained) :
    retained.1.Sublist files := by
  unfold applyLocalBackupRetention at h
  split at h
  · cases h
    exact List.Sublist.refl files
  · dsimp only at h
    split at h
    · split at h
      · cases h
        exact List.filter_sublist
      · split at h
        · cases h
          exact List.filter_sublist
        · cases h
    · cases h

theorem applyLocalBackupRetention_completes {keep : Int} {files : List BackupFile} {r : Retention}
    {retained : List BackupFile × Option String} (hok : (TickEvent.retain r).Completes loc)
    (h : applyLocalBackupRetention keep files r = some retained) : retained.2 = none := by
  cases r with
  | unlisted err => exact hok.elim
  | listed unreadable newestFirst failure =>
    cases failure with
    | some failed => exact hok.elim
    | none =>
      simp only [applyLocalBackupRetention] at h
      split at h
      · cases h
        rfl
      · cases h

/-- The archive of a due run is the only one of its day. -/
theorem ArchiveInv.write {now : Time} {name : String} {modTime : Int}
    (h : ArchiveInv loc store fun _ => False) (hhere : now.inLoc loc = now) {timeOfDay : String}
    (hdue : backupDue now timeOfDay (parseBackupLastRunAt store.lastRunAt) loc = true) :
    ArchiveInv loc { store with files := (writeArchive store.files name modTime now.day none).1 }
    (now.day = ·) := by
  have hnone : store.files.countP (·.day = some now.day) = 0 := by
    refine List.countP_eq_zero.2 fun f hf hday => ?_
    obtain ⟨hzero, hle⟩ := (h.settled f hf now.day (of_decide_eq_true hday)).resolve_right id
    obtain ⟨-, -, -, -, hlast⟩ := backupDue_iff.1 hdue
    have hlt := hlast hzero
    rw [hhere] at hlt
    exact absurd hle (not_le.2 hlt)
  have hothers : (store.files.filter (·.name ≠ name)).Sublist store.files := List.filter_sublist
  constructor
  · intro f hf day hday
    rcases List.mem_append.1 hf with hf | hf
    · exact (h.settled f (hothers.subset hf) day hday).imp_right False.elim
    · rw [List.mem_singleton.1 hf] at hday
      exact .inr (Option.some.inj hday)
  · intro day
    have hle := hothers.countP_le (p := fun f : BackupFile => f.day = some day)
    have honce := h.once day
    simp only [writeArchive, List.countP_append, List.countP_singleton]
    split
    · rename_i hday
      rw [← Option.some.inj (of_decide_eq_true hday)] at hle ⊢
      omega
    · omega

theorem ArchiveInv.record {now : Time} (h : ArchiveInv loc store (now.day = ·))
    (hhere : now.inLoc loc = now) (hreads : ReadsBack loc now) {timeOfDay : String}
    (hdue : backupDue now timeOfDay (parseBackupLastRunAt store.lastRunAt) loc = true) :
    ArchiveInv loc (recordBackupRunSuccess store now) fun _ => False := by
  unfold ReadsBack at hreads
  dsimp only at hreads
  rw [hhere] at hreads
  refine ⟨?_, h.once⟩
  intro f hf day hday
  refine .inl ⟨hreads.1, ?_⟩
  change _ ≤ dayStart loc ((parseBackupLastRunAt (some now.formatRFC3339)).inLoc loc).day
  rw [hreads.2]
  rcases h.settled f hf day hday with ⟨hzero, hle⟩ | hnow
  · obtain ⟨-, -, -, -, hlast⟩ := backupDue_iff.1 hdue
    have hlt := hlast hzero
    rw [hhere] at hlt
    exact hle.trans hlt.le
  · rw [hnow]

/-- What a step of a run keeps, when nothing comes between the archive and its record. -/
theorem ArchiveInv.step (h : ArchiveInv loc store (phase.written = some ·))
    (hphase : PhaseInv cfg loc clock store phase)
    (hreads : ∀ now, phase.now = some now → ReadsBack loc now) (hok : e.Completes loc)
    (hstep : runStep cfg loc clock store phase e = some (clock', store', next)) :
    ArchiveInv loc store' (fun day => ∃ p, next = some p ∧ p.written = some day) ∧
      ∀ p, next = some p → ∀ now, p.now = some now → ReadsBack loc now := by
  unfold runStep at hstep
  split at hstep
  · -- loading the configuration
    cases hstep
    refine ⟨h.sublist (List.Sublist.refl _) rfl (fun _ hw => by cases hw), fun p hp now hnow => ?_⟩
    split at hp
    · cases hp
    · cases hp
      cases hnow
  · -- reading the clock
    split at hstep
    · cases hstep
    · cases hstep
      refine ⟨h.sublist (List.Sublist.refl _) rfl (fun _ hw => by cases hw), ?_⟩
      rintro p ⟨⟩ _ ⟨⟩
      exact hok
  · -- reading the last run
    cases hstep
    refine ⟨h.sublist (List.Sublist.refl _) rfl (fun _ hw => by cases hw), fun p hp now hnow => ?_⟩
    split at hp
    · cases hp
      exact hreads now hnow
    · cases hp
  · -- up to `VACUUM INTO`
    rename_i now stamp token fault
    split at hstep
    · cases hstep
    · cases hstep
      refine ⟨h.sublist (List.Sublist.refl _) rfl (fun _ hw => by cases hw), ?_⟩
      rintro p ⟨⟩ now' hnow'
      refine hreads now' (Eq.trans ?_ hnow')
      cases fault with
      | some err => rfl
      | none =>
        dsimp only
        split <;> rfl
  · -- the write
    rename_i now name modTime fault
    cases hstep
    constructor
    · cases hfault : fault with
      | none =>
        have hnothing : ArchiveInv loc store fun _ => False :=
          h.sublist (List.Sublist.refl _) rfl (fun _ hw => by cases hw)
        refine (hnothing.write (hphase.here now rfl).1 (hphase.due now rfl)).sublist
          (List.Sublist.refl _) rfl ?_
        rintro _ rfl
        exact ⟨_, rfl, rfl⟩
      | some failed =>
        obtain ⟨err, partialArchive⟩ := failed
        cases partialArchive with
        | never => exact h.sublist (List.Sublist.refl _) rfl (fun _ hw => by cases hw)
        | removed => exact h.sublist List.filter_sublist rfl (fun _ hw => by cases hw)
        | left =>
          subst hfault
          exact hok.elim
    · rintro p ⟨⟩ now' hnow'
      refine hreads now' (Eq.trans ?_ hnow')
      split <;> rfl
  · -- the retention
    rename_i now r
    obtain ⟨retained, hretained, heq⟩ := Option.map_eq_some_iff.1 hstep
    cases heq
    have herr : retained.2 = none := applyLocalBackupRetention_completes hok hretained
    refine ⟨h.sublist (applyLocalBackupRetention_sublist hretained) rfl ?_, ?_⟩
    · intro day hday
      exact ⟨_, rfl, by rw [herr]; exact hday⟩
    · rintro p ⟨⟩ now' hnow'
      exact hreads now' hnow'
  · -- the record
    rename_i now err
    cases hstep
    refine ⟨?_, fun _ hp => by cases hp⟩
    cases err with
    | none =>
      have hwritten : ArchiveInv loc store (now.day = ·) :=
        h.sublist (List.Sublist.refl _) rfl fun _ hw => Option.some.inj hw
      exact (hwritten.record (hphase.here now rfl).1 (hreads now rfl) (hphase.due now rfl)).sublist
        (List.Sublist.refl _) rfl
        (fun _ hw => hw.elim)
    | some err => exact h.sublist (List.Sublist.refl _) rfl (fun _ hw => by cases hw)
  · cases hstep

/-- The archives and the runs of the system. -/
structure SystemArchiveInv (loc : Location) (s : BackupSystem) : Prop where
  archives : ArchiveInv loc s.store fun day => ∃ o run, s.runs o = some run ∧
    run.phase.written = some day
  reads : ∀ o run, s.runs o = some run → ∀ now, run.phase.now = some now → ReadsBack loc now

theorem SystemArchiveInv.initial (hold : ∀ f ∈ store.files, f.day = none) :
    SystemArchiveInv loc (.initial clock store) := by
  refine ⟨⟨?_, fun day => ?_⟩, fun _ _ h => by cases h⟩
  · intro f hf day hday
    rw [hold f hf] at hday
    cases hday
  · have hzero : store.files.countP (fun f => f.day = some day) = 0 := by
      refine List.countP_eq_zero.2 fun f hf hday => ?_
      rw [hold f hf] at hday
      cases of_decide_eq_true hday
    exact hzero.trans_le (Nat.zero_le 1)

theorem SystemArchiveInv.step {e : BackupEvent} (h : SystemArchiveInv loc s)
    (hsys : BackupSystemInv cfg loc s) (hok : e.Completes loc) (hstep : s.step cfg loc e = some t) :
    SystemArchiveInv loc t := by
  cases e with
  | lease e =>
    obtain ⟨-, hlease, hstore, hruns⟩ := BackupSystem.lease_step hstep
    rcases LeaseSystem.step_acquired e hlease backupTaskKey with hacquired |
      ⟨o, phase, now, hcall, -, -, hacquired⟩
    · rw [startRun_of_eq hacquired] at hruns
      constructor
      · rw [hstore, hruns]
        exact h.archives
      · rw [hruns]
        exact h.reads
    · rw [startRun_of_snoc hacquired] at hruns
      have hbusy : s.runs o = none := hsys.idle o (by rw [hcall]; exact Option.some_ne_none _)
      constructor
      · rw [hstore]
        refine h.archives.sublist (List.Sublist.refl _) rfl ?_
        rintro day ⟨o', run, hrun, hwritten⟩
        have hne : o' ≠ o := by
          rintro rfl
          rw [hbusy] at hrun
          cases hrun
        exact ⟨o', run, by rw [hruns, Function.update_of_ne hne]; exact hrun, hwritten⟩
      · intro o' run hrun
        by_cases hsame : o' = o
        · subst hsame
          rw [hruns, Function.update_self] at hrun
          cases hrun
          exact fun _ hnow => by cases hnow
        · rw [hruns, Function.update_of_ne hsame] at hrun
          exact h.reads o' run hrun
  | tick ownerID e =>
    obtain ⟨run, next, hrun, hrunStep, -, hruns⟩ := BackupSystem.tick_step hstep
    have hwritten : ArchiveInv loc s.store (run.phase.written = some ·) := by
      refine h.archives.sublist (List.Sublist.refl _) rfl ?_
      rintro day ⟨o, other, hother, hday⟩
      obtain rfl := hsys.alone o ownerID other run hother hrun
      rw [hrun] at hother
      cases hother
      exact hday
    obtain ⟨harchives, hreads⟩ :=
      hwritten.step (hsys.phases ownerID run hrun) (h.reads ownerID run hrun) hok hrunStep
    constructor
    · refine harchives.sublist (List.Sublist.refl _) rfl ?_
      rintro day ⟨p, rfl, hday⟩
      exact ⟨ownerID, _, by rw [hruns, Function.update_self]; rfl, hday⟩
    · intro o run' hrun'
      rw [hruns] at hrun'
      rcases BackupSystem.runs_update hrun' with ⟨-, -, hsome⟩ | ⟨-, hother⟩
      · exact hreads _ hsome
      · exact h.reads o run' hother

/-! ## A tick that fails -/

/-- A step that leaves no archive leaves the last run as recorded. -/
theorem runStep_leavesNothing (hnone : phase.written = none) (hok : e.LeavesNothing)
    (hstep : runStep cfg loc clock store phase e = some (clock', store', next)) :
    store'.lastRunAt = store.lastRunAt ∧ ∀ p, next = some p → p.written = none := by
  unfold runStep at hstep
  split at hstep
  · cases hstep
    refine ⟨rfl, fun p hp => ?_⟩
    split at hp
    · cases hp
    · cases hp
      rfl
  · split at hstep
    · cases hstep
    · cases hstep
      exact ⟨rfl, by rintro p ⟨⟩; rfl⟩
  · cases hstep
    refine ⟨rfl, fun p hp => ?_⟩
    split at hp
    · cases hp
      rfl
    · cases hp
  · rename_i now stamp token fault
    split at hstep
    · cases hstep
    · cases hstep
      refine ⟨rfl, ?_⟩
      rintro p ⟨⟩
      cases fault with
      | some err => rfl
      | none =>
        dsimp only
        split <;> rfl
  · rename_i now name modTime fault
    cases hstep
    refine ⟨rfl, ?_⟩
    rintro p ⟨⟩
    cases fault with
    | none => exact hok.elim
    | some failed =>
      obtain ⟨err, partialArchive⟩ := failed
      cases partialArchive <;> rfl
  · cases hnone
  · rename_i now err
    cases hstep
    cases err with
    | none => cases hnone
    | some err => exact ⟨rfl, fun _ hp => by cases hp⟩
  · cases hstep

/-- While no archive is left, the last run stays as recorded. -/
structure FailingInv (lastRunAt : Option Timestamp) (since : Int) (s : BackupSystem) : Prop where
  last : s.store.lastRunAt = lastRunAt
  unwritten : ∀ o run, s.runs o = some run → run.phase.written = none
  clock : since ≤ s.lease.clock.nanos

theorem FailingInv.step {e : BackupEvent} {last : Option Timestamp} {since : Int}
    (h : FailingInv last since s) (hok : e.LeavesNothing)
    (hclock : s.lease.clock.nanos ≤ t.lease.clock.nanos) (hstep : s.step cfg loc e = some t) :
    FailingInv last since t := by
  cases e with
  | lease e =>
    obtain ⟨-, hlease, hstore, hruns⟩ := BackupSystem.lease_step hstep
    refine ⟨by rw [hstore]; exact h.last, ?_, h.clock.trans hclock⟩
    rcases LeaseSystem.step_acquired e hlease backupTaskKey with hacquired |
      ⟨o, -, now, -, -, -, hacquired⟩
    · rw [hruns, startRun_of_eq hacquired]
      exact h.unwritten
    · intro o' run hrun
      rw [hruns, startRun_of_snoc hacquired] at hrun
      by_cases hsame : o' = o
      · subst hsame
        rw [Function.update_self] at hrun
        cases hrun
        rfl
      · rw [Function.update_of_ne hsame] at hrun
        exact h.unwritten o' run hrun
  | tick ownerID e =>
    obtain ⟨run, next, hrun, hrunStep, -, hruns⟩ := BackupSystem.tick_step hstep
    obtain ⟨hlast, hnext⟩ := runStep_leavesNothing (h.unwritten ownerID run hrun) hok hrunStep
    refine ⟨hlast.trans h.last, ?_, h.clock.trans hclock⟩
    intro o run' hrun'
    rw [hruns] at hrun'
    rcases BackupSystem.runs_update hrun' with ⟨-, -, hsome⟩ | ⟨-, hother⟩
    · exact hnext _ hsome
    · exact h.unwritten o run' hother

/-! ## A tick that nothing disturbs -/

/-- The only run is that of `ownerID`, under the lease granted at `now`, which is the present. -/
structure SoleRun (now : Time) (ownerID : String) (phase : BackupPhase) (store : BackupStore)
    (s : BackupSystem) : Prop where
  runs : s.runs = Function.update (fun _ => none) ownerID (some ⟨now.nanos, phase⟩)
  clock : s.lease.clock = now
  stored : s.store = store

variable {now : Time}

theorem SoleRun.within (h : SoleRun now ownerID phase store s) : s.Within := by
  intro g _ run hrun hgranted
  rw [h.runs] at hrun
  have hnow : run.granted = now.nanos := by
    by_cases hsame : g.owner = ownerID
    · rw [hsame, Function.update_self] at hrun
      cases hrun
      rfl
    · rw [Function.update_of_ne hsame] at hrun
      cases hrun
  rw [h.clock, ← hgranted, hnow]
  exact Int.lt_add_of_pos_right _ (by decide)

theorem SoleRun.step (h : SoleRun now ownerID phase store s)
    (hstep : runStep cfg loc now store phase e = some (now, store', some p)) :
    ∃ t, Path (BackupSystem.step cfg loc) (RunsInTime cfg loc) s t ∧ SoleRun now ownerID p store' t := by
  have hrun : s.runs ownerID = some ⟨now.nanos, phase⟩ := by
    rw [h.runs, Function.update_self]
  obtain ⟨t, ht⟩ : ∃ t, s.step cfg loc (.tick ownerID e) = some t := by
    simp only [BackupSystem.step, hrun, h.clock, h.stored, hstep, Option.map_some]
    exact ⟨_, rfl⟩
  obtain ⟨run, next, hrun', hrunStep, -, hruns⟩ := BackupSystem.tick_step ht
  rw [hrun] at hrun'
  cases hrun'
  rw [h.clock, h.stored, hstep] at hrunStep
  injection hrunStep with hresult
  injection hresult with hclock hrest
  injection hrest with hstore hnext
  have hafter : SoleRun now ownerID p store' t := by
    refine ⟨?_, hclock.symm, hstore.symm⟩
    rw [hruns, ← hnext, h.runs, Function.update_idem]
    rfl
  refine ⟨t, Runs.Path.refl.snoc _ ?_ ht, hafter⟩
  intro u hu
  rw [ht] at hu
  cases hu
  exact hafter.within

/-- Quiet steps of the lease, while nobody runs. -/
theorem BackupSystem.lease_path (hnone : ∀ o, s.runs o = none) {l : LeaseSystem}
    (h : Path (LeaseSystem.step backgroundTaskTTL) (LeaseSystem.Quiet backgroundTaskTTL) s.lease l) :
    Path (BackupSystem.step cfg loc) (RunsInTime cfg loc) s { s with lease := l } := by
  induction h with
  | refl => exact .refl
  | @snoc l l' e _ hquiet hstep ih =>
    have hruns : startRun l l' s.runs = s.runs :=
      startRun_of_eq (congrFun (hquiet l' hstep) backupTaskKey)
    have hown : overlapsOwn s.runs e = false := by
      cases e <;> simp [overlapsOwn, hnone]
    have hbackup : ({ s with lease := l } : BackupSystem).step cfg loc (.lease e) = some
      { s with lease := l' } := by
      simp [BackupSystem.step, hown, hstep, hruns]
    refine ih.snoc _ ?_ hbackup
    intro u hu g _ run hrun
    rw [hbackup] at hu
    cases hu
    rw [hnone] at hrun
    cases hrun

/-- A tick that is granted the lease runs. -/
theorem SoleRun.start (cfg : BackupConfig) (loc : Location) (hnone : ∀ o, s.runs o = none)
    (hcall : s.lease.calls (ownerID, backupTaskKey) = none) (hclock : s.lease.clock.nanos ≤ now.nanos)
    (hgranted : (acquireBackgroundTaskLease s.lease.leases ownerID backupTaskKey backupLeaseTTL
      now).2 = true) :
    ∃ t, Path (BackupSystem.step cfg loc) (RunsInTime cfg loc) s t ∧
    SoleRun now ownerID .configuring s.store t := by
  have hvalid : ¬ (backupTaskKey = "" ∨ ownerID = "" ∨ backgroundTaskTTL backupTaskKey ≤ 0) := by
    intro hrefused
    have hrefused' : backupTaskKey = "" ∨ ownerID = "" ∨ backupLeaseTTL ≤ 0 := hrefused
    rw [acquireBackgroundTaskLease, if_pos hrefused'] at hgranted
    cases hgranted
  obtain ⟨l, e, l', hquiet, hsame, hstep, hnocall, hnow, -, hacquired⟩ :=
    @acquireBackgroundTaskLease_grants backgroundTaskTTL _ _ _ _ hcall hclock hvalid hgranted
  rw [← hsame] at hacquired
  have hown : overlapsOwn s.runs e = false := by
    cases e <;> simp [overlapsOwn, hnone]
  have hbackup : ({ s with lease := l } : BackupSystem).step cfg loc (.lease e) =
      some { s with lease := l', runs := startRun l l' s.runs } := by
    simp [BackupSystem.step, hown, hstep]
  have hafter : SoleRun now ownerID .configuring s.store
      ({ s with lease := l', runs := startRun l l' s.runs } : BackupSystem) := by
    refine ⟨?_, hnow, rfl⟩
    have hruns : s.runs = fun _ => none := funext hnone
    rw [startRun_of_snoc hacquired, hruns]
  refine ⟨_, (BackupSystem.lease_path hnone hquiet).snoc _ ?_ hbackup, hafter⟩
  intro u hu
  rw [hbackup] at hu
  cases hu
  exact hafter.within

/-- A tick that is due, holds the lease and meets no failure writes its archive. -/
theorem SoleRun.writes (h : SoleRun now ownerID .configuring store s)
    (henabled : cfg.scheduleEnabled = true)
    (hpassword : cfg.encryptEnabled = true → cfg.encryptPassword ≠ "")
    (hdue : backupDue now cfg.timeOfDay (parseBackupLastRunAt store.lastRunAt) loc = true)
    (token : String) (modTime : Int) :
    ∃ t, Path (BackupSystem.step cfg loc) (RunsInTime cfg loc) s t ∧
      t.store.files = (writeArchive store.files (backupArchiveName now token) modTime
        (now.inLoc loc).day none).1 := by
  have hclock : now.before now = false := by simp [Time.before]
  have hdue' : backupDue (now.inLoc loc) cfg.timeOfDay
      (parseBackupLastRunAt store.lastRunAt) loc = true :=
    backupDue_later hdue le_rfl rfl
  have hencrypted : (cfg.encryptEnabled && decide (cfg.encryptPassword = "")) = false := by
    cases henc : cfg.encryptEnabled with
    | false => rfl
    | true => simpa using hpassword henc
  have hload : runStep cfg loc now store .configuring (.loadConfig false) = some
      (now, store, some .deciding) := by
    simp [runStep, henabled]
  have hread : runStep cfg loc now store .deciding (.readClock now) = some
      (now, store, some (.reading (now.inLoc loc))) := by
    simp [runStep, hclock]
  have hlast : runStep cfg loc now store (.reading (now.inLoc loc)) (.readLastRun false) =
      some (now, store, some (.creating (now.inLoc loc))) := by
    simp [runStep, hdue']
  have hcreate : runStep cfg loc now store (.creating (now.inLoc loc)) (.create now token none) =
      some (now, store, some (.writing (now.inLoc loc) (backupArchiveName now token))) := by
    simp [runStep, hclock, hencrypted]
  have hwrite : runStep cfg loc now store (.writing (now.inLoc loc) (backupArchiveName now token))
      (.write modTime none) =
      some (now,
        { store with
          files := (writeArchive store.files (backupArchiveName now token) modTime
            (now.inLoc loc).day none).1 },
        some (.retaining (now.inLoc loc))) := by
    simp [runStep, writeArchive]
  obtain ⟨t₁, hpath₁, h₁⟩ := h.step hload
  obtain ⟨t₂, hpath₂, h₂⟩ := h₁.step hread
  obtain ⟨t₃, hpath₃, h₃⟩ := h₂.step hlast
  obtain ⟨t₄, hpath₄, h₄⟩ := h₃.step hcreate
  obtain ⟨t₅, hpath₅, h₅⟩ := h₄.step hwrite
  refine ⟨t₅, (((hpath₁.trans hpath₂).trans hpath₃).trans hpath₄).trans hpath₅, ?_⟩
  rw [h₅.stored]

/-! ## Every run -/

theorem BackupSystemInv.of_path (h : Path (BackupSystem.step cfg loc) (RunsInTime cfg loc) s t)
    (hs : BackupSystemInv cfg loc s) :
    BackupSystemInv cfg loc t :=
  h.invariant _ (fun _ _ _ hinv hin hstep => (hinv.step (hin _ hstep) hstep).1) hs

/-- No run outlasts its lease. In runs where the retention does not fail, a failed write's
partial file is removed and recorded times read back, a day gets at most one archive. And however
ticks fail: when one was due at `now` and no archive was left since, a later tick of that day that is
granted the lease and meets no failure leaves one. -/
theorem scheduled_backup_once_a_day (cfg : BackupConfig) (loc : Location) (clock : Time)
    (store : BackupStore) (hold : ∀ f ∈ store.files, f.day = none) :
    (∀ s, Path (BackupSystem.step cfg loc) (fun s e => RunsInTime cfg loc s e ∧ e.Completes loc)
      (.initial clock store) s →
      ∀ day, s.store.files.countP (·.day = some day) ≤ 1) ∧
    ∀ s, Path (BackupSystem.step cfg loc) (RunsInTime cfg loc) (.initial clock store) s →
      ∀ o granted now, s.runs o = some ⟨granted, .creating now⟩ →
      ∀ t, Path (BackupSystem.step cfg loc)
        (fun s e => RunsInTime cfg loc s e ∧ e.LeavesNothing) s t → (∀ o, t.runs o = none) →
      ∀ ownerID later, t.lease.calls (ownerID, backupTaskKey) = none →
        t.lease.clock.nanos ≤ later.nanos →
      (acquireBackgroundTaskLease t.lease.leases ownerID backupTaskKey backupLeaseTTL later).2 = true →
      (later.inLoc loc).day = now.day → (cfg.encryptEnabled = true → cfg.encryptPassword ≠ "") →
      ∀ token modTime, ∃ u, Path (BackupSystem.step cfg loc) (RunsInTime cfg loc) t u ∧
        u.store.files = t.store.files.filter (·.name ≠ backupArchiveName later token) ++
          [⟨backupArchiveName later token, false, modTime, some now.day⟩] := by
  constructor
  · intro s hs
    have hinv := hs.invariant (fun s => BackupSystemInv cfg loc s ∧ SystemArchiveInv loc s)
      (by
        rintro t e u ⟨hsys, harchives⟩ ⟨hin, hok⟩ hstep
        exact ⟨(hsys.step (hin u hstep) hstep).1, harchives.step hsys hok hstep⟩)
      ⟨.initial clock store, .initial hold⟩
    exact hinv.2.archives.once
  · intro s hs o granted now hrun t ht hidle ownerID later hcall hclock hgranted hday hpassword
      token modTime
    have hsys := BackupSystemInv.of_path hs (.initial clock store)
    have hphase := hsys.phases o _ hrun
    obtain ⟨hhere, hpast⟩ := hphase.here now rfl
    -- the run of `o` is the only one, and has written nothing
    have hfailing : FailingInv s.store.lastRunAt s.lease.clock.nanos s := by
      refine ⟨rfl, fun o' run hrun' => ?_, le_rfl⟩
      obtain rfl := hsys.alone o' o run _ hrun' hrun
      rw [hrun] at hrun'
      cases hrun'
      rfl
    have hkept :=
      ht.invariant (fun t => BackupSystemInv cfg loc t ∧
        FailingInv s.store.lastRunAt s.lease.clock.nanos t)
      (by
        rintro t e u ⟨hinv, hfail⟩ ⟨hin, hok⟩ hstep
        obtain ⟨hinv', hclock⟩ := hinv.step (hin u hstep) hstep
        exact ⟨hinv', hfail.step hok hclock hstep⟩)
      ⟨hsys, hfailing⟩
    obtain ⟨v, htv, hstarted⟩ := SoleRun.start cfg loc hidle hcall hclock hgranted
    have hdue : backupDue later cfg.timeOfDay (parseBackupLastRunAt t.store.lastRunAt) loc = true := by
      rw [hkept.2.last]
      refine backupDue_later (hphase.due now rfl) ((hpast.trans hkept.2.clock).trans hclock) ?_
      rw [hday, hhere]
    obtain ⟨u, hvu, hfiles⟩ := hstarted.writes (hphase.enabled (by simp)) hpassword hdue token modTime
    refine ⟨u, htv.trans hvu, ?_⟩
    rw [hfiles, writeArchive, hday]

/-! ## Samples -/

def sampleBackupConfig : BackupConfig := ⟨true, "03:00", false, "", 7⟩

/-- The time of the first tick. -/
def sampleBackupClock : Time := (dateUTC 2026 6 15).add (3 * nsPerHour)

def sampleBackups : BackupSystem := .initial sampleBackupClock ⟨none, "", "", []⟩

/-- The steps of a tick of `owner-a` that is granted the lease, which it may have had before. -/
def sampleTick (renews : Bool) (now : Time) (rest : List TickEvent) : List BackupEvent :=
  let start : List TickEvent := [.loadConfig false, .readClock now, .readLastRun false]
  [.lease (.call "owner-a" backupTaskKey), .lease (.readClock "owner-a" backupTaskKey now),
   .lease (.insert "owner-a" backupTaskKey false)] ++
     (if renews then [.lease (.update "owner-a" backupTaskKey false)] else []) ++
    (start ++ rest).map (.tick "owner-a")

/-- `VACUUM INTO` fails, and the tick after it makes the archive. -/
theorem scheduled_backup_once_a_day_retry :
    (∃ s : BackupSystem, s.store.files.length = 1 ∧ s.store.lastStatus = "success" ∧
      ∀ day, s.store.files.countP (·.day = some day) ≤ 1) ∧
    ∃ t : BackupSystem, t.store.lastError = "disk full" ∧ ∃ u : BackupSystem,
      u.store.files = t.store.files.filter (·.name ≠ backupArchiveName sampleBackupClock "0100") ++
        [⟨backupArchiveName sampleBackupClock "0100", false, 1, some sampleBackupClock.day⟩] := by
  have hholds :=
    scheduled_backup_once_a_day sampleBackupConfig (.fixed 0) sampleBackupClock ⟨none, "", "", []⟩
    (fun _ hf => by cases hf)
  constructor
  · have hrun : (exec (BackupSystem.step sampleBackupConfig (.fixed 0))
        (fun s e => RunsInTime sampleBackupConfig (.fixed 0) s e ∧ e.Completes (.fixed 0)) sampleBackups
        (sampleTick false sampleBackupClock
          [.create sampleBackupClock "00ff" (some "disk full"), .record] ++
          sampleTick true sampleBackupClock [.create sampleBackupClock "0100" none, .write 1 none,
            .retain (.listed []
              [⟨backupArchiveName sampleBackupClock "0100", false, 1, some sampleBackupClock.day⟩] none),
            .record])).any
        (fun s => s.store.files.length = 1 ∧ s.store.lastStatus = "success") = true := by
      decide +kernel
    obtain ⟨s, hs, hlast⟩ := (Option.any_eq_true _ _).1 hrun
    exact ⟨s, (of_decide_eq_true hlast).1, (of_decide_eq_true hlast).2, hholds.1 s (Path.of_exec hs)⟩
  · have hrun : (exec (BackupSystem.step sampleBackupConfig (.fixed 0))
        (RunsInTime sampleBackupConfig (.fixed 0)) sampleBackups
        (sampleTick false sampleBackupClock [])).any (fun s =>
          s.runs "owner-a" = some ⟨sampleBackupClock.nanos, .creating sampleBackupClock⟩ ∧
          (exec (BackupSystem.step sampleBackupConfig (.fixed 0))
            (fun s e => RunsInTime sampleBackupConfig (.fixed 0) s e ∧ e.LeavesNothing) s
            [.tick "owner-a" (.create sampleBackupClock "00ff" (some "disk full")),
             .tick "owner-a" .record]).any (fun t =>
              (t.store.lastError = "disk full" ∧ ∀ g ∈ t.lease.acquired backupTaskKey,
                t.runs g.owner = none) ∧
              t.lease.calls ("owner-a", backupTaskKey) = none ∧
                t.lease.clock.nanos ≤ sampleBackupClock.nanos ∧
              (acquireBackgroundTaskLease t.lease.leases "owner-a" backupTaskKey backupLeaseTTL
                sampleBackupClock).2 =
                true)) = true := by
      decide +kernel
    obtain ⟨s, hs, hfirst⟩ := (Option.any_eq_true _ _).1 hrun
    obtain ⟨hruns, hrest⟩ := of_decide_eq_true hfirst
    obtain ⟨t, ht, hlast⟩ := (Option.any_eq_true _ _).1 hrest
    obtain ⟨⟨herror, hidle⟩, hcall, hclock, hgranted⟩ := of_decide_eq_true hlast
    have hpath := Path.of_exec hs
    have hfailed := Path.of_exec ht
    have hinv : BackupSystemInv sampleBackupConfig (.fixed 0) t := BackupSystemInv.of_path
      (hpath.trans (hfailed.weaken (fun _ => True) (fun _ _ _ _ _ _ => trivial)
        (fun _ _ _ hok => hok.1) trivial)) (.initial _ _)
    -- the run that failed has ended, so no owner has one
    have hnone : ∀ o, t.runs o = none := by
      intro o
      cases ho : t.runs o with
      | none => rfl
      | some run =>
        rw [← ho]
        exact hidle _ (hinv.granted o run ho)
    obtain ⟨u, -, hfiles⟩ :=
      hholds.2 s hpath "owner-a" _ _ hruns t hfailed hnone "owner-a" sampleBackupClock hcall
      hclock hgranted rfl (fun h => by cases h) "0100" 1
    exact ⟨t, herror, u, hfiles⟩

/-- At 03:00 the archive is written and the listing for the retention fails; a minute later
the next tick writes a second archive. -/
theorem scheduled_backup_twice_a_day :
    ¬ ∀ (cfg : BackupConfig) (loc : Location) (clock : Time) (store : BackupStore),
    (∀ f ∈ store.files, f.day = none) →
      ∀ s, Path (BackupSystem.step cfg loc) (RunsInTime cfg loc) (.initial clock store) s →
        ∀ day, s.store.files.countP (·.day = some day) ≤ 1 := by
  intro h
  have hrun : (exec (BackupSystem.step sampleBackupConfig (.fixed 0))
      (RunsInTime sampleBackupConfig (.fixed 0)) sampleBackups
      (sampleTick false sampleBackupClock [.create sampleBackupClock "00ff" none, .write 1 none,
          .retain (.unlisted "permission denied"), .record] ++
        sampleTick true (sampleBackupClock.add (60 * nsPerSecond))
          [.create (sampleBackupClock.add (60 * nsPerSecond)) "0100" none, .write 2 none])).any
      (fun s => s.store.files.countP (·.day = some sampleBackupClock.day) = 2) = true := by
    decide +kernel
  obtain ⟨s, hs, htwo⟩ := (Option.any_eq_true _ _).1 hrun
  have hle :=
    h sampleBackupConfig (.fixed 0) sampleBackupClock ⟨none, "", "", []⟩ (fun _ hf => by cases hf) s
      (Path.of_exec hs)
    sampleBackupClock.day
  rw [of_decide_eq_true htwo] at hle
  exact absurd hle (by decide)

end Runs
end Subdux
