import Subdux.BackupSchedule
import Subdux.Lib.OpenFiles
import Subdux.Lib.Paths
import Subdux.Lib.Runs
/-!
# Backups on demand

`AdminService.BackupDB` and the handler around it. A request copies the database into a file
named after the second, packs it into an archive of the same name where a password or the assets
are asked for, and returns the path; the handler sends the file and removes it. Every file
operation is a step of its own, so requests overlap (`DownloadSystem`). The ZIP package is a
parameter. `step_cases`: a step is one of the moves of `DownloadMove`.
-/

namespace Subdux
open GoStrings GoPath

/-! ## Paths and archives -/

/-- `os.TempDir`: `TMPDIR`, or `/tmp` where it is not set. -/
def osTempDir (env : String) : String := if env ≠ "" then env else "/tmp"

def backupDBName (timestamp : Time) : String := "subdux-backup-" ++ timestamp.formatStamp ++ ".db"

def backupZipName (timestamp : Time) : String := "subdux-backup-" ++ timestamp.formatStamp ++ ".zip"

def backupDBPath (env : String) (timestamp : Time) : String :=
  join (osTempDir env) (backupDBName timestamp)

def backupZipPath (env : String) (timestamp : Time) : String :=
  join (osTempDir env) (backupZipName timestamp)

/-- An entry of an archive; `password` is empty where the entry is not encrypted, `salt` is the
randomness of the rest. -/
structure ZipItem where
  name : String
  content : List UInt8
  password : String
  salt : Nat
deriving DecidableEq

/-- The ZIP package: what it writes for an entry, and at the end. -/
structure ZipPackage where
  entry : ZipItem → List UInt8
  directory : List ZipItem → List UInt8

def ZipPackage.archive (zip : ZipPackage) (items : List ZipItem) : List UInt8 :=
  items.flatMap zip.entry ++ zip.directory items

/-- What is still to be added to an archive. -/
inductive ZipTodo where
  | database
  | directory
  | asset (name : String)
deriving DecidableEq

/-- An archive that is being written: `written` bytes of what the writer made are in the file,
`buffered` are not yet. -/
structure ZipWriting where
  file : Nat
  items : List ZipItem
  todo : List ZipTodo
  closed : Bool
  written : Nat
  buffered : List UInt8
deriving DecidableEq

/-- All the writer made so far. -/
def ZipWriting.made (zip : ZipPackage) (w : ZipWriting) : List UInt8 :=
  w.items.flatMap zip.entry ++ if w.closed then zip.directory w.items else []

def ZipWriting.start (file : Nat) (includeAssets : Bool) : ZipWriting :=
  ⟨file, [], .database :: if includeAssets then [.directory] else [], false, 0, []⟩

/-- An entry is added, and `todo` is left to add. -/
def ZipWriting.add (zip : ZipPackage) (w : ZipWriting) (item : ZipItem) (todo : List ZipTodo) :
    ZipWriting :=
  { w with items := w.items ++ [item], todo, buffered := w.buffered ++ zip.entry item }

/-- The next `n` bytes have gone to the file. -/
def ZipWriting.flush (w : ZipWriting) (n : Nat) : ZipWriting :=
  { w with written := w.written + (w.buffered.take n).length, buffered := w.buffered.drop n }

def ZipWriting.close (zip : ZipPackage) (w : ZipWriting) : ZipWriting :=
  { w with closed := true, buffered := w.buffered ++ zip.directory w.items }

/-- What a request got: a copy of the database, or an archive with it. -/
structure Backup where
  database : List UInt8
  items : Option (List ZipItem)
deriving DecidableEq

def Backup.bytes (zip : ZipPackage) (backup : Backup) : List UInt8 :=
  match backup.items with
  | none => backup.database
  | some items => zip.archive items

def Backup.path (env : String) (timestamp : Time) (backup : Backup) : String :=
  match backup.items with
  | none => backupDBPath env timestamp
  | some _ => backupZipPath env timestamp

/-! ## Requests -/

/-- What a request does next; `copy` is what `VACUUM INTO` wrote. -/
inductive DownloadPhase where
  | started
  | vacuuming (timestamp : Time)
  | creating (timestamp : Time) (copy : List UInt8)
  | writing (timestamp : Time) (copy : List UInt8) (w : ZipWriting)
  | finishing (timestamp : Time) (copy : List UInt8) (items : List ZipItem)
  /-- The archive failed, and its file is open where there is one. The copy is removed, then the
  archive. -/
  | failing (timestamp : Time) (copy : List UInt8) (file : Option Nat)
  | failed (timestamp : Time)
  | returned (timestamp : Time) (backup : Backup)
  | served (timestamp : Time) (backup : Backup) (body : Option (List UInt8))
deriving DecidableEq

structure Download where
  includeAssets : Bool
  password : String
  phase : DownloadPhase
deriving DecidableEq

def Download.goTo (d : Download) (phase : DownloadPhase) : Download := { d with phase }

/-- The password as `BackupDB` uses it. -/
def Download.trimmed (d : Download) : String := trimSpace d.password

/-- The request asks for the database alone, without a password. -/
def Download.raw (d : Download) : Bool := !d.includeAssets && d.trimmed = ""

structure DownloadSystem where
  database : List UInt8
  assets : List (String × List UInt8)
  files : Files
  requests : Nat → Option Download

inductive DownloadEvent where
  /-- The live database or the assets change. -/
  | writeDatabase (database : List UInt8)
  | writeAssets (assets : List (String × List UInt8))
  | request (i : Nat) (includeAssets : Bool) (password : String)
  | readClock (i : Nat) (now : Time)
  | vacuum (i : Nat)
  /-- `VACUUM INTO` fails on a free target, and may leave something there. -/
  | vacuumFails (i : Nat) (left : Option (List UInt8))
  | create (i : Nat) (fails : Bool)
  | add (i : Nat) (salt : Nat)
  /-- An operation of the archive's writer fails. -/
  | fail (i : Nat)
  /-- What closing the writer of a broken archive still writes. -/
  | leave (i offset : Nat) (bytes : List UInt8)
  /-- The next `n` bytes go to the file. -/
  | flush (i : Nat) (n : Nat)
  | close (i : Nat)
  | finish (i : Nat)
  /-- The next `os.Remove` of the request. -/
  | remove (i : Nat) (fails : Bool)
  | serve (i : Nat)

namespace DownloadSystem

def setRequest (s : DownloadSystem) (i : Nat) (d : Option Download) : DownloadSystem :=
  { s with requests := Runs.set s.requests i d }

def goOn (s : DownloadSystem) (i : Nat) (d : Download) (phase : DownloadPhase) : DownloadSystem :=
  s.setRequest i (some (d.goTo phase))

def setFiles (s : DownloadSystem) (files : Files) : DownloadSystem := { s with files }

/-- What the writer reads for an entry; `none` where it cannot. -/
def readItem (s : DownloadSystem) (env : String) (d : Download) (timestamp : Time) (salt : Nat) :
    ZipTodo → Option ZipItem
  | .database =>
    (s.files.read (backupDBPath env timestamp)).map fun content =>
    ⟨"subdux.db", content, d.trimmed, salt⟩
  | .directory => some ⟨"assets/", [], "", salt⟩
  | .asset name =>
    (s.assets.find? (·.1 = name)).map fun asset => ⟨"assets/" ++ name, asset.2, d.trimmed, salt⟩

/-- The walk over the assets starts behind their directory. -/
def moreTodo (s : DownloadSystem) : ZipTodo → List ZipTodo
  | .directory => s.assets.map fun asset => .asset asset.1
  | _ => []

def removeFile (s : DownloadSystem) (path : String) (fails : Bool) : DownloadSystem :=
  if fails then s else s.setFiles (s.files.remove path)

/-- A step of a request. -/
def requestStep (zip : ZipPackage) (env : String) (s : DownloadSystem) (i : Nat) (d : Download) :
    DownloadEvent → Option DownloadSystem
  | .readClock _ now =>
    match d.phase with
    | .started => some (s.goOn i d (.vacuuming now))
    | _ => none
  | .vacuum _ =>
    match d.phase with
    | .vacuuming timestamp =>
      if (s.files.nodes (backupDBPath env timestamp)).isSome then some (s.setRequest i none)
      else
        some ((s.setFiles (s.files.put (backupDBPath env timestamp) s.database)).goOn i d
          (if d.raw then .returned timestamp ⟨s.database, none⟩ else .creating timestamp s.database))
    | _ => none
  | .vacuumFails _ left =>
    match d.phase with
    | .vacuuming timestamp =>
      if (s.files.nodes (backupDBPath env timestamp)).isSome then none
      else some
        ((s.setFiles (left.elim s.files (s.files.put (backupDBPath env timestamp)))).setRequest i none)
    | _ => none
  | .create _ fails =>
    match d.phase with
    | .creating timestamp copy =>
      if fails then some (s.goOn i d (.failing timestamp copy none))
      else
        let created := s.files.create (backupZipPath env timestamp)
        some ((s.setFiles created.1).goOn i d
          (.writing timestamp copy (.start created.2 d.includeAssets)))
    | _ => none
  | .add _ salt =>
    match d.phase with
    | .writing timestamp copy w =>
      match w.todo with
      | [] => none
      | todo :: rest =>
        match s.readItem env d timestamp salt todo with
        | none => some (s.goOn i d (.failing timestamp copy (some w.file)))
        | some item =>
          some (s.goOn i d (.writing timestamp copy (w.add zip item (s.moreTodo todo ++ rest))))
    | _ => none
  | .fail _ =>
    match d.phase with
    | .writing timestamp copy w => some (s.goOn i d (.failing timestamp copy (some w.file)))
    | _ => none
  | .leave _ offset bytes =>
    match d.phase with
    | .failing _ _ (some file) =>
      some ((s.setFiles (s.files.write file offset bytes)).setRequest i (some d))
    | _ => none
  | .flush _ n =>
    match d.phase with
    | .writing timestamp copy w =>
      some ((s.setFiles (s.files.write w.file w.written (w.buffered.take n))).goOn i d
        (.writing timestamp copy (w.flush n)))
    | _ => none
  | .close _ =>
    match d.phase with
    | .writing timestamp copy w =>
      if w.todo = [] ∧ w.closed = false then
        some (s.goOn i d (.writing timestamp copy (w.close zip)))
      else none
    | _ => none
  | .finish _ =>
    match d.phase with
    | .writing timestamp copy w =>
      if w.closed = true ∧ w.buffered = []
        then some (s.goOn i d (.finishing timestamp copy w.items)) else none
    | _ => none
  | .remove _ fails =>
    match d.phase with
    | .finishing timestamp copy items =>
      some ((s.removeFile (backupDBPath env timestamp) fails).goOn i d
        (.returned timestamp ⟨copy, some items⟩))
    | .failing timestamp _ _ =>
      some ((s.removeFile (backupDBPath env timestamp) fails).goOn i d (.failed timestamp))
    | .failed timestamp => some ((s.removeFile (backupZipPath env timestamp) fails).setRequest i none)
    | .served timestamp backup _ =>
      some ((s.removeFile (backup.path env timestamp) fails).setRequest i none)
    | _ => none
  | .serve _ =>
    match d.phase with
    | .returned timestamp backup =>
      some (s.goOn i d (.served timestamp backup (s.files.read (backup.path env timestamp))))
    | _ => none
  | _ => none

end DownloadSystem

def DownloadEvent.requestOf : DownloadEvent → Option Nat
  | .writeDatabase _ | .writeAssets _ | .request _ _ _ => none
  | .readClock i _ | .vacuum i | .vacuumFails i _ | .create i _ | .add i _ | .fail i | .leave i
    _ _ | .flush i _ | .close i
  | .finish i | .remove i _ | .serve i => some i

def DownloadSystem.step (zip : ZipPackage) (env : String) (s : DownloadSystem) (e : DownloadEvent) :
    Option DownloadSystem :=
  match e with
  | .writeDatabase database => some { s with database }
  | .writeAssets assets => some { s with assets }
  | .request i includeAssets password =>
    match s.requests i with
    | some _ => none
    | none => some (s.setRequest i (some ⟨includeAssets, password, .started⟩))
  | e => e.requestOf.bind fun i => (s.requests i).bind fun d => s.requestStep zip env i d e

/-! ## What a step can do -/

/-- What request `i` in the state `d` does to the files, and what becomes of it. -/
inductive DownloadMove (zip : ZipPackage) (env : String) (s : DownloadSystem) (i : Nat) (d : Download) :
    DownloadEvent → Files → Option Download → Prop where
  | clock (now : Time) (hphase : d.phase = .started) :
      DownloadMove zip env s i d (.readClock i now) s.files (some (d.goTo (.vacuuming now)))
  | taken (timestamp : Time) (hphase : d.phase = .vacuuming timestamp) :
      DownloadMove zip env s i d (.vacuum i) s.files none
  | copied (timestamp : Time) (hphase : d.phase = .vacuuming timestamp)
      (hfree : s.files.nodes (backupDBPath env timestamp) = none) :
      DownloadMove zip env s i d (.vacuum i) (s.files.put (backupDBPath env timestamp) s.database)
        (some (d.goTo (if d.raw then .returned timestamp ⟨s.database, none⟩
          else .creating timestamp s.database)))
  | spoiled (timestamp : Time) (left : Option (List UInt8)) (hphase : d.phase = .vacuuming timestamp)
      (hfree : s.files.nodes (backupDBPath env timestamp) = none) :
      DownloadMove zip env s i d (.vacuumFails i left)
        (left.elim s.files (s.files.put (backupDBPath env timestamp))) none
  | uncreated (timestamp : Time) (copy : List UInt8) (hphase : d.phase = .creating timestamp copy) :
      DownloadMove zip env s i d (.create i true) s.files (some (d.goTo (.failing timestamp copy none)))
  | created (timestamp : Time) (copy : List UInt8) (hphase : d.phase = .creating timestamp copy) :
      DownloadMove zip env s i d (.create i false) (s.files.create (backupZipPath env timestamp)).1
        (some
          (d.goTo (.writing timestamp copy
            (.start (s.files.create (backupZipPath env timestamp)).2 d.includeAssets))))
  | added (timestamp : Time) (copy : List UInt8) (w : ZipWriting) (salt : Nat) (todo : ZipTodo)
    (rest : List ZipTodo)
      (item : ZipItem) (hphase : d.phase = .writing timestamp copy w) (htodo : w.todo = todo :: rest)
      (hitem : s.readItem env d timestamp salt todo = some item) :
      DownloadMove zip env s i d (.add i salt) s.files
        (some (d.goTo (.writing timestamp copy (w.add zip item (s.moreTodo todo ++ rest)))))
  | broken (e : DownloadEvent) (timestamp : Time) (copy : List UInt8) (w : ZipWriting)
      (hphase : d.phase = .writing timestamp copy w) :
      DownloadMove zip env s i d e s.files (some (d.goTo (.failing timestamp copy (some w.file))))
  | left (timestamp : Time) (copy : List UInt8) (file offset : Nat) (bytes : List UInt8)
      (hphase : d.phase = .failing timestamp copy (some file)) :
      DownloadMove zip env s i d (.leave i offset bytes) (s.files.write file offset bytes) (some d)
  | flushed (timestamp : Time) (copy : List UInt8) (w : ZipWriting) (n : Nat)
    (hphase : d.phase = .writing timestamp copy w) :
      DownloadMove zip env s i d (.flush i n) (s.files.write w.file w.written (w.buffered.take n))
        (some (d.goTo (.writing timestamp copy (w.flush n))))
  | closed (timestamp : Time) (copy : List UInt8) (w : ZipWriting)
    (hphase : d.phase = .writing timestamp copy w)
      (htodo : w.todo = []) (hopen : w.closed = false) :
      DownloadMove zip env s i d (.close i) s.files
        (some (d.goTo (.writing timestamp copy (w.close zip))))
  | finished (timestamp : Time) (copy : List UInt8) (w : ZipWriting)
    (hphase : d.phase = .writing timestamp copy w)
      (hclosed : w.closed = true) (hflushed : w.buffered = []) :
      DownloadMove zip env s i d (.finish i) s.files (some (d.goTo (.finishing timestamp copy w.items)))
  | returned (timestamp : Time) (copy : List UInt8) (items : List ZipItem) (fails : Bool)
      (hphase : d.phase = .finishing timestamp copy items) :
      DownloadMove zip env s i d (.remove i fails)
        (s.removeFile (backupDBPath env timestamp) fails).files
        (some (d.goTo (.returned timestamp ⟨copy, some items⟩)))
  | copyRemoved (timestamp : Time) (copy : List UInt8) (file : Option Nat) (fails : Bool)
      (hphase : d.phase = .failing timestamp copy file) :
      DownloadMove zip env s i d (.remove i fails)
        (s.removeFile (backupDBPath env timestamp) fails).files
        (some (d.goTo (.failed timestamp)))
  | archiveRemoved (timestamp : Time) (fails : Bool) (hphase : d.phase = .failed timestamp) :
      DownloadMove zip env s i d (.remove i fails)
        (s.removeFile (backupZipPath env timestamp) fails).files none
  | removed (timestamp : Time) (backup : Backup) (body : Option (List UInt8)) (fails : Bool)
      (hphase : d.phase = .served timestamp backup body) :
      DownloadMove zip env s i d (.remove i fails)
        (s.removeFile (backup.path env timestamp) fails).files none
  | served (timestamp : Time) (backup : Backup) (hphase : d.phase = .returned timestamp backup) :
      DownloadMove zip env s i d (.serve i) s.files
        (some (d.goTo (.served timestamp backup (s.files.read (backup.path env timestamp)))))

section Moves
variable {zip : ZipPackage} {env : String} {s t : DownloadSystem} {i : Nat} {d : Download}
  {e : DownloadEvent}

theorem removeFile_eq (s : DownloadSystem) (path : String) (fails : Bool) :
    s.removeFile path fails = s.setFiles (s.removeFile path fails).files := by
  cases fails <;> rfl

/-- Every step of a request is one of these moves. -/
theorem requestStep_move (hi : e.requestOf = some i) (h : s.requestStep zip env i d e = some t) :
    ∃ files next, DownloadMove zip env s i d e files next ∧
    t = (s.setFiles files).setRequest i next := by
  cases e with
  | writeDatabase => cases hi
  | writeAssets => cases hi
  | request => cases hi
  | readClock j now =>
    obtain rfl := Option.some.inj hi
    cases hphase : d.phase <;> simp only [DownloadSystem.requestStep, hphase, reduceCtorEq] at h
    obtain rfl := Option.some.inj h
    exact ⟨_, _, .clock now hphase, rfl⟩
  | vacuum j =>
    obtain rfl := Option.some.inj hi
    cases hphase : d.phase <;> simp only [DownloadSystem.requestStep, hphase, reduceCtorEq] at h
    split at h
    · obtain rfl := Option.some.inj h
      exact ⟨_, _, .taken _ hphase, rfl⟩
    · rename_i hfree
      obtain rfl := Option.some.inj h
      exact ⟨_, _, .copied _ hphase (by simpa using hfree), rfl⟩
  | vacuumFails j left =>
    obtain rfl := Option.some.inj hi
    cases hphase : d.phase <;> simp only [DownloadSystem.requestStep, hphase, reduceCtorEq] at h
    split at h
    · cases h
    · rename_i hfree
      obtain rfl := Option.some.inj h
      exact ⟨_, _, .spoiled _ left hphase (by simpa using hfree), rfl⟩
  | create j fails =>
    obtain rfl := Option.some.inj hi
    cases hphase : d.phase <;> simp only [DownloadSystem.requestStep, hphase, reduceCtorEq] at h
    cases fails with
    | true =>
      obtain rfl := Option.some.inj h
      exact ⟨_, _, .uncreated _ _ hphase, rfl⟩
    | false =>
      obtain rfl := Option.some.inj h
      exact ⟨_, _, .created _ _ hphase, rfl⟩
  | add j salt =>
    obtain rfl := Option.some.inj hi
    cases hphase : d.phase <;> simp only [DownloadSystem.requestStep, hphase, reduceCtorEq] at h
    split at h
    · cases h
    rename_i todo rest htodo
    split at h
    · obtain rfl := Option.some.inj h
      exact ⟨_, _, .broken _ _ _ _ hphase, rfl⟩
    · rename_i item hitem
      obtain rfl := Option.some.inj h
      exact ⟨_, _, .added _ _ _ salt todo rest item hphase htodo hitem, rfl⟩
  | fail j =>
    obtain rfl := Option.some.inj hi
    cases hphase : d.phase <;> simp only [DownloadSystem.requestStep, hphase, reduceCtorEq] at h
    obtain rfl := Option.some.inj h
    exact ⟨_, _, .broken _ _ _ _ hphase, rfl⟩
  | leave j offset bytes =>
    obtain rfl := Option.some.inj hi
    cases hphase : d.phase <;> simp only [DownloadSystem.requestStep, hphase, reduceCtorEq] at h
    split at h
    · rename_i _ _ _ hfailing
      obtain rfl := Option.some.inj h
      exact ⟨_, _, .left _ _ _ offset bytes (hphase.trans hfailing), rfl⟩
    · cases h
  | flush j n =>
    obtain rfl := Option.some.inj hi
    cases hphase : d.phase <;> simp only [DownloadSystem.requestStep, hphase, reduceCtorEq] at h
    obtain rfl := Option.some.inj h
    exact ⟨_, _, .flushed _ _ _ n hphase, rfl⟩
  | close j =>
    obtain rfl := Option.some.inj hi
    cases hphase : d.phase <;> simp only [DownloadSystem.requestStep, hphase, reduceCtorEq] at h
    split at h
    · rename_i hdone
      obtain rfl := Option.some.inj h
      exact ⟨_, _, .closed _ _ _ hphase hdone.1 hdone.2, rfl⟩
    · cases h
  | finish j =>
    obtain rfl := Option.some.inj hi
    cases hphase : d.phase <;> simp only [DownloadSystem.requestStep, hphase, reduceCtorEq] at h
    split at h
    · rename_i hdone
      obtain rfl := Option.some.inj h
      exact ⟨_, _, .finished _ _ _ hphase hdone.1 hdone.2, rfl⟩
    · cases h
  | remove j fails =>
    obtain rfl := Option.some.inj hi
    cases hphase : d.phase <;> simp only [DownloadSystem.requestStep, hphase, reduceCtorEq] at h <;>
      rw [removeFile_eq] at h <;> obtain rfl := Option.some.inj h
    · exact ⟨_, _, .returned _ _ _ fails hphase, rfl⟩
    · exact ⟨_, _, .copyRemoved _ _ _ fails hphase, rfl⟩
    · exact ⟨_, _, .archiveRemoved _ fails hphase, rfl⟩
    · exact ⟨_, _, .removed _ _ _ fails hphase, rfl⟩
  | serve j =>
    obtain rfl := Option.some.inj hi
    cases hphase : d.phase <;> simp only [DownloadSystem.requestStep, hphase, reduceCtorEq] at h
    obtain rfl := Option.some.inj h
    exact ⟨_, _, .served _ _ hphase, rfl⟩

/-- What happens to the files and the requests in a step of the system. -/
theorem step_cases (h : s.step zip env e = some t) :
    (∃ database assets, t = { s with database, assets }) ∨
    (∃ i includeAssets password, e = .request i includeAssets password ∧ s.requests i = none ∧
      t = s.setRequest i (some ⟨includeAssets, password, .started⟩)) ∨
    ∃ i d files next, s.requests i = some d ∧ DownloadMove zip env s i d e files next ∧
      t = (s.setFiles files).setRequest i next := by
  have hrequest : (e.requestOf.bind fun i => (s.requests i).bind fun d =>
      s.requestStep zip env i d e) = some t →
      ∃ i d files next, s.requests i = some d ∧ DownloadMove zip env s i d e files next ∧
        t = (s.setFiles files).setRequest i next := by
    intro h
    obtain ⟨i, hi, h⟩ := Option.bind_eq_some_iff.1 h
    obtain ⟨d, hd, h⟩ := Option.bind_eq_some_iff.1 h
    obtain ⟨files, next, hmove, rfl⟩ := requestStep_move hi h
    exact ⟨i, d, files, next, hd, hmove, rfl⟩
  cases e with
  | writeDatabase database =>
    obtain rfl := Option.some.inj h
    exact .inl ⟨database, s.assets, rfl⟩
  | writeAssets assets =>
    obtain rfl := Option.some.inj h
    exact .inl ⟨s.database, assets, rfl⟩
  | request i includeAssets password =>
    simp only [DownloadSystem.step] at h
    split at h
    · cases h
    · rename_i hnone
      obtain rfl := Option.some.inj h
      exact .inr (.inl ⟨i, includeAssets, password, rfl, hnone, rfl⟩)
  | _ => exact .inr (.inr (hrequest h))

end Moves

end Subdux
