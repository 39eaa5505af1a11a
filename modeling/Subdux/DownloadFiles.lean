import Subdux.BackupDownloads
/-!
# The files of overlapping backups

What each request for a backup has on the disk (`Download.copyAt`, `Download.archiveAt`) and where
it may change the files (`Footprint`), whatever the others do meanwhile. The copies never meet,
because `VACUUM INTO` refuses a path that is taken; the archives do when two requests read the
same second.

`downloads_keep_their_files`: a copy of the database stays what its request asked for, and so does
an archive when no request creates an archive where another still has one.
-/

namespace Subdux
open GoStrings GoPath Files
open Runs (Path exec)

/-! ## What a request holds -/

/-- The copy of the database that the request has on the disk. -/
def Download.copyAt (env : String) (d : Download) : Option (String × List UInt8) :=
  match d.phase with
  | .creating timestamp copy | .writing timestamp copy _ | .finishing timestamp copy _ | .failing
    timestamp copy _
  | .returned timestamp ⟨copy, none⟩ | .served timestamp ⟨copy, none⟩ _ =>
    some (backupDBPath env timestamp, copy)
  | _ => none

/-- Where the request has an archive, or is about to remove one. -/
def Download.archiveAt (env : String) (d : Download) : Option String :=
  match d.phase with
  | .writing timestamp _ _ | .finishing timestamp _ _ | .failing timestamp _ _ | .failed timestamp
  | .returned timestamp ⟨_, some _⟩ | .served timestamp ⟨_, some _⟩ _ =>
    some (backupZipPath env timestamp)
  | _ => none

/-- The file that the request has open, and its path. -/
def Download.openAt (env : String) (d : Download) : Option (Nat × String) :=
  match d.phase with
  | .writing timestamp _ w => some (w.file, backupZipPath env timestamp)
  | .failing timestamp _ (some file) => some (file, backupZipPath env timestamp)
  | _ => none

/-- The entries of the request's archive, when it is complete. -/
def Download.complete (d : Download) : Option (Time × List ZipItem) :=
  match d.phase with
  | .finishing timestamp _ items | .returned timestamp ⟨_, some items⟩ | .served timestamp
    ⟨_, some items⟩ _ =>
    some (timestamp, items)
  | _ => none

/-- What `BackupDB` has returned to the request. -/
def Download.held (d : Download) : Option (Time × Backup) :=
  match d.phase with
  | .returned timestamp backup | .served timestamp backup _ => some (timestamp, backup)
  | _ => none

/-- What was sent to the request, with what `BackupDB` had returned to it. -/
def Download.response (d : Download) : Option (Backup × Option (List UInt8)) :=
  match d.phase with
  | .served _ backup body => some (backup, body)
  | _ => none

/-- The entries of an archive with this choice of assets and this password. -/
inductive ArchiveOf (includeAssets : Bool) (password : String) (copy : List UInt8) :
    List ZipItem → Prop where
  | plain (salt : Nat) (h : includeAssets = false) :
      ArchiveOf includeAssets password copy [⟨"subdux.db", copy, password, salt⟩]
  | assets (salt salt' : Nat) (files : List ZipItem) (h : includeAssets = true)
      (hfiles : ∀ f ∈ files, f.password = password ∧ ∃ name, f.name = "assets/" ++ name) :
      ArchiveOf includeAssets password copy
        (⟨"subdux.db", copy, password, salt⟩ :: ⟨"assets/", [], "", salt'⟩ :: files)

/-- The same for an archive to which `todo` is still to be added. -/
inductive Planned (includeAssets : Bool) (password : String) (copy : List UInt8) :
    List ZipItem → List ZipTodo → Prop where
  | start : Planned includeAssets password copy []
    (.database :: if includeAssets then [.directory] else [])
  | database (salt : Nat) :
      Planned includeAssets password copy [⟨"subdux.db", copy, password, salt⟩]
        (if includeAssets then [.directory] else [])
  | assets (salt salt' : Nat) (files : List ZipItem) (names : List String) (h : includeAssets = true)
      (hfiles : ∀ f ∈ files, f.password = password ∧ ∃ name, f.name = "assets/" ++ name) :
      Planned includeAssets password copy
        (⟨"subdux.db", copy, password, salt⟩ :: ⟨"assets/", [], "", salt'⟩ :: files)
        (names.map .asset)

/-- The backup is of the kind the request asks for. -/
def Asked (d : Download) (backup : Backup) : Prop :=
  match backup.items with
  | none => d.raw = true
  | some items => d.raw = false ∧ ArchiveOf d.includeAssets d.trimmed backup.database items

/-- What is in the request's hands is what it asks for. -/
def Download.Sound (d : Download) : Prop :=
  match d.phase with
  | .creating _ _ => d.raw = false
  | .writing _ copy w =>
    d.raw = false ∧ Planned d.includeAssets d.trimmed copy w.items w.todo ∧
      (w.closed = true → w.todo = [])
  | .finishing _ copy items => d.raw = false ∧ ArchiveOf d.includeAssets d.trimmed copy items
  | .returned _ backup | .served _ backup _ => Asked d backup
  | _ => True

section Paths
variable {env : String} {timestamp timestamp' : Time} {d : Download}

theorem osTempDir_ne (env : String) : osTempDir env ≠ "" := by
  rw [osTempDir]
  split
  · assumption
  · decide

theorem no_slash_zeroPadded (width : Nat) (n : Int) : '/' ∉ (zeroPadded width n).toList := by
  rw [zeroPadded, String.toList_append, String.toList_append, String.toList_ofList, List.mem_append,
    List.mem_append, not_or,
    not_or]
  refine ⟨⟨?_, fun h => ?_⟩, slash_not_mem_toString _⟩
  · split <;> decide
  · exact absurd (List.eq_of_mem_replicate h) (by decide)

theorem no_slash_formatStamp (t : Time) : '/' ∉ t.formatStamp.toList := by
  simp only [Time.formatStamp, String.toList_append, List.mem_append, no_slash_zeroPadded, false_or,
    or_false]
  decide

/-- The name of a backup file is a name. -/
theorem elements_backupName (t : Time) {extension : String} (h : '/' ∉ extension.toList) :
    ∀ e ∈ elements ("subdux-backup-" ++ t.formatStamp ++ extension), IsName e := by
  have htext : ("subdux-backup-" ++ t.formatStamp ++ extension).toList =
      's' :: 'u' :: 'b' :: ("dux-backup-".toList ++ t.formatStamp.toList ++ extension.toList) := by
    rw [String.toList_append, String.toList_append]
    rfl
  have hslash : '/' ∉ ("subdux-backup-" ++ t.formatStamp ++ extension).toList := by
    rw [htext]
    simp [no_slash_formatStamp, h]
  intro e he
  rw [elements, List.splitOn_eq_singleton hslash, List.mem_singleton] at he
  rw [he]
  constructor
  · rw [htext]
    exact List.cons_ne_nil _ _
  · rw [htext]
    simp [dot]
  · rw [htext]
    simp [dotdot]
  · exact hslash

/-- A copy of the database and an archive are never at one path. -/
theorem backupDBPath_ne : backupDBPath env timestamp ≠ backupZipPath env timestamp' := by
  intro h
  have hname : backupDBName timestamp = backupZipName timestamp' :=
    position_join_inj (osTempDir_ne env) (elements_backupName _ (by decide))
      (elements_backupName _ (by decide))
      (congrArg position h)
  have hlast := congrArg (fun name => name.toList.getLast?) hname
  have hdb : ".db".toList = ['.', 'd'] ++ ['b'] := rfl
  have hzip : ".zip".toList = ['.', 'z', 'i'] ++ ['p'] := rfl
  simp only [backupDBName, backupZipName, String.toList_append, hdb, hzip, ← List.append_assoc,
    List.getLast?_concat,
    Option.some.injEq] at hlast
  exact absurd hlast (by decide)

theorem copyAt_path {p : String} {copy : List UInt8} (h : d.copyAt env = some (p, copy)) :
    ∃ t, p = backupDBPath env t := by
  unfold Download.copyAt at h
  split at h
  all_goals first
    | exact ⟨_, (Prod.mk.inj (Option.some.inj h)).1.symm⟩
    | cases h

theorem archiveAt_path {p : String} (h : d.archiveAt env = some p) : ∃ t, p = backupZipPath env t := by
  unfold Download.archiveAt at h
  split at h
  all_goals first
    | exact ⟨_, (Option.some.inj h).symm⟩
    | cases h

end Paths

section Footprint
variable {zip : ZipPackage} {env : String} {s : DownloadSystem} {i : Nat} {d : Download}
  {e : DownloadEvent}
  {files : Files} {next : Option Download}

/-- The paths at which a request may change the files: a free one for its copy, that of its copy,
and that of its archive, which it has or is about to create. -/
inductive Footprint (env : String) (s : DownloadSystem) (i : Nat) (d : Download) (e : DownloadEvent)
    (next : Option Download) : String → Prop where
  | free (timestamp : Time) (h : s.files.nodes (backupDBPath env timestamp) = none) :
      Footprint env s i d e next (backupDBPath env timestamp)
  | copy (p : String) (copy : List UInt8) (h : d.copyAt env = some (p, copy))
    (hnext : next.bind (·.copyAt env) = none) :
      Footprint env s i d e next p
  | archive (p : String) (h : d.archiveAt env = some p) : Footprint env s i d e next p
  | create (timestamp : Time) (copy : List UInt8) (he : e = .create i false)
      (h : d.phase = .creating timestamp copy) : Footprint env s i d e next (backupZipPath env timestamp)

theorem touches_removeFile (s : DownloadSystem) (p : String) (fails : Bool) :
    Files.Touches s.files (s.removeFile p fails).files p := by
  cases fails with
  | true => exact Files.touches_refl s.files p
  | false => exact Files.touches_remove s.files p

/-- A move changes the files at one path of the footprint, if at all. -/
theorem DownloadMove.touches (h : DownloadMove zip env s i d e files next)
    (hopen : ∀ n p, d.openAt env = some (n, p) → s.files.OnlyAt n p) :
    files = s.files ∨ ∃ p, Files.Touches s.files files p ∧ Footprint env s i d e next p := by
  cases h with
  | copied timestamp hphase hfree => exact .inr ⟨_, Files.touches_put .., .free timestamp hfree⟩
  | spoiled timestamp left hphase hfree =>
    cases left with
    | none => exact .inl rfl
    | some content => exact .inr ⟨_, Files.touches_put .., .free timestamp hfree⟩
  | created timestamp copy hphase =>
    exact .inr ⟨_, Files.touches_create .., .create timestamp copy rfl hphase⟩
  | left timestamp copy file offset bytes hphase =>
    have hat : d.archiveAt env = some (backupZipPath env timestamp) := by rw [Download.archiveAt, hphase]
    exact .inr ⟨_, Files.touches_write (hopen file _ (by rw [Download.openAt, hphase])), .archive _ hat⟩
  | flushed timestamp copy w n hphase =>
    have hat : d.archiveAt env = some (backupZipPath env timestamp) := by rw [Download.archiveAt, hphase]
    exact .inr ⟨_, Files.touches_write (hopen w.file _ (by rw [Download.openAt, hphase])),
      .archive _ hat⟩
  | returned timestamp copy items fails hphase =>
    exact .inr ⟨_, touches_removeFile .., .copy _ copy (by rw [Download.copyAt, hphase]) rfl⟩
  | copyRemoved timestamp copy file fails hphase =>
    exact .inr ⟨_, touches_removeFile .., .copy _ copy (by rw [Download.copyAt, hphase]) rfl⟩
  | archiveRemoved timestamp fails hphase =>
    exact .inr ⟨_, touches_removeFile .., .archive _ (by rw [Download.archiveAt, hphase])⟩
  | removed timestamp backup body fails hphase =>
    obtain ⟨database, items⟩ := backup
    cases items with
    | none =>
      exact .inr ⟨_, touches_removeFile .., .copy _ database (by rw [Download.copyAt, hphase]; rfl) rfl⟩
    | some items =>
      exact .inr ⟨_, touches_removeFile .., .archive _ (by rw [Download.archiveAt, hphase]; rfl)⟩
  | _ => exact .inl rfl

/-- A copy that a request has after a move is the one it had, or it has just made it where nothing
was. -/
theorem DownloadMove.copyAt_next (h : DownloadMove zip env s i d e files next) (p : String)
    (copy : List UInt8) (hnext : next.bind (·.copyAt env) = some (p, copy)) :
    d.copyAt env = some (p, copy) ∨ (s.files.nodes p = none ∧ files.read p = some copy) := by
  cases h with
  | copied timestamp hphase hfree =>
    right
    have hp : backupDBPath env timestamp = p ∧ s.database = copy := by
      cases hraw : d.raw <;> rw [hraw] at hnext <;> exact Prod.mk.inj (Option.some.inj hnext)
    obtain ⟨rfl, rfl⟩ := hp
    exact ⟨hfree, Files.read_put_self⟩
  | served timestamp backup hphase =>
    left
    obtain ⟨database, items⟩ := backup
    rw [Download.copyAt, hphase]
    cases items with
    | none => exact hnext
    | some items => cases hnext
  | left timestamp copy file offset bytes hphase => exact .inl hnext
  | uncreated _ _ hphase | created _ _ hphase | added _ _ _ _ _ _ _ hphase | broken _ _ _ _ hphase
  | flushed _ _ _ _ hphase | closed _ _ _ hphase | finished _ _ _ hphase =>
    left
    rw [Download.copyAt, hphase]
    exact hnext
  | _ => cases hnext

/-- The archive of a request is the one it had, or it has just created it. -/
theorem DownloadMove.archiveAt_next (h : DownloadMove zip env s i d e files next) {p : String}
    (hnext : next.bind (·.archiveAt env) = some p) :
    d.archiveAt env = some p ∨
      ∃ fails timestamp copy, e = .create i fails ∧ d.phase = .creating timestamp copy ∧
        p = backupZipPath env timestamp := by
  cases h with
  | copied timestamp hphase hfree => cases hraw : d.raw <;> rw [hraw] at hnext <;> cases hnext
  | uncreated timestamp copy hphase =>
    exact .inr ⟨_, timestamp, copy, rfl, hphase, (Option.some.inj hnext).symm⟩
  | created timestamp copy hphase =>
    exact .inr ⟨_, timestamp, copy, rfl, hphase, (Option.some.inj hnext).symm⟩
  | served timestamp backup hphase =>
    left
    obtain ⟨database, items⟩ := backup
    rw [Download.archiveAt, hphase]
    cases items with
    | none => cases hnext
    | some items => exact hnext
  | left timestamp copy file offset bytes hphase => exact .inl hnext
  | added _ _ _ _ _ _ _ hphase | broken _ _ _ _ hphase | flushed _ _ _ _ hphase | closed _ _ _ hphase
  | finished _ _ _ hphase | returned _ _ _ _ hphase | copyRemoved _ _ _ _ hphase =>
    left
    rw [Download.archiveAt, hphase]
    exact hnext
  | _ => cases hnext

/-- An open file of a request is the one it had open, or the one it has just created. -/
theorem DownloadMove.openAt_next (h : DownloadMove zip env s i d e files next) {n : Nat} {p : String}
    (hnext : next.bind (·.openAt env) = some (n, p)) :
    d.openAt env = some (n, p) ∨ files.OnlyAt n p := by
  cases h with
  | copied timestamp hphase hfree => cases hraw : d.raw <;> rw [hraw] at hnext <;> cases hnext
  | created timestamp copy hphase =>
    obtain ⟨rfl, rfl⟩ := Prod.mk.inj (Option.some.inj hnext)
    exact .inr (Files.onlyAt_create ..)
  | left timestamp copy file offset bytes hphase => exact .inl hnext
  | added _ _ _ _ _ _ _ hphase | broken _ _ _ _ hphase | flushed _ _ _ _ hphase | closed _ _ _ hphase =>
    left
    rw [Download.openAt, hphase]
    exact hnext
  | _ => cases hnext

/-- What is sent is what is at the path of the backup. -/
theorem DownloadMove.response_next (h : DownloadMove zip env s i d e files next) (backup : Backup)
    (body : Option (List UInt8)) (hnext : next.bind (·.response) = some (backup, body)) :
    ∃ timestamp, d.phase = .returned timestamp backup ∧
    body = s.files.read (backup.path env timestamp) := by
  cases h with
  | copied timestamp hphase hfree => cases hraw : d.raw <;> rw [hraw] at hnext <;> cases hnext
  | left timestamp copy file offset bytes hphase =>
    rw [Option.bind_some, Download.response, hphase] at hnext
    cases hnext
  | served timestamp backup' hphase =>
    obtain ⟨rfl, rfl⟩ := Prod.mk.inj (Option.some.inj hnext)
    exact ⟨timestamp, hphase, rfl⟩
  | _ => cases hnext

end Footprint

/-! ## What a request asks for -/

section Sound
variable {zip : ZipPackage} {env : String} {s : DownloadSystem} {i : Nat} {d : Download}
  {e : DownloadEvent}
  {files : Files} {next : Option Download} {includeAssets : Bool} {password : String} {copy : List UInt8}

theorem Planned.complete {items : List ZipItem} (h : Planned includeAssets password copy items []) :
    ArchiveOf includeAssets password copy items := by
  generalize htodo : ([] : List ZipTodo) = todo at h
  cases h with
  | start => cases htodo
  | database salt =>
    cases includeAssets with
    | true => cases htodo
    | false => exact .plain salt rfl
  | assets salt salt' files names h hfiles => exact .assets salt salt' files h hfiles

/-- An entry is added by the plan, when the copy of the database is in its place. -/
theorem Planned.add {items : List ZipItem} {todo : ZipTodo} {rest : List ZipTodo} {timestamp : Time}
    {salt : Nat} {item : ZipItem} (h : Planned d.includeAssets d.trimmed copy items (todo :: rest))
    (hcopy : s.files.read (backupDBPath env timestamp) = some copy)
    (hitem : s.readItem env d timestamp salt todo = some item) :
    Planned d.includeAssets d.trimmed copy (items ++ [item]) (s.moreTodo todo ++ rest) := by
  generalize htodo : todo :: rest = plan at h
  cases h with
  | start =>
    obtain ⟨rfl, rfl⟩ := List.cons.inj htodo
    simp only [DownloadSystem.readItem, hcopy, Option.map_some] at hitem
    obtain rfl := Option.some.inj hitem
    exact .database salt
  | database salt₀ =>
    cases hassets : d.includeAssets with
    | false =>
      rw [hassets] at htodo
      cases htodo
    | true =>
      rw [hassets] at htodo
      obtain ⟨rfl, rfl⟩ := List.cons.inj htodo
      obtain rfl := Option.some.inj hitem
      have hnames : s.moreTodo .directory ++ [] = (s.assets.map (·.1)).map ZipTodo.asset := by
        rw [List.append_nil, List.map_map]
        rfl
      rw [hnames]
      exact .assets salt₀ salt [] _ rfl (by simp)
  | assets salt₀ salt' files names h hfiles =>
    cases names with
    | nil => cases htodo
    | cons name names =>
      obtain ⟨rfl, rfl⟩ := List.cons.inj htodo
      obtain ⟨asset, -, rfl⟩ := Option.map_eq_some_iff.1 hitem
      refine .assets salt₀ salt' (files ++ [_]) names h fun f hf => ?_
      rcases List.mem_append.1 hf with hf | hf
      · exact hfiles f hf
      · rw [List.mem_singleton.1 hf]
        exact ⟨rfl, name, rfl⟩

/-- What a request has after a move is still what it asks for. -/
theorem DownloadMove.sound_next (h : DownloadMove zip env s i d e files next) (hs : d.Sound)
    (hkept : ∀ p copy, d.copyAt env = some (p, copy) → s.files.read p = some copy) : ∀ d',
    next = some d' → d'.Sound := by
  rintro d' rfl
  cases h with
  | clock now hphase => trivial
  | copied timestamp hphase hfree =>
    cases hraw : d.raw with
    | true => exact hraw
    | false => exact hraw
  | uncreated timestamp copy hphase => trivial
  | created timestamp copy hphase =>
    rw [Download.Sound, hphase] at hs
    exact ⟨hs, .start, by intro h; cases h⟩
  | added timestamp copy w salt todo rest item hphase htodo hitem =>
    have hcopy := hkept _ copy (by rw [Download.copyAt, hphase])
    rw [Download.Sound, hphase] at hs
    obtain ⟨hraw, hplan, hclosed⟩ := hs
    rw [htodo] at hplan hclosed
    exact ⟨hraw, hplan.add hcopy hitem, fun h => nomatch hclosed h⟩
  | broken _ timestamp copy w hphase => trivial
  | left timestamp copy file offset bytes hphase => exact hs
  | flushed timestamp copy w n hphase =>
    rw [Download.Sound, hphase] at hs
    exact hs
  | closed timestamp copy w hphase htodo hopen =>
    rw [Download.Sound, hphase] at hs
    exact ⟨hs.1, hs.2.1, fun _ => htodo⟩
  | finished timestamp copy w hphase hclosed hflushed =>
    rw [Download.Sound, hphase] at hs
    obtain ⟨hraw, hplan, hdone⟩ := hs
    rw [hdone hclosed] at hplan
    exact ⟨hraw, hplan.complete⟩
  | returned timestamp copy items fails hphase =>
    rw [Download.Sound, hphase] at hs
    exact hs
  | copyRemoved timestamp copy file fails hphase => trivial
  | served timestamp backup hphase =>
    rw [Download.Sound, hphase] at hs
    exact hs

end Sound

/-! ## Copies of the database -/

def DownloadSystem.copyPath (env : String) (s : DownloadSystem) (i : Nat) : Option String :=
  (s.requests i).bind fun d => (d.copyAt env).map (·.1)

def DownloadSystem.archivePath (env : String) (s : DownloadSystem) (i : Nat) : Option String :=
  (s.requests i).bind (·.archiveAt env)

/-- The copies of the database are where the requests left them, each with one request. -/
structure CopiesKept (env : String) (s : DownloadSystem) : Prop where
  sound : ∀ i d, s.requests i = some d → d.Sound
  kept : ∀ i d, s.requests i = some d → ∀ p copy, d.copyAt env = some (p, copy) →
    s.files.read p = some copy
  opened : ∀ i d, s.requests i = some d → ∀ n p, d.openAt env = some (n, p) → s.files.OnlyAt n p
  apart : Apart (s.copyPath env)
  sent : ∀ i d, s.requests i = some d → ∀ copy body, d.response = some (⟨copy, none⟩, body) →
    body = some copy

section Copies
variable {zip : ZipPackage} {env : String} {s t : DownloadSystem} {i j : Nat} {d : Download}
  {e : DownloadEvent}
  {files : Files} {next : Option Download} {p : String}

theorem copyPath_of (hd : s.requests i = some d) {copy : List UInt8}
    (h : d.copyAt env = some (p, copy)) :
    s.copyPath env i = some p := by
  rw [DownloadSystem.copyPath, hd, Option.bind_some, h, Option.map_some]

/-- A copy in the hands of another request is not in the footprint, and neither is the own one when
it stays. -/
theorem Footprint.copy_ne (h : Footprint env s i d e next p) (hs : CopiesKept env s)
    (hd : s.requests i = some d) {d' : Download} (hd' : s.requests j = some d') {q : String}
    {copy : List UInt8} (hq : d'.copyAt env = some (q, copy))
    (hown : j = i → next.bind (·.copyAt env) ≠ none) : q ≠ p := by
  rintro rfl
  obtain ⟨t, rfl⟩ := copyAt_path hq
  generalize hp : backupDBPath env t = p at h hq
  cases h with
  | free timestamp hfree =>
    have hread := hs.kept j d' hd' _ _ hq
    rw [Files.read, hfree] at hread
    cases hread
  | copy _ copy' hcopy hnext =>
    exact hown (hs.apart j i p (copyPath_of hd' hq) (copyPath_of hd hcopy)) hnext
  | archive _ harchive =>
    obtain ⟨t', rfl⟩ := archiveAt_path harchive
    exact backupDBPath_ne hp
  | create timestamp copy he hphase => exact backupDBPath_ne hp

theorem copiesKept_move (hd : s.requests i = some d) (h : DownloadMove zip env s i d e files next)
    (hs : CopiesKept env s) :
    CopiesKept env ((s.setFiles files).setRequest i next) := by
  have htouches := h.touches (hs.opened i d hd)
  -- What a request had, and still has, is untouched.
  have hframe : ∀ j d', s.requests j = some d' → ∀ q copy, d'.copyAt env = some (q, copy) →
      (j = i → next.bind (·.copyAt env) ≠ none) → files.read q = some copy := by
    intro j d' hd' q copy hq hown
    rcases htouches with rfl | ⟨p, htouch, hp⟩
    · exact hs.kept j d' hd' q copy hq
    · rw [htouch.read q (hp.copy_ne hs hd hd' hq hown)]
      exact hs.kept j d' hd' q copy hq
  constructor
  case sound => exact Runs.forall_set hs.sound (h.sound_next (hs.sound i d hd) (hs.kept i d hd))
  case kept =>
    refine Runs.forall_set_of_ne
      (fun j d' hj hd' p copy hp => hframe j d' hd' p copy hp fun heq => absurd heq hj) ?_
    rintro d' rfl p copy hp
    rcases h.copyAt_next p copy hp with hold | ⟨-, hread⟩
    · exact hframe i d hd p copy hold fun _ => by rw [Option.bind_some, hp]; simp
    · exact hread
  case opened =>
    have honly : ∀ n p, s.files.OnlyAt n p → files.OnlyAt n p := by
      intro n p hat
      rcases htouches with rfl | ⟨q, htouch, -⟩
      · exact hat
      · exact htouch.only n p hat
    refine Runs.forall_set (fun j d' hd' n p hat => honly n p (hs.opened j d' hd' n p hat)) ?_
    rintro d' rfl n p hat
    rcases h.openAt_next (n := n) (p := p) hat with hold | hnew
    · exact honly n p (hs.opened i d hd n p hold)
    · exact hnew
  case apart =>
    refine hs.apart.change (i := i) (fun j hj => ?_) fun p hp => ?_
    · rw [DownloadSystem.copyPath, DownloadSystem.copyPath]
      exact congrArg (Option.bind · _) (Runs.set_of_ne _ _ hj)
    have hset : ((s.setFiles files).setRequest i next).copyPath env i = next.bind fun d =>
        (d.copyAt env).map (·.1) :=
      congrArg (Option.bind · _) (Runs.set_self ..)
    rw [hset] at hp
    obtain ⟨d', rfl, hp⟩ := Option.bind_eq_some_iff.1 hp
    obtain ⟨⟨q, copy⟩, hcopy, rfl⟩ := Option.map_eq_some_iff.1 hp
    rcases h.copyAt_next q copy hcopy with hold | ⟨hfree, -⟩
    · exact .inl (copyPath_of hd hold)
    -- Nobody has a copy where there is no file.
    · refine .inr fun j _ hj => ?_
      obtain ⟨d₂, hd₂, hj⟩ := Option.bind_eq_some_iff.1 hj
      obtain ⟨⟨q', copy₂⟩, hcopy₂, hq⟩ := Option.map_eq_some_iff.1 hj
      obtain rfl : q' = q := hq
      have hread := hs.kept j d₂ hd₂ _ _ hcopy₂
      rw [Files.read, hfree] at hread
      cases hread
  case sent =>
    refine Runs.forall_set hs.sent ?_
    rintro d' rfl copy body hresponse
    obtain ⟨timestamp, hphase, rfl⟩ := h.response_next ⟨copy, none⟩ body hresponse
    exact hs.kept i d hd _ copy (by rw [Download.copyAt, hphase]; rfl)

theorem copiesKept_start (env : String) (d : List UInt8) (assets : List (String × List UInt8))
    (files : Files) :
    CopiesKept env ⟨d, assets, files, fun _ => none⟩ := by
  constructor
  · rintro _ _ ⟨⟩
  · rintro _ _ ⟨⟩
  · rintro _ _ ⟨⟩
  · rintro _ _ _ ⟨⟩
  · rintro _ _ ⟨⟩

/-- A new request has nothing yet. -/
theorem copiesKept_request (includeAssets : Bool) (password : String) (hs : CopiesKept env s) :
    CopiesKept env (s.setRequest i (some ⟨includeAssets, password, .started⟩)) := by
  constructor
  case sound => exact Runs.forall_set hs.sound (by rintro _ ⟨⟩; trivial)
  case kept => exact Runs.forall_set hs.kept (by rintro _ ⟨⟩ _ _ ⟨⟩)
  case opened => exact Runs.forall_set hs.opened (by rintro _ ⟨⟩ _ _ ⟨⟩)
  case apart =>
    refine hs.apart.change (i := i) (fun j hj => ?_) fun p hp => ?_
    · rw [DownloadSystem.copyPath, DownloadSystem.copyPath]
      exact congrArg (Option.bind · _) (Runs.set_of_ne _ _ hj)
    · rw [DownloadSystem.copyPath, show (s.setRequest i _).requests i = _ from Runs.set_self ..] at hp
      cases hp
  case sent => exact Runs.forall_set hs.sent (by rintro _ ⟨⟩ _ _ ⟨⟩)

theorem copiesKept_step (h : s.step zip env e = some t) (hs : CopiesKept env s) : CopiesKept env t := by
  rcases step_cases h with ⟨database, assets, rfl⟩ | ⟨i, includeAssets, password, -, -, rfl⟩ |
    ⟨i, d, files, next, hd, hmove, rfl⟩
  · exact ⟨hs.sound, hs.kept, hs.opened, hs.apart, hs.sent⟩
  · exact copiesKept_request includeAssets password hs
  · exact copiesKept_move hd hmove hs

end Copies

/-! ## Archives -/

/-- No archive is created where another request has one. -/
def CreatesApart (env : String) (s : DownloadSystem) : DownloadEvent → Prop
  | .create i _ => ∀ d timestamp copy, s.requests i = some d → d.phase = .creating timestamp copy →
      ∀ j, j ≠ i → s.archivePath env j ≠ some (backupZipPath env timestamp)
  | _ => True

/-- The file has what the writer made, but for what is buffered. -/
structure ZipWriting.Filled (zip : ZipPackage) (files : Files) (p : String) (w : ZipWriting) : Prop where
  node : files.nodes p = some w.file
  written : (files.contents w.file).length = w.written
  made : files.contents w.file ++ w.buffered = w.made zip

/-- The archives are where the requests write them, each with one request. -/
structure ArchivesKept (zip : ZipPackage) (env : String) (s : DownloadSystem) : Prop where
  filled : ∀ i d, s.requests i = some d → ∀ timestamp copy w, d.phase = .writing timestamp copy w →
    w.Filled zip s.files (backupZipPath env timestamp)
  complete : ∀ i d, s.requests i = some d → ∀ timestamp items, d.complete = some (timestamp, items) →
    s.files.read (backupZipPath env timestamp) = some (zip.archive items)
  apart : Apart (s.archivePath env)
  sent : ∀ i d, s.requests i = some d → ∀ copy items body, d.response = some (⟨copy, some items⟩, body) →
    body = some (zip.archive items)

section Archives
variable {zip : ZipPackage} {env : String} {s t : DownloadSystem} {i j : Nat} {d : Download}
  {e : DownloadEvent}
  {files files' : Files} {next : Option Download} {p : String} {w : ZipWriting}

theorem ZipWriting.Filled.frame (h : w.Filled zip files p) (hnode : files'.nodes p = files.nodes p)
    (hread : files'.read p = files.read p) : w.Filled zip files' p := by
  have hcontents : files'.contents w.file = files.contents w.file := by
    rw [read_of_nodes (hnode.trans h.node), read_of_nodes h.node] at hread
    exact Option.some.inj hread
  exact ⟨hnode.trans h.node, hcontents ▸ h.written, hcontents ▸ h.made⟩

theorem filled_start (files : Files) (p : String) (includeAssets : Bool) :
    (ZipWriting.start (files.create p).2 includeAssets).Filled zip (files.create p).1 p where
  node := create_nodes files p
  written := congrArg List.length (create_contents files p)
  made := congrArg (· ++ []) (create_contents files p)

theorem ZipWriting.Filled.add (h : w.Filled zip files p) (hopen : w.closed = false) (item : ZipItem)
    (todo : List ZipTodo) : (w.add zip item todo).Filled zip files p where
  node := h.node
  written := h.written
  made := by
    have hmade := h.made
    rw [ZipWriting.made, hopen] at hmade
    show files.contents w.file ++ (w.buffered ++ zip.entry item) =
        (w.items ++ [item]).flatMap zip.entry ++ _
    rw [← List.append_assoc, hmade, List.flatMap_append, List.flatMap_singleton, ZipWriting.add, hopen]
    simp

theorem ZipWriting.Filled.flush (h : w.Filled zip files p) (n : Nat) :
    (w.flush n).Filled zip (files.write w.file w.written (w.buffered.take n)) p where
  node := h.node
  written := by
    show (Files.contents _ w.file).length = _
    rw [← h.written, contents_write_end, List.length_append, h.written]
    rfl
  made := by
    show Files.contents _ w.file ++ w.buffered.drop n = w.made zip
    rw [← h.written, contents_write_end, List.append_assoc, List.take_append_drop]
    exact h.made

theorem ZipWriting.Filled.close (h : w.Filled zip files p) (hopen : w.closed = false) :
    (w.close zip).Filled zip files p where
  node := h.node
  written := h.written
  made := by
    have hmade := h.made
    rw [ZipWriting.made, hopen] at hmade
    show files.contents w.file ++
        (w.buffered ++ zip.directory w.items) = w.items.flatMap zip.entry ++ zip.directory w.items
    rw [← List.append_assoc, hmade]
    simp

theorem ZipWriting.Filled.finish (h : w.Filled zip files p) (hclosed : w.closed = true)
    (hflushed : w.buffered = []) :
    files.read p = some (zip.archive w.items) := by
  have hmade := h.made
  rw [hflushed, List.append_nil, ZipWriting.made, hclosed] at hmade
  rw [read_of_nodes h.node, hmade]
  rfl

theorem archivePath_of (hd : s.requests i = some d) (h : d.archiveAt env = some p) :
    s.archivePath env i = some p := by
  rw [DownloadSystem.archivePath, hd, Option.bind_some, h]

/-- What is written of an archive after a move. -/
theorem DownloadMove.filled_next (h : DownloadMove zip env s i d e files next) (hs : d.Sound)
    (hfilled : ∀ timestamp copy w, d.phase = .writing timestamp copy w →
      w.Filled zip s.files (backupZipPath env timestamp)) :
    ∀ d', next = some d' → ∀ timestamp copy w, d'.phase = .writing timestamp copy w →
      w.Filled zip files (backupZipPath env timestamp) := by
  rintro d' rfl timestamp' copy' w' hw
  cases h with
  | copied timestamp hphase hfree => cases hraw : d.raw <;> rw [hraw] at hw <;> cases hw
  | created timestamp copy hphase =>
    obtain ⟨rfl, rfl, rfl⟩ := DownloadPhase.writing.inj hw
    exact filled_start ..
  | added timestamp copy w salt todo rest item hphase htodo hitem =>
    obtain ⟨rfl, rfl, rfl⟩ := DownloadPhase.writing.inj hw
    have hopen : w.closed = false := by
      rw [Download.Sound, hphase] at hs
      rw [← Bool.not_eq_true]
      exact fun h => nomatch htodo.symm.trans (hs.2.2 h)
    exact (hfilled timestamp copy w hphase).add hopen item _
  | left timestamp copy file offset bytes hphase =>
    rw [hphase] at hw
    cases hw
  | flushed timestamp copy w n hphase =>
    obtain ⟨rfl, rfl, rfl⟩ := DownloadPhase.writing.inj hw
    exact (hfilled timestamp copy w hphase).flush n
  | closed timestamp copy w hphase htodo hopen =>
    obtain ⟨rfl, rfl, rfl⟩ := DownloadPhase.writing.inj hw
    exact (hfilled timestamp copy w hphase).close hopen
  | _ => cases hw

/-- An archive is complete after a move when it was, or when its writing ends. -/
theorem DownloadMove.complete_next (h : DownloadMove zip env s i d e files next)
    (hfilled : ∀ timestamp copy w, d.phase = .writing timestamp copy w →
      w.Filled zip s.files (backupZipPath env timestamp))
    (hcomplete : ∀ timestamp items, d.complete = some (timestamp, items) →
      s.files.read (backupZipPath env timestamp) = some (zip.archive items)) :
    ∀ d', next = some d' → ∀ timestamp items, d'.complete = some (timestamp, items) →
      files.read (backupZipPath env timestamp) = some (zip.archive items) := by
  rintro d' rfl timestamp' items' hd'
  cases h with
  | copied timestamp hphase hfree => cases hraw : d.raw <;> rw [hraw] at hd' <;> cases hd'
  | left timestamp copy file offset bytes hphase =>
    rw [Download.complete, hphase] at hd'
    cases hd'
  | finished timestamp copy w hphase hclosed hflushed =>
    obtain ⟨rfl, rfl⟩ := Prod.mk.inj (Option.some.inj hd')
    exact (hfilled timestamp copy w hphase).finish hclosed hflushed
  | returned timestamp copy items fails hphase =>
    obtain ⟨rfl, rfl⟩ := Prod.mk.inj (Option.some.inj hd')
    rw [(touches_removeFile s (backupDBPath env timestamp) fails).read _ backupDBPath_ne.symm]
    exact hcomplete timestamp items (by rw [Download.complete, hphase])
  | served timestamp backup hphase =>
    obtain ⟨copy, items⟩ := backup
    cases items with
    | none => cases hd'
    | some items => exact hcomplete timestamp' items' (by rw [Download.complete, hphase]; exact hd')
  | _ => cases hd'

/-- What the others have of archives is not in the footprint. -/
theorem Footprint.archive_ne (h : Footprint env s i d e next p) (hok : CreatesApart env s e)
    (hs : ArchivesKept zip env s) (hd : s.requests i = some d) (hj : j ≠ i) {d' : Download}
    (hd' : s.requests j = some d') {q : String} (hq : d'.archiveAt env = some q) : q ≠ p := by
  rintro rfl
  obtain ⟨t, rfl⟩ := archiveAt_path hq
  generalize hp : backupZipPath env t = p at h hq
  cases h with
  | free timestamp hfree => exact backupDBPath_ne hp.symm
  | copy _ copy hcopy hnext =>
    obtain ⟨t', rfl⟩ := copyAt_path hcopy
    exact backupDBPath_ne hp.symm
  | archive _ harchive => exact hj (hs.apart j i p (archivePath_of hd' hq) (archivePath_of hd harchive))
  | create timestamp copy he hphase =>
    subst he
    exact hok d timestamp copy hd hphase j hj (archivePath_of hd' hq)

theorem archiveAt_of_complete {timestamp : Time} {items : List ZipItem}
    (h : d.complete = some (timestamp, items)) :
    d.archiveAt env = some (backupZipPath env timestamp) := by
  unfold Download.complete at h
  split at h
  all_goals first
    | obtain ⟨rfl, rfl⟩ := Prod.mk.inj (Option.some.inj h)
      simp only [Download.archiveAt, *]
    | cases h

theorem archivesKept_move (hok : CreatesApart env s e) (hd : s.requests i = some d)
    (h : DownloadMove zip env s i d e files next) (hc : CopiesKept env s)
    (hs : ArchivesKept zip env s) : ArchivesKept zip env ((s.setFiles files).setRequest i next) := by
  have hframe : ∀ j d', j ≠ i → s.requests j = some d' → ∀ q, d'.archiveAt env = some q →
      files.nodes q = s.files.nodes q ∧ files.read q = s.files.read q := by
    intro j d' hj hd' q hq
    rcases h.touches (hc.opened i d hd) with rfl | ⟨p, htouch, hp⟩
    · exact ⟨rfl, rfl⟩
    · have hne := hp.archive_ne hok hs hd hj hd' hq
      exact ⟨htouch.nodes q hne, htouch.read q hne⟩
  constructor
  case filled =>
    refine Runs.forall_set_of_ne (fun j d' hj hd' timestamp copy w hphase => ?_)
      (h.filled_next (hc.sound i d hd) (hs.filled i d hd))
    obtain ⟨hnode, hread⟩ :=
      hframe j d' hj hd' (backupZipPath env timestamp) (by rw [Download.archiveAt, hphase])
    exact (hs.filled j d' hd' timestamp copy w hphase).frame hnode hread
  case complete =>
    refine Runs.forall_set_of_ne (fun j d' hj hd' timestamp items hcomplete => ?_)
      (h.complete_next (hs.filled i d hd) (hs.complete i d hd))
    rw [← hs.complete j d' hd' timestamp items hcomplete]
    exact (hframe j d' hj hd' _ (archiveAt_of_complete hcomplete)).2
  case apart =>
    refine hs.apart.change (i := i) (fun j hj => ?_) fun p hp => ?_
    · rw [DownloadSystem.archivePath, DownloadSystem.archivePath]
      exact congrArg (Option.bind · _) (Runs.set_of_ne _ _ hj)
    have hset : ((s.setFiles files).setRequest i next).archivePath env i = next.bind (·.archiveAt env) :=
      congrArg (Option.bind · _) (Runs.set_self ..)
    rw [hset] at hp
    rcases h.archiveAt_next hp with hold | ⟨fails, timestamp, copy, rfl, hphase, rfl⟩
    · exact .inl (archivePath_of hd hold)
    · exact .inr (hok d timestamp copy hd hphase)
  case sent =>
    refine Runs.forall_set hs.sent ?_
    rintro d' rfl copy items body hresponse
    obtain ⟨timestamp, hphase, rfl⟩ := h.response_next ⟨copy, some items⟩ body hresponse
    exact hs.complete i d hd timestamp items (by rw [Download.complete, hphase])

theorem archivesKept_start (d : List UInt8) (assets : List (String × List UInt8)) (files : Files) :
    ArchivesKept zip env ⟨d, assets, files, fun _ => none⟩ := by
  constructor
  · rintro _ _ ⟨⟩
  · rintro _ _ ⟨⟩
  · rintro _ _ _ ⟨⟩
  · rintro _ _ ⟨⟩

theorem archivesKept_request (includeAssets : Bool) (password : String)
    (hs : ArchivesKept zip env s) :
    ArchivesKept zip env (s.setRequest i (some ⟨includeAssets, password, .started⟩)) := by
  constructor
  case filled => exact Runs.forall_set hs.filled (by rintro _ ⟨⟩ _ _ _ ⟨⟩)
  case complete => exact Runs.forall_set hs.complete (by rintro _ ⟨⟩ _ _ ⟨⟩)
  case apart =>
    refine hs.apart.change (i := i) (fun j hj => ?_) fun p hp => ?_
    · rw [DownloadSystem.archivePath, DownloadSystem.archivePath]
      exact congrArg (Option.bind · _) (Runs.set_of_ne _ _ hj)
    · rw [DownloadSystem.archivePath, show (s.setRequest i _).requests i = _ from Runs.set_self ..] at hp
      cases hp
  case sent => exact Runs.forall_set hs.sent (by rintro _ ⟨⟩ _ _ _ ⟨⟩)

theorem archivesKept_step (hok : CreatesApart env s e) (h : s.step zip env e = some t)
    (hc : CopiesKept env s) (hs : ArchivesKept zip env s) : ArchivesKept zip env t := by
  rcases step_cases h with ⟨database, assets, rfl⟩ | ⟨i, includeAssets, password, -, -, rfl⟩ |
    ⟨i, d, files, next, hd, hmove, rfl⟩
  · exact ⟨hs.filled, hs.complete, hs.apart, hs.sent⟩
  · exact archivesKept_request includeAssets password hs
  · exact archivesKept_move hok hd hmove hc hs

end Archives

/-! ## Whole runs -/

section Runs
variable {zip : ZipPackage} {env : String} {s t : DownloadSystem} {i : Nat} {d : Download}
  {time : Time} {backup : Backup}

theorem held_sound (hs : d.Sound) (h : d.held = some (time, backup)) : Asked d backup := by
  unfold Download.held at h
  split at h
  all_goals first
    | obtain ⟨rfl, rfl⟩ := Prod.mk.inj (Option.some.inj h)
      simp only [Download.Sound, *] at hs
      exact hs
    | cases h

theorem held_copyAt {copy : List UInt8} (h : d.held = some (time, ⟨copy, none⟩)) :
    d.copyAt env = some (backupDBPath env time, copy) := by
  unfold Download.held at h
  split at h
  all_goals first
    | obtain ⟨rfl, rfl⟩ := Prod.mk.inj (Option.some.inj h)
      simp only [Download.copyAt, *]
    | cases h

theorem held_complete {copy : List UInt8} {items : List ZipItem}
    (h : d.held = some (time, ⟨copy, some items⟩)) :
    d.complete = some (time, items) := by
  unfold Download.held at h
  split at h
  all_goals first
    | obtain ⟨rfl, rfl⟩ := Prod.mk.inj (Option.some.inj h)
      simp only [Download.complete, *]
    | cases h

/-- A backup that was returned is at its path, it is what the request asks for, and it is what is
sent. -/
def Backup.Kept (zip : ZipPackage) (env : String) (files : Files) (d : Download) (time : Time)
    (backup : Backup) : Prop :=
  files.read (backup.path env time) = some (backup.bytes zip) ∧ Asked d backup ∧
    ∀ body, d.response = some (backup, body) → body = some (backup.bytes zip)

theorem copiesKept_run (hs : CopiesKept env s) {ok : DownloadSystem → DownloadEvent → Prop}
    (h : Path (DownloadSystem.step zip env) ok s t) : CopiesKept env t :=
  h.invariant (CopiesKept env) (fun _ _ _ hs _ hstep => copiesKept_step hstep hs) hs

theorem kept_of_copiesKept (hs : CopiesKept env s) (hd : s.requests i = some d)
    (hheld : d.held = some (time, backup)) (hraw : backup.items = none) :
    backup.Kept zip env s.files d time := by
  obtain ⟨copy, items⟩ := backup
  obtain rfl : items = none := hraw
  exact ⟨hs.kept i d hd _ copy (held_copyAt hheld), held_sound (hs.sound i d hd) hheld, fun body =>
    hs.sent i d hd copy body⟩

theorem kept_of_archivesKept (hc : CopiesKept env s) (hs : ArchivesKept zip env s)
    (hd : s.requests i = some d) (hheld : d.held = some (time, backup)) :
    backup.Kept zip env s.files d time := by
  obtain ⟨copy, items⟩ := backup
  cases items with
  | none => exact kept_of_copiesKept hc hd hheld rfl
  | some items =>
    exact ⟨hs.complete i d hd time items (held_complete hheld), held_sound (hc.sound i d hd) hheld,
      fun body => hs.sent i d hd copy items body⟩

end Runs

/-- In every run of requests, a copy of the database is kept for the request it was returned to, and
so is every backup when no archive is created where another request has one. -/
theorem downloads_keep_their_files (zip : ZipPackage) (env : String) (database : List UInt8)
    (assets : List (String × List UInt8)) (files : Files) (t : DownloadSystem) :
    (Path (DownloadSystem.step zip env) Runs.Always ⟨database, assets, files, fun _ => none⟩ t →
      ∀ i d time backup, t.requests i = some d → d.held = some (time, backup) → backup.items = none →
        backup.Kept zip env t.files d time) ∧
    (Path (DownloadSystem.step zip env) (CreatesApart env) ⟨database, assets, files, fun _ => none⟩ t →
      ∀ i d time backup, t.requests i = some d → d.held = some (time, backup) →
        backup.Kept zip env t.files d time) := by
  have hstart := copiesKept_start env database assets files
  constructor
  · intro hrun i d time backup hd hheld hraw
    exact kept_of_copiesKept (copiesKept_run hstart hrun) hd hheld hraw
  · intro hrun i d time backup hd hheld
    obtain ⟨hc, hs⟩ := hrun.invariant (fun s => CopiesKept env s ∧ ArchivesKept zip env s)
      (fun _ _ _ hs hok hstep => ⟨copiesKept_step hstep hs.1, archivesKept_step hok hstep hs.1 hs.2⟩)
      ⟨hstart, archivesKept_start database assets files⟩
    exact kept_of_archivesKept hc hs hd hheld

/-- An archive that says of each entry whether it is encrypted. -/
def markingZip : ZipPackage where
  entry item := if item.password = "" then [0] else [1]
  directory _ := [2]

def freshServer : DownloadSystem := ⟨[5], [("icon.png", [6])], .empty, fun _ => none⟩

def ownClock : Time := ⟨1000000000, 0⟩

def ownBackup : Backup :=
  ⟨[5], some [⟨"subdux.db", [5], "own", 0⟩, ⟨"assets/", [], "", 0⟩, ⟨"assets/icon.png", [6], "own", 0⟩]⟩

/-- The run of a request for an archive with the assets, up to the path that it gets. -/
def archiveEvents (i : Nat) (password : String) (now : Time) : List DownloadEvent :=
  [.request i true password, .readClock i now, .vacuum i, .create i false, .add i 0, .add i 0,
   .add i 0, .close i, .flush i 9,
    .finish i, .remove i false]

/-- The archive that a request creates next. -/
def Download.nextArchive (env : String) (d : Download) : Option String :=
  match d.phase with
  | .creating timestamp _ => some (backupZipPath env timestamp)
  | _ => none

/-- There are `n` requests at most, and none of them creates an archive where another has one. -/
def ApartBelow (n : Nat) (env : String) (s : DownloadSystem) : DownloadEvent → Prop
  | .request i _ _ => i < n
  | .create i _ =>
    ∀ d ∈ s.requests i, ∀ path ∈ d.nextArchive env, ∀ j < n, j ≠ i → s.archivePath env j ≠ some path
  | _ => True

instance (n : Nat) (env : String) (s : DownloadSystem) :
    (e : DownloadEvent) → Decidable (ApartBelow n env s e)
  | .request i _ _ => inferInstanceAs (Decidable (i < n))
  | .create i _ =>
    inferInstanceAs (Decidable (∀ d ∈ s.requests i, ∀ path ∈ d.nextArchive env, ∀ j < n, j ≠ i →
      s.archivePath env j ≠ some path))
  | .writeDatabase _ | .writeAssets _ | .readClock _ _ | .vacuum _ | .vacuumFails _ _ | .add
    _ _ | .fail _ | .leave _ _ _
  | .flush _ _ | .close _ | .finish _ | .remove _ _ | .serve _ => .isTrue trivial

theorem apartBelow_createsApart {zip : ZipPackage} {env : String} {s t : DownloadSystem} {n : Nat}
    (h : Path (DownloadSystem.step zip env) (ApartBelow n env) s t) (hs : Runs.Below s.requests n) :
    Path (DownloadSystem.step zip env) (CreatesApart env) s t := by
  -- Nobody from `n` on ever asks for a backup.
  refine h.weaken (fun s => Runs.Below s.requests n) (fun u e v hu hok hstep => ?_)
    (fun u e hu hok => ?_) hs
  · rcases step_cases hstep with ⟨database, assets, rfl⟩ |
      ⟨i, includeAssets, password, rfl, hnone, rfl⟩ | ⟨i, d, files, next, hd, hmove, rfl⟩
    · exact hu
    · exact hu.set hok _
    · exact hu.set (hu.lt hd) _
  · cases e with
    | create i fails =>
      intro d timestamp copy hd hphase j hj hat
      have hnext : d.nextArchive env = some (backupZipPath env timestamp) := by
        rw [Download.nextArchive, hphase]
      by_cases hlt : j < n
      · exact hok d hd _ hnext j hlt hj hat
      · rw [DownloadSystem.archivePath, hu j (by omega)] at hat
        cases hat
    | _ => trivial

/-- A request one second later, for an archive without a password. -/
def laterClock : Time := ⟨2000000000, 0⟩

def otherItems : List ZipItem :=
  [⟨"subdux.db", [5], "", 0⟩, ⟨"assets/", [], "", 0⟩, ⟨"assets/icon.png", [6], "", 0⟩]

def otherBackup : Backup := ⟨[5], some otherItems⟩

/-- The two requests take turns. -/
def turnEvents : List DownloadEvent :=
  (List.zipWith (fun own other => [own, other]) (archiveEvents 0 "own" ownClock)
    (archiveEvents 1 "" laterClock)).flatten ++
    [.serve 0, .serve 1]

def ownServed : Download :=
  ⟨true, "own", .served ownClock ownBackup (some (ownBackup.bytes markingZip))⟩

def otherServed : Download :=
  ⟨true, "", .served laterClock otherBackup (some (otherBackup.bytes markingZip))⟩

theorem exec_turnEvents :
    ((exec (DownloadSystem.step markingZip "") (ApartBelow 2 "") freshServer turnEvents).any
    fun t => t.requests 0 = some ownServed ∧ t.requests 1 = some otherServed) = true := by decide +kernel

def rawReturned : Download := ⟨false, "  ", .returned ownClock ⟨[5], none⟩⟩

theorem exec_rawReturned : ((exec (DownloadSystem.step markingZip "") Runs.Always freshServer
    [.request 0 false "  ", .readClock 0 ownClock, .vacuum 0]).any fun t =>
      t.requests 0 = some rawReturned) = true := by
  decide +kernel

theorem downloads_keep_their_files_sample :
    (∃ t : DownloadSystem, t.requests 0 = some rawReturned ∧
      Backup.Kept markingZip "" t.files rawReturned ownClock ⟨[5], none⟩) ∧
    ∃ t : DownloadSystem, t.requests 0 = some ownServed ∧ t.requests 1 = some otherServed ∧
      ownBackup.Kept markingZip "" t.files ownServed ownClock ∧
      otherBackup.Kept markingZip "" t.files otherServed laterClock := by
  constructor
  · obtain ⟨t, ht, hraw⟩ := (Option.any_eq_true _ _).1 exec_rawReturned
    have hraw := of_decide_eq_true hraw
    exact ⟨t, hraw, (downloads_keep_their_files markingZip "" _ _ _ t).1
      (.of_exec ht) 0 rawReturned ownClock _ hraw rfl rfl⟩
  · obtain ⟨t, ht, hserved⟩ := (Option.any_eq_true _ _).1 exec_turnEvents
    obtain ⟨hown, hother⟩ := of_decide_eq_true hserved
    have hpath := apartBelow_createsApart (.of_exec ht) fun _ _ => rfl
    have hkept := (downloads_keep_their_files markingZip "" _ _ _ t).2 hpath
    exact ⟨t, hown, hother, hkept 0 ownServed ownClock _ hown rfl,
      hkept 1 otherServed laterClock _ hother rfl⟩

/-- Half a second later, another request for an archive, without a password. -/
def overlapEvents : List DownloadEvent :=
  archiveEvents 0 "own" ownClock ++ archiveEvents 1 "" ⟨1500000000, 0⟩ ++ [.serve 0]

theorem exec_overlapEvents :
    ((exec (DownloadSystem.step markingZip "") Runs.Always freshServer overlapEvents).any fun t =>
    t.requests 0 = some
      ⟨true, "own", .served ownClock ownBackup (some (markingZip.archive otherItems))⟩ ∧
      t.files.read (ownBackup.path "" ownClock) ≠ some (ownBackup.bytes markingZip)) = true := by
        decide +kernel

/-- The request that asked for an encrypted archive is sent the plain one of another request. -/
theorem downloads_share_a_file :
    ∃ t, Path (DownloadSystem.step markingZip "") Runs.Always freshServer t ∧
    ∃ d, t.requests 0 = some d ∧ d.held = some (ownClock, ownBackup) ∧
      d.response = some (ownBackup, some (markingZip.archive otherItems)) ∧
      t.files.read (ownBackup.path "" ownClock) ≠ some (ownBackup.bytes markingZip) := by
  obtain ⟨t, ht, hboth⟩ := (Option.any_eq_true _ _).1 exec_overlapEvents
  obtain ⟨hserved, hread⟩ := of_decide_eq_true hboth
  exact ⟨t, .of_exec ht, _, hserved, rfl, rfl, hread⟩

end Subdux
