import Subdux.DayDistance
import Subdux.Lib.GoStrings
/-!
# When a scheduled backup is due

`parseBackupLastRunAt`, `backupDue` and `applyLocalBackupRetention` of
`internal/service/backup.go`, and the names of the archives. The recorded time of the last
run is kept as the fields of its RFC 3339 text: the seconds of the wall clock and the
minutes of the zone; a text that is blank or no such time is `none`.

A backup is due on a local day when the local midnight of that day lies after that of the
day of the last run (`backupDue_iff`).
-/

namespace Subdux
open GoStrings

/-! ## The recorded time -/

/-- The fields of an RFC 3339 time: seconds of the wall clock since 1970, and minutes of the zone. -/
structure Timestamp where
  wall : Int
  zone : Int
  deriving DecidableEq

/-- `t.Format(time.RFC3339)`. -/
def Time.formatRFC3339 (t : Time) : Timestamp := ⟨t.nanos / nsPerSecond + t.offset, t.offset.tdiv 60⟩

/-- `parseBackupLastRunAt`. `time.Parse` reads years of four digits and zones of at most 24 hours. -/
def parseBackupLastRunAt : Option Timestamp → Time
  | none => .zero
  | some raw =>
    let year := Gregorian.monthOf (raw.wall / secondsPerDay) / 12
    if 0 ≤ year ∧ year ≤ 9999 ∧ raw.zone.natAbs / 60 ≤ 24 then
      ⟨(raw.wall - raw.zone * 60) * nsPerSecond, raw.zone * 60⟩
    else .zero

/-- The time that a run at `now` records is one of the same local day. -/
def ReadsBack (loc : Location) (now : Time) : Prop :=
  let lastRunAt := parseBackupLastRunAt (some (now.inLoc loc).formatRFC3339)
  lastRunAt.isZero = false ∧ (lastRunAt.inLoc loc).day = (now.inLoc loc).day

instance (loc : Location) (now : Time) : Decidable (ReadsBack loc now) := by
  unfold ReadsBack
  infer_instance

/-! ## Due -/

/-- The hour and the minute of a text that `backupTimeOfDayPattern` matches. -/
def matchTimeOfDay (s : String) : Option (Int × Int) :=
  match s.toList with
  | [h, h', ':', m, m'] =>
    if ((h = '0' ∨ h = '1') ∧ h'.isDigit ∨ h = '2' ∧ '0' ≤ h' ∧ h' ≤ '3') ∧ ('0' ≤ m ∧ m ≤ '5') ∧
      m'.isDigit then
      let digit (c : Char) : Int := c.toNat - '0'.toNat
      some (10 * digit h + digit h', 10 * digit m + digit m')
    else none
  | _ => none

example : matchTimeOfDay "23:05" = some (23, 5) ∧ matchTimeOfDay "24:00" = none ∧
    matchTimeOfDay "3:00" = none := by
  decide +kernel

/-- `time.Date(year, month, day, hour, minute, 0, 0, loc)`. -/
def dateTimeIn (loc : Location) (year month day hour minute : Int) : Time :=
  clockIn loc year month day (hour * 3600 + minute * 60)

/-- `backupDue`, where the location is given. -/
def backupDue (now : Time) (timeOfDay : String) (lastRunAt : Time) (loc : Location) : Bool :=
  match matchTimeOfDay (trimSpace timeOfDay) with
  | none => false
  | some (hour, minute) =>
    let nowLocal := now.inLoc loc
    let scheduledToday := dateTimeIn loc nowLocal.year nowLocal.month nowLocal.dayOfMonth hour minute
    if nowLocal.before scheduledToday then false
    else if lastRunAt.isZero then true
    else (normalizeDateInTimezone lastRunAt loc).before (normalizeDateInTimezone nowLocal loc)

/-! ## The archives -/

/-- `t.Format("20060102-150405")`. -/
def Time.formatStamp (t : Time) : String :=
  let second := (t.nanos + t.offset * nsPerSecond) / nsPerSecond % secondsPerDay
  zeroPadded 4 t.year ++ zeroPadded 2 t.month ++ zeroPadded 2 t.dayOfMonth ++ "-" ++
    zeroPadded 2 (second / 3600) ++ zeroPadded 2 (second / 60 % 60) ++ zeroPadded 2 (second % 60)

def backupArchiveName (stamp : Time) (token : String) : String :=
  "subdux-backup-" ++ stamp.formatStamp ++ "-" ++ token ++ ".zip"

example : backupArchiveName
    ((dateUTC 2026 6 15).add 14709000000000) "00ff" = "subdux-backup-20260615-040509-00ff.zip" := by
  decide +kernel

/-- `backupFileNamePattern.MatchString`; the dot of the pattern is no line end. -/
def isBackupFileName (name : String) : Bool :=
  let rest := name.toList.drop "subdux-backup-".length
  "subdux-backup-".toList.isPrefixOf name.toList && ".zip".toList.isSuffixOf rest && !rest.contains '\n'

/-- An entry of the backup directory. `day` is the local day of the tick that left it. -/
structure BackupFile where
  name : String
  isDir : Bool
  modTime : Int
  day : Option Int
  deriving DecidableEq

/-- What `applyLocalBackupRetention` meets: the listing fails; or it is sorted into `newestFirst`
without the entries that cannot be read, and perhaps the removal after the first `removed` ones fails. -/
inductive Retention where
  | unlisted (err : String)
  | listed (unreadable : List String) (newestFirst : List BackupFile) (failure : Option (Nat × String))

/-- The entries that the retention considers. -/
def retentionMatches (unreadable : List String) (files : List BackupFile) : List BackupFile :=
  files.filter fun f => !f.isDir && isBackupFileName f.name && !unreadable.contains f.name

/-- The files that the retention removes, in its order. -/
def staleBackups (keep : Int) (newestFirst : List BackupFile) : List BackupFile :=
  newestFirst.drop (max keep 1).toNat

/-- `applyLocalBackupRetention`, with its error; `none` where `r` does not fit the directory. -/
def applyLocalBackupRetention (keep : Int) (files : List BackupFile) :
    Retention → Option (List BackupFile × Option String)
  | .unlisted err => some (files, some err)
  | .listed unreadable newestFirst failure =>
    let stale := staleBackups keep newestFirst
    let without (removed : List BackupFile) := files.filter fun f => !removed.any (·.name = f.name)
    if newestFirst.Perm (retentionMatches unreadable files) ∧
      newestFirst.Pairwise (fun a b => b.modTime ≤ a.modTime) then
      match failure with
      | none => some (without stale, none)
      | some (removed, err) =>
        if removed < stale.length then some (without (stale.take removed), some err) else none
    else none

/-! ## What these say -/

section Facts
variable {loc : Location} {now last : Time} {timeOfDay : String}

/-- The instant at which a local day begins. -/
def dayStart (loc : Location) (day : Int) : Int := day * nsPerDay - midnightOffset loc day * nsPerSecond

theorem inLoc_inLoc (t : Time) (loc : Location) : (t.inLoc loc).inLoc loc = t.inLoc loc := rfl

/-- The moment of the schedule depends on the local day only. -/
def scheduledAt (loc : Location) (day hour minute : Int) : Time :=
  dateTimeIn loc (Gregorian.monthOf day / 12) (Gregorian.monthOf day % 12 + 1)
    (Gregorian.dayOf day) hour minute

theorem backupDue_iff : backupDue now timeOfDay last loc = true ↔
    ∃ hour minute, matchTimeOfDay (trimSpace timeOfDay) = some (hour, minute) ∧
      (scheduledAt loc (now.inLoc loc).day hour minute).nanos ≤ now.nanos ∧
      (last.isZero = false → dayStart loc (last.inLoc loc).day < dayStart loc (now.inLoc loc).day) := by
  unfold backupDue
  cases htime : matchTimeOfDay (trimSpace timeOfDay) with
  | none => simp
  | some time =>
    obtain ⟨hour, minute⟩ := time
    have hscheduled : dateTimeIn loc (now.inLoc loc).year (now.inLoc loc).month
        (now.inLoc loc).dayOfMonth hour minute =
        scheduledAt loc (now.inLoc loc).day hour minute := rfl
    dsimp only
    rw [hscheduled]
    simp only [Time.before, normalizeDateInTimezone_eq, inLoc_inLoc, dayStart]
    constructor
    · intro h
      split at h
      · cases h
      · rename_i hnot
        refine ⟨hour, minute, rfl, ?_, ?_⟩
        · exact not_lt.1 fun hlt => hnot (decide_eq_true hlt)
        · intro hzero
          simpa [hzero] using h
    · rintro ⟨hour', minute', heq, hle, hlast⟩
      cases heq
      have hnot : ¬ decide
          ((now.inLoc loc).nanos < (scheduledAt loc (now.inLoc loc).day hour minute).nanos) = true :=
        fun hlt => absurd (of_decide_eq_true hlt) (not_lt.2 hle)
      rw [if_neg hnot]
      split
      · rfl
      · rename_i hzero
        simpa using hlast (by simpa using hzero)

/-- A backup that is due stays due on that day, while nothing is recorded. -/
theorem backupDue_later {later : Time} (h : backupDue now timeOfDay last loc = true)
    (hle : now.nanos ≤ later.nanos) (hday : (later.inLoc loc).day = (now.inLoc loc).day) :
    backupDue later timeOfDay last loc = true := by
  obtain ⟨hour, minute, htime, hscheduled, hlast⟩ := backupDue_iff.1 h
  refine backupDue_iff.2 ⟨hour, minute, htime, ?_, ?_⟩
  · rw [hday]
    exact hscheduled.trans hle
  · rw [hday]
    exact hlast

/-- Zones of whole minutes and years of four digits read back. -/
theorem readsBack_of_minutes (hminutes : 60 ∣ (now.inLoc loc).offset)
    (hzone : (now.inLoc loc).offset.natAbs ≤ 86400)
    (hyear : 0 ≤ (now.inLoc loc).year ∧ (now.inLoc loc).year ≤ 9999)
    (hzero : now.nanos / nsPerSecond ≠ Time.zero.nanos / nsPerSecond) :
    ReadsBack loc now := by
  obtain ⟨minutes, hoffset⟩ := hminutes
  have hzoneMinutes : (now.inLoc loc).offset.tdiv 60 = minutes := by
    rw [hoffset]
    exact Int.mul_tdiv_cancel_left _ (by decide)
  have hday : (now.nanos / nsPerSecond + (now.inLoc loc).offset) / secondsPerDay =
      (now.inLoc loc).day := by
    simp only [Time.day, nsPerSecond, nsPerDay, secondsPerDay, Time.inLoc]
    omega
  have hnanos : (now.inLoc loc).nanos = now.nanos := rfl
  -- the parsed time: the same second in the same zone
  have hparsed : parseBackupLastRunAt (some (now.inLoc loc).formatRFC3339) =
      ⟨now.nanos / nsPerSecond * nsPerSecond, (now.inLoc loc).offset⟩ := by
    have hyear' : 0 ≤ Gregorian.monthOf (now.inLoc loc).day / 12 ∧
        Gregorian.monthOf (now.inLoc loc).day / 12 ≤ 9999 := hyear
    simp only [parseBackupLastRunAt, Time.formatRFC3339, hzoneMinutes, hnanos, hday]
    rw [if_pos ⟨hyear'.1, hyear'.2, by omega⟩, Time.mk.injEq]
    constructor
    · rw [hoffset]
      ring
    · omega
  have hsecond : now.nanos / nsPerSecond * nsPerSecond / nsPerSecond = now.nanos / nsPerSecond :=
    Int.mul_ediv_cancel _ (by decide)
  unfold ReadsBack
  dsimp only
  rw [hparsed]
  constructor
  · simp only [Time.isZero, decide_eq_false_iff_not]
    intro heq
    exact hzero (by rw [← heq, hsecond])
  · simp only [Time.inLoc, hsecond, Time.day]
    simp only [nsPerSecond, nsPerDay]
    omega

end Facts
end Subdux
