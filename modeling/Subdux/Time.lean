import Subdux.Lib.Gregorian
/-!
# Times, dates and time zones

A Go `time.Time` is an instant together with the UTC offset in force there. Its
calendar date is the day number `Time.day`; the year, month and day of the month
the code reads are those of that day. `normalizeDateUTC_eq` and
`normalizeDateInTimezone_fixed` reduce the two normalizations of the code
(`internal/service/subscription_billing.go`, `internal/pkg/timezone.go`) to day
numbers.
-/

namespace Subdux

def nsPerSecond : Int := 1000000000
def nsPerHour : Int := 3600000000000
def nsPerDay : Int := 86400000000000

/-! ## `time.Time` -/

/-- A Go `time.Time`: nanoseconds since 1970-01-01T00:00:00Z, and the seconds
east of UTC of its location at that instant. -/
structure Time where
  nanos : Int
  offset : Int
  deriving DecidableEq, Repr

namespace Time

def before (t u : Time) : Bool := t.nanos < u.nanos
def after (t u : Time) : Bool := u.nanos < t.nanos
def equal (t u : Time) : Bool := t.nanos = u.nanos

/-- `t.Add(d)`, for a duration in nanoseconds. -/
def add (t : Time) (d : Int) : Time := { t with nanos := t.nanos + d }

/-- `t.Sub(u)`. A duration is a 64-bit word, and `Sub` saturates. -/
def sub (t u : Time) : Int := max (-2 ^ 63) (min (2 ^ 63 - 1) (t.nanos - u.nanos))

/-- `t.UTC()`. -/
def utc (t : Time) : Time := { t with offset := 0 }

/-- The day number of the calendar date `t` shows. -/
def day (t : Time) : Int := (t.nanos + t.offset * nsPerSecond) / nsPerDay

def year (t : Time) : Int := Gregorian.monthOf t.day / 12
def month (t : Time) : Int := Gregorian.monthOf t.day % 12 + 1
def dayOfMonth (t : Time) : Int := Gregorian.dayOf t.day

/-- The zero `time.Time`, 0001-01-01T00:00:00Z. -/
def zero : Time := ⟨-62135596800 * nsPerSecond, 0⟩

def isZero (t : Time) : Bool := t.nanos = zero.nanos

end Time

/-- Midnight UTC of day `n`. -/
def midnight (n : Int) : Time := ⟨n * nsPerDay, 0⟩

/-- `time.Date(year, month, day, 0, 0, 0, 0, time.UTC)`. Months and days out of
range carry over. -/
def dateUTC (year month day : Int) : Time :=
  midnight (Gregorian.monthStart (12 * year + (month - 1)) + (day - 1))

/-- `t.AddDate(0, 0, days)` of a time in UTC. -/
def Time.addDays (t : Time) (days : Int) : Time := { t with nanos := t.nanos + days * nsPerDay }

def normalizeDateUTC (value : Time) : Time := dateUTC value.year value.month value.dayOfMonth

/-- A number with leading zeros up to `width` digits. -/
def zeroPadded (width : Nat) (n : Int) : String :=
  let digits := toString n.natAbs
  (if n < 0 then "-" else "") ++ String.ofList (List.replicate (width - digits.length) '0') ++ digits

/-- `t.Format("2006-01-02")`. -/
def Time.formatDate (t : Time) : String :=
  zeroPadded 4 t.year ++ "-" ++ zeroPadded 2 t.month ++ "-" ++ zeroPadded 2 t.dayOfMonth

example : (dateUTC 2025 3 9).formatDate = "2025-03-09" := by decide +kernel

/-! ## Locations -/

/-- What `Location.lookup` returns: the offset in force, and the instants (in
seconds) from which and until which it holds. -/
structure Zone where
  offset : Int
  start : Option Int
  stop : Option Int

/-- A `time.Location`: the zone in force at each instant. -/
structure Location where
  lookup : Int → Zone

/-- A location with one offset at all times. -/
def Location.fixed (offset : Int) : Location := ⟨fun _ => ⟨offset, none, none⟩⟩

/-- `t.In(loc)`. -/
def Time.inLoc (t : Time) (loc : Location) : Time :=
  { t with offset := (loc.lookup (t.nanos / nsPerSecond)).offset }

/-- `time.Date(year, month, day, 0, 0, second, 0, loc)`: the wall time read as UTC
picks a zone, and where that zone is not in force at the instant it gives, the
zone found there is used. -/
def clockIn (loc : Location) (year month day second : Int) : Time :=
  let unix := (dateUTC year month day).nanos / nsPerSecond + second
  let zone := loc.lookup unix
  let utc := unix - zone.offset
  let outside := zone.start.any (utc < ·) || zone.stop.any (· ≤ utc)
  let offset := if zone.offset ≠ 0 ∧ outside then (loc.lookup utc).offset else zone.offset
  Time.inLoc ⟨(unix - offset) * nsPerSecond, 0⟩ loc

/-- `time.Date(year, month, day, 0, 0, 0, 0, loc)`. -/
def dateIn (loc : Location) (year month day : Int) : Time := clockIn loc year month day 0

/-- `t.AddDate(0, 0, days)` of a time of whole seconds in `loc`: the clock stays where it stands. -/
def Time.addDaysIn (t : Time) (days : Int) (loc : Location) : Time :=
  clockIn loc t.year t.month (t.dayOfMonth + days)
    ((t.nanos + t.offset * nsPerSecond) % nsPerDay / nsPerSecond)

def normalizeDateInTimezone (t : Time) (loc : Location) : Time :=
  let inZone := t.inLoc loc
  dateIn loc inZone.year inZone.month inZone.dayOfMonth

/-- `int(targetDate.Sub(today).Hours() / 24)`. -/
def daysUntilFrom (now target : Time) (loc : Location) : Int :=
  let today := normalizeDateInTimezone now loc
  let targetDate := normalizeDateInTimezone target loc
  (targetDate.sub today).tdiv nsPerDay

/-! ## Dates are day numbers -/

@[simp] theorem midnight_day (n : Int) : (midnight n).day = n := by
  simp [midnight, Time.day, nsPerDay]

@[simp] theorem midnight_inj {m n : Int} : midnight m = midnight n ↔ m = n := by
  simp [midnight, nsPerDay]

@[simp] theorem midnight_before (m n : Int) : (midnight m).before (midnight n) = decide (m < n) := by
  simp [midnight, Time.before, nsPerDay]

@[simp] theorem midnight_after (m n : Int) : (midnight m).after (midnight n) = decide (n < m) := by
  simp [midnight, Time.after, nsPerDay]

@[simp] theorem midnight_equal (m n : Int) : (midnight m).equal (midnight n) = decide (m = n) := by
  simp [midnight, Time.equal, nsPerDay]

@[simp] theorem midnight_addDays (n days : Int) : (midnight n).addDays days = midnight (n + days) := by
  simp only [midnight, Time.addDays, Time.mk.injEq, and_true]; ring

theorem Time.monthIndex (t : Time) : 12 * t.year + (t.month - 1) = Gregorian.monthOf t.day := by
  unfold Time.year Time.month; omega

/-- The date of a time, put back together. -/
theorem dateUTC_date (t : Time) : dateUTC t.year t.month t.dayOfMonth = midnight t.day := by
  rw [dateUTC, t.monthIndex, Time.dayOfMonth, Gregorian.dayOf]; congr 1; omega

@[simp] theorem normalizeDateUTC_eq (t : Time) : normalizeDateUTC t = midnight t.day := dateUTC_date t

/-! ## A fixed offset -/

section Fixed
variable (o : Int)

@[simp] theorem lookup_fixed (i : Int) : (Location.fixed o).lookup i = ⟨o, none, none⟩ := rfl

@[simp] theorem inLoc_fixed (t : Time) : t.inLoc (Location.fixed o) = { t with offset := o } := rfl

theorem dateIn_fixed (y m d : Int) :
    dateIn (Location.fixed o) y m d = ⟨(dateUTC y m d).nanos - o * nsPerSecond, o⟩ := by
  have h : (dateUTC y m d).nanos / nsPerSecond * nsPerSecond = (dateUTC y m d).nanos := by
    simp only [dateUTC, midnight, nsPerDay, nsPerSecond]; omega
  simp only [dateIn, clockIn, lookup_fixed, add_zero, Option.any_none, Bool.or_false,
    Bool.false_eq_true, and_false, if_false,
    inLoc_fixed, Time.mk.injEq, and_true]
  rw [Int.sub_mul, h]

/-- The day number of the date that `t` shows at offset `o`. -/
def localDay (t : Time) : Int := (t.nanos + o * nsPerSecond) / nsPerDay

/-- The start of that date, as an instant. -/
theorem normalizeDateInTimezone_fixed (t : Time) :
    normalizeDateInTimezone t (Location.fixed o) = ⟨localDay o t * nsPerDay - o * nsPerSecond, o⟩ := by
  simp only [normalizeDateInTimezone, dateIn_fixed, dateUTC_date, inLoc_fixed]
  rfl

@[simp] theorem day_normalizeDateInTimezone (t : Time) :
    (normalizeDateInTimezone t (Location.fixed o)).day = localDay o t := by
  rw [normalizeDateInTimezone_fixed, Time.day]
  simp [nsPerDay]

@[simp] theorem localDay_normalizeDateInTimezone (t : Time) :
    localDay o (normalizeDateInTimezone t (Location.fixed o)) = localDay o t := by
  rw [normalizeDateInTimezone_fixed, localDay]
  simp [nsPerDay]

end Fixed

end Subdux
