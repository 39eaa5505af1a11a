import Subdux.Lifecycle
/-!
# How many days until a date

`DaysUntilFrom` of `internal/pkg/timezone.go`, in any location. A stored date is the UTC
midnight of its day, and the code converts this instant as well: what it counts is the
time between two local midnights, the second of which may be that of the day before
(`labelDay`), in whole days of 24 hours.
-/

namespace Subdux
open Gregorian

def secondsPerDay : Int := 86400

/-- The offset that `time.Date` applies to the midnight of day `n`. -/
def midnightOffset (loc : Location) (n : Int) : Int :=
  let unix := n * secondsPerDay
  let zone := loc.lookup unix
  let utc := unix - zone.offset
  let outside := zone.start.any (utc < ·) || zone.stop.any (· ≤ utc)
  if zone.offset ≠ 0 ∧ outside then (loc.lookup utc).offset else zone.offset

/-- The day that the stored date `d` shows in the location. -/
def labelDay (loc : Location) (d : Int) : Int := ((midnight d).inLoc loc).day

/-- The seconds between the two local midnights beyond the days from `today` to `d`. -/
def midnightDrift (loc : Location) (today d : Int) : Int :=
  (labelDay loc d - d) * secondsPerDay - (midnightOffset loc (labelDay loc d) - midnightOffset loc today)

/-- The days that the longest duration has. -/
def maxDurationDays : Int := 106751

/-- A distance of `days` survives a drift: it may not take anything off a full day, nor
reach another one. At the ends of the range `Sub` saturates. -/
structure Tolerates (days drift : Int) : Prop where
  range : -maxDurationDays ≤ days ∧ days ≤ maxDurationDays
  ahead : 0 < days → 0 ≤ drift
  behind : days < 0 → drift ≤ 0
  below : drift < secondsPerDay ∨ days = maxDurationDays
  above : -secondsPerDay < drift ∨ days = -maxDurationDays

section Distance
variable {loc : Location}

/-- The instant at which a local day begins. -/
theorem normalizeDateInTimezone_eq (t : Time) (loc : Location) :
    (normalizeDateInTimezone t loc).nanos =
      (t.inLoc loc).day * nsPerDay - midnightOffset loc (t.inLoc loc).day * nsPerSecond := by
  have hunix : (midnight (t.inLoc loc).day).nanos / nsPerSecond = (t.inLoc loc).day * secondsPerDay := by
    simp only [midnight, nsPerDay, nsPerSecond, secondsPerDay]
    omega
  unfold normalizeDateInTimezone
  dsimp only
  unfold dateIn clockIn midnightOffset
  rw [dateUTC_date, hunix, add_zero]
  dsimp only [Time.inLoc]
  rw [Int.sub_mul]
  simp only [secondsPerDay, nsPerDay, nsPerSecond]
  omega

/-- What the code counts: the days and the drift, saturated and rounded towards zero. -/
theorem daysUntilFrom_eq (now : Time) (d : Int) (loc : Location) :
    let today := (now.inLoc loc).day
    daysUntilFrom now (midnight d) loc =
      (max (-2 ^ 63) (min (2 ^ 63 - 1)
        (((d - today) * secondsPerDay + midnightDrift loc today d) * nsPerSecond))).tdiv nsPerDay := by
  simp only [daysUntilFrom, Time.sub, normalizeDateInTimezone_eq]
  congr 3
  simp only [midnightDrift, labelDay, secondsPerDay, nsPerDay, nsPerSecond]
  ring_nf

/-- Rounding towards zero gives `days` exactly for the drifts that it tolerates. -/
theorem tdiv_eq_iff (days drift : Int) :
    (max (-2 ^ 63) (min (2 ^ 63 - 1) ((days * secondsPerDay + drift) * nsPerSecond))).tdiv
    nsPerDay = days ↔ Tolerates days drift := by
  have hiff : Tolerates days drift ↔ (-106751 ≤ days ∧ days ≤ 106751) ∧ (0 < days → 0 ≤ drift) ∧
      (days < 0 → drift ≤ 0) ∧
      (drift < 86400 ∨ days = 106751) ∧ (-86400 < drift ∨ days = -106751) :=
    ⟨fun h => ⟨h.range, h.ahead, h.behind, h.below, h.above⟩, fun ⟨h1, h2, h3, h4, h5⟩ =>
      ⟨h1, h2, h3, h4, h5⟩⟩
  rw [hiff]
  simp only [secondsPerDay, nsPerDay, nsPerSecond]
  generalize hd : max (-2 ^ 63) (min (2 ^ 63 - 1) ((days * 86400 + drift) * 1000000000)) = duration
  rcases le_or_gt 0 duration with hpos | hneg
  · rw [Int.tdiv_eq_ediv_of_nonneg hpos]
    omega
  · have hquot : duration.tdiv 86400000000000 = -((-duration) / 86400000000000) := by
      rw [← Int.tdiv_eq_ediv_of_nonneg (by omega), Int.neg_tdiv, neg_neg]
    rw [hquot]
    omega

/-- The distance is that of the calendar exactly when the drift is tolerated. The other
side always holds: a transition of the lifecycle sees nothing of `now` but its local date. -/
theorem days_until_iff (loc : Location) (now : Time) (d : Int) :
    let today := (now.inLoc loc).day
    (daysUntilFrom now (midnight d) loc = d - today ∧
        ∀ sub, advanceSubscriptionLifecycle sub (now.inLoc loc) = advanceSubscriptionLifecycle sub
          (midnight today)) ↔
      Tolerates (d - today) (midnightDrift loc today d) := by
  dsimp only
  rw [daysUntilFrom_eq, tdiv_eq_iff]
  refine and_iff_left fun sub => ?_
  simp only [advanceSubscriptionLifecycle, normalizeDateUTC_eq, midnight_day]

/-! ## One offset -/

/-- West of UTC a stored date shows the day before. -/
theorem midnightDrift_fixed (o today d : Int) :
    midnightDrift (Location.fixed o) today d = o / secondsPerDay * secondsPerDay := by
  simp only [midnightDrift, labelDay, midnightOffset, inLoc_fixed, lookup_fixed, Time.day, midnight,
    Option.any_none, Bool.or_false,
    Bool.false_eq_true, and_false, if_false, nsPerDay, nsPerSecond, secondsPerDay]
  omega

/-- Noon of 10 January 2025 in New York, five days before the 15th: the code counts four. -/
theorem days_until_west :
    ¬ ∀ (loc : Location) (now : Time) (d : Int), daysUntilFrom now (midnight d) loc = d -
    (now.inLoc loc).day := by
  intro h
  have := h (Location.fixed (-18000)) ((dateUTC 2025 1 10).add 61200000000000) (dateUTC 2025 1 15).day
  revert this
  decide +kernel

end Distance
end Subdux
