import Subdux.Dashboard
import Subdux.Lib.Fuel
import Subdux.WordTime
/-!
# Charges in a window on 64-bit words

`subscriptionChargeDatesInRange` once more, on the words of `Subdux.WordTime` and with
fuel for its loops. Up to the end of Go's times it lists the charges that it lists over
unbounded integers (`chargeDates_returns`); `WindowFits` says how far a window must stay
from that end, and `windowFits_of_gap` that every window before a date does.
`chargeWindows_append_iff` is about adjacent windows.
-/

namespace Subdux.WordTime
open Gregorian Words Fuel

/-! ## The code -/

def nextRecurringOccurrenceOnOrAfter (fuel : Nat) (sub : Subscription) (anchor fromDate : Int) :
    Option (Option Int) :=
  let anchor := normalizeDateUTC anchor
  let bound := normalizeDateUTC fromDate
  if sub.recurrenceType = recurrenceTypeInterval then
    match sub.intervalCount with
    | none => some none
    | some count => (nextIntervalOccurrence fuel anchor bound count sub.intervalUnit).map some
  else if sub.recurrenceType = recurrenceTypeMonthlyDate then
    some (sub.monthlyDay.map fun day => nextMonthlyDayOccurrence bound day)
  else if sub.recurrenceType = recurrenceTypeYearlyDate then
    match sub.yearlyMonth, sub.yearlyDay with
    | some month, some day => some (some (nextYearlyDateOccurrence bound month day))
    | _, _ => some none
  else some none

def nextRecurringOccurrenceAfter (fuel : Nat) (sub : Subscription) (current : Int) :
    Option (Option Int) :=
  nextRecurringOccurrenceOnOrAfter fuel sub current (addDays (normalizeDateUTC current) 1)

/-- The loop `for current.Before(endExclusive)`. -/
def chargeLoop (fuel : Nat) (sub : Subscription) (startInclusive endExclusive : Int) :
    Nat → Int → Option (List Int)
  | 0, _ => none
  | rounds + 1, current =>
    if current < endExclusive then
      let dates := if startInclusive ≤ current then [current] else []
      (nextRecurringOccurrenceAfter fuel sub current).bind fun
        | none => some dates
        | some next =>
          if current < next then (chargeLoop fuel sub startInclusive endExclusive rounds next).map
            (dates ++ ·) else some dates
    else some []

def subscriptionChargeDatesInRange (fuel : Nat) (sub : Subscription)
    (startInclusive endExclusive : Time) :
    Option (List Int) :=
  if !subscriptionHasFutureCharge sub then some []
  else
    let startInclusive := ofTime startInclusive
    let endExclusive := ofTime endExclusive
    if ¬ startInclusive < endExclusive then some []
    else
      match sub.nextBillingDate with
      | none => some []
      | some nextBillingDate =>
        let current := ofTime nextBillingDate
        if normalizeRenewalMode sub.renewalMode ≠ renewalModeAutoRenew then
          some (if current < startInclusive ∨ ¬ current < endExclusive then [] else [current])
        else if !isRecurringScheduleValid sub then some []
        else
          let first :=
            if current < startInclusive then
              nextRecurringOccurrenceOnOrAfter fuel sub current startInclusive
            else some (some current)
          first.bind fun
            | none => some []
            | some current =>
              if ¬ current < endExclusive then some []
                else chargeLoop fuel sub startInclusive endExclusive fuel current

/-! ## More fuel -/

section Steady
variable (sub : Subscription)

theorem steady_onOrAfter (anchor bound : Int) :
    Steady fun fuel => nextRecurringOccurrenceOnOrAfter fuel sub anchor bound := by
  unfold nextRecurringOccurrenceOnOrAfter
  dsimp only
  split_ifs
  · cases sub.intervalCount with
    | none => exact steady_const _
    | some count =>
      have hwalk : Steady fun fuel =>
          nextIntervalOccurrence fuel (normalizeDateUTC anchor)
            (normalizeDateUTC bound) count sub.intervalUnit :=
        fun _ _ _ hle h => nextIntervalOccurrence_mono h hle
      exact hwalk.map _
  all_goals exact steady_const _

theorem steady_after (current : Int) :
    Steady fun fuel => nextRecurringOccurrenceAfter fuel sub current :=
  steady_onOrAfter sub _ _

/-- More fuel for the loop, and for the walks in it. -/
theorem chargeLoop_mono {a b x : Int} {fuel more rounds more' : Nat} {L : List Int} (hfuel : fuel ≤ more)
    (hrounds : rounds ≤ more') (h : chargeLoop fuel sub a b rounds x = some L) :
    chargeLoop more sub a b more' x = some L := by
  induction rounds generalizing more' x L with
  | zero => cases h
  | succ rounds ih =>
    obtain ⟨more', rfl⟩ : ∃ n, more' = n + 1 := ⟨more' - 1, by omega⟩
    rw [chargeLoop] at h ⊢
    by_cases hxb : x < b
    case neg => rwa [if_neg hxb] at h ⊢
    rw [if_pos hxb] at h ⊢
    obtain ⟨next, hnext, hrest⟩ := Option.bind_eq_some_iff.1 h
    refine Option.bind_eq_some_iff.2 ⟨next, steady_after sub x hfuel hnext, ?_⟩
    cases next with
    | none => exact hrest
    | some next =>
      dsimp only at hrest ⊢
      by_cases hup : x < next
      case neg => rwa [if_neg hup] at hrest ⊢
      rw [if_pos hup] at hrest ⊢
      obtain ⟨L, hL, rfl⟩ := Option.map_eq_some_iff.1 hrest
      rw [ih (by omega) hL, Option.map_some]

/-- The loop from where the first walk ended. -/
theorem steady_rest (a b : Int) (first : Option Int) : Steady fun fuel =>
    match first with
    | none => some []
    | some current => if ¬ current < b then some [] else chargeLoop fuel sub a b fuel current := by
  cases first with
  | none => exact steady_const _
  | some x => exact (steady_const _).ite fun _ _ _ hle h => chargeLoop_mono sub hle hle h

theorem steady_chargeDates (a b : Time) :
    Steady fun fuel => subscriptionChargeDatesInRange fuel sub a b := by
  unfold subscriptionChargeDatesInRange
  dsimp only
  refine (steady_const _).ite ((steady_const _).ite ?_)
  cases sub.nextBillingDate with
  | none => exact steady_const _
  | some date =>
    refine (steady_const _).ite ((steady_const _).ite ?_)
    exact ((steady_onOrAfter sub _ _).ite (steady_const _)).bind fun first => steady_rest sub _ _ first

end Steady

/-! ## Up to the end of Go's times -/

/-- The year of day `n` begins, and its month ends, within Go's times. -/
structure InTimes (n : Int) : Prop where
  begins : -2 ^ 63 ≤ seconds (monthStart (12 * (monthOf n / 12)))
  ends : seconds (monthStart (monthOf n + 1)) < 2 ^ 63

instance (n : Int) : Decidable (InTimes n) :=
  decidable_of_iff (-2 ^ 63 ≤ seconds (monthStart (12 * (monthOf n / 12))) ∧
    seconds (monthStart (monthOf n + 1)) < 2 ^ 63)
    ⟨fun h => ⟨h.1, h.2⟩, fun h => ⟨h.begins, h.ends⟩⟩

section InTimes
variable {a b d n x y M : Int}

theorem seconds_monotone {m n : Int} (h : m ≤ n) : seconds m ≤ seconds n := seconds_strictMono.monotone h

/-- The months from the start of a year in time, up to one that ends in time. -/
theorem monthFits_of_inTimes (ha : InTimes a) (hy : InTimes y) (haM : 12 * (monthOf a / 12) ≤ M)
    (hMy : M ≤ monthOf y) :
    MonthFits M := by
  have h1 := seconds_monotone (monthStart_strictMono.monotone haM)
  have h2 := seconds_strictMono (monthStart_strictMono (show M < M + 1 by omega))
  have h3 := seconds_monotone (monthStart_strictMono.monotone (show M + 1 ≤ monthOf y + 1 by omega))
  have hbegins := ha.begins
  have hends := hy.ends
  exact ⟨⟨by omega, by omega⟩, by omega, by omega⟩

theorem MonthFits.date_inRange (h : MonthFits M) (hd : 1 ≤ d) : InRange (seconds (onMonth M d)) := by
  have hspec := monthOf_spec (onMonth M d)
  rw [monthOf_onMonth hd] at hspec
  exact h.inRange hspec.1 hspec.2.le

theorem InTimes.inRange (h : InTimes n) : InRange (seconds n) := by
  have hspec := monthOf_spec n
  exact (monthFits_of_inTimes h h (by omega) le_rfl).inRange hspec.1 hspec.2.le

/-- The days between two in time. -/
theorem InTimes.between (ha : InTimes a) (hy : InTimes y) (hax : a ≤ x) (hxy : x ≤ y) : InTimes x := by
  have h1 := monthOf_mono hax
  have h2 := monthOf_mono hxy
  refine ⟨?_, ?_⟩
  · exact ha.begins.trans (seconds_monotone (monthStart_strictMono.monotone (by omega)))
  · exact (seconds_monotone (monthStart_strictMono.monotone (by omega))).trans_lt hy.ends

/-- What is read of a day in time. -/
theorem year_seconds (n : Int) : year (seconds n) = monthOf n / 12 := by rw [year, dayNumber_seconds]

theorem month_seconds (n : Int) : month (seconds n) = monthOf n % 12 + 1 := by
  rw [month, dayNumber_seconds]

theorem ofTime_eq {t : Time} (h : InRange (seconds t.day)) : ofTime t = seconds t.day := by
  have hbounds := monthOf_bounds h
  rw [dayNumber_seconds] at hbounds
  rw [ofTime, date_eq t.monthIndex (inRange_year (by omega) (by omega)), add_zero,
    Time.dayOfMonth, dayOf,
    show monthStart (monthOf t.day) + (t.day - monthStart (monthOf t.day) + 1 - 1) = t.day by ring,
        wrap_of_inRange h]

theorem ofTime_midnight (h : InRange (seconds n)) : ofTime (midnight n) = seconds n := by
  rw [ofTime_eq (by rwa [midnight_day]), midnight_day]

end InTimes

/-! ## Occurrences -/

section Occurrences
variable {sub : Subscription} {r : Rule} {a b d m x : Int}

theorem nextMonthlyDayOccurrence_eq {pos : 1 ≤ d} (hb : InTimes b)
    (hx : (Rule.monthDay d pos).IsNext a b x) (hend : InTimes x) :
    nextMonthlyDayOccurrence (seconds b) d = seconds x := by
  have hbx := monthOf_mono hx.le
  have hfits : MonthFits (monthOf b) := monthFits_of_inTimes hb hend (by omega) hbx
  have hcand : buildDate (year (seconds b)) (month (seconds b)) d = seconds (onMonth (monthOf b) d) :=
    buildDate_eq (by rw [year_seconds, month_seconds]; omega) hfits pos
  have hday := (monthOf_onMonth (M := monthOf b) pos)
  simp only [nextMonthlyDayOccurrence, normalizeDateUTC_seconds hb.inRange, hcand,
    seconds_strictMono.lt_iff_lt]
  by_cases hlt : onMonth (monthOf b) d < b
  · -- The day of this month is over.
    have hnext : x = onMonth (monthOf b + 1) d := hx.unique (Rule.isNext_monthDay (M := monthOf b + 1)
      (lt_onMonth (by omega) pos).le (by simpa using hlt))
    have hmonth : monthOf x = monthOf b + 1 := by rw [hnext, monthOf_onMonth pos]
    have hfits' : MonthFits (monthOf b + 1) := monthFits_of_inTimes hb hend (by omega) hmonth.ge
    rw [if_pos hlt, addMonthsPreservePreferredDay_eq (hfits.date_inRange pos) (by decide)
      (by rwa [hday]) pos, hday, hnext]
  · have hnext : x = onMonth (monthOf b) d :=
      hx.unique (Rule.isNext_monthDay (M := monthOf b) (not_lt.1 hlt) (by
      have := onMonth_lt (d := d) (show monthOf b - 1 < monthOf b by omega) (dayOf_bounds b).1
      rwa [onMonth_dayOf] at this))
    rw [if_neg hlt, hnext]

theorem nextYearlyDateOccurrence_eq {pos : 1 ≤ d} (hm : 1 ≤ m ∧ m ≤ 12) (hb : InTimes b)
    (hx : (Rule.yearDay m d pos).IsNext a b x) (hend : InTimes x) :
    nextYearlyDateOccurrence (seconds b) m d = seconds x := by
  have hbx := monthOf_mono hx.le
  have hbounds := monthOf_bounds hb.inRange
  rw [dayNumber_seconds] at hbounds
  generalize hy : monthOf b / 12 = y
  have hprev : onMonth (12 * (y - 1) + (m - 1)) d < b := by
    have := onMonth_lt (d := d) (show 12 * (y - 1) + (m - 1) < monthOf b by omega) (dayOf_bounds b).1
    rwa [onMonth_dayOf] at this
  have hword : wrap (y + 1) = y + 1 := wrap_of_inRange (by unfold InRange; omega)
  simp only [nextYearlyDateOccurrence, normalizeDateUTC_seconds hb.inRange, year_seconds, hy, hword]
  by_cases hlt : onMonth (12 * y + (m - 1)) d < b
  · -- The date of this year is over; its month is in time before that of `b`.
    have hmonths : 12 * y + (m - 1) ≤ monthOf b := by
      by_contra h
      have := lt_onMonth (d := d) (not_le.1 h) pos
      omega
    have hfits : MonthFits (12 * y + (m - 1)) := monthFits_of_inTimes hb hend (by omega) (by omega)
    have hnext : x = onMonth (12 * (y + 1) + (m - 1)) d :=
      hx.unique (Rule.isNext_yearDay (y := y + 1) (lt_onMonth (by omega) pos).le (by simpa using hlt))
    have hmonth : monthOf x = 12 * (y + 1) + (m - 1) := by rw [hnext, monthOf_onMonth pos]
    have hfits' : MonthFits (12 * (y + 1) + (m - 1)) := monthFits_of_inTimes hb hend (by omega) hmonth.ge
    rw [buildDate_eq rfl hfits pos, buildDate_eq rfl hfits' pos, if_pos (seconds_strictMono hlt), hnext]
  · have hnext : x = onMonth (12 * y + (m - 1)) d :=
      hx.unique (Rule.isNext_yearDay (y := y) (not_lt.1 hlt) hprev)
    have hmonth : monthOf x = 12 * y + (m - 1) := by rw [hnext, monthOf_onMonth pos]
    have hfits : MonthFits (12 * y + (m - 1)) := monthFits_of_inTimes hb hend (by omega) hmonth.ge
    rw [buildDate_eq rfl hfits pos, if_neg (by rwa [seconds_strictMono.lt_iff_lt]), hnext]

/-- The first date of the row's rule, in time, is found on words too. -/
theorem onOrAfter_returns (hr : sub.rule = some r) (ha : InRange (seconds a)) (hb : InTimes b)
    (hx : r.IsNext a b x) (hend : InTimes x) :
    Returns (fun fuel => nextRecurringOccurrenceOnOrAfter fuel sub (seconds a) (seconds b))
    (some (seconds x)) := by
  simp only [nextRecurringOccurrenceOnOrAfter, normalizeDateUTC_seconds ha,
    normalizeDateUTC_seconds hb.inRange]
  unfold Subscription.rule at hr
  split_ifs at hr ⊢
  · obtain ⟨count, hc, hr⟩ := Option.bind_eq_some_iff.1 hr
    obtain ⟨y, he, hreturns⟩ := nextIntervalOccurrence_eq hr ha hb.inRange
    obtain ⟨y', hy, he'⟩ := nextIntervalOccurrence_spec hr a b
    obtain rfl : y = x := by rw [← midnight_inj, ← he, he', hy.unique hx]
    rw [hc]
    exact Returns.map (hreturns hend.ends) some
  · cases hday : sub.monthlyDay with
    | none => simp [hday] at hr
    | some day =>
      simp only [hday] at hr
      split at hr <;> cases hr
      exact returns_const (by rw [Option.map_some, nextMonthlyDayOccurrence_eq hb hx hend])
  · cases hmonth : sub.yearlyMonth <;> cases hday : sub.yearlyDay <;> simp only
      [hmonth, hday, reduceCtorEq] at hr
    rename_i month day
    split at hr <;> cases hr
    rename_i h
    dsimp only
    exact returns_const (by rw [nextYearlyDateOccurrence_eq h.1 hb hx hend])

theorem after_returns (hr : sub.rule = some r) (ha : InTimes a) (hx : r.IsNext a (a + 1) x)
    (hend : InTimes x) :
    Returns (fun fuel => nextRecurringOccurrenceAfter fuel sub (seconds a)) (some (seconds x)) := by
  have hnext : InTimes (a + 1) := ha.between hend (by omega) hx.le
  have hadd : seconds a + 1 * secondsPerDay = seconds (a + 1) := by
    unfold seconds
    ring
  simp only [nextRecurringOccurrenceAfter, normalizeDateUTC_seconds ha.inRange,
    addDays_eq ha.inRange, hadd,
    wrap_of_inRange hnext.inRange]
  exact onOrAfter_returns hr ha.inRange hnext hx hend

end Occurrences

/-! ## Windows up to the end of Go's times -/

/-- No word wraps where the charges from `a` to `b` are listed: the start of the window is
in time, and so is the first charge from its end on. -/
structure WindowFits (sub : Subscription) (a b : Time) : Prop where
  start : InTimes a.day
  stop : InRange (seconds b.day)
  date : ∀ date ∈ sub.nextBillingDate, InRange (seconds date.day)
  charges : subscriptionHasFutureCharge sub = true →
    normalizeRenewalMode sub.renewalMode = renewalModeAutoRenew →
    ∀ date ∈ sub.nextBillingDate, ∀ r ∈ sub.rule, ∀ x y, r.CatchUp date.day a.day x →
      r.Reaches b.day x y → InTimes y

section Windows
variable {sub : Subscription} {r : Rule} {a b c x y : Int}

/-- The loop, from a date in time to one in time. -/
theorem chargeLoop_returns (hr : sub.rule = some r) {L : List Int} (hax : a ≤ x) (hx : InTimes x)
    (hL : r.Charges b x L) (hy : r.Reaches b x y) (hend : InTimes y) :
    ∃ fuel rounds, chargeLoop fuel sub (seconds a) (seconds b) rounds (seconds x) = some
    (L.map seconds) := by
  induction hL with
  | done h => exact ⟨0, 1, by rw [chargeLoop, if_neg (not_lt.2 (seconds_monotone h)), List.map_nil]⟩
  | @charge x next L hxb hnext _ ih =>
    cases hy with
    | stop h => omega
    | next _ hnext' hy =>
      obtain rfl := hnext.unique hnext'
      have hup := hnext.le
      have hnextIn : InTimes next := hx.between hend (by omega) hy.ge
      obtain ⟨fuel, hfuel⟩ := after_returns hr hx hnext hnextIn
      obtain ⟨fuel', rounds, hrest⟩ := ih (by omega) hnextIn hy
      refine ⟨max fuel fuel', rounds + 1, ?_⟩
      rw [chargeLoop, if_pos (seconds_strictMono hxb), if_pos (seconds_monotone hax)]
      have hafter : nextRecurringOccurrenceAfter (max fuel fuel') sub (seconds x) = some
          (some (seconds next)) :=
        steady_after sub _ (le_max_left fuel fuel') hfuel
      rw [hafter]
      dsimp only [Option.bind_some]
      rw [if_pos (seconds_strictMono (by omega)), chargeLoop_mono sub
        (le_max_right fuel fuel') le_rfl hrest]
      rfl

/-- The charges of a window in time are words. -/
theorem map_ofTime_midnight {L : List Int} (hL : ∀ z ∈ L, InTimes z) :
    (L.map midnight).map ofTime = L.map seconds := by
  rw [List.map_map]
  exact List.map_congr_left fun z hz => ofTime_midnight (hL z hz).inRange

end Windows

section Transfer
variable {sub : Subscription} {r : Rule} {date a b : Time}

/-- A row that is charged but not renewed. -/
theorem chargeDates_once_returns (hf : subscriptionHasFutureCharge sub = true)
    (hm : normalizeRenewalMode sub.renewalMode ≠ renewalModeAutoRenew)
    (hdate : sub.nextBillingDate = some date) (h : WindowFits sub a b) (fuel : Nat) :
    subscriptionChargeDatesInRange fuel sub a b = some
    ((Subdux.subscriptionChargeDatesInRange sub a b).map ofTime) := by
  have hday := h.date date hdate
  rw [chargeDates_once hf hm hdate]
  simp only [subscriptionChargeDatesInRange, hf, hdate, ofTime_eq h.start.inRange, ofTime_eq h.stop,
    ofTime_eq hday,
    Bool.not_true, Bool.false_eq_true, if_false, seconds_strictMono.lt_iff_lt, if_pos hm]
  by_cases hin : a.day ≤ date.day ∧ date.day < b.day
  · rw [if_neg (by omega), if_neg (by omega), if_pos hin, List.map_singleton, ofTime_midnight hday]
  · rw [if_neg hin, List.map_nil]
    split_ifs
    · rfl
    · omega
    · rfl

/-- The charges of a window in time are in time. -/
theorem WindowFits.inTimes (h : WindowFits sub a b) (hf : subscriptionHasFutureCharge sub = true)
    (hm : normalizeRenewalMode sub.renewalMode = renewalModeAutoRenew)
    (hdate : sub.nextBillingDate = some date) (hr : sub.rule = some r) {x : Int} {L : List Int}
    (hx : r.CatchUp date.day a.day x) (hL : r.Charges b.day x L) : ∀ z ∈ L, InTimes z := by
  intro z hz
  obtain ⟨y, hy⟩ := hL.reaches
  obtain ⟨hxz, hzb⟩ := hL.bounds z hz
  exact h.start.between (h.charges hf hm date hdate r hr x y hx hy) (hx.le.trans hxz)
    (hzb.le.trans hy.le)

/-- A row that is renewed by a rule. -/
theorem chargeDates_renewed_returns (hf : subscriptionHasFutureCharge sub = true)
    (hm : normalizeRenewalMode sub.renewalMode = renewalModeAutoRenew)
    (hdate : sub.nextBillingDate = some date) (hr : sub.rule = some r) (h : WindowFits sub a b) :
    Returns (fun fuel => subscriptionChargeDatesInRange fuel sub a b)
      ((Subdux.subscriptionChargeDatesInRange sub a b).map ofTime) := by
  have hvalid := (isRecurringScheduleValid_iff sub).2 ⟨r, hr⟩
  have hday := h.date date hdate
  obtain ⟨x, L, hx, hL, hlist⟩ := chargeDates_renewed hf hm hdate hr a b
  obtain ⟨y, hy⟩ := hL.reaches
  have hend := h.charges hf hm date hdate r hr x y hx hy
  have hax := hx.le
  have hxIn : InTimes x := h.start.between hend hax hy.ge
  rw [hlist, map_ofTime_midnight (h.inTimes hf hm hdate hr hx hL)]
  have hfirst : Returns (fun fuel => if seconds date.day < seconds a.day then
      nextRecurringOccurrenceOnOrAfter fuel sub (seconds date.day) (seconds a.day)
        else some (some (seconds date.day)))
      (some (seconds x)) := by
    simp only [seconds_strictMono.lt_iff_lt]
    unfold Rule.CatchUp at hx
    split_ifs at hx ⊢
    · exact onOrAfter_returns hr hday h.start hx hxIn
    · exact returns_const (by rw [hx])
  have hrest : Returns (fun fuel => if ¬ seconds x < seconds b.day then some []
      else chargeLoop fuel sub (seconds a.day) (seconds b.day) fuel (seconds x)) (L.map seconds) := by
    obtain ⟨fuel, rounds, hloop⟩ := chargeLoop_returns hr hax hxIn hL hy hend
    refine ⟨max fuel rounds, ?_⟩
    dsimp only
    split_ifs with hxb
    · exact chargeLoop_mono sub (le_max_left _ _) (le_max_right _ _) hloop
    · cases hL with
      | done => rfl
      | charge h => exact absurd (seconds_strictMono h) hxb
  simp only [subscriptionChargeDatesInRange, hf, hdate, hm, hvalid, ofTime_eq h.start.inRange,
    ofTime_eq h.stop, ofTime_eq hday,
    Bool.not_true, Bool.false_eq_true, if_false, ne_eq, not_true_eq_false]
  by_cases hab : seconds a.day < seconds b.day
  · simp only [hab, not_true_eq_false, if_false]
    exact hfirst.bind ((steady_onOrAfter sub _ _).ite (steady_const _))
      (fun first => steady_rest sub _ _ first) hrest
  · -- The window is empty.
    have hempty : L = [] := by
      cases hL with
      | done => rfl
      | charge hxb => exact absurd (seconds_strictMono (hax.trans_lt hxb)) hab
    simp only [hab, not_false_eq_true, if_true, hempty]
    exact returns_const rfl

end Transfer

/-- Where no word wraps, a window lists the charges that it lists over unbounded integers. -/
theorem chargeDates_returns {sub : Subscription} {a b : Time} (h : WindowFits sub a b) :
    Returns (fun fuel => subscriptionChargeDatesInRange fuel sub a b)
      ((Subdux.subscriptionChargeDatesInRange sub a b).map ofTime) := by
  cases hf : subscriptionHasFutureCharge sub with
  | false =>
    exact ⟨0, by rw [chargeDates_of_not_future hf]; simp [subscriptionChargeDatesInRange, hf]⟩
  | true =>
    cases hdate : sub.nextBillingDate with
    | none =>
      exact ⟨0, by simp [subscriptionChargeDatesInRange, Subdux.subscriptionChargeDatesInRange, hdate]⟩
    | some date =>
      by_cases hm : normalizeRenewalMode sub.renewalMode = renewalModeAutoRenew
      case neg => exact ⟨0, chargeDates_once_returns hf hm hdate h 0⟩
      cases hvalid : isRecurringScheduleValid sub with
      | false =>
        refine ⟨0, ?_⟩
        rw [chargeDates_invalid hm hvalid]
        simp [subscriptionChargeDatesInRange, hdate, hm, hvalid]
      | true =>
        obtain ⟨r, hr⟩ := (isRecurringScheduleValid_iff sub).1 hvalid
        exact chargeDates_renewed_returns hf hm hdate hr h

/-- Windows whose dates are this far from the end of Go's times. -/
theorem windowFits_of_gap {sub : Subscription} {a b : Time} (ha : InTimes a.day)
    (hb : InRange (seconds b.day)) (hdate : ∀ date ∈ sub.nextBillingDate, InRange (seconds date.day) ∧
      ∀ r ∈ sub.rule, seconds (max (max date.day a.day) b.day + r.gap + 31) < 2 ^ 63) : WindowFits
        sub a b where
  start := ha
  stop := hb
  date := fun date hd => (hdate date hd).1
  charges := by
    intro _ _ date hd r hr x y hx hy
    have hlast := (hdate date hd).2 r hr
    have hgap := r.gap_pos
    have hxle := hx.le_gap hgap.le
    have hyle := hy.le_gap
    have hay := hx.le.trans hy.ge
    refine ⟨ha.begins.trans (seconds_monotone (monthStart_strictMono.monotone ?_)), ?_⟩
    · have := monthOf_mono hay
      omega
    · have hspec := (monthOf_spec y).1
      have hsucc := monthStart_succ (monthOf y)
      have hlen := (monthLen_bounds (monthOf y)).2
      exact (seconds_monotone (by omega)).trans_lt hlast

/-! ## Adjacent windows -/

/-- The time that a word is. -/
def toTime (sec : Int) : Time := ⟨(sec - unixDays * secondsPerDay) * nsPerSecond, 0⟩

theorem toTime_seconds (n : Int) : toTime (seconds n) = midnight n := by
  simp only [toTime, seconds, midnight, secondsPerDay, nsPerSecond, nsPerDay, Time.mk.injEq, and_true]
  ring

/-- The three calls return, and the two windows list together what the one does. -/
def WindowsAdd (sub : Subscription) (a b c : Time) : Prop :=
  ∃ whole first second, Returns (fun fuel => subscriptionChargeDatesInRange fuel sub a c) whole ∧
    Returns (fun fuel => subscriptionChargeDatesInRange fuel sub a b) first ∧
    Returns (fun fuel => subscriptionChargeDatesInRange fuel sub b c) second ∧ whole = first ++ second

section Adjacent
variable {sub : Subscription} {a b c : Time}

/-- The charges of a window in time are the words' own times. -/
theorem chargeDates_toTime (h : WindowFits sub a b) :
    ((Subdux.subscriptionChargeDatesInRange sub a b).map ofTime).map toTime =
    Subdux.subscriptionChargeDatesInRange sub a b := by
  rw [List.map_map, List.map_congr_left, List.map_id]
  intro t ht
  obtain ⟨n, rfl, han, hnb⟩ := mem_chargeDates ht
  have hn : InRange (seconds n) :=
    ⟨h.start.inRange.1.trans (seconds_monotone han), (seconds_strictMono hnb).trans h.stop.2⟩
  rw [Function.comp_apply, ofTime_midnight hn, toTime_seconds, id]

/-- What the word's window lists, as times. -/
theorem chargeDates_unique (h : WindowFits sub a b) {dates : List Int}
    (hdates : Returns (fun fuel => subscriptionChargeDatesInRange fuel sub a b) dates) :
    dates.map toTime = Subdux.subscriptionChargeDatesInRange sub a b := by
  have heq : dates = (Subdux.subscriptionChargeDatesInRange sub a b).map ofTime :=
    Returns.unique (steady_chargeDates sub a b) hdates (chargeDates_returns h)
  rw [heq, chargeDates_toTime h]

/-- Where no word wraps, windows add up exactly under `WindowSafe`. -/
theorem chargeWindows_append_iff (ha : subscriptionIsActive sub = true)
    (hvalid : isRecurringScheduleValid sub = true) (hab : a.day ≤ b.day) (hbc : b.day ≤ c.day)
    (hwhole : WindowFits sub a c) (hfirst : WindowFits sub a b) (hsecond : WindowFits sub b c) :
    WindowsAdd sub a b c ↔ WindowSafe sub a b c := by
  rw [← chargeDates_append_iff ha hvalid hab hbc]
  constructor
  · rintro ⟨whole, first, second, h1, h2, h3, hadd⟩
    rw [← chargeDates_unique hwhole h1, ← chargeDates_unique hfirst h2,
      ← chargeDates_unique hsecond h3, hadd, List.map_append]
  · intro hadd
    refine ⟨_, _, _, chargeDates_returns hwhole, chargeDates_returns hfirst,
      chargeDates_returns hsecond, ?_⟩
    rw [hadd, List.map_append]

end Adjacent

/-- February and March together charge `monthEndRow` on 28 March; March alone, on the 31st. -/
theorem chargeWindows_moves_day :
    ¬ ∀ (sub : Subscription) (a b c : Time), subscriptionIsActive sub = true →
    isRecurringScheduleValid sub = true →
      a.day ≤ b.day → b.day ≤ c.day → WindowsAdd sub a b c := by
  intro h
  obtain ⟨whole, first, second, h1, h2, h3, hadd⟩ :=
    h monthEndRow (dateUTC 2025 2 1) (dateUTC 2025 3 1) (dateUTC 2025 4 1)
    (by decide) (by decide) (by decide) (by decide)
  have hwhole := Returns.unique (steady_chargeDates _ _ _) h1
    ⟨4, show _ = some [seconds (dateUTC 2025 2 28).day, seconds (dateUTC 2025 3 28).day]
      by decide +kernel⟩
  have hfirst := Returns.unique (steady_chargeDates _ _ _) h2
    ⟨4, show _ = some [seconds (dateUTC 2025 2 28).day] by decide +kernel⟩
  have hsecond := Returns.unique (steady_chargeDates _ _ _) h3
    ⟨4, show _ = some [seconds (dateUTC 2025 3 31).day] by decide +kernel⟩
  rw [hwhole, hfirst, hsecond] at hadd
  exact absurd hadd (by decide +kernel)

theorem monthEndRow_fits {a b : Time} (ha : InTimes a.day) (hb : InRange (seconds b.day))
    (h : seconds (max (max (dateUTC 2025 1 31).day a.day) b.day + (Rule.months 1 (by decide)).gap +
      31) < 2 ^ 63) :
    WindowFits monthEndRow a b := by
  refine windowFits_of_gap ha hb fun date hdate => ?_
  obtain rfl : dateUTC 2025 1 31 = date := Option.some.inj hdate
  refine ⟨by decide +kernel, fun r hr => ?_⟩
  obtain rfl : Rule.months 1 (by decide) = r := Option.some.inj hr
  exact h

theorem chargeWindows_append_monthEndRow :
    WindowsAdd monthEndRow (dateUTC 2025 2 1) (dateUTC 2025 3 1) (dateUTC 2025 4 1) ↔
      WindowSafe monthEndRow (dateUTC 2025 2 1) (dateUTC 2025 3 1) (dateUTC 2025 4 1) := by
  refine chargeWindows_append_iff (by decide) (by decide) (by decide) (by decide) ?_ ?_ ?_
  · exact monthEndRow_fits (by decide +kernel) (by decide +kernel) (by decide +kernel)
  · exact monthEndRow_fits (by decide +kernel) (by decide +kernel) (by decide +kernel)
  · exact monthEndRow_fits (by decide +kernel) (by decide +kernel) (by decide +kernel)

end Subdux.WordTime
