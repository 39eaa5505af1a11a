import Mathlib.Data.List.Sort
import Subdux.Calendar
import Subdux.Lib.RecurrenceRules
import Subdux.WordForecast
/-!
# The calendar feed against the forecast

The feed shows a subscription on the dates of its event's start and rule, as a
calendar client expands them; the forecast, on those of
`subscriptionChargeDatesInRange`. A client skips a month without the rule's day,
where the forecast takes the month's last day: `WordTime.feed_agrees_iff` says that the
two agree, wherever no word wraps, exactly when the rule comes to no such month.
-/

namespace Subdux
open Gregorian RecurrenceRules

/-! ## The dates a client shows -/

/-- The dates of the event that the feed writes, in a window of days. -/
def feedDates (sub : Subscription) (a b : Int) : List Int :=
  match sub.nextBillingDate with
  | none => []
  | some nextBillingDate =>
    let start := nextBillingDate.utc.day
    match parse (eventRRule sub) with
    | none => (days a b).filter (· = start)
    | some rrule => rrule.expand start a b

namespace Rule

/-- The rule's dates from `n` on, and `n` itself. -/
def schedule (r : Rule) (n : Int) : Set Int := {x | x = n ∨ n < x ∧ x ∈ r.dates n}

/-- The month of `x` has the rule's day. -/
def DayKept : Rule → Int → Int → Prop
  | days _ _, _, _ => True
  | months _ _, n, x => dayOf n ≤ monthLen (monthOf x)
  | monthDay day _, _, x => day ≤ monthLen (monthOf x)
  | yearDay _ day _, _, x => day ≤ monthLen (monthOf x)

section Schedule
variable {r : Rule} {n a b x y z : Int} {L : List Int}

theorem schedule_ge (h : x ∈ r.schedule n) : n ≤ x := by
  rcases h with rfl | h
  · exact le_rfl
  · exact h.1.le

/-- Re-anchored at a date that has its day, the rule goes on with the same dates. -/
theorem dates_reanchor (hx : x ∈ r.schedule n) (hkept : n < x → r.DayKept n x) (hxz : x < z) :
    z ∈ r.dates x ↔ z ∈ r.dates n := by
  rcases hx with rfl | ⟨hnx, hx⟩
  · rfl
  have hkept := hkept hnx
  cases r with
  | days step pos =>
    obtain ⟨k, rfl⟩ := hx
    constructor
    · rintro ⟨j, rfl⟩
      exact ⟨k + j, by push_cast; ring⟩
    · rintro ⟨j, rfl⟩
      have hlt : (k : Int) < j := lt_of_mul_lt_mul_left (by omega) pos.le
      exact ⟨j - k, by rw [Nat.cast_sub (by omega)]; ring⟩
  | months stride pos =>
    obtain ⟨k, rfl⟩ := hx
    have hdate : ∀ j, monthDate stride (monthDate stride n k) j = monthDate stride n (k + j) :=
      fun j => by
      have hlen : min (dayOf n) (monthLen (monthOf n + stride * k)) = dayOf n := by
        rw [DayKept, monthOf_monthDate] at hkept
        exact min_eq_left hkept
      rw [monthDate, monthOf_monthDate, dayOf_monthDate, hlen, monthDate]
      congr 1
      push_cast
      ring
    constructor
    · rintro ⟨j, rfl⟩
      exact ⟨k + j, hdate j⟩
    · rintro ⟨j, rfl⟩
      have hkj : k < j := (monthDate_strictMono pos).lt_iff_lt.1 hxz
      exact ⟨j - k, by rw [hdate]; congr 1; omega⟩
  | monthDay | yearDay => rfl

/-- The next date from such a date is the next of its schedule. -/
theorem isNext_schedule (hx : x ∈ r.schedule n) (hkept : n < x → r.DayKept n x)
    (hy : r.IsNext x (x + 1) y) :
    y ∈ r.schedule n ∧ x < y ∧ ∀ z ∈ r.schedule n, x < z → y ≤ z := by
  have hxy := hy.le
  have hnx := schedule_ge hx
  refine ⟨.inr ⟨by omega, (dates_reanchor hx hkept (by omega)).1 hy.1.1⟩, by omega, fun z hz hxz => ?_⟩
  have hzn : z ∈ r.dates n := (hz.resolve_left (by omega)).2
  exact hy.2 ⟨(dates_reanchor hx hkept hxz).2 hzn, hxz⟩

/-- Charges that all have their day are the dates of the schedule that have it. -/
theorem charges_schedule (hx : x ∈ r.schedule n) (h : r.Charges b x L)
    (hkept : ∀ z ∈ L, z ∈ r.schedule n → n < z → r.DayKept n z) :
    L.Pairwise (· < ·) ∧ ∀ z, z ∈ L ↔ z ∈ r.schedule n ∧ (n < z → r.DayKept n z) ∧ x ≤ z ∧ z < b := by
  induction h with
  | done h => exact ⟨.nil, fun z => by simp; omega⟩
  | @charge x y L h hy hL ih =>
    have hxkept := hkept x List.mem_cons_self hx
    obtain ⟨hyn, hxy, hleast⟩ := isNext_schedule hx hxkept hy
    obtain ⟨hsorted, hmem⟩ := ih hyn fun z hz => hkept z (List.mem_cons_of_mem _ hz)
    refine ⟨.cons (fun z hz => ?_) hsorted, fun z => ?_⟩
    · have := ((hmem z).1 hz).2.2.1
      omega
    · rw [List.mem_cons, hmem]
      constructor
      · rintro (rfl | ⟨hz, hzkept, hyz, hzb⟩)
        · exact ⟨hx, hxkept, le_rfl, h⟩
        · exact ⟨hz, hzkept, by omega, hzb⟩
      · rintro ⟨hz, hzkept, hxz, hzb⟩
        rcases hxz.eq_or_lt with rfl | hxz
        · exact .inl rfl
        · exact .inr ⟨hz, hzkept, hleast z hz hxz, hzb⟩

/-- The date that a stored one has caught up with is the next of the schedule. -/
theorem catchUp_schedule (h : r.CatchUp n a x) :
    x ∈ r.schedule n ∧ a ≤ x ∧ ∀ z ∈ r.schedule n, a ≤ z → x ≤ z := by
  unfold CatchUp at h
  split_ifs at h with hna
  · have := h.le
    exact ⟨.inr ⟨by omega, h.1.1⟩, this, fun z hz haz => h.2 ⟨(hz.resolve_left (by omega)).2, haz⟩⟩
  · subst h
    exact ⟨.inl rfl, not_lt.1 hna, fun z hz _ => schedule_ge hz⟩

/-- A date of the schedule has caught up with itself. -/
theorem catchUp_self (h : x ∈ r.schedule n) : r.CatchUp n x x := by
  unfold CatchUp
  rcases h with rfl | ⟨hnx, hx⟩
  · rw [if_neg (lt_irrefl _)]
  · rw [if_pos hnx]
    exact ⟨⟨hx, le_rfl⟩, fun y hy => hy.2⟩

end Schedule

end Rule

/-! ## The rule's text -/

/-- What a client makes of the text: the dates of the rule that have its day. -/
def Expands (rrule : RRule) (r : Rule) : Prop :=
  ∀ {n x : Int}, n < x → (rrule.Matches n x ↔ x ∈ r.dates n ∧ r.DayKept n x)

section Expands
variable {n x d : Int}

/-- A later date that a rule of days reaches. -/
theorem mem_dates_days {step : Int} {pos : 0 < step} (h : n < x) :
    x ∈ (Rule.days step pos).dates n ↔ (x - n) % step = 0 := by
  constructor
  · rintro ⟨k, rfl⟩
    simp
  · intro hmod
    have hdiv := Int.emod_add_mul_ediv (x - n) step
    have hnonneg : 0 ≤ (x - n) / step := Int.ediv_nonneg (by omega) pos.le
    exact ⟨((x - n) / step).toNat, by rw [Int.toNat_of_nonneg hnonneg]; omega⟩

theorem expands_days (freq : Freq) (count : Nat) {step : Int} {pos : 0 < step}
    (hstep : (freq = .daily ∧ step = count) ∨ (freq = .weekly ∧ step = 7 * count)) :
    Expands ⟨freq, count, none, none⟩ (.days step pos) := by
  intro n x h
  rw [mem_dates_days h]
  rcases hstep with ⟨rfl, rfl⟩ | ⟨rfl, rfl⟩ <;> simp [RRule.Matches, Rule.DayKept]

/-- A later date that a rule of months reaches on the anchor's day. -/
theorem mem_dates_months {stride : Int} {pos : 0 < stride} (h : n < x) :
    x ∈ (Rule.months stride pos).dates n ∧ (Rule.months stride pos).DayKept n x ↔
      (monthOf x - monthOf n) % stride = 0 ∧ dayOf x = dayOf n := by
  constructor
  · rintro ⟨⟨k, rfl⟩, hkept⟩
    rw [Rule.DayKept, Rule.monthOf_monthDate] at hkept
    rw [Rule.monthOf_monthDate, Rule.dayOf_monthDate, min_eq_left hkept]
    simp
  · rintro ⟨hmod, hday⟩
    have hdiv := Int.emod_add_mul_ediv (monthOf x - monthOf n) stride
    have hmono := monthOf_mono h.le
    have hnonneg : 0 ≤ (monthOf x - monthOf n) / stride := Int.ediv_nonneg (by omega) pos.le
    have hmonth : monthOf x = monthOf n + stride * ((monthOf x - monthOf n) / stride) := by omega
    refine ⟨⟨((monthOf x - monthOf n) / stride).toNat, ?_⟩, ?_⟩
    · rw [monthDate, Int.toNat_of_nonneg hnonneg, ← hday, ← hmonth, onMonth_dayOf]
    · rw [Rule.DayKept, ← hday]
      exact (dayOf_bounds x).2

theorem expands_monthly (count : Nat) {pos : 0 < (count : Int)} :
    Expands ⟨.monthly, count, none, none⟩ (.months count pos) := by
  intro n x h
  rw [mem_dates_months h]
  simp [RRule.Matches]

theorem expands_yearly (count : Nat) {pos : 0 < 12 * (count : Int)} :
    Expands ⟨.yearly, count, none, none⟩ (.months (12 * count) pos) := by
  intro n x h
  rw [mem_dates_months h]
  -- Whole years apart is the same month, and years that the interval divides.
  have hyears : (monthOf x - monthOf n) % (12 * count) = 0 ↔
      (yearOf x - yearOf n) % count = 0 ∧ monthNumber x = monthNumber n := by
    simp only [← Int.dvd_iff_emod_eq_zero, yearOf, monthNumber]
    constructor
    · rintro ⟨k, hk⟩
      refine ⟨⟨k, ?_⟩, ?_⟩ <;> rw [mul_assoc] at hk <;> omega
    · rintro ⟨⟨k, hk⟩, hm⟩
      refine ⟨k, ?_⟩
      rw [mul_assoc]
      omega
  rw [hyears]
  simp [RRule.Matches, and_assoc]

theorem expands_monthDay (day : Nat) {pos : 1 ≤ (day : Int)} :
    Expands ⟨.monthly, 1, none, some day⟩ (.monthDay day pos) := by
  intro n x _
  have hmatches : (⟨.monthly, 1, none, some day⟩ : RRule).Matches n x ↔ dayOf x = day := by
    simp [RRule.Matches]
  rw [hmatches]
  constructor
  · intro h
    refine ⟨⟨monthOf x, by rw [← h, onMonth_dayOf]⟩, ?_⟩
    rw [Rule.DayKept, ← h]
    exact (dayOf_bounds x).2
  · rintro ⟨⟨M, rfl⟩, hkept⟩
    rw [Rule.DayKept, monthOf_onMonth pos] at hkept
    rw [dayOf_onMonth pos, min_eq_left hkept]

theorem expands_yearDay (month day : Nat) {pos : 1 ≤ (day : Int)}
    (hm : 1 ≤ (month : Int) ∧ (month : Int) ≤ 12) :
    Expands ⟨.yearly, 1, some month, some day⟩ (.yearDay month day pos) := by
  intro n x _
  have hmatches : (⟨.yearly, 1, some month, some day⟩ : RRule).Matches n x ↔ monthNumber x = month ∧
      dayOf x = day := by
    simp [RRule.Matches]
  rw [hmatches]
  constructor
  · rintro ⟨hmonth, hday⟩
    refine ⟨⟨monthOf x / 12, ?_⟩, ?_⟩
    · have : 12 * (monthOf x / 12) + ((month : Int) - 1) = monthOf x := by
        unfold monthNumber at hmonth
        omega
      rw [this, ← hday, onMonth_dayOf]
    · rw [Rule.DayKept, ← hday]
      exact (dayOf_bounds x).2
  · rintro ⟨⟨y, rfl⟩, hkept⟩
    rw [Rule.DayKept, monthOf_onMonth pos] at hkept
    rw [dayOf_onMonth pos, monthNumber, monthOf_onMonth pos, min_eq_left hkept]
    omega

/-- A text of a frequency and one part, as `parse_freq` reads it. -/
theorem parse_text (f : Freq) {s : String} (hs : s ∈ partNames) (n : Nat) {text : String}
    (htext : text = "FREQ=" ++ f.text ++ ";" ++ s ++ "=") :
    parse (text ++ toString (n : Int)) =
      (Parts.read ⟨some f, none, none, none⟩ (s.toList ++ '=' :: n.repr.toList)).bind fun parts =>
        parts.freq.map fun f => ⟨f, parts.interval.getD 1, parts.byMonth, parts.byMonthDay⟩ := by
  rw [htext]
  exact parse_freq f hs n

/-- The text of an interval's rule. -/
theorem parse_interval (f : Freq) (n : Nat) {text : String}
    (htext : text = "FREQ=" ++ f.text ++ ";INTERVAL=") :
    parse (text ++ toString (n : Int)) = some ⟨f, n, none, none⟩ := by
  have hs : "INTERVAL" ∈ partNames := by decide
  rw [parse_text f hs n (htext.trans (by cases f <;> rfl)), read_interval]
  rfl

/-- The text of an interval's rule, and what a client makes of it. -/
theorem buildRRule_interval {sub : Subscription} {count : Int} {r : Rule}
    (h1 : sub.recurrenceType = recurrenceTypeInterval) (hcount : sub.intervalCount = some count)
    (hr : intervalRule count sub.intervalUnit = some r) :
    ∃ rrule, parse (buildRRule sub) = some rrule ∧ Expands rrule r := by
  rw [buildRRule, if_pos h1, hcount]
  dsimp only
  unfold intervalRule at hr
  split_ifs at hr with hpos hday hweek hmonth hyear
  all_goals
    obtain ⟨n, rfl⟩ := Int.eq_ofNat_of_zero_le hpos.le
    cases hr
  · rw [if_pos hday]
    exact ⟨_, parse_interval .daily n (by rfl), expands_days _ _ (.inl ⟨rfl, rfl⟩)⟩
  · rw [if_neg hday, if_pos hweek]
    exact ⟨_, parse_interval .weekly n (by rfl), expands_days _ _ (.inr ⟨rfl, mul_comm _ _⟩)⟩
  · rw [if_neg hday, if_neg hweek, if_pos hmonth]
    exact ⟨_, parse_interval .monthly n (by rfl), expands_monthly n⟩
  · rw [if_neg hday, if_neg hweek, if_neg hmonth, if_pos hyear]
    exact ⟨_, parse_interval .yearly n (by rfl), expands_yearly n⟩

theorem buildRRule_monthDay {sub : Subscription} {day : Int}
    (h1 : sub.recurrenceType ≠ recurrenceTypeInterval)
    (h2 : sub.recurrenceType = recurrenceTypeMonthlyDate) (hday : sub.monthlyDay = some day)
    (pos : 1 ≤ day) :
    ∃ rrule, parse (buildRRule sub) = some rrule ∧ Expands rrule (.monthDay day pos) := by
  obtain ⟨n, rfl⟩ := Int.eq_ofNat_of_zero_le (show 0 ≤ day by omega)
  have hs : "BYMONTHDAY" ∈ partNames := by decide
  refine ⟨_, ?_, expands_monthDay n⟩
  rw [buildRRule, if_neg h1, if_pos h2, hday]
  dsimp only
  rw [parse_text .monthly hs n (by rfl), read_byMonthDay]
  rfl

theorem buildRRule_yearDay {sub : Subscription} {month day : Int}
    (h1 : sub.recurrenceType ≠ recurrenceTypeInterval)
    (h2 : sub.recurrenceType ≠ recurrenceTypeMonthlyDate)
    (h3 : sub.recurrenceType = recurrenceTypeYearlyDate) (hmonth : sub.yearlyMonth = some month)
    (hday : sub.yearlyDay = some day) (hm : 1 ≤ month ∧ month ≤ 12) (pos : 1 ≤ day) :
    ∃ rrule, parse (buildRRule sub) = some rrule ∧ Expands rrule (.yearDay month day pos) := by
  obtain ⟨m, rfl⟩ := Int.eq_ofNat_of_zero_le (show 0 ≤ month by omega)
  obtain ⟨n, rfl⟩ := Int.eq_ofNat_of_zero_le (show 0 ≤ day by omega)
  refine ⟨_, ?_, expands_yearDay m n hm⟩
  rw [buildRRule, if_neg h1, if_neg h2, if_pos h3, hmonth, hday]
  exact parse_freq_month .yearly m n

/-- The text of a valid schedule, and what a client makes of it. -/
theorem buildRRule_spec {sub : Subscription} {r : Rule} (hr : sub.rule = some r) :
    ∃ rrule, parse (buildRRule sub) = some rrule ∧ Expands rrule r := by
  by_cases h1 : sub.recurrenceType = recurrenceTypeInterval
  · rw [Subscription.rule, if_pos h1] at hr
    obtain ⟨count, hcount, hr⟩ := Option.bind_eq_some_iff.1 hr
    exact buildRRule_interval h1 hcount hr
  by_cases h2 : sub.recurrenceType = recurrenceTypeMonthlyDate
  · rw [Subscription.rule, if_neg h1, if_pos h2] at hr
    cases hday : sub.monthlyDay with
    | none => simp [hday] at hr
    | some day =>
      simp only [hday] at hr
      split_ifs at hr with hbounds
      cases hr
      exact buildRRule_monthDay h1 h2 hday hbounds.1
  by_cases h3 : sub.recurrenceType = recurrenceTypeYearlyDate
  · rw [Subscription.rule, if_neg h1, if_neg h2, if_pos h3] at hr
    cases hmonth : sub.yearlyMonth with
    | none => simp [hmonth] at hr
    | some month =>
      cases hday : sub.yearlyDay with
      | none => simp [hmonth, hday] at hr
      | some day =>
        simp only [hmonth, hday] at hr
        split_ifs at hr with hbounds
        cases hr
        exact buildRRule_yearDay h1 h2 h3 hmonth hday hbounds.1 hbounds.2.1
  · rw [Subscription.rule, if_neg h1, if_neg h2, if_neg h3] at hr
    cases hr

end Expands

/-! ## Feed and forecast -/

section Agree
variable {sub : Subscription} {date : Time} {r : Rule}

/-- Of an auto-renewed row, the feed shows the expansion of its rule's text. -/
theorem feedDates_renewed (hb : sub.billingType = billingTypeRecurring)
    (hm : normalizeRenewalMode sub.renewalMode = renewalModeAutoRenew)
    (hdate : sub.nextBillingDate = some date) (hr : sub.rule = some r) :
    ∃ rrule, Expands rrule r ∧ ∀ a b, feedDates sub a b = rrule.expand date.utc.day a b := by
  have hvalid := (isRecurringScheduleValid_iff sub).2 ⟨r, hr⟩
  obtain ⟨rrule, hparse, hexpands⟩ := buildRRule_spec hr
  refine ⟨rrule, hexpands, fun a b => ?_⟩
  have hevent : eventRRule sub = buildRRule sub := if_pos ⟨hb, hm, hvalid⟩
  rw [feedDates, hdate]
  simp only [hevent, hparse]

end Agree

end Subdux

namespace Subdux.WordTime
open Gregorian RecurrenceRules Words Fuel

/-- The forecast of the window returns the dates that the feed shows in it. -/
def FeedAgrees (sub : Subscription) (a b : Time) : Prop :=
  Returns (fun fuel => subscriptionChargeDatesInRange fuel sub a b)
    ((feedDates sub a.day b.day).map seconds)

/-- No word wraps in the window of the one day. -/
def DayFits (sub : Subscription) (x : Int) : Prop := WindowFits sub (midnight x) (midnight (x + 1))

section Agree
variable {sub : Subscription} {date a b : Time} {r : Rule} {x : Int} {L : List Int}

/-- What the forecast of a window in time lists. -/
theorem feedAgrees_iff_charges (h : WindowFits sub a b) (hf : subscriptionHasFutureCharge sub = true)
    (hm : normalizeRenewalMode sub.renewalMode = renewalModeAutoRenew)
    (hdate : sub.nextBillingDate = some date) (hr : sub.rule = some r) :
    ∃ x L, r.CatchUp date.day a.day x ∧ r.Charges b.day x L ∧
    (FeedAgrees sub a b ↔ L = feedDates sub a.day b.day) := by
  obtain ⟨x, L, hx, hL, hlist⟩ := chargeDates_renewed hf hm hdate hr a b
  have hreturns := chargeDates_returns h
  rw [hlist, map_ofTime_midnight (h.inTimes hf hm hdate hr hx hL)] at hreturns
  refine ⟨x, L, hx, hL, fun hagrees => ?_, fun hagrees => by rwa [FeedAgrees, ← hagrees]⟩
  exact seconds_strictMono.injective.list_map
    (Returns.unique (steady_chargeDates sub a b) hreturns hagrees)

/-- A date that is charged in a window in time fits in a window of its own. -/
theorem dayFits_of_mem (h : WindowFits sub a b) (hf : subscriptionHasFutureCharge sub = true)
    (hm : normalizeRenewalMode sub.renewalMode = renewalModeAutoRenew)
    (hdate : sub.nextBillingDate = some date) (hr : sub.rule = some r) (hx : r.CatchUp date.day a.day x)
    (hL : r.Charges b.day x L) {z : Int} (hz : z ∈ L) (hsched : z ∈ r.schedule date.day) :
    DayFits sub z := by
  obtain ⟨y, hy⟩ := hL.reaches
  have hend := h.charges hf hm date hdate r hr x y hx hy
  have hzIn := h.inTimes hf hm hdate hr hx hL z hz
  have hzb := (hL.bounds z hz).2
  obtain ⟨next, hnext, hnexty⟩ := hL.reaches_of_mem hy hz
  refine ⟨by rwa [midnight_day], ?_, h.date, ?_⟩
  · rw [midnight_day]
    have h1 := seconds_monotone (show z + 1 ≤ b.day by omega)
    have h2 := seconds_monotone (show z ≤ z + 1 by omega)
    exact ⟨hzIn.inRange.1.trans h2, h1.trans_lt h.stop.2⟩
  · intro _ _ date' hdate' r' hr' x' y' hx' hy'
    obtain rfl : date = date' := Option.some.inj (hdate.symm.trans hdate')
    obtain rfl : r = r' := Option.some.inj (hr.symm.trans hr')
    rw [midnight_day] at hx' hy'
    obtain rfl := (Rule.catchUp_self hsched).unique hx'
    -- The window charges its day, and then comes to the next date.
    cases hy' with
    | stop h' => omega
    | next _ hnext' hy' =>
      obtain rfl := hnext.unique hnext'
      cases hy' with
      | stop => exact hzIn.between hend (by have := hnext.le; omega) hnexty.ge
      | next h' => exact absurd hnext.le (not_le.2 h')

/-- Where the dates that fit have the rule's day, the two agree on a window. -/
theorem feedAgrees_of_kept (h : WindowFits sub a b) (hf : subscriptionHasFutureCharge sub = true)
    (hb : sub.billingType = billingTypeRecurring)
    (hm : normalizeRenewalMode sub.renewalMode = renewalModeAutoRenew)
    (hdate : sub.nextBillingDate = some date) (hr : sub.rule = some r)
    (hutc : date.utc.day = date.day)
    (hkept : ∀ x ∈ r.dates date.day, date.day < x → DayFits sub x → r.DayKept date.day x) :
    FeedAgrees sub a b := by
  obtain ⟨rrule, hexpands, hfeed⟩ := feedDates_renewed hb hm hdate hr
  obtain ⟨x, L, hx, hL, hagrees⟩ := feedAgrees_iff_charges h hf hm hdate hr
  obtain ⟨hxn, hax, hleast⟩ := Rule.catchUp_schedule hx
  obtain ⟨hsorted, hmem⟩ := Rule.charges_schedule hxn hL fun z hz hsched hlt =>
    hkept z (hsched.resolve_left hlt.ne').2 hlt (dayFits_of_mem h hf hm hdate hr hx hL hz hsched)
  rw [hagrees, hfeed, hutc]
  refine hsorted.eq_of_mem_iff (pairwise_expand _ _ _ _) fun z => ?_
  have hoccurs : rrule.Occurs date.day z ↔ z ∈ r.schedule date.day ∧
      (date.day < z → r.DayKept date.day z) := by
    constructor
    · rintro (rfl | ⟨hlt, hmatch⟩)
      · exact ⟨.inl rfl, fun hlt => absurd hlt (lt_irrefl _)⟩
      · obtain ⟨hz, hzkept⟩ := (hexpands hlt).1 hmatch
        exact ⟨.inr ⟨hlt, hz⟩, fun _ => hzkept⟩
    · rintro ⟨rfl | ⟨hlt, hz⟩, hzkept⟩
      · exact .inl rfl
      · exact .inr ⟨hlt, (hexpands hlt).2 ⟨hz, hzkept hlt⟩⟩
  rw [hmem, mem_expand, hoccurs]
  constructor
  · rintro ⟨hz, hzkept, hxz, hzb⟩
    exact ⟨⟨hax.trans hxz, hzb⟩, hz, hzkept⟩
  · rintro ⟨⟨haz, hzb⟩, hz, hzkept⟩
    exact ⟨hz, hzkept, hleast z hz haz, hzb⟩

/-- A date of the schedule is charged in the window of its own day, and so the feed shows it there. -/
theorem expand_day (h : ∀ a b : Time, WindowFits sub a b → FeedAgrees sub a b)
    (hf : subscriptionHasFutureCharge sub = true)
    (hm : normalizeRenewalMode sub.renewalMode = renewalModeAutoRenew)
    (hdate : sub.nextBillingDate = some date) (hr : sub.rule = some r) {rrule : RRule}
    (hfeed : ∀ a b, feedDates sub a b = rrule.expand date.utc.day a b)
    (hsched : x ∈ r.schedule date.day) (hfits : DayFits sub x) : rrule.Occurs date.utc.day x := by
  obtain ⟨x', L, hx', hL, hagrees⟩ := feedAgrees_iff_charges hfits hf hm hdate hr
  rw [midnight_day] at hx' hL
  obtain rfl := (Rule.catchUp_self hsched).unique hx'
  have hshown := hagrees.1 (h _ _ hfits)
  rw [midnight_day, midnight_day, hfeed] at hshown
  cases hL with
  | done h => omega
  | @charge _ _ L _ _ _ =>
    have hmem : x ∈ x :: L := List.mem_cons_self
    rw [hshown] at hmem
    exact (mem_expand.1 hmem).2

/-- Windows of one day tell the two lists of dates apart when the start is
another day in UTC. -/
theorem feed_start (h : ∀ a b : Time, WindowFits sub a b → FeedAgrees sub a b)
    (hf : subscriptionHasFutureCharge sub = true)
    (hm : normalizeRenewalMode sub.renewalMode = renewalModeAutoRenew)
    (hdate : sub.nextBillingDate = some date) (hr : sub.rule = some r) {rrule : RRule}
    (hfeed : ∀ a b, feedDates sub a b = rrule.expand date.utc.day a b)
    (hfits : DayFits sub date.day) (hutc : InTimes date.utc.day) : date.utc.day = date.day := by
  apply le_antisymm
  · -- The forecast charges the row's own date.
    rcases expand_day h hf hm hdate hr hfeed (.inl rfl) hfits with heq | ⟨hlt, -⟩
    · exact heq.ge
    · exact hlt.le
  · -- The feed shows its start, which the forecast has nothing before.
    by_contra hlt
    have hlt := not_le.1 hlt
    have hdateIn : InTimes date.day := by simpa using hfits.start
    have hwindow : DayFits sub date.utc.day := by
      refine ⟨by rwa [midnight_day], ?_, hfits.date, ?_⟩
      · rw [midnight_day]
        exact (hutc.between hdateIn (by omega) (by omega)).inRange
      · intro _ _ date' hdate' r' hr' x y hx hy
        obtain rfl : date = date' := Option.some.inj (hdate.symm.trans hdate')
        rw [midnight_day] at hx hy
        rw [Rule.CatchUp, if_neg (by omega)] at hx
        subst hx
        cases hy with
        | stop => exact hdateIn
        | next h' => omega
    obtain ⟨x, L, hx, hL, hagrees⟩ := feedAgrees_iff_charges hwindow hf hm hdate hr
    have hshown := hagrees.1 (h _ _ hwindow)
    rw [midnight_day] at hx hL
    rw [Rule.CatchUp, if_neg (by omega)] at hx
    subst hx
    rw [midnight_day, midnight_day, hfeed] at hshown
    have hmem : date.utc.day ∈ rrule.expand date.utc.day date.utc.day (date.utc.day + 1) :=
      mem_expand.2 ⟨by omega, .inl rfl⟩
    rw [← hshown] at hmem
    have := (hL.bounds _ hmem).1
    omega

end Agree

/-- Wherever no word wraps, the feed shows an auto-renewed subscription on the dates that
the forecast charges it, if its date is the same day in UTC and the dates of its rule have
the rule's day; of a row whose own date fits, only then. -/
theorem feed_agrees_iff {sub : Subscription} {date : Time} (ha : subscriptionIsActive sub = true)
    (hb : sub.billingType = billingTypeRecurring)
    (hm : normalizeRenewalMode sub.renewalMode = renewalModeAutoRenew)
    (hvalid : isRecurringScheduleValid sub = true) (hdate : sub.nextBillingDate = some date) :
    ((date.utc.day = date.day ∧
          ∀ r ∈ sub.rule, ∀ x ∈ r.dates date.day, date.day < x → DayFits sub x → r.DayKept date.day x) →
        ∀ a b : Time, WindowFits sub a b → FeedAgrees sub a b) ∧
      (DayFits sub date.day → InTimes date.utc.day →
        (∀ a b : Time, WindowFits sub a b → FeedAgrees sub a b) →
        date.utc.day = date.day ∧
          ∀ r ∈ sub.rule, ∀ x ∈ r.dates date.day, date.day < x → DayFits sub x →
            r.DayKept date.day x) := by
  have hstatus : normalizeStatus sub.status = subscriptionStatusActive := by
    simpa [subscriptionIsActive] using ha
  have hf : subscriptionHasFutureCharge sub = true := by
    simp [subscriptionHasFutureCharge, hstatus, hb, hm, renewalModeAutoRenew,
      renewalModeCancelAtPeriodEnd]
  obtain ⟨r, hr⟩ := (isRecurringScheduleValid_iff sub).1 hvalid
  refine ⟨fun hkept a b h => feedAgrees_of_kept h hf hb hm hdate hr hkept.1 (hkept.2 r hr),
    fun hfits hin h => ?_⟩
  obtain ⟨rrule, hexpands, hfeed⟩ := feedDates_renewed hb hm hdate hr
  have hutc := feed_start h hf hm hdate hr hfeed hfits hin
  refine ⟨hutc, fun r' hr' x hx hlt hxfits => ?_⟩
  obtain rfl := Option.some.inj (hr.symm.trans hr')
  -- The forecast charges the date, so the client does not skip it.
  have hshown := expand_day h hf hm hdate hr hfeed (.inr ⟨hlt, hx⟩) hxfits
  rw [hutc] at hshown
  rcases hshown with heq | ⟨-, hmatch⟩
  · exact absurd heq hlt.ne'
  · exact ((hexpands hlt).1 hmatch).2

/-- A client skips February for a subscription of the 31st; the forecast charges it on the 28th. -/
theorem feed_skips_february :
    ¬ ∀ (sub : Subscription) (today date : Time), subscriptionIsActive sub = true →
    sub.billingType = billingTypeRecurring →
      normalizeRenewalMode sub.renewalMode = renewalModeAutoRenew → isRecurringScheduleValid sub = true →
      sub.nextBillingDate = some date → today.day ≤ date.day → ∀ a b : Time, FeedAgrees sub a b := by
  intro h
  have hagrees :=
    h monthEndRow (dateUTC 2025 1 15) (dateUTC 2025 1 31) (by decide) (by decide) (by decide) (by decide)
    (by decide) (by decide) (dateUTC 2025 2 1) (dateUTC 2025 3 1)
  have hcharged := Returns.unique (steady_chargeDates _ _ _) hagrees
    ⟨4, show _ = some [seconds (dateUTC 2025 2 28).day] by decide +kernel⟩
  revert hcharged
  decide +kernel

/-- A monthly row due on 15 January 2025. -/
def midMonthRow : Subscription := { monthEndRow with nextBillingDate := some (dateUTC 2025 1 15) }

theorem feed_agrees_midMonthRow :
    FeedAgrees midMonthRow (dateUTC 2025 2 1) (dateUTC 2025 4 1) ∧ (dateUTC 2025 1 15).utc.day =
    (dateUTC 2025 1 15).day := by
  have hrule : midMonthRow.rule = some (.months 1 (by decide)) := rfl
  have hfits : ∀ a b : Time, InTimes a.day → InRange (seconds b.day) →
      seconds (max (max (dateUTC 2025 1 15).day a.day) b.day + (Rule.months 1 (by decide)).gap +
        31) < 2 ^ 63 →
      WindowFits midMonthRow a b := by
    intro a b ha hb h
    refine windowFits_of_gap ha hb fun date hdate => ?_
    obtain rfl : dateUTC 2025 1 15 = date := Option.some.inj hdate
    refine ⟨by decide +kernel, fun r hr => ?_⟩
    obtain rfl := Option.some.inj (hrule.symm.trans hr)
    exact h
  have hkept : ∀ r ∈ midMonthRow.rule, ∀ x ∈ r.dates (dateUTC 2025 1 15).day,
      (dateUTC 2025 1 15).day < x →
      DayFits midMonthRow x → r.DayKept (dateUTC 2025 1 15).day x := by
    intro r hr x _ _ _
    obtain rfl := Option.some.inj (hrule.symm.trans hr)
    have hday : dayOf (dateUTC 2025 1 15).day = 15 := by decide +kernel
    have hlen := (monthLen_bounds (monthOf x)).1
    rw [Rule.DayKept, hday]
    omega
  have hactive : subscriptionIsActive midMonthRow = true := by decide
  have hdate : midMonthRow.nextBillingDate = some (dateUTC 2025 1 15) := rfl
  obtain ⟨hagrees, honly⟩ := feed_agrees_iff hactive (by decide) (by decide) (by decide) hdate
  have hall := hagrees ⟨by decide, hkept⟩
  refine ⟨hall _ _ (hfits _ _ (by decide +kernel) (by decide +kernel) (by decide +kernel)), ?_⟩
  exact (honly (hfits _ _ (by decide +kernel) (by decide +kernel) (by decide +kernel))
    (by decide +kernel) hall).1

end Subdux.WordTime
