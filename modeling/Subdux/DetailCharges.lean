import Subdux.WordForecast
/-!
# The charges of the detail view

`subscriptionDetailUpcomingCharges` of `internal/service/subscription_detail.go` lists
the next charges of a subscription up to a limit; the forecast, those before a date.
Both run on the words of `Subdux.WordTime`. `upcomingCharges_spec` says that, as long as
Go's times have room for the charges, the two list the same ones, unless the row is
renewed by a schedule that is not valid: the detail view then shows its stored date.
-/

namespace Subdux
open GoStrings

structure SubscriptionDetailUpcomingCharge where
  date : String
  amount : Rat
  currency : String
  renewalMode : String
  deriving DecidableEq

def mapSubscriptionDetailUpcomingCharge (sub : Subscription) (date : Time) :
    SubscriptionDetailUpcomingCharge where
  date := (normalizeDateUTC date).formatDate
  amount := sub.amount
  currency := toUpper (trimSpace sub.currency)
  renewalMode := normalizeRenewalMode sub.renewalMode

structure SubscriptionDetailCalendar where
  path : String
  feedPath : String
  hasUpcomingEvent : Bool
  nextEventDate : Option String

def subscriptionDetailCalendar (upcomingCharges : List SubscriptionDetailUpcomingCharge) :
    SubscriptionDetailCalendar where
  path := "/calendar"
  feedPath := "/api/calendar/feed"
  hasUpcomingEvent := !upcomingCharges.isEmpty
  nextEventDate := upcomingCharges.head?.map (·.date)

end Subdux

namespace Subdux.WordTime
open Gregorian Words Fuel

/-! ## The code -/

def subscriptionDetailSingleUpcomingCharge (sub : Subscription) (current today : Int) :
    List SubscriptionDetailUpcomingCharge :=
  if current < today then [] else [mapSubscriptionDetailUpcomingCharge sub (toTime current)]

/-- The loop `for len(items) < limit`, by the items that there is still room for. -/
def upcomingLoop (fuel : Nat) (sub : Subscription) (today : Int) :
    Nat → Int → Option (List SubscriptionDetailUpcomingCharge)
  | 0, _ => some []
  | room + 1, current =>
    if current < today then some []
    else
      let items := [mapSubscriptionDetailUpcomingCharge sub (toTime current)]
      (nextRecurringOccurrenceAfter fuel sub current).bind fun
        | none => some items
        | some next =>
          if ¬ current < next then some items else (upcomingLoop fuel sub today room next).map
            (items ++ ·)

def subscriptionDetailUpcomingCharges (fuel : Nat) (sub : Subscription) (limit : Int) (now : Time) :
    Option (List SubscriptionDetailUpcomingCharge) :=
  match sub.nextBillingDate with
  | none => some []
  | some nextBillingDate =>
    if limit ≤ 0 ∨ !subscriptionHasFutureCharge sub then some []
    else
      let current := ofTime nextBillingDate
      let today := ofTime now
      if normalizeBillingType sub.billingType ≠ billingTypeRecurring ∨ !isRecurringScheduleValid sub then
        some (subscriptionDetailSingleUpcomingCharge sub current today)
      else if normalizeRenewalMode sub.renewalMode ≠ renewalModeAutoRenew then
        some (subscriptionDetailSingleUpcomingCharge sub current today)
      else
        let first := if current < today then nextRecurringOccurrenceOnOrAfter fuel sub current today
          else some (some current)
        first.bind fun
          | none => some []
          | some current => upcomingLoop fuel sub today limit.toNat current

/-! ## More fuel -/

section Steady
variable (sub : Subscription)

theorem steady_upcomingLoop (today : Int) (room : Nat) (x : Int) :
    Steady fun fuel => upcomingLoop fuel sub today room x := by
  induction room generalizing x with
  | zero => exact steady_const _
  | succ room ih =>
    unfold upcomingLoop
    refine (steady_const _).ite ((steady_after sub x).bind fun next => ?_)
    cases next with
    | none => exact steady_const _
    | some next => exact (steady_const _).ite ((ih next).map _)

/-- The loop from where the first walk ended. -/
theorem steady_upcomingRest (today : Int) (room : Nat) (first : Option Int) : Steady fun fuel =>
    match first with
    | none => some []
    | some current => upcomingLoop fuel sub today room current := by
  cases first with
  | none => exact steady_const _
  | some x => exact steady_upcomingLoop sub today room x

theorem steady_upcomingCharges (limit : Int) (now : Time) :
    Steady fun fuel => subscriptionDetailUpcomingCharges fuel sub limit now := by
  unfold subscriptionDetailUpcomingCharges
  cases sub.nextBillingDate with
  | none => exact steady_const _
  | some date =>
    refine (steady_const _).ite ((steady_const _).ite ((steady_const _).ite ?_))
    exact ((steady_onOrAfter sub _ _).ite (steady_const _)).bind fun first =>
      steady_upcomingRest sub _ _ first

end Steady

/-! ## Windows with enough charges -/

/-- A rule has windows with any number of charges. -/
theorem exists_charges {r : Rule} (hnext : ∀ n, ∃ y, r.IsNext n (n + 1) y) (count : Nat) (x : Int) :
    ∃ b L, x ≤ b ∧ b ≤ x + count * (r.gap + 1) ∧ r.Charges b x L ∧ L.length = count := by
  induction count generalizing x with
  | zero => exact ⟨x, [], le_rfl, by simp, .done le_rfl, rfl⟩
  | succ count ih =>
    obtain ⟨y, hy⟩ := hnext x
    obtain ⟨b, L, hyb, hb, hL, rfl⟩ := ih y
    have hxy := hy.le
    have hgap := hy.le_gap
    refine ⟨b, x :: L, by omega, ?_, .charge (by omega) hy hL, rfl⟩
    have hlen : ((L.length + 1 : Nat) : Int) * (r.gap + 1) = L.length * (r.gap + 1) + (r.gap + 1) := by
      push_cast
      ring
    omega

/-- The forecast until `endExclusive` has `limit` charges, or all that there are. -/
def CoversLimit (sub : Subscription) (limit : Int) (today endExclusive : Time) : Prop :=
  ∃ dates, Returns (fun fuel => subscriptionChargeDatesInRange fuel sub today endExclusive) dates ∧
    (limit ≤ dates.length ∨ ∀ later more,
      Returns (fun fuel => subscriptionChargeDatesInRange fuel sub today later) more →
      more.length ≤ dates.length)

/-- Go's times have room for the next `limit` charges of the row. -/
structure RoomFor (sub : Subscription) (limit : Int) (now : Time) : Prop where
  today : InTimes now.day
  date : ∀ date ∈ sub.nextBillingDate, InTimes date.day
  charges : subscriptionHasFutureCharge sub = true →
    normalizeRenewalMode sub.renewalMode = renewalModeAutoRenew →
    ∀ date ∈ sub.nextBillingDate, ∀ r ∈ sub.rule, ∃ later, WindowFits sub now later ∧
      limit ≤ (Subdux.subscriptionChargeDatesInRange sub now later).length

/-- Rows whose next charges are this far from the end of Go's times. -/
theorem roomFor_of_gap {sub : Subscription} {limit : Int} {now : Time} (hnow : InTimes now.day)
    (hdate : ∀ date ∈ sub.nextBillingDate, InTimes date.day ∧
      ∀ r ∈ sub.rule, seconds (max date.day now.day + (limit.toNat + 2) * (r.gap + 1) + 31) <
        2 ^ 63) : RoomFor sub limit now where
  today := hnow
  date := fun date hd => (hdate date hd).1
  charges := by
    intro hf hm date hd r hr
    have hlast := (hdate date hd).2 r hr
    have hpos := r.gap_pos
    obtain ⟨x, -, hx, -, -⟩ := chargeDates_renewed hf hm hd hr now now
    have hxgap := hx.le_gap hpos.le
    have hnext : ∀ n, ∃ y, r.IsNext n (n + 1) y :=
      fun n => (Subdux.nextRecurringOccurrenceAfter_spec hr n).imp fun _ h => h.1
    obtain ⟨b, L, hxb, hb, hL, hlen⟩ := exists_charges hnext limit.toNat x
    have hfar : max (max date.day now.day) b + r.gap + 31 ≤ max date.day now.day +
        (limit.toNat + 2) * (r.gap + 1) + 31 := by
      have hsplit : ((limit.toNat : Int) + 2) * (r.gap + 1) = limit.toNat * (r.gap + 1) + 2 *
          (r.gap + 1) := by ring
      have hnonneg : 0 ≤ (limit.toNat : Int) * (r.gap + 1) := by positivity
      omega
    have hfarSeconds := (seconds_monotone hfar).trans_lt hlast
    have hbIn : InRange (seconds b) := by
      have h1 := seconds_monotone (hx.le.trans hxb)
      have h2 := seconds_monotone (show b ≤ max (max date.day now.day) b + r.gap + 31 by omega)
      exact ⟨hnow.inRange.1.trans h1, h2.trans_lt hfarSeconds⟩
    refine ⟨midnight b, windowFits_of_gap hnow (by rwa [midnight_day]) fun date' hd' =>
      ⟨(hdate date' hd').1.inRange, ?_⟩, ?_⟩
    · intro r' hr'
      obtain rfl : date = date' := Option.some.inj (hd.symm.trans hd')
      obtain rfl : r = r' := Option.some.inj (hr.symm.trans hr')
      rwa [midnight_day]
    · obtain ⟨x', L', hx', hL', hdates⟩ := chargeDates_renewed hf hm hd hr now (midnight b)
      obtain rfl := hx.unique hx'
      rw [midnight_day] at hL'
      obtain rfl := (Rule.charges_eq_iff hL hL').2 (.inl rfl)
      rw [hdates, List.length_map]
      omega

section Loop
variable {sub : Subscription} {r : Rule} {date now endExclusive : Time} {limit : Int}

/-- The loop shows the first charges of a window that has as many. -/
theorem upcomingLoop_returns (hr : sub.rule = some r) {a b x y : Int} {L : List Int} (hax : a ≤ x)
    (hx : InTimes x) (hL : r.Charges b x L) (hy : r.Reaches b x y) (hend : InTimes y) (room : Nat)
    (hroom : room ≤ L.length) :
    Returns (fun fuel => upcomingLoop fuel sub (seconds a) room (seconds x))
      ((L.take room).map fun z => mapSubscriptionDetailUpcomingCharge sub (midnight z)) := by
  induction room generalizing x L with
  | zero => exact ⟨0, rfl⟩
  | succ room ih =>
    cases hL with
    | done => simp at hroom
    | @charge _ next L hxb hnext hL =>
      cases hy with
      | stop h => omega
      | next _ hnext' hy =>
        obtain rfl := hnext.unique hnext'
        have hup := hnext.le
        have hnextIn : InTimes next := hx.between hend (by omega) hy.ge
        have hrest := ih (by omega) hnextIn hL hy (by simpa using hroom)
        unfold upcomingLoop
        simp only [if_neg (not_lt.2 (seconds_monotone hax)), toTime_seconds]
        refine (after_returns hr hx hnext hnextIn).bind (steady_after sub _) (fun next => ?_) ?_
        · cases next with
          | none => exact steady_const _
          | some next => exact (steady_const _).ite ((steady_upcomingLoop sub _ room next).map _)
        · have hlt := seconds_strictMono (show x < next by omega)
          simp only [hlt, not_true_eq_false, if_false]
          exact hrest.map _

theorem hasFutureCharge_billingType (hf : subscriptionHasFutureCharge sub = true) :
    normalizeBillingType sub.billingType = billingTypeRecurring := by
  simp only [subscriptionHasFutureCharge, decide_eq_true_eq] at hf
  rw [hf.2.1]
  exact lowerTrimmed_const _ (by decide)

/-- A row that is renewed by a valid schedule. -/
theorem upcomingCharges_renewed (hf : subscriptionHasFutureCharge sub = true)
    (hm : normalizeRenewalMode sub.renewalMode = renewalModeAutoRenew)
    (hdate : sub.nextBillingDate = some date) (hr : sub.rule = some r)
    (h : WindowFits sub now endExclusive) {x : Int} {L : List Int}
    (hx : r.CatchUp date.day now.day x) (hL : r.Charges endExclusive.day x L)
    (hlimit : limit ≤ L.length) :
    Returns (fun fuel => subscriptionDetailUpcomingCharges fuel sub limit now)
      ((L.take limit.toNat).map fun z => mapSubscriptionDetailUpcomingCharge sub (midnight z)) := by
  by_cases hzero : limit ≤ 0
  · refine ⟨0, ?_⟩
    simp only [subscriptionDetailUpcomingCharges, hdate, hzero, true_or, if_true,
      Int.toNat_of_nonpos hzero, List.take_zero,
      List.map_nil]
  have hvalid := (isRecurringScheduleValid_iff sub).2 ⟨r, hr⟩
  have hday := h.date date hdate
  obtain ⟨y, hy⟩ := hL.reaches
  have hend := h.charges hf hm date hdate r hr x y hx hy
  have hxIn : InTimes x := h.start.between hend hx.le hy.ge
  have hfirst : Returns (fun fuel => if seconds date.day < seconds now.day then
      nextRecurringOccurrenceOnOrAfter fuel sub (seconds date.day) (seconds now.day)
        else some (some (seconds date.day)))
      (some (seconds x)) := by
    simp only [seconds_strictMono.lt_iff_lt]
    unfold Rule.CatchUp at hx
    split_ifs at hx ⊢
    · exact onOrAfter_returns hr hday h.start hx hxIn
    · exact returns_const (by rw [hx])
  have hloop := upcomingLoop_returns hr hx.le hxIn hL hy hend limit.toNat (by omega)
  simp only [subscriptionDetailUpcomingCharges, hdate, hf, hm, hvalid,
    hasFutureCharge_billingType hf, ofTime_eq hday,
    ofTime_eq h.start.inRange, Bool.not_true, Bool.false_eq_true, or_false, if_neg hzero, ne_eq,
      not_true_eq_false, if_false]
  exact hfirst.bind ((steady_onOrAfter sub _ _).ite (steady_const _))
    (fun first => steady_upcomingRest sub _ _ first) hloop

/-- A row that is charged once. -/
theorem upcomingCharges_single (hf : subscriptionHasFutureCharge sub = true)
    (hdate : sub.nextBillingDate = some date)
    (hsingle : normalizeRenewalMode sub.renewalMode ≠ renewalModeAutoRenew ∨
      isRecurringScheduleValid sub = false) (hroom : RoomFor sub limit now) (fuel : Nat) :
    subscriptionDetailUpcomingCharges fuel sub limit now =
      some (if 0 < limit ∧ now.day ≤ date.day
        then [mapSubscriptionDetailUpcomingCharge sub (midnight date.day)] else []) := by
  by_cases hzero : limit ≤ 0
  · simp [subscriptionDetailUpcomingCharges, hdate, hzero, not_lt.2 hzero]
  have hsingle' : subscriptionDetailUpcomingCharges fuel sub limit now =
      some (subscriptionDetailSingleUpcomingCharge sub (seconds date.day) (seconds now.day)) := by
    simp only [subscriptionDetailUpcomingCharges, hdate, hf, hasFutureCharge_billingType hf,
      ofTime_eq hroom.today.inRange,
      ofTime_eq (hroom.date date hdate).inRange, Bool.not_true, Bool.false_eq_true, or_false,
        if_neg hzero, ne_eq,
      not_true_eq_false, false_or]
    rcases hsingle with hm | hvalid
    · simp [hm]
    · simp [hvalid]
  rw [hsingle', subscriptionDetailSingleUpcomingCharge, toTime_seconds]
  simp only [seconds_strictMono.lt_iff_lt]
  by_cases hlt : date.day < now.day
  · simp [hlt, not_le.2 hlt]
  · simp [hlt, not_lt.1 hlt, not_le.1 hzero]

theorem upcomingCharges_not_future (hf : subscriptionHasFutureCharge sub = false) (fuel : Nat) :
    subscriptionDetailUpcomingCharges fuel sub limit now = some [] := by
  unfold subscriptionDetailUpcomingCharges
  cases sub.nextBillingDate with
  | none => rfl
  | some date => simp [hf]

theorem upcomingCharges_no_date (hdate : sub.nextBillingDate = none) (fuel : Nat) :
    subscriptionDetailUpcomingCharges fuel sub limit now = some [] := by
  simp [subscriptionDetailUpcomingCharges, hdate]

end Loop

/-! ## The detail view against the forecast -/

/-- The row is renewed, but not by a valid schedule. -/
def renewsWithoutSchedule (sub : Subscription) : Bool :=
  subscriptionHasFutureCharge sub && normalizeRenewalMode sub.renewalMode = renewalModeAutoRenew &&
    !isRecurringScheduleValid sub

section Agreement
variable {sub : Subscription} {limit : Int} {now endExclusive : Time} {dates : List Int}

/-- The words that a window in time lists are shown as its dates. -/
theorem take_map_chargeDates (h : WindowFits sub now endExclusive) {count : Nat} :
    (((Subdux.subscriptionChargeDatesInRange sub now endExclusive).take count).map ofTime).map
        (fun sec => mapSubscriptionDetailUpcomingCharge sub (toTime sec)) =
      ((Subdux.subscriptionChargeDatesInRange sub now endExclusive).take count).map
        (mapSubscriptionDetailUpcomingCharge sub) := by
  have hback :=
    congrArg (fun dates => (dates.take count).map (mapSubscriptionDetailUpcomingCharge sub))
      (chargeDates_toTime h)
  simp only [← List.map_take, List.map_map] at hback
  rw [List.map_map]
  exact hback

theorem chargeDates_without_schedule (hm : normalizeRenewalMode sub.renewalMode = renewalModeAutoRenew)
    (hvalid : isRecurringScheduleValid sub = false) (fuel : Nat) (a b : Time) :
    subscriptionChargeDatesInRange fuel sub a b = some [] := by
  unfold subscriptionChargeDatesInRange
  cases sub.nextBillingDate <;> simp [hm, hvalid]

/-- A forecast that covers the limit has the first charges that there is room for. -/
theorem le_of_covers (hroom : RoomFor sub limit now) (hf : subscriptionHasFutureCharge sub = true)
    (hm : normalizeRenewalMode sub.renewalMode = renewalModeAutoRenew) {date : Time}
    (hdate : sub.nextBillingDate = some date) {r : Rule} (hr : sub.rule = some r)
    (hcovers : CoversLimit sub limit now endExclusive)
    (hdates : Returns (fun fuel => subscriptionChargeDatesInRange fuel sub now endExclusive)
      dates) : limit ≤ dates.length := by
  obtain ⟨dates', hdates', hcovers⟩ := hcovers
  obtain rfl := Returns.unique (steady_chargeDates _ _ _) hdates hdates'
  rcases hcovers with hlimit | hcomplete
  · exact hlimit
  · -- A longer window has as many.
    obtain ⟨later, hfits, hlen⟩ := hroom.charges hf hm date hdate r hr
    have := hcomplete later _ (chargeDates_returns hfits)
    rw [List.length_map] at this
    omega

/-- The window up to the day after the date of a row that is charged once. -/
theorem fits_once (hroom : RoomFor sub limit now)
    (hm : normalizeRenewalMode sub.renewalMode ≠ renewalModeAutoRenew) {date : Time}
    (hdate : sub.nextBillingDate = some date) : WindowFits sub now (midnight (date.day + 1)) := by
  have hin := hroom.date date hdate
  refine ⟨hroom.today, ?_, fun date hdate => (hroom.date date hdate).inRange, fun _ h => absurd h hm⟩
  have hlast :=
    seconds_monotone (show date.day + 1 ≤ monthStart (monthOf date.day + 1) from
      (monthOf_spec date.day).2)
  have hfirst := seconds_monotone (show date.day ≤ date.day + 1 by omega)
  rw [midnight_day]
  exact ⟨hin.inRange.1.trans hfirst, hlast.trans_lt hin.ends⟩

theorem once_length (hf : subscriptionHasFutureCharge sub = true)
    (hm : normalizeRenewalMode sub.renewalMode ≠ renewalModeAutoRenew) {date : Time}
    (hdate : sub.nextBillingDate = some date)
    (hdates : Returns (fun fuel => subscriptionChargeDatesInRange fuel sub now endExclusive)
      dates) : dates.length ≤ 1 := by
  obtain ⟨fuel, hfuel⟩ := hdates
  simp only [subscriptionChargeDatesInRange, hf, hdate, if_pos hm, Bool.not_true,
    Bool.false_eq_true, if_false] at hfuel
  split_ifs at hfuel <;> cases hfuel <;> simp

theorem once_past (hroom : RoomFor sub limit now) (hf : subscriptionHasFutureCharge sub = true)
    (hm : normalizeRenewalMode sub.renewalMode ≠ renewalModeAutoRenew) {date : Time}
    (hdate : sub.nextBillingDate = some date) (hpast : date.day < now.day)
    (hdates : Returns (fun fuel => subscriptionChargeDatesInRange fuel sub now endExclusive)
      dates) : dates = [] := by
  obtain ⟨fuel, hfuel⟩ := hdates
  simp only [subscriptionChargeDatesInRange, hf, hdate, if_pos hm, Bool.not_true, Bool.false_eq_true,
    ofTime_eq hroom.today.inRange, ofTime_eq (hroom.date date hdate).inRange,
      seconds_strictMono hpast, true_or, if_true,
    ite_self, Option.some.injEq] at hfuel
  exact hfuel.symm

/-- A forecast that covers the limit has the charge of a row that is charged once. -/
theorem lt_of_covers (hroom : RoomFor sub limit now) (hf : subscriptionHasFutureCharge sub = true)
    (hm : normalizeRenewalMode sub.renewalMode ≠ renewalModeAutoRenew) {date : Time}
    (hdate : sub.nextBillingDate = some date) (hcovers : CoversLimit sub limit now endExclusive)
    (h : WindowFits sub now endExclusive) (hlimit : 0 < limit) (hnow : now.day ≤ date.day) :
    date.day < endExclusive.day := by
  obtain ⟨dates, hdates, hcovers⟩ := hcovers
  have hwindow := Returns.unique (steady_chargeDates _ _ _) hdates (chargeDates_returns h)
  by_contra hend
  rw [chargeDates_once hf hm hdate, if_neg (by omega), List.map_nil] at hwindow
  subst hwindow
  rcases hcovers with hlen | hcomplete
  · exact absurd hlen (not_le.2 hlimit)
  · have hone := hcomplete _ _ (chargeDates_returns (fits_once hroom hm hdate))
    rw [chargeDates_once hf hm hdate, midnight_day, if_pos (by omega)] at hone
    exact absurd hone (by simp)

/-- The detail view shows the first charges of a forecast that covers the limit. -/
theorem upcomingCharges_returns (hrenews : renewsWithoutSchedule sub = false)
    (hroom : RoomFor sub limit now) (h : WindowFits sub now endExclusive)
    (hcovers : CoversLimit sub limit now endExclusive) :
    Returns (fun fuel => subscriptionDetailUpcomingCharges fuel sub limit now)
      (((Subdux.subscriptionChargeDatesInRange sub now endExclusive).take limit.toNat).map
        (mapSubscriptionDetailUpcomingCharge sub)) := by
  cases hf : subscriptionHasFutureCharge sub with
  | false =>
    rw [chargeDates_of_not_future hf, List.take_nil, List.map_nil]
    exact ⟨0, upcomingCharges_not_future hf 0⟩
  | true =>
    cases hdate : sub.nextBillingDate with
    | none =>
      have hempty : Subdux.subscriptionChargeDatesInRange sub now endExclusive = [] := by
        simp [Subdux.subscriptionChargeDatesInRange, hdate]
      rw [hempty, List.take_nil, List.map_nil]
      exact ⟨0, upcomingCharges_no_date hdate 0⟩
    | some date =>
      by_cases hm : normalizeRenewalMode sub.renewalMode = renewalModeAutoRenew
      · have hvalid : isRecurringScheduleValid sub = true := by
          simpa [renewsWithoutSchedule, hf, hm] using hrenews
        obtain ⟨r, hr⟩ := (isRecurringScheduleValid_iff sub).1 hvalid
        have hlimit := le_of_covers hroom hf hm hdate hr hcovers (chargeDates_returns h)
        obtain ⟨x, L, hx, hL, hdates⟩ := chargeDates_renewed hf hm hdate hr now endExclusive
        rw [hdates, List.length_map, List.length_map] at hlimit
        rw [hdates, ← List.map_take, List.map_map]
        exact upcomingCharges_renewed hf hm hdate hr h hx hL hlimit
      · refine ⟨0, (upcomingCharges_single hf hdate (.inl hm) hroom 0).trans (congrArg some ?_)⟩
        rw [chargeDates_once hf hm hdate]
        by_cases hshown : 0 < limit ∧ now.day ≤ date.day
        · have hend := lt_of_covers hroom hf hm hdate hcovers h hshown.1 hshown.2
          rw [if_pos hshown, if_pos ⟨hshown.2, hend⟩, List.take_of_length_le (by simp; omega),
            List.map_singleton]
        · rw [if_neg hshown]
          by_cases hlimit : 0 < limit
          · rw [if_neg fun hin => hshown ⟨hlimit, hin.1⟩, List.take_nil, List.map_nil]
          · rw [Int.toNat_of_nonpos (not_lt.1 hlimit), List.take_zero, List.map_nil]

/-- There are such forecasts. -/
theorem exists_coversLimit (hrenews : renewsWithoutSchedule sub = false)
    (hroom : RoomFor sub limit now) :
    ∃ endExclusive, WindowFits sub now endExclusive ∧ CoversLimit sub limit now endExclusive := by
  -- A row that is never charged has the empty window.
  have hnever : (∀ later fuel, subscriptionChargeDatesInRange fuel sub now later = some []) →
      (subscriptionHasFutureCharge sub = true → ∀ date, sub.nextBillingDate ≠ some date) →
      ∃ endExclusive, WindowFits sub now endExclusive ∧ CoversLimit sub limit now endExclusive := by
    intro hempty hnone
    refine ⟨now, ⟨hroom.today, hroom.today.inRange, fun date hdate => (hroom.date date hdate).inRange,
      fun hf _ date hdate => absurd hdate (hnone hf date)⟩, [], ⟨0, hempty now 0⟩,
        .inr fun later more hmore => ?_⟩
    obtain ⟨fuel, hfuel⟩ := hmore
    obtain rfl := Option.some.inj ((hempty later fuel).symm.trans hfuel)
    exact le_rfl
  cases hf : subscriptionHasFutureCharge sub with
  | false =>
    exact hnever (fun later fuel => by simp [subscriptionChargeDatesInRange, hf]) fun h =>
      absurd (hf.symm.trans h) (by simp)
  | true =>
    cases hdate : sub.nextBillingDate with
    | none =>
      exact hnever (fun later fuel => by simp [subscriptionChargeDatesInRange, hdate])
        fun _ date h => by simp [hdate] at h
    | some date =>
      by_cases hm : normalizeRenewalMode sub.renewalMode = renewalModeAutoRenew
      · have hvalid : isRecurringScheduleValid sub = true := by
          simpa [renewsWithoutSchedule, hf, hm] using hrenews
        obtain ⟨r, hr⟩ := (isRecurringScheduleValid_iff sub).1 hvalid
        obtain ⟨later, hfits, hlen⟩ := hroom.charges hf hm date hdate r hr
        exact ⟨later, hfits, _, chargeDates_returns hfits, .inl (by rwa [List.length_map])⟩
      · refine ⟨_, fits_once hroom hm hdate, _, chargeDates_returns (fits_once hroom hm hdate),
          .inr fun later more hmore => ?_⟩
        rw [chargeDates_once hf hm hdate, midnight_day, List.length_map]
        by_cases hpast : now.day ≤ date.day
        · rw [if_pos (by omega)]
          exact once_length hf hm hdate hmore
        · rw [once_past hroom hf hm hdate (not_le.1 hpast) hmore]
          exact Nat.zero_le _

/-- As long as Go's times have room for the charges, the detail view lists the first of
those that the forecast lists, but for a row that is renewed without a valid schedule: its
stored date is in the detail view alone. -/
theorem upcomingCharges_spec (sub : Subscription) (limit : Int) (now : Time)
    (hroom : RoomFor sub limit now) : (renewsWithoutSchedule sub = false →
        (∃ endExclusive, WindowFits sub now endExclusive ∧ CoversLimit sub limit now endExclusive) ∧
          ∀ endExclusive, WindowFits sub now endExclusive → CoversLimit sub limit now endExclusive →
            ∃ dates, Returns (fun fuel =>
              subscriptionChargeDatesInRange fuel sub now endExclusive) dates ∧
              Returns (fun fuel => subscriptionDetailUpcomingCharges fuel sub limit now)
                ((dates.take limit.toNat).map fun sec => mapSubscriptionDetailUpcomingCharge sub
                  (toTime sec))) ∧
      (renewsWithoutSchedule sub = true →
        (∀ fuel endExclusive, subscriptionChargeDatesInRange fuel sub now endExclusive = some []) ∧
          ∀ fuel, subscriptionDetailUpcomingCharges fuel sub limit now =
            some ((sub.nextBillingDate.toList.filter fun date => 0 < limit ∧ now.day ≤ date.day).map
              (mapSubscriptionDetailUpcomingCharge sub))) := by
  refine ⟨fun hrenews => ⟨exists_coversLimit hrenews hroom, fun endExclusive h hcovers => ?_⟩,
    fun hrenews => ?_⟩
  · refine ⟨_, chargeDates_returns h, ?_⟩
    rw [← List.map_take, take_map_chargeDates h]
    exact upcomingCharges_returns hrenews hroom h hcovers
  simp only [renewsWithoutSchedule, Bool.and_eq_true, decide_eq_true_eq, Bool.not_eq_true'] at hrenews
  obtain ⟨⟨hf, hm⟩, hvalid⟩ := hrenews
  refine ⟨fun fuel endExclusive => chargeDates_without_schedule hm hvalid fuel now endExclusive,
    fun fuel => ?_⟩
  cases hdate : sub.nextBillingDate with
  | none => exact upcomingCharges_no_date hdate fuel
  | some date =>
    have hshown : mapSubscriptionDetailUpcomingCharge sub
        (midnight date.day) = mapSubscriptionDetailUpcomingCharge sub date := by
      simp only [mapSubscriptionDetailUpcomingCharge, Subdux.normalizeDateUTC_eq, midnight_day]
    rw [upcomingCharges_single hf hdate (.inr hvalid) hroom, hshown, Option.toList_some]
    by_cases hshows : 0 < limit ∧ now.day ≤ date.day
    · rw [if_pos hshows, List.filter_cons_of_pos (by simpa using hshows), List.filter_nil,
        List.map_singleton]
    · rw [if_neg hshows, List.filter_cons_of_neg (by simpa using hshows), List.filter_nil, List.map_nil]

end Agreement

/-- The monthly row without its interval. -/
def noIntervalRow : Subscription := { monthEndRow with intervalCount := none }

/-- That row is shown on 31 January, and charged never. -/
theorem upcomingCharges_without_schedule :
    ¬ ∀ (sub : Subscription) (limit : Int) (now endExclusive : Time), 0 ≤ limit →
    CoversLimit sub limit now endExclusive →
      ∃ dates, Returns (fun fuel => subscriptionChargeDatesInRange fuel sub now endExclusive) dates ∧
        Returns (fun fuel => subscriptionDetailUpcomingCharges fuel sub limit now)
          ((dates.take limit.toNat).map fun sec => mapSubscriptionDetailUpcomingCharge sub
            (toTime sec)) := by
  intro h
  have hempty : ∀ a b, Returns (fun fuel => subscriptionChargeDatesInRange fuel noIntervalRow a b)
      [] := fun a b =>
    ⟨0, chargeDates_without_schedule (by decide) (by decide) 0 a b⟩
  have hcovers : CoversLimit noIntervalRow 1 (dateUTC 2025 1 1) (dateUTC 2025 1 1) := by
    refine ⟨[], hempty _ _, .inr fun later more hmore => ?_⟩
    rw [Returns.unique (steady_chargeDates _ _ _) hmore (hempty _ _)]
  obtain ⟨dates, hdates, hdetail⟩ := h _ _ _ _ (by decide) hcovers
  rw [Returns.unique (steady_chargeDates _ _ _) hdates (hempty _ _)] at hdetail
  have hshown := Returns.unique (steady_upcomingCharges _ _ _) hdetail
    ⟨0, show _ = some [⟨"2025-01-31", 900, "USD", renewalModeAutoRenew⟩] by decide +kernel⟩
  exact absurd hshown (by simp)

theorem upcomingCharges_monthEndRow :
    ∃ dates, Returns (fun fuel => subscriptionChargeDatesInRange fuel monthEndRow (dateUTC 2025 1 1)
      (dateUTC 2025 5 1)) dates ∧
      Returns (fun fuel => subscriptionDetailUpcomingCharges fuel monthEndRow 3 (dateUTC 2025 1 1))
        ((dates.take 3).map fun sec => mapSubscriptionDetailUpcomingCharge monthEndRow
          (toTime sec)) := by
  have hroom : RoomFor monthEndRow 3 (dateUTC 2025 1 1) := by
    refine roomFor_of_gap (by decide +kernel) fun date hdate => ?_
    obtain rfl : dateUTC 2025 1 31 = date := Option.some.inj hdate
    refine ⟨by decide +kernel, fun r hr => ?_⟩
    obtain rfl : Rule.months 1 (by decide) = r := Option.some.inj hr
    decide +kernel
  have hfits : WindowFits monthEndRow (dateUTC 2025 1 1) (dateUTC 2025 5 1) :=
    monthEndRow_fits (by decide +kernel) (by decide +kernel) (by decide +kernel)
  have hspec := (upcomingCharges_spec monthEndRow 3 (dateUTC 2025 1 1) hroom).1 (by decide)
  exact hspec.2 _ hfits ⟨_, chargeDates_returns hfits, .inl (by decide +kernel)⟩

end Subdux.WordTime
