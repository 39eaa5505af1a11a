import Subdux.Lifecycle
/-!
# Charges in a window

`subscriptionChargeDatesInRange` of `internal/service/subscription_dashboard.go`,
which the monthly forecast of `subscription_report.go` calls for one month after
the other. `chargeDates_spec` says that the code lists what `Rule.Charges` does,
from the date that the stored one has caught up with.
-/

namespace Subdux

def subscriptionHasFutureCharge (sub : Subscription) : Bool :=
  normalizeStatus sub.status = subscriptionStatusActive ∧ sub.billingType = billingTypeRecurring ∧
    normalizeRenewalMode sub.renewalMode ≠ renewalModeCancelAtPeriodEnd

/-- The loop `for current.Before(endExclusive)`. A round moves `current` at least
one day on. -/
def chargeLoop (sub : Subscription) (startInclusive endExclusive : Time) : Nat → Time → List Time
  | 0, _ => []
  | fuel + 1, current =>
    if current.before endExclusive then
      let dates := if !current.before startInclusive then [current] else []
      match nextRecurringOccurrenceAfter sub current with
      | none => dates
      | some next =>
        if !next.after current then dates
          else dates ++ chargeLoop sub startInclusive endExclusive fuel next
    else []

def subscriptionChargeDatesInRange (sub : Subscription) (startInclusive endExclusive : Time) :
    List Time :=
  if !subscriptionHasFutureCharge sub then []
  else
    let startInclusive := normalizeDateUTC startInclusive
    let endExclusive := normalizeDateUTC endExclusive
    if !startInclusive.before endExclusive then []
    else
      match sub.nextBillingDate with
      | none => []
      | some nextBillingDate =>
        let current := normalizeDateUTC nextBillingDate
        if normalizeRenewalMode sub.renewalMode ≠ renewalModeAutoRenew then
          if current.before startInclusive ∨ !current.before endExclusive then [] else [current]
        else if !isRecurringScheduleValid sub then []
        else
          let first :=
            if current.before startInclusive then
              nextRecurringOccurrenceOnOrAfter sub current startInclusive
            else some current
          match first with
          | none => []
          | some current =>
            if !current.before endExclusive then []
            else chargeLoop sub startInclusive endExclusive
              (endExclusive.day - current.day).toNat current

/-! ## The loop charges the rule's dates -/

section Loop
variable {sub : Subscription} {r : Rule}

/-- The loop from a date on or after the start of the window. -/
theorem chargeLoop_spec (hr : sub.rule = some r) {a : Int} (b : Int) (fuel : Nat) {x : Int}
    (hax : a ≤ x) (hfuel : b - x ≤ fuel) :
    ∃ L, r.Charges b x L ∧ chargeLoop sub (midnight a) (midnight b) fuel
    (midnight x) = L.map midnight := by
  induction fuel generalizing x with
  | zero => exact ⟨[], .done (by omega), rfl⟩
  | succ fuel ih =>
    by_cases hxb : x < b
    · obtain ⟨y, hy, he⟩ := nextRecurringOccurrenceAfter_spec hr x
      have hxy := hy.le
      obtain ⟨L, hL, hloop⟩ := ih (x := y) (by omega) (by push_cast at hfuel; omega)
      refine ⟨x :: L, .charge hxb hy hL, ?_⟩
      simp [chargeLoop, hxb, he, hloop, not_lt.2 hax, show x < y by omega]
    · exact ⟨[], .done (not_lt.1 hxb), by simp [chargeLoop, hxb]⟩

end Loop

/-! ## What a window charges -/

section Windows
variable {sub : Subscription} {a b c : Time}

theorem chargeDates_of_not_future (h : subscriptionHasFutureCharge sub = false) :
    subscriptionChargeDatesInRange sub a b = [] := by
  simp [subscriptionChargeDatesInRange, h]

/-- A row that is charged but not renewed is charged once, on its date. -/
theorem chargeDates_once (hf : subscriptionHasFutureCharge sub = true)
    (hm : normalizeRenewalMode sub.renewalMode ≠ renewalModeAutoRenew) {date : Time}
    (hdate : sub.nextBillingDate = some date) :
    subscriptionChargeDatesInRange sub a b =
      if a.day ≤ date.day ∧ date.day < b.day then [midnight date.day] else [] := by
  simp only [subscriptionChargeDatesInRange, hf, hdate, normalizeDateUTC_eq, midnight_before]
  grind

/-- A renewed row is charged on the dates of its rule from the one that its date
has caught up with. -/
theorem chargeDates_renewed (hf : subscriptionHasFutureCharge sub = true)
    (hm : normalizeRenewalMode sub.renewalMode = renewalModeAutoRenew) {date : Time}
    (hdate : sub.nextBillingDate = some date) {r : Rule} (hr : sub.rule = some r) (a b : Time) :
    ∃ x L, r.CatchUp date.day a.day x ∧ r.Charges b.day x L ∧
    subscriptionChargeDatesInRange sub a b = L.map midnight := by
  have hvalid := (isRecurringScheduleValid_iff sub).2 ⟨r, hr⟩
  obtain ⟨x, hx, hfirst⟩ : ∃ x, r.CatchUp date.day a.day x ∧
      (if date.day < a.day then nextRecurringOccurrenceOnOrAfter sub (midnight date.day) (midnight a.day)
      else some (midnight date.day)) = some (midnight x) := by
    by_cases hlt : date.day < a.day
    · obtain ⟨x, hx, he⟩ := nextRecurringOccurrenceOnOrAfter_spec hr (midnight date.day) (midnight a.day)
      exact ⟨x, by simpa [Rule.CatchUp, hlt] using hx, by simpa [hlt] using he⟩
    · exact ⟨date.day, by simp [Rule.CatchUp, hlt], by simp [hlt]⟩
  have hax := hx.le
  obtain ⟨L, hL, hloop⟩ := chargeLoop_spec hr b.day (b.day - x).toNat hax (by omega)
  refine ⟨x, L, hx, hL, ?_⟩
  simp only [subscriptionChargeDatesInRange, hf, hdate, hm, hvalid, normalizeDateUTC_eq, midnight_day,
    midnight_before, decide_eq_true_eq, hfirst, Bool.not_true, Bool.false_eq_true, if_false, ne_eq,
      not_true_eq_false]
  by_cases hlt : x < b.day
  · simpa [hlt, hax.trans_lt hlt] using hloop
  · -- The window ends before its first charge.
    have : L = [] := by
      cases hL with
      | done => rfl
      | charge h => exact absurd h hlt
    simp [hlt, this]

/-- A schedule that is not valid charges nothing in the forecast. -/
theorem chargeDates_invalid (hm : normalizeRenewalMode sub.renewalMode = renewalModeAutoRenew)
    (hvalid : isRecurringScheduleValid sub = false) (a b : Time) :
    subscriptionChargeDatesInRange sub a b = [] := by
  unfold subscriptionChargeDatesInRange
  dsimp only
  rw [hm, hvalid]
  cases sub.nextBillingDate with
  | none => simp
  | some date => simp

/-- A window lists dates in it. -/
theorem mem_chargeDates {t : Time} (ht : t ∈ subscriptionChargeDatesInRange sub a b) :
    ∃ n, t = midnight n ∧ a.day ≤ n ∧ n < b.day := by
  cases hf : subscriptionHasFutureCharge sub with
  | false => simp [chargeDates_of_not_future hf] at ht
  | true =>
    cases hdate : sub.nextBillingDate with
    | none => simp [subscriptionChargeDatesInRange, hdate] at ht
    | some date =>
      by_cases hm : normalizeRenewalMode sub.renewalMode = renewalModeAutoRenew
      · cases hvalid : isRecurringScheduleValid sub with
        | false => simp [chargeDates_invalid hm hvalid] at ht
        | true =>
          obtain ⟨r, hr⟩ := (isRecurringScheduleValid_iff sub).1 hvalid
          obtain ⟨x, L, hx, hL, hlist⟩ := chargeDates_renewed hf hm hdate hr a b
          rw [hlist] at ht
          obtain ⟨n, hn, rfl⟩ := List.mem_map.1 ht
          exact ⟨n, rfl, hx.le.trans (hL.bounds n hn).1, (hL.bounds n hn).2⟩
      · rw [chargeDates_once hf hm hdate] at ht
        split_ifs at ht with hin
        · exact ⟨date.day, List.mem_singleton.1 ht, hin⟩
        · cases ht

end Windows

/-! ## Adjacent windows -/

/-- The windows from `a` to `b` and from `b` to `c` add up: the row is not renewed
automatically, or its rule's charges agree. -/
def WindowSafe (sub : Subscription) (a b c : Time) : Prop :=
  sub.billingType = billingTypeRecurring → normalizeRenewalMode sub.renewalMode = renewalModeAutoRenew →
    ∀ r ∈ sub.rule, ∀ date ∈ sub.nextBillingDate, r.WindowSafe date.day a.day b.day c.day

/-- Charge windows are additive exactly under `WindowSafe`. -/
theorem chargeDates_append_iff {sub : Subscription} (ha : subscriptionIsActive sub = true)
    (hvalid : isRecurringScheduleValid sub = true) {a b c : Time} (hab : a.day ≤ b.day)
    (hbc : b.day ≤ c.day) :
    subscriptionChargeDatesInRange sub a c =
        subscriptionChargeDatesInRange sub a b ++ subscriptionChargeDatesInRange sub b c ↔
      WindowSafe sub a b c := by
  obtain ⟨r, hr⟩ := (isRecurringScheduleValid_iff sub).1 hvalid
  have hstatus : normalizeStatus sub.status = subscriptionStatusActive := by
    simpa [subscriptionIsActive] using ha
  cases hdate : sub.nextBillingDate with
  | none => simp [subscriptionChargeDatesInRange, hdate, WindowSafe]
  | some date =>
    by_cases hb : sub.billingType = billingTypeRecurring
    · by_cases hm : normalizeRenewalMode sub.renewalMode = renewalModeAutoRenew
      · have hf : subscriptionHasFutureCharge sub = true := by
          simp [subscriptionHasFutureCharge, hstatus, hb, hm, renewalModeAutoRenew,
            renewalModeCancelAtPeriodEnd]
        have hsafe : WindowSafe sub a b c ↔ r.WindowSafe date.day a.day b.day c.day := by
          simp [WindowSafe, hb, hm, hr, hdate]
        obtain ⟨xa, L, hxa, hL, hac⟩ := chargeDates_renewed hf hm hdate hr a c
        obtain ⟨xa', L₁, hxa', hL₁, hab'⟩ := chargeDates_renewed hf hm hdate hr a b
        obtain ⟨xb, L₂, hxb, hL₂, hbc'⟩ := chargeDates_renewed hf hm hdate hr b c
        obtain rfl := hxa.unique hxa'
        rw [hac, hab', hbc', hsafe, ← Rule.windows_additive_iff hab hbc hxa hxb hL hL₁ hL₂,
          ← List.map_append]
        exact List.map_inj_right fun _ _ => midnight_inj.1
      · simp only [show WindowSafe sub a b c from fun _ h => absurd h hm, iff_true]
        cases hf : subscriptionHasFutureCharge sub with
        | false => simp [chargeDates_of_not_future hf]
        | true =>
          simp only [chargeDates_once hf hm hdate]
          split_ifs <;> first | rfl | omega
    · have hf : subscriptionHasFutureCharge sub = false := by simp [subscriptionHasFutureCharge, hb]
      simp [chargeDates_of_not_future hf, show WindowSafe sub a b c from fun h => absurd h hb]

end Subdux
