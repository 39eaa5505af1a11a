import Subdux.AnalyticsReport
import Subdux.WordForecast
/-!
# The dashboard and the report on 64-bit words

`GetDashboardSummary` and `SubscriptionsWithSummary` of
`internal/service/subscription_dashboard.go` and `GetAnalyticsReport` of
`subscription_report.go`, with the loops of `Subdux.WordForecast`: a read returns when
every loop that it starts does. The report asks for windows of a whole year, so it may
run for ever where the other two return: `reads_agree_iff` says when all three return,
and that they then have the same figures.
-/

namespace Subdux.WordTime
open Gregorian Words Fuel

/-! ## The code -/

/-- Of the branches, only automatic renewal has a loop. -/
def advanceSubscriptionLifecycle (fuel : Nat) (sub : Subscription) (referenceDate : Time) :
    Option Subscription :=
  if subscriptionIsActive sub ∧ sub.billingType = billingTypeRecurring ∧
      normalizeRenewalMode sub.renewalMode = renewalModeAutoRenew then
    (nextRecurringBillingDateOnOrAfter fuel sub referenceDate).map fun next =>
      next.elim sub fun date => renewedAt sub (toTime date)
  else some (Subdux.advanceSubscriptionLifecycle sub referenceDate).1

def presentSubscriptionForResponse (fuel : Nat) (sub : Subscription)
    (updatedAt referenceDate : Time) : Option Subscription :=
  (advanceSubscriptionLifecycle fuel sub referenceDate).map fun sub =>
    normalizeSubscriptionForResponse sub updatedAt

/-- The subscriptions that are shown, still with those that are not active. -/
def presentSubscriptions (fuel : Nat) (updatedAt : Subscription → Time) (subs : List Subscription)
    (now : Time) :
    Option (List Subscription) :=
  subs.mapM fun sub => presentSubscriptionForResponse fuel sub (updatedAt sub) now

/-- What `subscriptionChargeDatesInRange` answers, where it returns. -/
def chargeDates (fuel : Nat) : ChargeDates := fun sub a b =>
  ((subscriptionChargeDatesInRange fuel sub a b).getD []).map toTime

/-- The windows that `computeDashboardSummary` asks for. -/
def summaryWindows (today : Time) : List (Time × Time) := [(today, startOfMonth today 1)]

/-- Those that the report asks for: this month, thirty days, and twelve months. -/
def reportWindows (today : Time) : List (Time × Time) :=
  (today, startOfMonth today 1) :: (today, today.addDays 31) ::
    (List.range 12).map fun i => (periodStart today i, startOfMonth today (i + 1))

def windowsReturn (fuel : Nat) (windows : List (Time × Time)) (sub : Subscription) : Bool :=
  windows.all fun window => (subscriptionChargeDatesInRange fuel sub window.1 window.2).isSome

def computeDashboardSummary (fuel : Nat) (subs : List Subscription) (targetCurrency : String)
    (converter : Option CurrencyConverter) (now : Time) : Option DashboardSummary :=
  if subs.all (windowsReturn fuel (summaryWindows (Subdux.normalizeDateUTC now))) then
    some (Subdux.computeDashboardSummary (chargeDates fuel) subs targetCurrency converter now)
  else none

def getDashboardSummary (fuel : Nat) (updatedAt : Subscription → Time) (userID : Nat)
    (targetCurrency : String) (converter : Option CurrencyConverter) (now : Time)
    (rows : List Subscription) : Option DashboardSummary :=
  (presentSubscriptions fuel updatedAt (activeRows userID rows) now).bind fun subs =>
    computeDashboardSummary fuel (subs.filter subscriptionIsActive) targetCurrency converter now

def subscriptionsWithSummary (fuel : Nat) (updatedAt : Subscription → Time) (userID : Nat)
    (targetCurrency : String) (converter : Option CurrencyConverter) (now : Time)
    (rows : List Subscription) :
    Option (List Subscription × DashboardSummary) :=
  (presentSubscriptions fuel updatedAt
    ((rows.filter fun sub => sub.userID = userID).mergeSort listOrder) now).bind fun subs =>
    (computeDashboardSummary fuel
      (subs.filter subscriptionIsActive) targetCurrency converter now).map fun summary =>
      (subs, summary)

def getAnalyticsReport (fuel : Nat) (updatedAt : Subscription → Time) (userID : Nat)
    (targetCurrency : String) (converter : Option CurrencyConverter) (now : Time)
    (categories paymentMethods : List LabelRow) (rows : List Subscription) :
    Option AnalyticsReport :=
  (presentSubscriptions fuel updatedAt (activeRows userID rows) now).bind fun subs =>
    let subs := subs.filter subscriptionIsActive
    if subs.all (windowsReturn fuel (reportWindows (Subdux.normalizeDateUTC now))) then
      some (computeAnalyticsReport
        (reportInputs (chargeDates fuel) userID targetCurrency converter now categories
          paymentMethods) now subs)
    else none

/-! ## When the reads return -/

/-- With enough fuel the row is presented, and so are, if it is active, its charges in
every window of the report. -/
def LoopsEnd (updatedAt : Subscription → Time) (now : Time) (row : Subscription) : Prop :=
  ∃ fuel sub, presentSubscriptionForResponse fuel row (updatedAt row) now = some sub ∧
    (subscriptionIsActive sub = true →
      windowsReturn fuel (reportWindows (Subdux.normalizeDateUTC now)) sub = true)

/-- The three reads return, with the same figures. -/
def ReadsAgree (updatedAt : Subscription → Time) (userID : Nat) (targetCurrency : String)
    (converter : Option CurrencyConverter) (now : Time) (categories paymentMethods : List LabelRow)
    (rows : List Subscription) :
    Prop :=
  ∃ fuel summary listed report,
    getDashboardSummary fuel updatedAt userID targetCurrency converter now rows = some summary ∧
    subscriptionsWithSummary fuel updatedAt userID targetCurrency converter now rows = some listed ∧
    getAnalyticsReport fuel updatedAt userID targetCurrency converter now categories paymentMethods
      rows = some report ∧
    listed.2.spending = summary.spending ∧ report.kpis.spending = summary.spending

section Returns
variable {updatedAt : Subscription → Time} {userID : Nat} {target : String}
  {converter : Option CurrencyConverter} {now : Time}
  {categories paymentMethods : List LabelRow} {rows subs : List Subscription}
    {row sub : Subscription} {fuel more : Nat}
  {windows : List (Time × Time)}

theorem steady_present (row : Subscription) (updatedAt now : Time) :
    Steady fun fuel => presentSubscriptionForResponse fuel row updatedAt now := by
  have hroll : Steady fun fuel => nextRecurringBillingDateOnOrAfter fuel row now := fun _ _ _ hle h =>
    nextRecurringBillingDateOnOrAfter_mono h hle
  exact ((hroll.map _).ite (steady_const _)).map _

theorem windowsReturn_mono (hle : fuel ≤ more) (h : windowsReturn fuel windows sub = true) :
    windowsReturn more windows sub = true := by
  simp only [windowsReturn, List.all_eq_true, Option.isSome_iff_exists] at h ⊢
  intro window hwindow
  obtain ⟨dates, hdates⟩ := h window hwindow
  exact ⟨dates, steady_chargeDates sub window.1 window.2 hle hdates⟩

theorem windowsReturn_mem {window : Time × Time} (h : windowsReturn fuel windows sub = true)
    (hwindow : window ∈ windows) :
    (subscriptionChargeDatesInRange fuel sub window.1 window.2).isSome = true :=
  List.all_eq_true.1 h window hwindow

/-- The windows of the summary are windows of the report. -/
theorem windowsReturn_summary {today : Time} (h : windowsReturn fuel (reportWindows today) sub = true) :
    windowsReturn fuel (summaryWindows today) sub = true := by
  simp only [windowsReturn, reportWindows, summaryWindows, List.all_cons, List.all_nil,
    Bool.and_eq_true] at h ⊢
  exact ⟨h.1, trivial⟩

/-- A row that is not stored as active starts no loop. -/
theorem present_inactive (h : subscriptionIsActive row = false) (fuel : Nat) (updatedAt now : Time) :
    presentSubscriptionForResponse fuel row updatedAt now = some
    (normalizeSubscriptionForResponse row updatedAt) := by
  rw [presentSubscriptionForResponse, advanceSubscriptionLifecycle, if_neg (by simp [h]),
    advance_inactive h, Option.map_some]

/-- One fuel is enough for the loops of all rows. -/
theorem common_fuel (h : ∀ row ∈ rows, LoopsEnd updatedAt now row) :
    ∃ fuel, ∀ row ∈ rows, ∃ sub, presentSubscriptionForResponse fuel row (updatedAt row) now = some sub ∧
      (subscriptionIsActive sub = true →
        windowsReturn fuel (reportWindows (Subdux.normalizeDateUTC now)) sub = true) := by
  induction rows with
  | nil => exact ⟨0, by simp⟩
  | cons row rows ih =>
    obtain ⟨fuel, sub, hsub, hwindows⟩ := h row List.mem_cons_self
    obtain ⟨fuel', hrest⟩ := ih fun row hrow => h row (List.mem_cons_of_mem _ hrow)
    refine ⟨max fuel fuel', fun other hother => ?_⟩
    rcases List.mem_cons.1 hother with rfl | hother
    · exact ⟨sub, steady_present _ _ _ (le_max_left _ _) hsub, fun ha =>
        windowsReturn_mono (le_max_left _ _) (hwindows ha)⟩
    · obtain ⟨sub, hsub, hwindows⟩ := hrest other hother
      exact ⟨sub, steady_present _ _ _ (le_max_right _ _) hsub, fun ha =>
        windowsReturn_mono (le_max_right _ _) (hwindows ha)⟩

/-- What a list of rows that can be presented is presented as. -/
theorem presentSubscriptions_eq {shown : Subscription → Subscription}
    (h : ∀ row ∈ subs, presentSubscriptionForResponse fuel row (updatedAt row) now = some (shown row)) :
    presentSubscriptions fuel updatedAt subs now = some (subs.map shown) := by
  unfold presentSubscriptions
  induction subs with
  | nil => rfl
  | cons row subs ih =>
    have hrest := ih fun row hrow => h row (List.mem_cons_of_mem _ hrow)
    simp [List.mapM_cons, h row List.mem_cons_self, hrest]

/-- A list that is presented presents each of its rows. -/
theorem presentSubscriptions_mem {presented : List Subscription}
    (h : presentSubscriptions fuel updatedAt subs now = some presented) (hrow : row ∈ subs) :
    ∃ sub ∈ presented, presentSubscriptionForResponse fuel row (updatedAt row) now = some sub := by
  unfold presentSubscriptions at h
  induction subs generalizing presented with
  | nil => cases hrow
  | cons other subs ih =>
    simp only [List.mapM_cons, Option.bind_eq_bind, Option.bind_eq_some_iff] at h
    obtain ⟨sub, hsub, rest, hrest, hpresented⟩ := h
    cases hpresented
    rcases List.mem_cons.1 hrow with rfl | hrow
    · exact ⟨sub, List.mem_cons_self, hsub⟩
    · obtain ⟨sub', hmem, hsub'⟩ := ih hrest hrow
      exact ⟨sub', List.mem_cons_of_mem _ hmem, hsub'⟩

/-- A report that returns has ended the loops of its rows. -/
theorem loopsEnd_of_report {report : AnalyticsReport}
    (h : getAnalyticsReport fuel updatedAt userID target converter now categories paymentMethods
      rows = some report) :
    ∀ row ∈ activeRows userID rows, LoopsEnd updatedAt now row := by
  intro row hrow
  obtain ⟨presented, hpresented, hreport⟩ := Option.bind_eq_some_iff.1 h
  obtain ⟨sub, hmem, hsub⟩ := presentSubscriptions_mem hpresented hrow
  refine ⟨fuel, sub, hsub, fun hactive => ?_⟩
  dsimp only at hreport
  split_ifs at hreport with hall
  exact List.all_eq_true.1 hall sub (List.mem_filter.2 ⟨hmem, hactive⟩)

/-- The windows of each active subscription among them return. -/
def AllReturn (fuel : Nat) (now : Time) (subs : List Subscription) : Prop :=
  ∀ sub ∈ subs.filter subscriptionIsActive,
    windowsReturn fuel (reportWindows (Subdux.normalizeDateUTC now)) sub = true

theorem computeDashboardSummary_eq (h : AllReturn fuel now subs) :
    computeDashboardSummary fuel (subs.filter subscriptionIsActive) target converter now =
      some (Subdux.computeDashboardSummary (chargeDates fuel)
        (subs.filter subscriptionIsActive) target converter now) :=
  if_pos (List.all_eq_true.2 fun sub hsub => windowsReturn_summary (h sub hsub))

theorem getDashboardSummary_eq
    (hsubs : presentSubscriptions fuel updatedAt (activeRows userID rows) now = some subs)
    (h : AllReturn fuel now subs) :
    getDashboardSummary fuel updatedAt userID target converter now rows =
      some (Subdux.computeDashboardSummary (chargeDates fuel)
        (subs.filter subscriptionIsActive) target converter now) := by
  rw [getDashboardSummary, hsubs, Option.bind_some, computeDashboardSummary_eq h]

theorem subscriptionsWithSummary_eq
    (hsubs : presentSubscriptions fuel updatedAt
      ((rows.filter fun sub => sub.userID = userID).mergeSort listOrder) now = some subs)
    (h : AllReturn fuel now subs) :
    subscriptionsWithSummary fuel updatedAt userID target converter now rows =
      some (subs,
        Subdux.computeDashboardSummary (chargeDates fuel)
          (subs.filter subscriptionIsActive) target converter now) := by
  rw [subscriptionsWithSummary, hsubs, Option.bind_some, computeDashboardSummary_eq h, Option.map_some]

theorem getAnalyticsReport_eq
    (hsubs : presentSubscriptions fuel updatedAt (activeRows userID rows) now = some subs)
    (h : AllReturn fuel now subs) :
    getAnalyticsReport fuel updatedAt userID target converter now categories paymentMethods rows =
      some (computeAnalyticsReport
        (reportInputs (chargeDates fuel) userID target converter now categories paymentMethods) now
        (subs.filter subscriptionIsActive)) := by
  rw [getAnalyticsReport, hsubs, Option.bind_some]
  exact if_pos (List.all_eq_true.2 h)

/-- Loops that end give the three reads, with the same figures. -/
theorem reads_agree_of_loopsEnd (hrows : ∀ row ∈ rows, row.Checked) (htarget : IsUpperCurrency target)
    (hconverter : KeepsCurrency converter)
    (h : ∀ row ∈ activeRows userID rows, LoopsEnd updatedAt now row) :
    ReadsAgree updatedAt userID target converter now categories paymentMethods rows := by
  obtain ⟨fuel, hfuel⟩ := common_fuel h
  let shown (row : Subscription) :=
    (presentSubscriptionForResponse fuel row (updatedAt row) now).getD row
  have hinactive : ∀ row ∈ rows, row.status ≠ subscriptionStatusActive →
      presentSubscriptionForResponse fuel row (updatedAt row) now = some (shown row) ∧
        subscriptionIsActive (shown row) = false := by
    intro row hrow hstatus
    have hrowInactive := checked_inactive (hrows row hrow) hstatus
    have hpresent := present_inactive hrowInactive fuel (updatedAt row) now
    refine ⟨?_, ?_⟩
    · simp only [shown, hpresent, Option.getD_some]
    · simp only [shown, hpresent, Option.getD_some]
      exact normalize_inactive (hrows row hrow) hrowInactive _
  have hshown : ∀ row ∈ rows, row.userID = userID →
      presentSubscriptionForResponse fuel row (updatedAt row) now = some (shown row) := by
    intro row hrow huser
    by_cases hstatus : row.status = subscriptionStatusActive
    · obtain ⟨sub, hsub, -⟩ := hfuel row (List.mem_filter.2 ⟨hrow, by simp [huser, hstatus]⟩)
      simp only [shown, hsub, Option.getD_some]
    · exact (hinactive row hrow hstatus).1
  have hperm := listed_perm (fun row hrow hstatus => (hinactive row hrow hstatus).2) userID
  have hactive : presentSubscriptions fuel updatedAt (activeRows userID rows) now = some
      ((activeRows userID rows).map shown) :=
    presentSubscriptions_eq fun row hrow => by
      simp only [activeRows, List.mem_filter, decide_eq_true_eq] at hrow
      exact hshown row hrow.1 hrow.2.1
  have hlisted : presentSubscriptions fuel updatedAt
      ((rows.filter fun sub => sub.userID = userID).mergeSort listOrder) now =
      some (((rows.filter fun sub => sub.userID = userID).mergeSort listOrder).map shown) :=
    presentSubscriptions_eq fun row hrow => by
      simp only [List.mem_mergeSort, List.mem_filter, decide_eq_true_eq] at hrow
      exact hshown row hrow.1 hrow.2
  have hwindows : AllReturn fuel now ((activeRows userID rows).map shown) := by
    intro sub hsub
    obtain ⟨hmem, hsubActive⟩ := List.mem_filter.1 hsub
    obtain ⟨row, hrow, rfl⟩ := List.mem_map.1 hmem
    obtain ⟨sub, hpresent, hreturn⟩ := hfuel row hrow
    have hsub : shown row = sub := by simp only [shown, hpresent, Option.getD_some]
    rw [hsub] at hsubActive ⊢
    exact hreturn hsubActive
  have hlistedWindows :
      AllReturn fuel now
      (((rows.filter fun sub => sub.userID = userID).mergeSort listOrder).map shown) :=
    fun sub hsub => hwindows sub (hperm.mem_iff.1 hsub)
  refine ⟨fuel, _, _, _, getDashboardSummary_eq hactive hwindows,
    subscriptionsWithSummary_eq hlisted hlistedWindows,
    getAnalyticsReport_eq hactive hwindows, ?_,
      spending_agrees (List.Perm.refl _) hconverter htarget _ _ _ _ _⟩
  rw [summary_spending hconverter, summary_spending hconverter, spendingOf_perm hperm]

end Returns

/-! ## Which loops end -/

/-- Every walk of the row's interval up to the word `hi` ends. -/
def WalksEnd (sub : Subscription) (hi : Int) : Prop :=
  sub.recurrenceType = recurrenceTypeInterval → ∀ count, sub.intervalCount = some count → 1 ≤ count →
    isValidIntervalUnit sub.intervalUnit = true → ∀ a b, InRange a → 0 ≤ b → b ≤ hi →
      ∃ fuel x, nextIntervalOccurrence fuel a b count sub.intervalUnit = some x

section Walks
variable {sub : Subscription} {a b n x hi : Int}

/-- The midnight before a word of year 1 or later. -/
theorem normalizeDateUTC_eq {sec : Int} (h0 : 0 ≤ sec) (h : sec < 2 ^ 63) :
    normalizeDateUTC sec = seconds (dayNumber sec) ∧ 0 ≤ seconds (dayNumber sec) ∧
    seconds (dayNumber sec) ≤ sec ∧
      sec < seconds (dayNumber sec + 1) := by
  have hspec := seconds_dayNumber sec
  have hclock := Int.emod_nonneg sec (show secondsPerDay ≠ 0 by decide)
  have hlt := Int.emod_lt_of_pos sec (show 0 < secondsPerDay by decide)
  have hsec : 0 ≤ seconds (dayNumber sec) := by
    unfold seconds dayNumber
    have := Int.ediv_nonneg h0 (show 0 ≤ secondsPerDay by decide)
    exact Int.mul_nonneg (by omega) (by decide)
  have hnext : seconds (dayNumber sec + 1) = seconds (dayNumber sec) + secondsPerDay := by
    unfold seconds
    ring
  unfold clock at hspec
  refine ⟨?_, hsec, by omega, by omega⟩
  have hin : InRange sec := ⟨by omega, h⟩
  rw [normalizeDateUTC, date_of hin, day, dayOf, add_zero,
    show monthStart (monthOf (dayNumber sec)) +
        (dayNumber sec - monthStart (monthOf (dayNumber sec)) + 1 - 1) = dayNumber sec by
      ring]
  exact wrap_of_inRange ⟨by omega, by omega⟩

theorem valid_interval (hvalid : isRecurringScheduleValid sub = true)
    (hinterval : sub.recurrenceType = recurrenceTypeInterval) {count : Int}
    (hcount : sub.intervalCount = some count) :
    1 ≤ count ∧ isValidIntervalUnit sub.intervalUnit = true := by
  rw [isRecurringScheduleValid, if_pos hinterval, hcount] at hvalid
  simpa using hvalid

/-- A schedule without an interval starts no walk. -/
theorem onOrAfter_ends_date (hinterval : sub.recurrenceType ≠ recurrenceTypeInterval) (a b : Int) :
    Ends fun fuel => nextRecurringOccurrenceOnOrAfter fuel sub a b := by
  unfold nextRecurringOccurrenceOnOrAfter
  simp only [hinterval, if_false]
  split_ifs
  · exact ends_const _
  · cases sub.yearlyMonth <;> cases sub.yearlyDay <;> exact ends_const _
  · exact ends_const _

/-- A schedule whose walks end has a next occurrence from any word on. -/
theorem onOrAfter_ends (hvalid : isRecurringScheduleValid sub = true) (hwalks : WalksEnd sub hi)
    (h0 : 0 ≤ b) (hb : b ≤ hi) (hhi : hi < 2 ^ 63) (a : Int) :
    Ends fun fuel => nextRecurringOccurrenceOnOrAfter fuel sub a b := by
  obtain ⟨hnorm, hnorm0, hle, -⟩ := normalizeDateUTC_eq h0 (by omega)
  by_cases hinterval : sub.recurrenceType = recurrenceTypeInterval
  case neg => exact onOrAfter_ends_date hinterval a b
  cases hcount : sub.intervalCount with
  | none => exact ⟨none, 0, by simp [nextRecurringOccurrenceOnOrAfter, hinterval, hcount]⟩
  | some count =>
    obtain ⟨hpos, hunit⟩ := valid_interval hvalid hinterval hcount
    obtain ⟨fuel, x, hx⟩ :=
      hwalks hinterval count hcount hpos hunit (normalizeDateUTC a) (seconds (dayNumber b))
      (normalizeDateUTC_inRange a) hnorm0 (by omega)
    refine ⟨some x, fuel, ?_⟩
    simp only [nextRecurringOccurrenceOnOrAfter, hinterval, hcount, if_true, hnorm, hx, Option.map_some]

/-- What a walk up to a midnight comes to is not before it. -/
theorem onOrAfter_le (hvalid : isRecurringScheduleValid sub = true)
    (hinterval : sub.recurrenceType = recurrenceTypeInterval) (hb : normalizeDateUTC b = b)
    {fuel : Nat} (h : nextRecurringOccurrenceOnOrAfter fuel sub a b = some (some x)) : b ≤ x := by
  cases hcount : sub.intervalCount with
  | none => simp [nextRecurringOccurrenceOnOrAfter, hinterval, hcount] at h
  | some count =>
    simp only [nextRecurringOccurrenceOnOrAfter, hinterval, hcount, if_true, hb,
      Option.map_eq_some_iff, Option.some.injEq,
      exists_eq_right, nextIntervalOccurrence, (valid_interval hvalid hinterval hcount).2] at h
    split_ifs at h with hab
    · exact walk_le h
    · cases h
      exact not_lt.1 hab

theorem after_ends (hvalid : isRecurringScheduleValid sub = true) (hwalks : WalksEnd sub hi)
    (hmidnight : hi = seconds n) (hhi : hi < 2 ^ 63) (h0 : 0 ≤ x) (hx : x < hi) :
    Ends fun fuel => nextRecurringOccurrenceAfter fuel sub x := by
  obtain ⟨hnorm, hnorm0, hle, -⟩ := normalizeDateUTC_eq h0 (by omega)
  have hday : dayNumber x + 1 ≤ n := by
    by_contra hlt
    have := seconds_monotone (show n ≤ dayNumber x by omega)
    omega
  have hbound := seconds_monotone hday
  have hadd : seconds (dayNumber x) + 1 * secondsPerDay = seconds (dayNumber x + 1) := by
    unfold seconds
    ring
  have hpos := seconds_strictMono (show dayNumber x < dayNumber x + 1 by omega)
  have hnext : addDays (normalizeDateUTC x) 1 = seconds (dayNumber x + 1) := by
    rw [hnorm, addDays_eq ⟨by omega, by omega⟩, hadd, wrap_of_inRange ⟨by omega, by omega⟩]
  unfold nextRecurringOccurrenceAfter
  rw [hnext]
  exact onOrAfter_ends hvalid hwalks (by omega) (by omega) hhi x

/-- The loop moves up, so it ends when its walks do. -/
theorem chargeLoop_ends {lo : Int}
    (hnext : ∀ x, lo ≤ x → x < b → Ends fun fuel => nextRecurringOccurrenceAfter fuel sub x)
    (a : Int) (hx : lo ≤ x) : ∃ fuel rounds L, chargeLoop fuel sub a b rounds x = some L := by
  induction hn : (b - x).toNat using Nat.strongRecOn generalizing x with
  | ind n ih =>
    by_cases hxb : x < b
    case neg => exact ⟨0, 1, [], by rw [chargeLoop, if_neg hxb]⟩
    obtain ⟨next, fuel, hfuel⟩ := hnext x hx hxb
    by_cases hup : ∃ y, next = some y ∧ x < y
    · obtain ⟨y, rfl, hxy⟩ := hup
      obtain ⟨fuel', rounds, L, hL⟩ := ih (b - y).toNat (by omega) (by omega) rfl
      have hafter := steady_after sub x (le_max_left fuel fuel') hfuel
      refine ⟨max fuel fuel', rounds + 1, (if a ≤ x then [x] else []) ++ L, ?_⟩
      rw [chargeLoop, if_pos hxb]
      dsimp only at hafter ⊢
      rw [hafter, Option.bind_some]
      dsimp only
      rw [if_pos hxy, chargeLoop_mono sub (le_max_right fuel fuel') le_rfl hL, Option.map_some]
    · -- Without a later occurrence the loop stops.
      refine ⟨fuel, 1, if a ≤ x then [x] else [], ?_⟩
      rw [chargeLoop, if_pos hxb]
      dsimp only at hfuel ⊢
      rw [hfuel, Option.bind_some]
      cases next with
      | none => rfl
      | some y => exact if_neg fun h => hup ⟨y, rfl, h⟩

end Walks

/-- Windows from year 1 on, up to where walks end. -/
theorem window_ends {sub : Subscription} {a b : Time} {hi n : Int} (hwalks : WalksEnd sub hi)
    (hmidnight : hi = seconds n) (hhi : hi < 2 ^ 63) (ha : InRange (seconds a.day))
    (h0 : 0 ≤ seconds a.day) (hb : ofTime b ≤ hi) :
    Ends fun fuel => subscriptionChargeDatesInRange fuel sub a b := by
  rw [← ofTime_eq ha] at h0
  unfold subscriptionChargeDatesInRange
  dsimp only
  refine ends_ite (fun _ => ends_const _) fun _ => ends_ite (fun _ => ends_const _) fun hab => ?_
  cases sub.nextBillingDate with
  | none => exact ends_const _
  | some date =>
    refine ends_ite (fun _ => ends_const _) fun _ => ends_ite (fun _ => ends_const _) fun hvalid => ?_
    have hvalid : isRecurringScheduleValid sub = true := by simpa using hvalid
    refine Ends.bind ((steady_onOrAfter sub _ _).ite (steady_const _))
      (fun first => steady_rest sub _ _ first) ?_
      fun first hfirst => ?_
    · refine ends_ite (fun hlt => ?_) fun _ => ends_const _
      exact onOrAfter_ends hvalid hwalks h0 (by omega) hhi _
    · cases first with
      | none => exact ends_const _
      | some x =>
        refine ends_ite (fun _ => ends_const _) fun _ => ?_
        have hloop : ∃ fuel rounds L, chargeLoop fuel sub (ofTime a) (ofTime b) rounds x = some L := by
          by_cases hinterval : sub.recurrenceType = recurrenceTypeInterval
          · -- The loop starts in the window, from where its walks end.
            have hx : ofTime a ≤ x := by
              obtain ⟨fuel, hfuel⟩ := hfirst
              dsimp only at hfuel
              split_ifs at hfuel with hlt
              · exact onOrAfter_le hvalid hinterval
                  (by rw [ofTime_eq ha, normalizeDateUTC_seconds ha]) hfuel
              · cases hfuel
                exact not_lt.1 hlt
            exact chargeLoop_ends
              (fun x hax hxb => after_ends hvalid hwalks hmidnight hhi (h0.trans hax) (by omega)) _ hx
          · exact chargeLoop_ends (fun x _ _ => onOrAfter_ends_date hinterval _ _) _ le_rfl
        obtain ⟨fuel, rounds, L, hL⟩ := hloop
        exact ⟨L, max fuel rounds, chargeLoop_mono sub (le_max_left _ _) (le_max_right _ _) hL⟩

/-! ## The windows of the report -/

/-- Where the twelve months of the forecast end. -/
def forecastEnd (now : Time) : Time := startOfMonth (Subdux.normalizeDateUTC now) 12

/-- The year 1 is over, and the forecast stays in the first half of Go's times. -/
structure NowFits (now : Time) : Prop where
  start : 0 ≤ seconds now.day
  stop : seconds (forecastEnd now).day ≤ 2 ^ 62

section Report
variable {updatedAt : Subscription → Time} {now : Time} {row sub : Subscription}
  {window : Time × Time} {fuel : Nat}

theorem startOfMonth_day (now : Time) (months : Int) :
    (startOfMonth (Subdux.normalizeDateUTC now) months).day = monthStart (monthOf now.day + months) := by
  have hindex : 12 * (midnight now.day).year +
      ((midnight now.day).month + months - 1) = monthOf now.day + months := by
    simp only [Time.year, Time.month, midnight_day]
    omega
  rw [startOfMonth, Subdux.normalizeDateUTC_eq, dateUTC, midnight_day, hindex]
  omega

theorem now_le_forecastEnd (now : Time) : seconds now.day ≤ seconds (forecastEnd now).day := by
  rw [forecastEnd, startOfMonth_day]
  exact seconds_monotone ((monthOf_spec now.day).2.le.trans (monthStart_strictMono.monotone
    (show monthOf now.day + 1 ≤ monthOf now.day + 12 by omega)))

/-- The windows of the report lie between today and the end of the forecast. -/
theorem reportWindows_bounds (h : window ∈ reportWindows (Subdux.normalizeDateUTC now)) :
    (now.day ≤ window.1.day ∧ window.1.day ≤ (forecastEnd now).day) ∧
      now.day ≤ window.2.day ∧ window.2.day ≤ (forecastEnd now).day := by
  have hnow := (monthOf_spec now.day).2
  have hmono : ∀ {j k : Int}, j ≤ k → monthStart (monthOf now.day + j) ≤ monthStart
      (monthOf now.day + k) := fun hjk =>
    monthStart_strictMono.monotone (by omega)
  have hfirst : ∀ i : Nat, i < 12 → now.day ≤ (periodStart (Subdux.normalizeDateUTC now) i).day ∧
      (periodStart (Subdux.normalizeDateUTC now) i).day ≤ monthStart (monthOf now.day + 12) := by
    intro i hi
    unfold periodStart
    split_ifs with h0
    · rw [Subdux.normalizeDateUTC_eq, midnight_day]
      exact ⟨le_rfl, hnow.le.trans (hmono (by decide))⟩
    · rw [startOfMonth_day]
      exact ⟨hnow.le.trans (hmono (by omega)), hmono (by omega)⟩
  simp only [reportWindows, List.mem_cons, List.mem_map, List.mem_range] at h
  rw [forecastEnd, startOfMonth_day]
  rcases h with rfl | rfl | ⟨i, hi, rfl⟩
  · refine ⟨hfirst 0 (by decide), ?_⟩
    rw [startOfMonth_day]
    exact ⟨hnow.le, hmono (by decide)⟩
  · refine ⟨hfirst 0 (by decide), ?_⟩
    -- Two more months have 31 days.
    have hlen := monthLen_bounds (monthOf now.day + 1)
    have hlen' := monthLen_bounds (monthOf now.day + 1 + 1)
    have hsucc := monthStart_succ (monthOf now.day + 1)
    have hsucc' := monthStart_succ (monthOf now.day + 1 + 1)
    have := hmono (show (3 : Int) ≤ 12 by decide)
    rw [show monthOf now.day + 3 = monthOf now.day + 1 + 1 + 1 by ring] at this
    simp only [Subdux.normalizeDateUTC_eq, midnight_addDays, midnight_day]
    omega
  · refine ⟨hfirst i hi, ?_⟩
    rw [startOfMonth_day]
    exact ⟨hnow.le.trans (hmono (by omega)), hmono (by omega)⟩

/-- The columns that a walk reads. -/
def intervalColumns (sub : Subscription) : String × Option Int × String :=
  (sub.recurrenceType, sub.intervalCount, sub.intervalUnit)

theorem normalizeForResponse_interval (sub : Subscription) (t : Time) :
    intervalColumns (normalizeSubscriptionForResponse sub t) = intervalColumns sub := by
  have hsync : ∀ sub, intervalColumns (syncLegacyEnabledForLifecycle sub) = intervalColumns sub :=
    fun sub => by
    dsimp only [syncLegacyEnabledForLifecycle, intervalColumns]
  delta normalizeSubscriptionForResponse
  dsimp only
  rw [hsync, apply_ite intervalColumns]
  exact ite_self _

theorem lifecycleWrite_interval (advanced row : Subscription) :
    intervalColumns (lifecycleWrite advanced row) = intervalColumns row := rfl

/-- Presenting a row leaves them alone. -/
theorem present_interval (h : presentSubscriptionForResponse fuel row (updatedAt row) now = some sub) :
    intervalColumns sub = intervalColumns row := by
  obtain ⟨advanced, hadvanced, rfl⟩ := Option.map_eq_some_iff.1 h
  rw [normalizeForResponse_interval]
  unfold advanceSubscriptionLifecycle at hadvanced
  split_ifs at hadvanced
  · obtain ⟨next, -, rfl⟩ := Option.map_eq_some_iff.1 hadvanced
    cases next <;> rfl
  · rw [← Option.some.inj hadvanced]
    exact (congrArg intervalColumns (lifecycleWrite_self row now)).symm.trans
      (lifecycleWrite_interval _ _)

theorem WalksEnd.congr {hi : Int} (h : intervalColumns sub = intervalColumns row)
    (hwalks : WalksEnd row hi) : WalksEnd sub hi := by
  simp only [intervalColumns, Prod.mk.injEq] at h
  obtain ⟨htype, hcount, hunit⟩ := h
  unfold WalksEnd at hwalks ⊢
  rw [htype, hcount, hunit]
  exact hwalks

/-- A row whose walks end is presented, and its windows return. -/
theorem loopsEnd_of_walksEnd (hnow : NowFits now)
    (hwalks : WalksEnd row (seconds (forecastEnd now).day)) :
    LoopsEnd updatedAt now row := by
  have hpos := hnow.start
  have hstop := hnow.stop
  have hnowEnd := now_le_forecastEnd now
  have hnowIn : InRange (seconds now.day) := ⟨by omega, by omega⟩
  have hroll : ∃ fuel next, nextRecurringBillingDateOnOrAfter fuel row now = some next := by
    refine nextRecurringBillingDateOnOrAfter_ends fun hinterval date count _ hcount hcountPos hunit => ?_
    rw [ofTime_eq hnowIn]
    exact hwalks hinterval count hcount hcountPos hunit _ _ (wrap_inRange _) hpos hnowEnd
  have hpresent : ∃ fuel sub, presentSubscriptionForResponse fuel row
      (updatedAt row) now = some sub := by
    obtain ⟨fuel, next, hnext⟩ := hroll
    refine ⟨fuel, ?_⟩
    simp only [presentSubscriptionForResponse, advanceSubscriptionLifecycle, hnext]
    split_ifs
    · exact ⟨_, rfl⟩
    · exact ⟨_, rfl⟩
  obtain ⟨fuel, sub, hsub⟩ := hpresent
  have hsubWalks := hwalks.congr (present_interval hsub)
  have hwindows : ∀ windows : List (Time × Time),
      (∀ window ∈ windows, window ∈ reportWindows (Subdux.normalizeDateUTC now)) →
      ∃ more, windowsReturn more windows sub = true := by
    intro windows hin
    induction windows with
    | nil => exact ⟨0, rfl⟩
    | cons window windows ih =>
      obtain ⟨⟨hstart, hle⟩, hstart', hend⟩ := reportWindows_bounds (hin window List.mem_cons_self)
      have h1 := seconds_monotone hstart
      have h2 := seconds_monotone hle
      have h3 := seconds_monotone hstart'
      have h4 := seconds_monotone hend
      have hfrom : InRange (seconds window.1.day) := ⟨by omega, by omega⟩
      have hto : ofTime window.2 = seconds window.2.day := ofTime_eq ⟨by omega, by omega⟩
      obtain ⟨dates, fuel₁, hdates⟩ :=
        window_ends hsubWalks rfl (by omega) hfrom (by omega) (hto.trans_le h4)
      obtain ⟨fuel₂, hrest⟩ := ih fun window hwindow => hin window (List.mem_cons_of_mem _ hwindow)
      refine ⟨max fuel₁ fuel₂, ?_⟩
      have hfirst : subscriptionChargeDatesInRange
          (max fuel₁ fuel₂) sub window.1 window.2 = some dates :=
        steady_chargeDates sub _ _ (le_max_left _ _) hdates
      have hothers := windowsReturn_mono (le_max_right fuel₁ fuel₂) hrest
      simp only [windowsReturn, List.all_cons, Bool.and_eq_true] at hothers ⊢
      exact ⟨by rw [hfirst, Option.isSome_some], hothers⟩
  obtain ⟨more, hmore⟩ := hwindows _ fun _ h => h
  exact ⟨max fuel more, sub, steady_present _ _ _ (le_max_left _ _) hsub, fun _ =>
    windowsReturn_mono (le_max_right _ _) hmore⟩

/-! ### Days and weeks -/

theorem walksEnd_days {hi : Int}
    (hunit : sub.intervalUnit = intervalUnitDay ∨ sub.intervalUnit = intervalUnitWeek)
    (hcount : ∀ count ∈ sub.intervalCount, 1 ≤ count → ¬ 2 ^ 56 ∣ count) (hhi : hi ≤ 2 ^ 62) :
    WalksEnd sub hi := by
  intro _ count hc hpos hvalid a b _ h0 hb
  obtain ⟨hnorm, -, hle, -⟩ := normalizeDateUTC_eq h0 (by omega)
  obtain ⟨fuel, x, hx⟩ :=
    walk_days_ends (normalizeDateUTC a) hunit (hcount count hc hpos) (normalizeDateUTC_inRange a)
    (show normalizeDateUTC b ≤ 2 ^ 62 by omega)
  by_cases hab : normalizeDateUTC a < normalizeDateUTC b
  · exact ⟨fuel, x, by simp only [nextIntervalOccurrence, hab, not_true_eq_false, if_false, hvalid,
      if_true, hx]⟩
  · exact ⟨0, _, by rw [nextIntervalOccurrence]; exact if_pos hab⟩

/-! ### Months and years -/

theorem walksEnd_of_gap {n : Int} (hn : seconds n ≤ 2 ^ 62)
    (h : ∀ r ∈ sub.rule, seconds (n + r.gap + 31) < 2 ^ 63) :
    WalksEnd sub (seconds n) := by
  intro hinterval count hc hpos hvalid a b ha h0 hb
  obtain ⟨hnorm, hk0, hle, -⟩ := normalizeDateUTC_eq h0 (by omega)
  by_cases hab : normalizeDateUTC a < normalizeDateUTC b
  case neg => exact ⟨0, _, by rw [nextIntervalOccurrence]; exact if_pos hab⟩
  obtain ⟨r, hr⟩ := (intervalRule_isSome count sub.intervalUnit).2 ⟨hpos, hvalid⟩
  have hfits := h r (by rw [Subscription.rule, if_pos hinterval, hc]; exact hr)
  -- The anchor is a midnight: in the first hours of Go's times it wraps past the bound.
  have hanchor : normalizeDateUTC a = seconds (dayNumber a) ∧ InRange (seconds (dayNumber a)) := by
    have hspec := seconds_dayNumber a
    have hclock := Int.emod_nonneg a (show secondsPerDay ≠ 0 by decide)
    have hlt := Int.emod_lt_of_pos a (show 0 < secondsPerDay by decide)
    have hword : normalizeDateUTC a = wrap (seconds (dayNumber a)) := by
      rw [normalizeDateUTC, date_of ha, day, dayOf, add_zero]
      congr 2
      ring
    unfold clock at hspec
    unfold InRange at ha ⊢
    have hday : secondsPerDay = 86400 := rfl
    rw [hword, wrap] at hab
    by_cases hin : -2 ^ 63 ≤ seconds (dayNumber a)
    · exact ⟨by rw [hword, wrap_of_inRange ⟨hin, by omega⟩], hin, by omega⟩
    · omega
  have hbound : normalizeDateUTC (seconds (dayNumber b)) = seconds (dayNumber b) :=
    normalizeDateUTC_seconds ⟨by omega, by omega⟩
  have hmk : dayNumber a < dayNumber b := by
    rwa [hanchor.1, hnorm, seconds_strictMono.lt_iff_lt] at hab
  have hkn : dayNumber b ≤ n := seconds_strictMono.le_iff_le.1 (hle.trans hb)
  obtain ⟨x, he, hreturns⟩ :=
    nextIntervalOccurrence_eq hr hanchor.2 (b := dayNumber b) ⟨by omega, by omega⟩
  obtain ⟨y, hy, he'⟩ := nextIntervalOccurrence_spec hr (dayNumber a) (dayNumber b)
  obtain rfl : x = y := by rw [← midnight_inj, ← he, he']
  have hgap := hy.le_gap
  have hmonth := (monthOf_spec x).1
  have hsucc := monthStart_succ (monthOf x)
  have hlen := (monthLen_bounds (monthOf x)).2
  obtain ⟨fuel, hx⟩ := hreturns ((seconds_monotone (by omega)).trans_lt hfits)
  refine ⟨fuel, seconds x, ?_⟩
  rw [nextIntervalOccurrence, normalizeDateUTC_seconds hanchor.2, hbound] at hx
  rw [nextIntervalOccurrence, hanchor.1, hnorm]
  exact hx

/-! ### Loops that do not end -/

/-- An active row renewed every `count` days or weeks, from a date before the end of the
forecast, where `2 ^ 56` divides `count`. -/
structure Sticks (now : Time) (row : Subscription) : Prop where
  active : subscriptionIsActive row = true
  recurring : row.billingType = billingTypeRecurring
  renewed : normalizeRenewalMode row.renewalMode = renewalModeAutoRenew
  interval : row.recurrenceType = recurrenceTypeInterval
  unit : row.intervalUnit = intervalUnitDay ∨ row.intervalUnit = intervalUnitWeek
  count : ∃ count, row.intervalCount = some count ∧ 1 ≤ count ∧ 2 ^ 56 ∣ count
  date : ∃ date, row.nextBillingDate = some date ∧ 0 ≤ seconds date.day ∧
    date.day < (forecastEnd now).day

section Sticks
variable {a b m k : Int}

/-- From a date of the row no walk ends. -/
theorem onOrAfter_stuck (h : Sticks now row) (hinterval : intervalColumns sub = intervalColumns row)
    (h0 : 0 ≤ seconds m) (hmk : m < k) (hk : seconds k < 2 ^ 63) (fuel : Nat) :
    nextRecurringOccurrenceOnOrAfter fuel sub (seconds m) (seconds k) = none := by
  simp only [intervalColumns, Prod.mk.injEq] at hinterval
  obtain ⟨htype, hcount, hunit⟩ := hinterval
  obtain ⟨count, hc, -, hdvd⟩ := h.count
  have hlt := seconds_strictMono hmk
  have hm : InRange (seconds m) := ⟨by omega, by omega⟩
  have hk : InRange (seconds k) := ⟨by omega, hk⟩
  have hvalid : isValidIntervalUnit sub.intervalUnit = true := by
    rw [hunit]
    rcases h.unit with hu | hu <;> rw [hu] <;> decide
  have hwalk := walk_days_stuck (seconds m) (hunit ▸ h.unit) hdvd h0 hm hlt fuel
  simp only [nextRecurringOccurrenceOnOrAfter, htype, h.interval, if_true, hcount, hc,
    normalizeDateUTC_seconds hm,
    normalizeDateUTC_seconds hk, nextIntervalOccurrence, hlt, not_true_eq_false, if_false, hvalid,
      hwalk, Option.map_none]

theorem after_stuck (h : Sticks now row) (hinterval : intervalColumns sub = intervalColumns row)
    (h0 : 0 ≤ seconds m) (hnext : seconds (m + 1) < 2 ^ 63) (fuel : Nat) :
    nextRecurringOccurrenceAfter fuel sub (seconds m) = none := by
  have hlt := seconds_strictMono (show m < m + 1 by omega)
  have hadd : seconds m + 1 * secondsPerDay = seconds (m + 1) := by
    unfold seconds
    ring
  rw [nextRecurringOccurrenceAfter, normalizeDateUTC_seconds ⟨by omega, by omega⟩,
    addDays_eq ⟨by omega, by omega⟩, hadd,
    wrap_of_inRange ⟨by omega, hnext⟩]
  exact onOrAfter_stuck h hinterval h0 (by omega) hnext fuel

/-- A row that is overdue is not presented. -/
theorem roll_stuck (hnow : NowFits now) (h : Sticks now row) {date : Time}
    (hdate : row.nextBillingDate = some date) (h0 : 0 ≤ seconds date.day) (hlt : date.day < now.day)
    (fuel : Nat) :
    nextRecurringBillingDateOnOrAfter fuel row now = none := by
  obtain ⟨count, hc, hpos, hdvd⟩ := h.count
  have hstop := hnow.stop
  have hmono := seconds_strictMono hlt
  have hnowEnd := now_le_forecastEnd now
  have hdateIn : InRange (seconds date.day) := ⟨by omega, by omega⟩
  have hnowIn : InRange (seconds now.day) := ⟨by omega, by omega⟩
  have hvalid : isValidIntervalUnit row.intervalUnit = true := by
    rcases h.unit with hu | hu <;> rw [hu] <;> decide
  have hwalk := walk_days_stuck (seconds date.day) h.unit hdvd h0 hdateIn hmono fuel
  simp only [nextRecurringBillingDateOnOrAfter, h.recurring, hdate, ofTime_eq hdateIn,
    ofTime_eq hnowIn, checkedOccurrence,
    h.interval, hc, hvalid, nextIntervalOccurrence, normalizeDateUTC_seconds hdateIn,
      normalizeDateUTC_seconds hnowIn, hmono,
    hwalk, not_lt.2 hpos, ne_eq, not_true_eq_false, if_false, if_true, or_self, Option.map_none]

/-- Of one that is not yet due, the last window of the report does not return. -/
theorem window_stuck (hnow : NowFits now) (h : Sticks now row)
    (hinterval : intervalColumns sub = intervalColumns row)
    (hf : subscriptionHasFutureCharge sub = true)
    (hm : normalizeRenewalMode sub.renewalMode = renewalModeAutoRenew) {date : Time}
    (hdate : sub.nextBillingDate = some date) (h0 : 0 ≤ seconds date.day)
    (hlt : date.day < (forecastEnd now).day) (fuel : Nat) :
    subscriptionChargeDatesInRange fuel sub (startOfMonth (Subdux.normalizeDateUTC now) 11)
    (forecastEnd now) = none := by
  have hstop := hnow.stop
  have hstart : now.day ≤ (startOfMonth (Subdux.normalizeDateUTC now) 11).day := by
    rw [startOfMonth_day]
    exact (monthOf_spec now.day).2.le.trans (monthStart_strictMono.monotone (by omega))
  have hab : (startOfMonth (Subdux.normalizeDateUTC now) 11).day < (forecastEnd now).day := by
    rw [forecastEnd, startOfMonth_day, startOfMonth_day]
    exact monthStart_strictMono (by omega)
  generalize startOfMonth (Subdux.normalizeDateUTC now) 11 = start at hstart hab ⊢
  have h1 := seconds_monotone hstart
  have h2 := seconds_strictMono hab
  have h3 := seconds_strictMono hlt
  have hnow0 := hnow.start
  have hdateIn : InRange (seconds date.day) := ⟨by omega, by omega⟩
  have hstartIn : InRange (seconds start.day) := ⟨by omega, by omega⟩
  have hendIn : InRange (seconds (forecastEnd now).day) := ⟨by omega, by omega⟩
  have hvalid : isRecurringScheduleValid sub = true := by
    simp only [intervalColumns, Prod.mk.injEq] at hinterval
    obtain ⟨count, hc, hpos, -⟩ := h.count
    rw [isRecurringScheduleValid, if_pos (hinterval.1.trans h.interval), hinterval.2.1, hc,
      hinterval.2.2]
    rcases h.unit with hu | hu <;> rw [hu] <;> simpa [isValidIntervalUnit] using hpos
  simp only [subscriptionChargeDatesInRange, hf, hdate, hm, hvalid, ofTime_eq hdateIn,
    ofTime_eq hstartIn, ofTime_eq hendIn, h2,
    Bool.not_true, Bool.false_eq_true, not_true_eq_false, if_false, ne_eq]
  by_cases hbefore : date.day < start.day
  · -- The walk to the window does not end.
    rw [if_pos (seconds_strictMono hbefore), onOrAfter_stuck h hinterval h0 hbefore hstartIn.2,
      Option.bind_none]
  · -- The loop asks for the date after the charge.
    have hnext := seconds_monotone (show date.day + 1 ≤ (forecastEnd now).day by omega)
    rw [if_neg (by rwa [seconds_strictMono.lt_iff_lt]), Option.bind_some]
    dsimp only
    rw [if_neg (not_not.2 h3)]
    cases fuel with
    | zero => rfl
    | succ fuel => rw [chargeLoop, if_pos h3, after_stuck h hinterval h0 (by omega), Option.bind_none]

theorem future_of_active (ha : subscriptionIsActive row = true)
    (hb : row.billingType = billingTypeRecurring)
    (hm : normalizeRenewalMode row.renewalMode = renewalModeAutoRenew) :
    subscriptionHasFutureCharge (syncLegacyEnabledForLifecycle row) = true := by
  have hstatus : normalizeStatus row.status = subscriptionStatusActive := by
    simpa [subscriptionIsActive] using ha
  have hne : renewalModeAutoRenew ≠ renewalModeCancelAtPeriodEnd := by decide
  simpa only [subscriptionHasFutureCharge, syncLegacyEnabledForLifecycle, decide_eq_true_eq, hm]
    using ⟨hstatus, hb, hne⟩

theorem renewalMode_sync (sub : Subscription) :
    (syncLegacyEnabledForLifecycle sub).renewalMode = sub.renewalMode := by
  simp only [syncLegacyEnabledForLifecycle]

theorem nextBillingDate_sync (sub : Subscription) :
    (syncLegacyEnabledForLifecycle sub).nextBillingDate = sub.nextBillingDate := by
  simp only [syncLegacyEnabledForLifecycle]

/-- The twelfth month is a window of the report. -/
theorem lastMonth_mem (now : Time) :
    (startOfMonth (Subdux.normalizeDateUTC now) 11, forecastEnd now) ∈ reportWindows
    (Subdux.normalizeDateUTC now) := by
  have hlast : (periodStart (Subdux.normalizeDateUTC now) (11 : Nat),
      startOfMonth (Subdux.normalizeDateUTC now) ((11 : Nat) + 1)) ∈
      reportWindows (Subdux.normalizeDateUTC now) :=
    List.mem_cons_of_mem _
      (List.mem_cons_of_mem _ (List.mem_map_of_mem (List.mem_range.2 (show 11 < 12 by decide))))
  rwa [periodStart, if_neg (show ¬ (11 : Nat) = 0 by decide)] at hlast

/-- A row that is not yet due is shown as it is. -/
theorem present_notDue (hnow : NowFits now) (h : Sticks now row) {date : Time}
    (hdate : row.nextBillingDate = some date) (h0 : 0 ≤ seconds date.day)
    (hlt : date.day < (forecastEnd now).day) (hdue : ¬ date.day < now.day) (fuel : Nat) (t : Time) :
    presentSubscriptionForResponse fuel row t now = some (syncLegacyEnabledForLifecycle row) := by
  have hnowEnd := now_le_forecastEnd now
  have hstop := hnow.stop
  have hnow0 := hnow.start
  have h1 := seconds_strictMono hlt
  have hnone : nextRecurringBillingDateOnOrAfter fuel row now = some none := by
    rw [nextRecurringBillingDateOnOrAfter, if_neg (not_not.2 h.recurring), hdate]
    dsimp only
    rw [ofTime_eq ⟨by omega, by omega⟩, ofTime_eq ⟨by omega, by omega⟩,
      if_pos (by rwa [seconds_strictMono.lt_iff_lt])]
  have hstatus : isValidSubscriptionStatus (normalizeStatus row.status) = true := by
    rw [show normalizeStatus row.status = subscriptionStatusActive
      by simpa [subscriptionIsActive] using h.active]
    decide
  have hmode : isValidRenewalMode (normalizeRenewalMode row.renewalMode) = true := by
    rw [h.renewed]
    decide
  rw [presentSubscriptionForResponse, advanceSubscriptionLifecycle,
    if_pos ⟨h.active, h.recurring, h.renewed⟩, hnone,
    Option.map_some, Option.elim_none, Option.map_some, normalizeForResponse_valid hstatus hmode]

/-- The loops of such a row do not end. -/
theorem not_loopsEnd (hnow : NowFits now) (h : Sticks now row) : ¬ LoopsEnd updatedAt now row := by
  rintro ⟨fuel, sub, hsub, hwindows⟩
  obtain ⟨date, hdate, h0, hlt⟩ := h.date
  have hsubColumns := present_interval hsub
  by_cases hdue : date.day < now.day
  · rw [presentSubscriptionForResponse, advanceSubscriptionLifecycle,
      if_pos ⟨h.active, h.recurring, h.renewed⟩,
      roll_stuck hnow h hdate h0 hdue fuel] at hsub
    cases hsub
  · rw [present_notDue hnow h hdate h0 hlt hdue] at hsub
    obtain rfl := Option.some.inj hsub
    have hactive : subscriptionIsActive (syncLegacyEnabledForLifecycle row) = true := by
      rw [subscriptionIsActive_sync, h.active]
    have hfuture := future_of_active h.active h.recurring h.renewed
    have hmode := (congrArg normalizeRenewalMode (renewalMode_sync row)).trans h.renewed
    have hshown := (nextBillingDate_sync row).trans hdate
    have hwindow := windowsReturn_mem (hwindows hactive) (lastMonth_mem now)
    dsimp only at hwindow
    rw [window_stuck hnow h hsubColumns hfuture hmode hshown h0 hlt fuel] at hwindow
    cases hwindow

end Sticks

/-! ### Rows that start no loop -/

/-- A window of a row that does not renew, or not before the window ends. -/
theorem window_idle {a b : Time} (h : sub.billingType ≠ billingTypeRecurring ∨
      normalizeRenewalMode sub.renewalMode ≠ renewalModeAutoRenew ∨
      ∀ date ∈ sub.nextBillingDate, ofTime a ≤ ofTime date ∧ ofTime b ≤ ofTime date) (fuel : Nat) :
    (subscriptionChargeDatesInRange fuel sub a b).isSome = true := by
  unfold subscriptionChargeDatesInRange
  dsimp only
  by_cases hf : subscriptionHasFutureCharge sub = true
  case neg => rw [if_pos (by simp [hf]), Option.isSome_some]
  have hb : sub.billingType = billingTypeRecurring := by
    simp only [subscriptionHasFutureCharge, decide_eq_true_eq] at hf
    exact hf.2.1
  rw [if_neg (by simp [hf])]
  by_cases hab : ofTime a < ofTime b
  case neg => rw [if_pos hab, Option.isSome_some]
  rw [if_neg (not_not.2 hab)]
  cases hdate : sub.nextBillingDate with
  | none => rfl
  | some date =>
    dsimp only
    by_cases hm : normalizeRenewalMode sub.renewalMode = renewalModeAutoRenew
    case neg => rw [if_pos hm, Option.isSome_some]
    obtain ⟨ha, hb⟩ := (h.resolve_left (not_not.2 hb)).resolve_left (not_not.2 hm) date hdate
    rw [if_neg (not_not.2 hm), if_neg (not_lt.2 ha), Option.bind_some]
    dsimp only
    rw [if_pos (not_lt.2 hb)]
    split_ifs <;> rfl

theorem normalizeForResponse_checked (hchecked : row.Checked) (t : Time) :
    normalizeSubscriptionForResponse row t = syncLegacyEnabledForLifecycle row :=
  normalizeForResponse_valid (by rw [normalizeStatus_valid hchecked.1, hchecked.1])
    (by rw [normalizeRenewalMode_valid hchecked.2, hchecked.2]) t

theorem billingType_sync (sub : Subscription) :
    (syncLegacyEnabledForLifecycle sub).billingType = sub.billingType := by
  simp only [syncLegacyEnabledForLifecycle]

theorem checked_markEnded (hchecked : row.Checked) (t : Time) :
    (markSubscriptionEndedAt row t).Checked :=
  ⟨show isValidSubscriptionStatus subscriptionStatusEnded = true by decide, hchecked.2⟩

/-- A row that is stored as due after the forecast, or that does not renew, is presented
without a loop, and its windows return. -/
theorem loopsEnd_of_idle (hnow : NowFits now) (hchecked : row.Checked)
    (hdates : ∀ date ∈ row.nextBillingDate, InRange (seconds date.day))
    (h : subscriptionIsActive row = true → row.billingType = billingTypeRecurring →
      normalizeRenewalMode row.renewalMode = renewalModeAutoRenew →
      ∀ date ∈ row.nextBillingDate, (forecastEnd now).day ≤ date.day) : LoopsEnd updatedAt now row := by
  -- It is enough to present the row as it is stored.
  have hkept : ∀ fuel, presentSubscriptionForResponse fuel row (updatedAt row) now = some
      (syncLegacyEnabledForLifecycle row) →
      (row.billingType ≠ billingTypeRecurring ∨
        normalizeRenewalMode row.renewalMode ≠ renewalModeAutoRenew ∨
        ∀ date ∈ row.nextBillingDate, (forecastEnd now).day ≤ date.day) →
          LoopsEnd updatedAt now row := by
    intro fuel hpresent hidle
    refine ⟨fuel, _, hpresent, fun _ => List.all_eq_true.2 fun window hwindow => window_idle ?_ fuel⟩
    rw [billingType_sync, renewalMode_sync, nextBillingDate_sync]
    refine hidle.imp_right (Or.imp_right fun hlate date hdate => ?_)
    obtain ⟨⟨hstart, hle⟩, hstart', hend⟩ := reportWindows_bounds hwindow
    have hpos := hnow.start
    have hstop := hnow.stop
    have hdateIn := hdates date hdate
    have h1 := seconds_monotone hstart
    have h2 := seconds_monotone hle
    have h3 := seconds_monotone hstart'
    have h4 := seconds_monotone hend
    have h5 := seconds_monotone (hlate date hdate)
    rw [ofTime_eq hdateIn, ofTime_eq ⟨by omega, by omega⟩, ofTime_eq ⟨by omega, by omega⟩]
    omega
  cases hactive : subscriptionIsActive row with
  | false =>
    refine ⟨0, _, present_inactive hactive 0 _ _, fun hshown => ?_⟩
    rw [normalize_inactive hchecked hactive] at hshown
    cases hshown
  | true =>
    by_cases hb : row.billingType = billingTypeRecurring
    case neg =>
      refine hkept 0 ?_ (.inl hb)
      rw [presentSubscriptionForResponse, advanceSubscriptionLifecycle, if_neg fun hall => hb hall.2.1,
        advance_not_recurring hb, Option.map_some, normalizeForResponse_checked hchecked]
    by_cases hm : normalizeRenewalMode row.renewalMode = renewalModeAutoRenew
    · -- Due after the forecast.
      refine hkept 0 ?_ (.inr (.inr (h hactive hb hm)))
      have hnone : nextRecurringBillingDateOnOrAfter 0 row now = some none := by
        rw [nextRecurringBillingDateOnOrAfter, if_neg (not_not.2 hb)]
        cases hdate : row.nextBillingDate with
        | none => rfl
        | some date =>
          have hdateIn := hdates date hdate
          have hlate := seconds_monotone (h hactive hb hm date hdate)
          have hnowEnd := now_le_forecastEnd now
          have hpos := hnow.start
          have hstop := hnow.stop
          dsimp only
          rw [ofTime_eq hdateIn, ofTime_eq ⟨by omega, by omega⟩, if_pos (by omega)]
      rw [presentSubscriptionForResponse, advanceSubscriptionLifecycle, if_pos ⟨hactive, hb, hm⟩,
        hnone, Option.map_some,
        Option.elim_none, Option.map_some, normalizeForResponse_checked hchecked]
    · have hpresent : presentSubscriptionForResponse 0 row (updatedAt row) now =
          some (normalizeSubscriptionForResponse (Subdux.advanceSubscriptionLifecycle row now).1
            (updatedAt row)) := by
        rw [presentSubscriptionForResponse, advanceSubscriptionLifecycle, if_neg fun hall =>
          hm hall.2.2, Option.map_some]
      rcases advance_cases row now with he | ⟨hauto, -⟩ | ⟨-, n, he⟩
      · rw [he, normalizeForResponse_checked hchecked] at hpresent
        exact hkept 0 hpresent (.inr (.inl hm))
      · exact absurd hauto hm
      · -- The row has ended.
        rw [he] at hpresent
        refine ⟨0, _, hpresent, fun hshown => ?_⟩
        rw [normalize_inactive (checked_markEnded hchecked _) (subscriptionIsActive_markEnded _)]
          at hshown
        cases hshown

/-! ## The three reads -/

/-- The row is due in Go's times from year 1 on, and the months or years of its interval
stay within them up to the end of the forecast. -/
structure RowFits (now : Time) (row : Subscription) : Prop where
  date : ∀ date ∈ row.nextBillingDate, 0 ≤ seconds date.day ∧ seconds date.day < 2 ^ 63
  months : row.intervalUnit = intervalUnitMonth ∨ row.intervalUnit = intervalUnitYear →
    ∀ r ∈ row.rule, seconds ((forecastEnd now).day + r.gap + 31) < 2 ^ 63

theorem loopsEnd_iff (hnow : NowFits now) (hchecked : row.Checked) (hfits : RowFits now row) :
    LoopsEnd updatedAt now row ↔ ¬ Sticks now row := by
  refine ⟨fun h hsticks => not_loopsEnd hnow hsticks h, fun h => ?_⟩
  by_cases hmonths : row.intervalUnit = intervalUnitMonth ∨ row.intervalUnit = intervalUnitYear
  · exact loopsEnd_of_walksEnd hnow (walksEnd_of_gap hnow.stop (hfits.months hmonths))
  by_cases hdays : row.intervalUnit = intervalUnitDay ∨ row.intervalUnit = intervalUnitWeek
  case neg =>
    -- Without a unit there is no walk.
    refine loopsEnd_of_walksEnd hnow fun _ _ _ _ hvalid => ?_
    simp only [isValidIntervalUnit, decide_eq_true_eq] at hvalid
    tauto
  by_cases hcount : row.recurrenceType = recurrenceTypeInterval ∧ ∃ count,
    row.intervalCount = some count ∧ 1 ≤ count ∧ 2 ^ 56 ∣ count
  · obtain ⟨hinterval, hcount⟩ := hcount
    refine loopsEnd_of_idle hnow hchecked (fun date hdate => ?_) fun hactive hb hm date hdate => ?_
    · obtain ⟨h0, hlt⟩ := hfits.date date hdate
      exact ⟨by omega, hlt⟩
    · by_contra hlt
      exact h ⟨hactive, hb, hm, hinterval, hdays, hcount, date, hdate, (hfits.date date hdate).1,
        not_le.1 hlt⟩
  · refine loopsEnd_of_walksEnd hnow fun hinterval =>
      walksEnd_days hdays (fun count hc hpos hdvd => ?_) hnow.stop hinterval
    exact hcount ⟨hinterval, count, hc, hpos, hdvd⟩

/-- The dashboard, the list and the report return with the same figures exactly when the
loops of every active row end. Up to the end of Go's times that is so unless a row renews
every `count` days or weeks, where `2 ^ 56` divides `count`, from a date before the end of
the forecast. -/
theorem reads_agree_iff {updatedAt : Subscription → Time} {userID : Nat} {target : String}
    {converter : Option CurrencyConverter} {now : Time} {categories paymentMethods : List LabelRow}
    {rows : List Subscription} (hrows : ∀ row ∈ rows, row.Checked)
    (htarget : IsUpperCurrency target) (hconverter : KeepsCurrency converter) :
    (ReadsAgree updatedAt userID target converter now categories paymentMethods rows ↔
        ∀ row ∈ activeRows userID rows, LoopsEnd updatedAt now row) ∧
      (NowFits now → (∀ row ∈ activeRows userID rows, RowFits now row) →
        (ReadsAgree updatedAt userID target converter now categories paymentMethods rows ↔
          ∀ row ∈ activeRows userID rows, ¬ Sticks now row)) := by
  have hiff : ReadsAgree updatedAt userID target converter now categories paymentMethods rows ↔
      ∀ row ∈ activeRows userID rows, LoopsEnd updatedAt now row := by
    constructor
    · rintro ⟨fuel, _, _, report, -, -, hreport, -⟩
      exact loopsEnd_of_report hreport
    · exact reads_agree_of_loopsEnd hrows htarget hconverter
  refine ⟨hiff, fun hnow hfits => hiff.trans (forall₂_congr fun row hrow => ?_)⟩
  have hmem : row ∈ rows := (List.mem_filter.1 hrow).1
  exact loopsEnd_iff hnow (hrows row hmem) (hfits row hrow)

/-- A row renewed every `2 ^ 57` days, and due in three months. -/
def slowRow : Subscription :=
  { monthEndRow with
    intervalCount := some (2 ^ 57), intervalUnit := intervalUnitDay, nextBillingDate := some
      (dateUTC 2025 4 15) }

theorem nowFits_january : NowFits (dateUTC 2025 1 20) := ⟨by decide +kernel, by decide +kernel⟩

theorem slowRow_sticks : Sticks (dateUTC 2025 1 20) slowRow where
  active := by decide
  recurring := rfl
  renewed := by decide
  interval := rfl
  unit := .inl rfl
  count := ⟨2 ^ 57, rfl, by decide, by decide⟩
  date := ⟨dateUTC 2025 4 15, rfl, by decide +kernel, by decide +kernel⟩

/-- The dashboard and the list show the row; the report does not come to an end. -/
theorem report_never_returns :
    (∃ fuel summary listed,
        getDashboardSummary fuel (fun _ => dateUTC 2025 1 1) 1 "USD" none (dateUTC 2025 1 20)
          [slowRow] = some summary ∧
          subscriptionsWithSummary fuel (fun _ => dateUTC 2025 1 1) 1 "USD" none (dateUTC 2025 1 20)
            [slowRow] = some listed) ∧
      (∀ fuel, getAnalyticsReport fuel (fun _ => dateUTC 2025 1 1) 1 "USD" none (dateUTC 2025 1 20)
        [] [] [slowRow] = none) ∧
      ¬ ReadsAgree (fun _ => dateUTC 2025 1 1) 1 "USD" none (dateUTC 2025 1 20) [] [] [slowRow] := by
  have hnone : ∀ fuel, getAnalyticsReport fuel (fun _ => dateUTC 2025 1 1) 1 "USD" none
      (dateUTC 2025 1 20) [] [] [slowRow] = none := by
    intro fuel
    by_contra hreturns
    obtain ⟨report, hreport⟩ := Option.ne_none_iff_exists'.1 hreturns
    have hrow : slowRow ∈ activeRows 1 [slowRow] := by decide
    exact not_loopsEnd nowFits_january slowRow_sticks (loopsEnd_of_report hreport slowRow hrow)
  refine ⟨?_, hnone, ?_⟩
  · have hsummary : (getDashboardSummary 1 (fun _ => dateUTC 2025 1 1) 1 "USD" none
        (dateUTC 2025 1 20) [slowRow]).isSome = true := by
      decide +kernel
    have hlisted : (subscriptionsWithSummary 1 (fun _ => dateUTC 2025 1 1) 1 "USD" none
        (dateUTC 2025 1 20) [slowRow]).isSome =
        true := by
      have hone : ([slowRow].filter fun sub => sub.userID = 1).mergeSort listOrder = [slowRow] :=
        List.mergeSort_singleton _
      rw [subscriptionsWithSummary, hone]
      decide +kernel
    obtain ⟨summary, hsummary⟩ := Option.isSome_iff_exists.1 hsummary
    obtain ⟨listed, hlisted⟩ := Option.isSome_iff_exists.1 hlisted
    exact ⟨1, summary, listed, hsummary, hlisted⟩
  · rintro ⟨fuel, _, _, report, -, -, hreport, -⟩
    rw [hnone] at hreport
    cases hreport

theorem reads_agree_reportRows :
    ReadsAgree (fun _ => dateUTC 2025 1 1) 1 "USD" (some doubling) (dateUTC 2025 1 20)
    [⟨7, 1, "Media"⟩] [] reportRows := by
  have hmonthly : ∀ row ∈ activeRows 1 reportRows, intervalColumns row =
      (recurrenceTypeInterval, some 1, intervalUnitMonth) ∧
      row.nextBillingDate = some (dateUTC 2025 1 31) := by
    decide
  have hunit : ∀ row ∈ activeRows 1 reportRows, row.intervalUnit = intervalUnitMonth := fun row hrow =>
    congrArg (·.2.2) (hmonthly row hrow).1
  have hfits : ∀ row ∈ activeRows 1 reportRows, RowFits (dateUTC 2025 1 20) row := by
    intro row hrow
    obtain ⟨hcolumns, hdate⟩ := hmonthly row hrow
    simp only [intervalColumns, Prod.mk.injEq] at hcolumns
    have hrule : row.rule = some (.months 1 (by decide)) := by
      rw [Subscription.rule, if_pos hcolumns.1, hcolumns.2.1, hcolumns.2.2]
      rfl
    refine ⟨fun date h => ?_, fun _ r h => ?_⟩
    · obtain rfl : dateUTC 2025 1 31 = date := Option.some.inj (hdate.symm.trans h)
      decide +kernel
    · obtain rfl : Rule.months 1 (by decide) = r := Option.some.inj (hrule.symm.trans h)
      decide +kernel
  have hrows : ∀ row ∈ reportRows, row.Checked := by
    unfold Subscription.Checked
    decide
  have hconverter : KeepsCurrency (some doubling) := by
    rintro convert ⟨⟩ amount source target h
    exact if_pos h
  refine ((reads_agree_iff hrows isUpperCurrency_usd hconverter).2 nowFits_january hfits).2
    fun row hrow hsticks => ?_
  have hmonth := hunit row hrow
  rcases hsticks.unit with hday | hweek
  · exact absurd (hmonth.symm.trans hday) (by decide)
  · exact absurd (hmonth.symm.trans hweek) (by decide)

end Report

end Subdux.WordTime
