import Mathlib.Algebra.BigOperators.Ring.List
import Mathlib.Data.List.Sort
import Mathlib.Tactic.Positivity
import Subdux.Calendar
import Subdux.Dashboard
import Subdux.Lib.Tally
import Subdux.PriceHistory
/-!
# The dashboard and the report

`computeDashboardSummary` of `internal/service/subscription_dashboard.go` and
`GetAnalyticsReport` of `subscription_report.go` (less its three insights into the event
history) add up what a user's subscriptions cost. `spending_agrees` says that over the
same subscriptions the two agree, and `report_breakdowns` that each breakdown of the
report splits its total. The reads themselves, with loops that may not end, are those of
`Subdux.WordReport`.
-/

namespace Subdux
open GoStrings Tally

/-! ## Amounts -/

/-- `CurrencyConverter.Convert`: an amount, from one currency, to another. -/
abbrev CurrencyConverter := Rat → String → String → Rat

/-- What `unicode.SimpleFold` identifies has one image. -/
def foldRune (c : Char) : Char :=
  if c.toNat = 0x130 ∨ c.toNat = 0x131 then c else lowerRune (upperRune c)

/-- `strings.EqualFold`. -/
def equalFold (s t : String) : Bool := s.toList.map foldRune = t.toList.map foldRune

def subscriptionContributesToOngoingSpend (sub : Subscription) : Bool :=
  normalizeStatus sub.status = subscriptionStatusActive ∧ sub.billingType = billingTypeRecurring ∧
    normalizeRenewalMode sub.renewalMode ≠ renewalModeCancelAtPeriodEnd

def convertSubscriptionAmount (sub : Subscription) (targetCurrency : String) :
    Option CurrencyConverter → Rat
  | none => sub.amount
  | some convert =>
    if equalFold sub.currency targetCurrency then sub.amount
      else convert sub.amount sub.currency targetCurrency

/-! ## The dashboard -/

structure DashboardSummary where
  totalMonthly : Rat
  totalYearly : Rat
  committedMonthly : Rat
  committedYearly : Rat
  dueThisMonth : Rat
  activeCount : Nat
  upcomingRenewalCount : Nat
  currency : String

/-- `time.Date(today.Year(), today.Month(), 1, ...).AddDate(0, months, 0)`. -/
def startOfMonth (today : Time) (months : Int) : Time := dateUTC today.year (today.month + months) 1

/-- The amount in the loop of `computeDashboardSummary`. -/
def dashboardAmount (sub : Subscription) (targetCurrency : String) : Option CurrencyConverter → Rat
  | none => sub.amount
  | some convert =>
    if sub.currency ≠ targetCurrency then convert sub.amount sub.currency targetCurrency else sub.amount

/-- What the reads ask `subscriptionChargeDatesInRange`: of a subscription, from a date, until
another. -/
abbrev ChargeDates := Subscription → Time → Time → List Time

/-- The sums that the loop keeps. -/
@[ext]
structure SpendSums where
  totalMonthly : Rat
  committedMonthly : Rat
  dueThisMonth : Rat

def addSpending (charges : ChargeDates) (targetCurrency : String)
    (converter : Option CurrencyConverter) (today : Time) (sums : SpendSums) (sub : Subscription) :
    SpendSums :=
  let amount := dashboardAmount sub targetCurrency converter
  let factor := subscriptionMonthlyFactor sub
  let sums :=
    if 0 < factor ∧ subscriptionContributesToOngoingSpend sub then
      { sums with
        totalMonthly := sums.totalMonthly + amount * factor
        committedMonthly :=
          if normalizeRenewalMode sub.renewalMode = renewalModeAutoRenew then
            sums.committedMonthly + amount * factor
          else sums.committedMonthly }
    else sums
  let occurrences := (charges sub today (startOfMonth today 1)).length
  if 0 < occurrences then { sums with dueThisMonth := sums.dueThisMonth + amount * occurrences }
    else sums

/-- The next billing date is at most seven days off. -/
def renewsThisWeek (today : Time) (sub : Subscription) : Bool :=
  subscriptionHasFutureCharge sub && sub.nextBillingDate.any fun nextBillingDate =>
    !((normalizeDateUTC nextBillingDate).before today || (normalizeDateUTC nextBillingDate).after
      (today.addDays 7))

def computeDashboardSummary (charges : ChargeDates) (subs : List Subscription) (targetCurrency : String)
    (converter : Option CurrencyConverter) (now : Time) : DashboardSummary :=
  let targetCurrency := orDefault "USD" targetCurrency
  let today := normalizeDateUTC now
  let sums := subs.foldl (addSpending charges targetCurrency converter today) ⟨0, 0, 0⟩
  { totalMonthly := sums.totalMonthly
    totalYearly := sums.totalMonthly * 12
    committedMonthly := sums.committedMonthly
    committedYearly := sums.committedMonthly * 12
    dueThisMonth := sums.dueThisMonth
    activeCount := subs.length
    upcomingRenewalCount := subs.countP (renewsThisWeek today)
    currency := targetCurrency }

/-- `WHERE user_id = ? AND status = 'active'`. -/
def activeRows (userID : Nat) (rows : List Subscription) : List Subscription :=
  rows.filter fun sub => sub.userID = userID ∧ sub.status = subscriptionStatusActive

/-- `ORDER BY next_billing_date IS NULL ASC, next_billing_date ASC, id ASC`. -/
def listOrder (a b : Subscription) : Bool :=
  match a.nextBillingDate, b.nextBillingDate with
  | none, none => a.id ≤ b.id
  | none, some _ => false
  | some _, none => true
  | some s, some t => s.nanos < t.nanos || (s.nanos = t.nanos && a.id ≤ b.id)

/-! ## The report -/

structure AnalyticsReportKPIs where
  activeCount : Nat
  autoRenewCount : Nat
  manualRenewCount : Nat
  cancelingCount : Nat
  totalMonthly : Rat
  totalYearly : Rat
  committedMonthly : Rat
  committedYearly : Rat
  dueThisMonth : Rat
  dueNext30Days : Rat
  upcomingRenewalCount : Nat

structure MonthlyForecastItem where
  month : String
  amountDue : Rat
  occurrenceCount : Nat

structure ReportBreakdownItem where
  key : String
  label : String
  count : Nat
  monthlyAmount : Rat
  yearlyAmount : Rat
  percentage : Rat

structure ReportSubscriptionSpend where
  id : Nat
  name : String
  icon : String
  category : String
  paymentMethod : String
  renewalMode : String
  nextBillingDate : String
  monthlyAmount : Rat
  yearlyAmount : Rat
  originalAmount : Rat
  originalCurrency : String

structure ReportUpcomingRenewal where
  id : Nat
  name : String
  icon : String
  billingDate : String
  daysUntil : Int
  amount : Rat
  category : String
  paymentMethod : String
  renewalMode : String

structure AnalyticsReport where
  currency : String
  generatedAt : Time
  kpis : AnalyticsReportKPIs
  monthlyForecast : List MonthlyForecastItem
  categoryBreakdown : List ReportBreakdownItem
  paymentMethodBreakdown : List ReportBreakdownItem
  renewalModeBreakdown : List ReportBreakdownItem
  topSubscriptions : List ReportSubscriptionSpend
  upcomingRenewals : List ReportUpcomingRenewal

/-- What the report reads of a category or of a payment method. -/
structure LabelRow where
  id : Nat
  userID : Nat
  name : String

/-- The map that `reportCategoryLabels` and `reportPaymentMethodLabels` build. Without
an entry it answers `""`. -/
def reportLabels (userID : Nat) (table : List LabelRow) : Nat → String :=
  (table.filter fun row => row.userID = userID).foldl
    (fun labels row => Function.update labels row.id row.name) fun _ => ""

def reportNoCategoryKey : String := "__none__"
def reportNoPaymentMethodKey : String := "__none__"

/-- The label of a link, if it has one that is not blank. -/
def linkLabel (labels : Nat → String) (link : Option Nat) : Option String :=
  (link.map fun id => trimSpace (labels id)).filter (· ≠ "")

def reportCategoryKeyAndLabel (sub : Subscription) (labels : Nat → String) : String × String :=
  match linkLabel labels sub.categoryID with
  | some label => ("category:" ++ label, label)
  | none =>
    let label := trimSpace sub.category
    if label ≠ "" then ("category:" ++ label, label) else (reportNoCategoryKey, "")

def reportPaymentMethodKeyAndLabel (sub : Subscription) (labels : Nat → String) : String × String :=
  match linkLabel labels sub.paymentMethodID with
  | some label => ("payment:" ++ label, label)
  | none => (reportNoPaymentMethodKey, "")

structure ReportBreakdownAccumulator where
  key : String
  label : String
  count : Nat
  monthlyAmount : Rat

def ReportBreakdownAccumulator.fresh (keyAndLabel : String × String) : ReportBreakdownAccumulator :=
  ⟨keyAndLabel.1, keyAndLabel.2, 0, 0⟩

def ReportBreakdownAccumulator.bump (monthlyAmount : Rat) (item : ReportBreakdownAccumulator) :
    ReportBreakdownAccumulator :=
  { item with count := item.count + 1, monthlyAmount := item.monthlyAmount + monthlyAmount }

/-- The map of accumulators is the list of its values. -/
def addReportBreakdown (items : List ReportBreakdownAccumulator) (keyAndLabel : String × String)
    (monthlyAmount : Rat) :
    List ReportBreakdownAccumulator :=
  file ReportBreakdownAccumulator.key (.fresh keyAndLabel) (.bump monthlyAmount) items

def reportBreakdownItem (totalMonthly : Rat) (item : ReportBreakdownAccumulator) :
    ReportBreakdownItem where
  key := item.key
  label := item.label
  count := item.count
  monthlyAmount := item.monthlyAmount
  yearlyAmount := item.monthlyAmount * 12
  percentage := if 0 < totalMonthly then item.monthlyAmount / totalMonthly * 100 else 0

def buildReportBreakdown (items : List ReportBreakdownAccumulator) (totalMonthly : Rat) :
    List ReportBreakdownItem :=
  (items.map (reportBreakdownItem totalMonthly)).mergeSort fun a b =>
    if a.monthlyAmount = b.monthlyAmount then a.label ≤ b.label else b.monthlyAmount < a.monthlyAmount

/-- What the loop reads besides the subscriptions. -/
structure ReportInputs where
  charges : ChargeDates
  targetCurrency : String
  converter : Option CurrencyConverter
  categoryLabels : Nat → String
  paymentMethodLabels : Nat → String
  today : Time

/-- What the loop writes. -/
structure ReportLoop where
  kpis : AnalyticsReportKPIs
  monthlyForecast : List MonthlyForecastItem
  categoryBreakdowns : List ReportBreakdownAccumulator
  paymentMethodBreakdowns : List ReportBreakdownAccumulator
  renewalModeBreakdowns : List ReportBreakdownAccumulator
  topSubscriptions : List ReportSubscriptionSpend
  upcomingRenewals : List ReportUpcomingRenewal

def reportMonthlyAmount (targetCurrency : String) (converter : Option CurrencyConverter)
    (sub : Subscription) : Rat :=
  if subscriptionContributesToOngoingSpend sub then
    convertSubscriptionAmount sub targetCurrency converter * subscriptionMonthlyFactor sub
  else 0

def countRenewalMode (renewalMode : String) (monthlyAmount : Rat) (kpis : AnalyticsReportKPIs) :
    AnalyticsReportKPIs :=
  if renewalMode = renewalModeAutoRenew then
    { kpis with
      autoRenewCount := kpis.autoRenewCount + 1
      committedMonthly := kpis.committedMonthly + monthlyAmount }
  else if renewalMode = renewalModeManualRenew then
    { kpis with manualRenewCount := kpis.manualRenewCount + 1 }
  else if renewalMode = renewalModeCancelAtPeriodEnd then
    { kpis with cancelingCount := kpis.cancelingCount + 1 }
  else kpis

/-- Where the `i`-th period of the forecast starts. -/
def periodStart (today : Time) (i : Nat) : Time := if i = 0 then today else startOfMonth today i

/-- `t.Format("2006-01")`. -/
def formatMonth (t : Time) : String := zeroPadded 4 t.year ++ "-" ++ zeroPadded 2 t.month

def forecastSubscription (charges : ChargeDates) (today : Time) (amount : Rat) (sub : Subscription)
    (forecast : List MonthlyForecastItem) : List MonthlyForecastItem :=
  forecast.mapIdx fun i item =>
    let occurrences := (charges sub (periodStart today i) (startOfMonth today (i + 1))).length
    if 0 < occurrences then
      { item with
        occurrenceCount := item.occurrenceCount + occurrences
        amountDue := item.amountDue + amount * occurrences }
    else item

def upcomingRenewal (inputs : ReportInputs) (sub : Subscription) (renewalDate : Time) :
    ReportUpcomingRenewal where
  id := sub.id
  name := sub.name
  icon := sub.icon
  billingDate := renewalDate.formatDate
  daysUntil := (renewalDate.sub inputs.today).tdiv (24 * nsPerHour)
  amount := convertSubscriptionAmount sub inputs.targetCurrency inputs.converter
  category := (reportCategoryKeyAndLabel sub inputs.categoryLabels).2
  paymentMethod := (reportPaymentMethodKeyAndLabel sub inputs.paymentMethodLabels).2
  renewalMode := normalizeRenewalMode sub.renewalMode

def subscriptionSpend (inputs : ReportInputs) (sub : Subscription) (monthlyAmount : Rat) :
    ReportSubscriptionSpend where
  id := sub.id
  name := sub.name
  icon := sub.icon
  category := (reportCategoryKeyAndLabel sub inputs.categoryLabels).2
  paymentMethod := (reportPaymentMethodKeyAndLabel sub inputs.paymentMethodLabels).2
  renewalMode := normalizeRenewalMode sub.renewalMode
  nextBillingDate := sub.nextBillingDate.elim "" fun date => (normalizeDateUTC date).formatDate
  monthlyAmount := monthlyAmount
  yearlyAmount := monthlyAmount * 12
  originalAmount := sub.amount
  originalCurrency := toUpper sub.currency

/-- The first half of the loop's body: what every subscription counts for. -/
def reportKPIs (inputs : ReportInputs) (sub : Subscription) (kpis : AnalyticsReportKPIs) :
    AnalyticsReportKPIs :=
  let amount := convertSubscriptionAmount sub inputs.targetCurrency inputs.converter
  let monthlyAmount := reportMonthlyAmount inputs.targetCurrency inputs.converter sub
  let kpis := countRenewalMode (normalizeRenewalMode sub.renewalMode) monthlyAmount kpis
  let thisMonth := (inputs.charges sub inputs.today (startOfMonth inputs.today 1)).length
  let next30Days := (inputs.charges sub inputs.today (inputs.today.addDays 31)).length
  { kpis with
    totalMonthly := kpis.totalMonthly + monthlyAmount
    dueThisMonth := kpis.dueThisMonth + amount * thisMonth
    upcomingRenewalCount := kpis.upcomingRenewalCount + next30Days
    dueNext30Days := kpis.dueNext30Days + amount * next30Days }

/-- The second half: what a subscription with a positive monthly amount is filed under. -/
def reportPaying (inputs : ReportInputs) (sub : Subscription) (loop : ReportLoop) : ReportLoop :=
  let monthlyAmount := reportMonthlyAmount inputs.targetCurrency inputs.converter sub
  let renewalMode := normalizeRenewalMode sub.renewalMode
  if 0 < monthlyAmount then
    { loop with
      categoryBreakdowns :=
        addReportBreakdown loop.categoryBreakdowns
          (reportCategoryKeyAndLabel sub inputs.categoryLabels) monthlyAmount
      paymentMethodBreakdowns :=
        addReportBreakdown loop.paymentMethodBreakdowns
          (reportPaymentMethodKeyAndLabel sub inputs.paymentMethodLabels)
          monthlyAmount
      renewalModeBreakdowns :=
        addReportBreakdown loop.renewalModeBreakdowns (renewalMode, renewalMode) monthlyAmount
      topSubscriptions := loop.topSubscriptions ++ [subscriptionSpend inputs sub monthlyAmount] }
  else loop

def reportSubscription (inputs : ReportInputs) (loop : ReportLoop) (sub : Subscription) : ReportLoop :=
  reportPaying inputs sub
    { loop with
      kpis := reportKPIs inputs sub loop.kpis
      upcomingRenewals := loop.upcomingRenewals ++
        (inputs.charges sub inputs.today (inputs.today.addDays 31)).map (upcomingRenewal inputs sub)
      monthlyForecast := forecastSubscription inputs.charges inputs.today
        (convertSubscriptionAmount sub inputs.targetCurrency inputs.converter) sub loop.monthlyForecast }

/-- The report before the loop. -/
def emptyLoop (today : Time) (activeCount : Nat) : ReportLoop where
  kpis := ⟨activeCount, 0, 0, 0, 0, 0, 0, 0, 0, 0, 0⟩
  monthlyForecast := (List.range 12).map fun i => ⟨formatMonth (periodStart today i), 0, 0⟩
  categoryBreakdowns := []
  paymentMethodBreakdowns := []
  renewalModeBreakdowns := []
  topSubscriptions := []
  upcomingRenewals := []

def reportCurrency (targetCurrency : String) : String :=
  toUpper (trimSpace (if trimSpace targetCurrency = "" then "USD" else targetCurrency))

/-- The subscriptions that the report is about. -/
def reportSubscriptions (updatedAt : Subscription → Time) (userID : Nat) (now : Time)
    (rows : List Subscription) :
    List Subscription :=
  presentActiveSubscriptions updatedAt (activeRows userID rows) now

/-- The report on the subscriptions that were loaded. -/
def computeAnalyticsReport (inputs : ReportInputs) (now : Time) (subs : List Subscription) :
    AnalyticsReport :=
  let loop := subs.foldl (reportSubscription inputs) (emptyLoop inputs.today subs.length)
  { currency := inputs.targetCurrency
    generatedAt := now
    kpis := { loop.kpis with
      totalYearly := loop.kpis.totalMonthly * 12
      committedYearly := loop.kpis.committedMonthly * 12 }
    monthlyForecast := loop.monthlyForecast
    categoryBreakdown := buildReportBreakdown loop.categoryBreakdowns loop.kpis.totalMonthly
    paymentMethodBreakdown := buildReportBreakdown loop.paymentMethodBreakdowns loop.kpis.totalMonthly
    renewalModeBreakdown := buildReportBreakdown loop.renewalModeBreakdowns loop.kpis.totalMonthly
    topSubscriptions := (loop.topSubscriptions.mergeSort fun a b =>
      if a.monthlyAmount = b.monthlyAmount then a.name ≤ b.name
        else b.monthlyAmount < a.monthlyAmount).take 8
    upcomingRenewals := (loop.upcomingRenewals.mergeSort fun a b =>
      if a.billingDate = b.billingDate then a.name ≤ b.name else a.billingDate < b.billingDate).take 12 }

/-- What `GetAnalyticsReport` loads for the loop. -/
def reportInputs (charges : ChargeDates) (userID : Nat) (targetCurrency : String)
    (converter : Option CurrencyConverter) (now : Time)
    (categories paymentMethods : List LabelRow) : ReportInputs where
  charges := charges
  targetCurrency := reportCurrency targetCurrency
  converter := converter
  categoryLabels := reportLabels userID categories
  paymentMethodLabels := reportLabels userID paymentMethods
  today := normalizeDateUTC now

def getAnalyticsReport (updatedAt : Subscription → Time) (userID : Nat) (targetCurrency : String)
    (converter : Option CurrencyConverter) (now : Time) (categories paymentMethods : List LabelRow)
    (rows : List Subscription) :
    AnalyticsReport :=
  computeAnalyticsReport
    (reportInputs subscriptionChargeDatesInRange userID targetCurrency converter now categories
      paymentMethods) now
    (reportSubscriptions updatedAt userID now rows)

/-! ## What a subscription adds -/

/-- What a subscription adds to the committed amount. -/
def committedAmount (targetCurrency : String) (converter : Option CurrencyConverter)
    (sub : Subscription) : Rat :=
  if normalizeRenewalMode sub.renewalMode = renewalModeAutoRenew
    then reportMonthlyAmount targetCurrency converter sub else 0

/-- What it adds to the amount due until `endExclusive`. -/
def dueAmount (charges : ChargeDates) (targetCurrency : String) (converter : Option CurrencyConverter)
    (today endExclusive : Time) (sub : Subscription) : Rat :=
  convertSubscriptionAmount sub targetCurrency converter * (charges sub today endExclusive).length

/-- A converter that leaves an amount alone between currencies that are equal but for case. -/
def KeepsCurrency (converter : Option CurrencyConverter) : Prop :=
  ∀ convert ∈ converter, ∀ amount source target, equalFold source target = true →
    convert amount source target = amount

section Amounts
variable {converter : Option CurrencyConverter} {target : String}

theorem equalFold_refl (s : String) : equalFold s s = true := by simp [equalFold]

theorem dashboardAmount_eq (hconverter : KeepsCurrency converter) (sub : Subscription) :
    dashboardAmount sub target converter = convertSubscriptionAmount sub target converter := by
  cases converter with
  | none => rfl
  | some convert =>
    simp only [dashboardAmount, convertSubscriptionAmount]
    by_cases hcurrency : sub.currency = target
    · rw [if_neg (not_not.2 hcurrency), hcurrency, if_pos (equalFold_refl target)]
    · rw [if_pos hcurrency]
      split
      · rename_i hfold
        exact hconverter convert rfl _ _ _ hfold
      · rfl

theorem subscriptionMonthlyFactor_nonneg (sub : Subscription) : 0 ≤ subscriptionMonthlyFactor sub := by
  unfold subscriptionMonthlyFactor
  split
  · exact le_rfl
  split
  · cases sub.intervalCount with
    | none => exact le_rfl
    | some count =>
      dsimp only
      split
      · exact le_rfl
      · rename_i hcount
        have hpos : (0 : Rat) < count := Int.cast_pos.2 (not_le.1 hcount)
        split_ifs <;> positivity
  · split_ifs <;> norm_num

/-- A round of the dashboard's loop. -/
theorem addSpending_eq (hconverter : KeepsCurrency converter) (charges : ChargeDates) (today : Time)
    (sums : SpendSums) (sub : Subscription) :
    addSpending charges target converter today sums sub =
      ⟨sums.totalMonthly + reportMonthlyAmount target converter sub,
        sums.committedMonthly + committedAmount target converter sub,
        sums.dueThisMonth + dueAmount charges target converter today (startOfMonth today 1) sub⟩ := by
  have hfactor := subscriptionMonthlyFactor_nonneg sub
  unfold addSpending committedAmount reportMonthlyAmount dueAmount
  simp only [dashboardAmount_eq hconverter]
  generalize convertSubscriptionAmount sub target converter = amount
  generalize subscriptionMonthlyFactor sub = factor at hfactor ⊢
  generalize (charges sub today (startOfMonth today 1)).length = occurrences
  rcases hfactor.eq_or_lt with rfl | hpos
  · rcases Nat.eq_zero_or_pos occurrences with rfl | hsome
    · simp
    · simp [hsome]
  · rcases Nat.eq_zero_or_pos occurrences with rfl | hsome
    · split_ifs <;> simp_all
    · split_ifs <;> simp_all

end Amounts

/-! ## What the loops add up to -/

section Loops
variable {converter : Option CurrencyConverter} {target : String} {subs : List Subscription}
  {inputs : ReportInputs}
  {loop : ReportLoop}

/-- The sums of the dashboard. -/
theorem spendSums_eq (hconverter : KeepsCurrency converter) (charges : ChargeDates) (today : Time)
    (subs : List Subscription) :
    subs.foldl (addSpending charges target converter today) ⟨0, 0, 0⟩ =
      ⟨(subs.map (reportMonthlyAmount target converter)).sum,
        (subs.map (committedAmount target converter)).sum,
        (subs.map (dueAmount charges target converter today (startOfMonth today 1))).sum⟩ := by
  have hround (sums : SpendSums) (sub : Subscription) :
      addSpending charges target converter today sums sub = _ :=
    addSpending_eq hconverter charges today sums sub
  apply SpendSums.ext
  · simpa using foldl_total SpendSums.totalMonthly _
      (fun s i => congrArg SpendSums.totalMonthly (hround s i)) subs ⟨0, 0, 0⟩
  · simpa using foldl_total SpendSums.committedMonthly _
      (fun s i => congrArg SpendSums.committedMonthly (hround s i)) subs
      ⟨0, 0, 0⟩
  · simpa using foldl_total SpendSums.dueThisMonth _
      (fun s i => congrArg SpendSums.dueThisMonth (hround s i)) subs ⟨0, 0, 0⟩

theorem reportSubscription_kpis (inputs : ReportInputs) (loop : ReportLoop) (sub : Subscription) :
    (reportSubscription inputs loop sub).kpis = reportKPIs inputs sub loop.kpis := by
  unfold reportSubscription reportPaying
  dsimp only
  split <;> rfl

theorem countRenewalMode_eq (renewalMode : String) (monthlyAmount : Rat) (kpis : AnalyticsReportKPIs) :
    (countRenewalMode renewalMode monthlyAmount kpis).committedMonthly =
        kpis.committedMonthly + (if renewalMode = renewalModeAutoRenew then monthlyAmount else 0) ∧
      (countRenewalMode renewalMode monthlyAmount kpis).totalMonthly = kpis.totalMonthly ∧
      (countRenewalMode renewalMode monthlyAmount kpis).dueThisMonth = kpis.dueThisMonth ∧
      (countRenewalMode renewalMode monthlyAmount kpis).activeCount = kpis.activeCount := by
  unfold countRenewalMode
  split_ifs <;> simp

/-- A round of the report's loop. -/
theorem reportSubscription_sums (inputs : ReportInputs) (loop : ReportLoop) (sub : Subscription) :
    (reportSubscription inputs loop sub).kpis.totalMonthly =
        loop.kpis.totalMonthly + reportMonthlyAmount inputs.targetCurrency inputs.converter sub ∧
      (reportSubscription inputs loop sub).kpis.committedMonthly =
        loop.kpis.committedMonthly + committedAmount inputs.targetCurrency inputs.converter sub ∧
      (reportSubscription inputs loop sub).kpis.dueThisMonth = loop.kpis.dueThisMonth +
        dueAmount inputs.charges inputs.targetCurrency inputs.converter inputs.today
          (startOfMonth inputs.today 1) sub ∧
      (reportSubscription inputs loop sub).kpis.activeCount = loop.kpis.activeCount := by
  obtain ⟨hcommitted, htotal, hdue, hactive⟩ :=
    countRenewalMode_eq (normalizeRenewalMode sub.renewalMode)
    (reportMonthlyAmount inputs.targetCurrency inputs.converter sub) loop.kpis
  rw [reportSubscription_kpis]
  unfold reportKPIs
  dsimp only
  rw [hcommitted, htotal, hdue, hactive]
  exact ⟨rfl, rfl, rfl, rfl⟩

/-- The KPIs that the dashboard has too. -/
theorem reportLoop_kpis (inputs : ReportInputs) (subs : List Subscription) (activeCount : Nat) :
    let kpis := (subs.foldl (reportSubscription inputs) (emptyLoop inputs.today activeCount)).kpis
    kpis.totalMonthly = (subs.map (reportMonthlyAmount inputs.targetCurrency inputs.converter)).sum ∧
      kpis.committedMonthly = (subs.map (committedAmount inputs.targetCurrency inputs.converter)).sum ∧
      kpis.dueThisMonth = (subs.map
        (dueAmount inputs.charges inputs.targetCurrency inputs.converter inputs.today
          (startOfMonth inputs.today 1))).sum ∧
      kpis.activeCount = activeCount := by
  have hround := reportSubscription_sums inputs
  dsimp only
  refine ⟨?_, ?_, ?_, ?_⟩
  · have h :=
      foldl_total (fun loop : ReportLoop => loop.kpis.totalMonthly) _ (fun s i => (hround s i).1) subs
      (emptyLoop inputs.today activeCount)
    exact h.trans (zero_add _)
  · have h :=
      foldl_total (fun loop : ReportLoop => loop.kpis.committedMonthly) _
        (fun s i => (hround s i).2.1) subs
      (emptyLoop inputs.today activeCount)
    exact h.trans (zero_add _)
  · have h :=
      foldl_total (fun loop : ReportLoop => loop.kpis.dueThisMonth) _
        (fun s i => (hround s i).2.2.1) subs
      (emptyLoop inputs.today activeCount)
    exact h.trans (zero_add _)
  · exact List.foldlRecOn
      (motive := fun loop : ReportLoop => loop.kpis.activeCount = activeCount) _ _ rfl
      fun loop h sub _ => (hround loop sub).2.2.2.trans h

end Loops

/-! ## The three reads agree -/

/-- The `CHECK`s of `subscriptions` on the two lifecycle columns. -/
def Subscription.Checked (sub : Subscription) : Prop :=
  isValidSubscriptionStatus sub.status = true ∧ isValidRenewalMode sub.renewalMode = true

section Reads
variable {rows : List Subscription} {sub : Subscription}

theorem subscriptionIsActive_sync (sub : Subscription) :
    subscriptionIsActive (syncLegacyEnabledForLifecycle sub) = subscriptionIsActive sub := by
  have hstatus : (syncLegacyEnabledForLifecycle sub).status = sub.status := by
    dsimp only [syncLegacyEnabledForLifecycle]
  rw [subscriptionIsActive, hstatus, subscriptionIsActive]

/-- A row that is stored as ended is not active. -/
theorem checked_inactive (hchecked : sub.Checked) (hended : sub.status ≠ subscriptionStatusActive) :
    subscriptionIsActive sub = false := by
  rw [subscriptionIsActive, normalizeStatus_valid hchecked.1]
  exact decide_eq_false hended

/-- A row with a status and a mode is shown with them. -/
theorem normalizeForResponse_valid
    (hstatus : isValidSubscriptionStatus (normalizeStatus sub.status) = true)
    (hmode : isValidRenewalMode (normalizeRenewalMode sub.renewalMode) = true) (updatedAt : Time) :
    normalizeSubscriptionForResponse sub updatedAt = syncLegacyEnabledForLifecycle sub := by
  unfold normalizeSubscriptionForResponse
  rw [if_neg (by simp [hstatus, hmode])]

/-- It is not shown as active either. -/
theorem normalize_inactive (hchecked : sub.Checked) (hinactive : subscriptionIsActive sub = false)
    (updatedAt : Time) :
    subscriptionIsActive (normalizeSubscriptionForResponse sub updatedAt) = false := by
  rw [normalizeForResponse_valid (by rw [normalizeStatus_valid hchecked.1, hchecked.1])
    (by rw [normalizeRenewalMode_valid hchecked.2, hchecked.2]), subscriptionIsActive_sync, hinactive]

/-- The list shows the active rows that the dashboard reads, in another order. -/
theorem listed_perm {shown : Subscription → Subscription}
    (hshown : ∀ row ∈ rows, row.status ≠ subscriptionStatusActive →
      subscriptionIsActive (shown row) = false) (userID : Nat) :
    ((((rows.filter fun sub => sub.userID = userID).mergeSort listOrder).map shown).filter
      subscriptionIsActive).Perm
      (((activeRows userID rows).map shown).filter subscriptionIsActive) := by
  have hactive : ((activeRows userID rows).map shown).filter subscriptionIsActive =
      ((rows.filter fun sub => sub.userID = userID).map shown).filter subscriptionIsActive := by
    simp only [activeRows, List.filter_map, List.filter_filter]
    apply congrArg
    apply List.filter_congr
    intro row hrow
    by_cases hstatus : row.status = subscriptionStatusActive
    · simp [hstatus]
    · simp [hstatus, hshown row hrow hstatus]
  rw [hactive]
  exact ((List.mergeSort_perm _ _).map _).filter _

end Reads

/-- The four figures that the reads share. -/
def DashboardSummary.spending (summary : DashboardSummary) : Nat × Rat × Rat × Rat :=
  (summary.activeCount, summary.totalMonthly, summary.committedMonthly, summary.dueThisMonth)

def AnalyticsReportKPIs.spending (kpis : AnalyticsReportKPIs) : Nat × Rat × Rat × Rat :=
  (kpis.activeCount, kpis.totalMonthly, kpis.committedMonthly, kpis.dueThisMonth)

/-- What they should be: sums over the active subscriptions, in any order. -/
def spendingOf (charges : ChargeDates) (targetCurrency : String)
    (converter : Option CurrencyConverter) (today : Time) (subs : List Subscription) :
    Nat × Rat × Rat × Rat :=
  (subs.length, (subs.map (reportMonthlyAmount targetCurrency converter)).sum,
    (subs.map (committedAmount targetCurrency converter)).sum,
    (subs.map (dueAmount charges targetCurrency converter today (startOfMonth today 1))).sum)

/-- A currency trimmed and in upper case. -/
def IsUpperCurrency (currency : String) : Prop := toUpper (trimSpace currency) = currency

instance (currency : String) : Decidable (IsUpperCurrency currency) :=
  inferInstanceAs (Decidable (_ = _))

/-- The preference that `UpdateUserPreference` of `exchange_rate.go` stores. -/
def preferredCurrency (input : String) : String := orDefault "USD" (toUpper (trimSpace input))

section Spending
variable {target : String} {converter : Option CurrencyConverter} {subs subs' : List Subscription}

theorem isUpperCurrency_usd : IsUpperCurrency "USD" := by decide +kernel

/-- Every target that the handlers read is one. -/
theorem isUpperCurrency_preferred (input : String) : IsUpperCurrency (preferredCurrency input) := by
  unfold preferredCurrency orDefault
  split
  · exact isUpperCurrency_usd
  · rw [IsUpperCurrency, trimSpace_toUpper, toUpper_idem]

/-- The report and the dashboard convert to the same currency. -/
theorem reportCurrency_eq (htarget : IsUpperCurrency target) :
    reportCurrency target = orDefault "USD" target := by
  unfold reportCurrency orDefault
  by_cases hblank : trimSpace target = ""
  · have hempty : target = "" := by rw [← htarget, hblank, toUpper_eq_empty]
    rw [if_pos hblank, if_pos hempty]
    exact isUpperCurrency_usd
  · have hne : target ≠ "" := by
      rintro rfl
      exact hblank (by decide)
    rw [if_neg hblank, if_neg hne]
    exact htarget

theorem spendingOf_perm (h : subs.Perm subs') (charges : ChargeDates) (target : String)
    (converter : Option CurrencyConverter) (today : Time) :
    spendingOf charges target converter today subs = spendingOf charges target converter today
    subs' := by
  simp only [spendingOf, h.length_eq, (h.map _).sum_eq]

theorem summary_spending (hconverter : KeepsCurrency converter) (charges : ChargeDates)
    (subs : List Subscription) (target : String) (now : Time) :
    (computeDashboardSummary charges subs target converter now).spending =
      spendingOf charges (orDefault "USD" target) converter (normalizeDateUTC now) subs := by
  simp only [DashboardSummary.spending, computeDashboardSummary, spendSums_eq hconverter, spendingOf]

theorem report_spending (inputs : ReportInputs) (now : Time) (subs : List Subscription) :
    (computeAnalyticsReport inputs now subs).kpis.spending =
      spendingOf inputs.charges inputs.targetCurrency inputs.converter inputs.today subs := by
  obtain ⟨htotal, hcommitted, hdue, hactive⟩ := reportLoop_kpis inputs subs subs.length
  simp only [AnalyticsReportKPIs.spending, computeAnalyticsReport, spendingOf, htotal, hcommitted,
    hdue, hactive]

/-- Over the same subscriptions, in any order, and the same charges, the dashboard and
the report have the same figures. -/
theorem spending_agrees (h : subs.Perm subs') (hconverter : KeepsCurrency converter)
    (htarget : IsUpperCurrency target) (charges : ChargeDates) (userID : Nat) (now : Time)
    (categories paymentMethods : List LabelRow) :
    (computeAnalyticsReport
      (reportInputs charges userID target converter now categories paymentMethods) now
      subs').kpis.spending =
      (computeDashboardSummary charges subs target converter now).spending := by
  rw [report_spending, summary_spending hconverter, spendingOf_perm h]
  simp only [reportInputs, reportCurrency_eq htarget]

end Spending

/-- The monthly row, a row in another currency that ends with its period, and an ended row. -/
def reportRows : List Subscription :=
  [monthEndRow,
    { monthEndRow with
      id := 2, amount := 12, currency := "eur", categoryID := some 7, category := " Music " },
    { monthEndRow with id := 3, currency := "usd", renewalMode := renewalModeManualRenew },
    { monthEndRow with id := 4, status := subscriptionStatusEnded, enabled := false }]

/-- Doubles what is not in the currency already. -/
def doubling : CurrencyConverter :=
  fun amount source target => if equalFold source target then amount else amount * 2

/-! ## The breakdowns split the total -/

/-- A breakdown with distinct keys, whose items add up to a total and to a count. -/
structure Splits (items : List ReportBreakdownItem) (total : Rat) (count : Nat) : Prop where
  keys : (items.map (·.key)).Nodup
  amounts : (items.map (·.monthlyAmount)).sum = total
  counts : (items.map (·.count)).sum = count
  percentages : 0 < total → (items.map (·.percentage)).sum = 100

theorem Splits.perm {items items' : List ReportBreakdownItem} {total : Rat} {count : Nat}
    (h : Splits items total count) (hperm : items.Perm items') : Splits items' total count where
  keys := (hperm.map _).nodup_iff.1 h.keys
  amounts := (hperm.map _).sum_eq.symm.trans h.amounts
  counts := (hperm.map _).sum_eq.symm.trans h.counts
  percentages := fun hpos => (hperm.map _).sum_eq.symm.trans (h.percentages hpos)

section Breakdowns
variable {subs : List Subscription} {inputs : ReportInputs} {total : Rat}
  {keyAndLabel : Subscription → String × String}
  {amount : Subscription → Rat}

/-- Shares of a positive total add up to the whole. -/
theorem sum_percentages (htotal : 0 < total) (items : List ReportBreakdownAccumulator) :
    ((items.map (reportBreakdownItem total)).map (·.percentage)).sum =
    (items.map (·.monthlyAmount)).sum / total * 100 := by
  induction items with
  | nil => simp
  | cons item items ih =>
    simp only [List.map_cons, List.sum_cons, ih, reportBreakdownItem, if_pos htotal]
    ring

/-- Filing the subscriptions under keys of their own splits what they add up to. -/
theorem splits_filed (subs : List Subscription) (keyAndLabel : Subscription → String × String)
    (amount : Subscription → Rat) (htotal : total = (subs.map amount).sum) :
    Splits (buildReportBreakdown
      (subs.foldl (fun items sub => addReportBreakdown items (keyAndLabel sub) (amount sub)) []) total)
      total subs.length := by
  let fresh := fun sub => ReportBreakdownAccumulator.fresh (keyAndLabel sub)
  let bump := fun sub => ReportBreakdownAccumulator.bump (amount sub)
  have hkeys := nodup_foldl_file (·.key) fresh bump [] (fun _ _ => rfl) subs List.nodup_nil
  have hamounts :=
    sum_foldl_file (·.key) fresh bump [] (·.monthlyAmount) amount (fun _ _ => rfl) (fun _ _ => rfl)
    (fun _ => rfl) subs List.nodup_nil
  have hcounts :=
    sum_foldl_file (·.key) fresh bump [] (·.count) (fun _ => 1) (fun _ _ => rfl) (fun _ _ => rfl)
    (fun _ => rfl) subs List.nodup_nil
  rw [List.map_nil, List.sum_nil, zero_add] at hamounts hcounts
  refine Splits.perm ⟨?_, ?_, ?_, fun hpos => ?_⟩ (List.mergeSort_perm _ _).symm
  · rw [List.map_map]
    exact hkeys
  · rw [List.map_map, htotal]
    exact hamounts
  · rw [List.map_map]
    exact hcounts.trans (by simp)
  · have hsum :
        ((subs.foldl (fun items sub => addReportBreakdown items (keyAndLabel sub) (amount sub)) []).map
        (·.monthlyAmount)).sum = total := hamounts.trans htotal.symm
    rw [sum_percentages hpos, hsum, div_self hpos.ne', one_mul]

/-- A breakdown that the loop keeps files the subscriptions with a positive amount. -/
theorem foldl_breakdown (get : ReportLoop → List ReportBreakdownAccumulator)
    (hget : ∀ loop sub, get (reportSubscription inputs loop sub) =
      if 0 < amount sub then addReportBreakdown (get loop) (keyAndLabel sub) (amount sub) else get loop)
    (subs : List Subscription) (loop : ReportLoop) :
    get (subs.foldl (reportSubscription inputs) loop) = (subs.filter fun sub => 0 < amount sub).foldl
      (fun items sub => addReportBreakdown items (keyAndLabel sub) (amount sub)) (get loop) := by
  induction subs generalizing loop with
  | nil => rfl
  | cons sub subs ih =>
    rw [List.foldl_cons, ih, hget]
    split
    · rename_i hpos
      rw [List.filter_cons_of_pos (by simpa using hpos), List.foldl_cons]
    · rename_i hnot
      rw [List.filter_cons_of_neg (by simpa using hnot)]

theorem reportMonthlyAmount_nonneg {target : String} {converter : Option CurrencyConverter}
    (hconverter : ∀ convert ∈ converter, ∀ amount source target, 0 ≤ amount →
      0 ≤ convert amount source target)
    {sub : Subscription} (hamount : 0 ≤ sub.amount) : 0 ≤ reportMonthlyAmount target converter sub := by
  have hconverted : 0 ≤ convertSubscriptionAmount sub target converter := by
    cases converter with
    | none => exact hamount
    | some convert =>
      dsimp only [convertSubscriptionAmount]
      split
      · exact hamount
      · exact hconverter convert rfl _ _ _ hamount
  unfold reportMonthlyAmount
  split
  · exact mul_nonneg hconverted (subscriptionMonthlyFactor_nonneg sub)
  · exact le_rfl

/-- A subscription of the report has the amount of its row. -/
theorem reportSubscriptions_amount {updatedAt : Subscription → Time} {userID : Nat} {now : Time}
    {rows : List Subscription} {sub : Subscription}
    (hsub : sub ∈ reportSubscriptions updatedAt userID now rows) :
    ∃ row ∈ rows, sub.amount = row.amount := by
  unfold reportSubscriptions presentActiveSubscriptions at hsub
  obtain ⟨row, hrow, hshown⟩ := List.mem_map.1 (List.mem_of_mem_filter hsub)
  have hsold := hshown ▸ present_soldAt row (updatedAt row) now
  exact ⟨row, List.mem_of_mem_filter hrow, (Prod.mk.inj hsold).1⟩

/-- A subscription with a positive amount is filed in each breakdown. -/
theorem reportSubscription_breakdowns (inputs : ReportInputs) (loop : ReportLoop) (sub : Subscription) :
    let amount := reportMonthlyAmount inputs.targetCurrency inputs.converter sub
    let renewalMode := normalizeRenewalMode sub.renewalMode
    (reportSubscription inputs loop sub).categoryBreakdowns =
        (if 0 < amount then
          addReportBreakdown loop.categoryBreakdowns
            (reportCategoryKeyAndLabel sub inputs.categoryLabels) amount
        else loop.categoryBreakdowns) ∧
      (reportSubscription inputs loop sub).paymentMethodBreakdowns =
        (if 0 < amount then
          addReportBreakdown loop.paymentMethodBreakdowns
            (reportPaymentMethodKeyAndLabel sub inputs.paymentMethodLabels) amount
        else loop.paymentMethodBreakdowns) ∧
      (reportSubscription inputs loop sub).renewalModeBreakdowns =
        (if 0 < amount then addReportBreakdown loop.renewalModeBreakdowns
          (renewalMode, renewalMode) amount
        else loop.renewalModeBreakdowns) := by
  dsimp only
  unfold reportSubscription reportPaying
  dsimp only
  split
  · exact ⟨rfl, rfl, rfl⟩
  · exact ⟨rfl, rfl, rfl⟩

/-- A breakdown that the loop keeps splits the total that it keeps. -/
theorem loop_splits (inputs : ReportInputs)
    (hamounts : ∀ sub ∈ subs, 0 ≤ reportMonthlyAmount inputs.targetCurrency inputs.converter sub)
    (get : ReportLoop → List ReportBreakdownAccumulator)
    (hget : ∀ loop sub, get (reportSubscription inputs loop sub) =
      if 0 < reportMonthlyAmount inputs.targetCurrency inputs.converter sub then
        addReportBreakdown (get loop) (keyAndLabel sub)
          (reportMonthlyAmount inputs.targetCurrency inputs.converter sub)
      else get loop)
    (hempty : get (emptyLoop inputs.today subs.length) = []) :
    let loop := subs.foldl (reportSubscription inputs) (emptyLoop inputs.today subs.length)
    Splits (buildReportBreakdown (get loop) loop.kpis.totalMonthly) loop.kpis.totalMonthly
      (subs.countP fun sub => 0 < reportMonthlyAmount inputs.targetCurrency inputs.converter sub) := by
  dsimp only
  rw [foldl_breakdown get hget, hempty, List.countP_eq_length_filter]
  apply splits_filed
  rw [sum_filter_pos hamounts]
  exact (reportLoop_kpis inputs subs subs.length).1

end Breakdowns

/-- Each breakdown of the report splits the monthly total, and counts the subscriptions
that add to it. -/
theorem report_breakdowns {rows : List Subscription} {converter : Option CurrencyConverter}
    (hrows : ∀ row ∈ rows, 0 ≤ row.amount)
    (hconverter : ∀ convert ∈ converter, ∀ amount source target, 0 ≤ amount →
      0 ≤ convert amount source target) (updatedAt : Subscription → Time) (userID : Nat)
      (target : String) (now : Time) (categories paymentMethods : List LabelRow) :
    let report := getAnalyticsReport updatedAt userID target converter now categories paymentMethods rows
    let paying := (reportSubscriptions updatedAt userID now rows).countP fun sub =>
      0 < reportMonthlyAmount (reportCurrency target) converter sub
    Splits report.categoryBreakdown report.kpis.totalMonthly paying ∧
      Splits report.paymentMethodBreakdown report.kpis.totalMonthly paying ∧
      Splits report.renewalModeBreakdown report.kpis.totalMonthly paying := by
  have hamounts : ∀ sub ∈ reportSubscriptions updatedAt userID now rows,
      0 ≤ reportMonthlyAmount (reportCurrency target) converter sub := by
    intro sub hsub
    obtain ⟨row, hrow, hamount⟩ := reportSubscriptions_amount hsub
    exact reportMonthlyAmount_nonneg hconverter (hamount ▸ hrows row hrow)
  let inputs :=
    reportInputs subscriptionChargeDatesInRange userID target converter now categories paymentMethods
  have hfiled := reportSubscription_breakdowns inputs
  refine ⟨?_, ?_, ?_⟩
  · exact loop_splits inputs hamounts ReportLoop.categoryBreakdowns
      (fun loop sub => (hfiled loop sub).1) rfl
  · exact loop_splits inputs hamounts ReportLoop.paymentMethodBreakdowns
      (fun loop sub => (hfiled loop sub).2.1) rfl
  · exact loop_splits inputs hamounts ReportLoop.renewalModeBreakdowns
      (fun loop sub => (hfiled loop sub).2.2) rfl

theorem report_breakdowns_reportRows :
    let report :=
      getAnalyticsReport (fun _ => dateUTC 2025 1 1) 1 "USD" (some doubling) (dateUTC 2025 1 20)
        [⟨7, 1, "Media"⟩] [] reportRows
    let paying :=
      (reportSubscriptions (fun _ => dateUTC 2025 1 1) 1 (dateUTC 2025 1 20) reportRows).countP
        fun sub => 0 < reportMonthlyAmount (reportCurrency "USD") (some doubling) sub
    Splits report.categoryBreakdown report.kpis.totalMonthly paying ∧
      Splits report.paymentMethodBreakdown report.kpis.totalMonthly paying ∧
      Splits report.renewalModeBreakdown report.kpis.totalMonthly paying :=
  report_breakdowns (by decide +kernel)
    (fun convert hconvert amount source target h => by
      cases hconvert
      unfold doubling
      split
      · exact h
      · positivity) _ _ _ _ _ _

end Subdux
