import Mathlib.Data.Prod.Lex
import Mathlib.Data.String.Basic
import Subdux.ActionCenter
import Subdux.Billing
import Subdux.Lib.SortedKeys
/-!
# Snoozed actions

`internal/service/subscription_actions_center.go`: `GetActionCenter`, and `SnoozeAction` on the
keys of its items. `sort.Slice` is a sort by insertion: the keys differ, so there is one
sorted order.

`snooze_hides_one` says what a snooze changes: one item, until its date.
-/

namespace Subdux
open GoStrings Rows SortedKeys

/-! ## Keys that come back -/

structure SnoozeSubscriptionActionInput where
  key : String
  days : Int
  untilDate : String

def actionSnoozeDefaultDays : Int := 7
def actionCenterMaxItems : Nat := 100

/-- `fmt.Sscanf(value, "%d", &id)`: the digits after the spaces, and what follows them is left alone. -/
def sscanfUint (value : List Char) : Option Nat :=
  (RecurrenceRules.number
    ((value.dropWhile fun c => isSpace c ∧ c ≠ '\n').takeWhile Char.isDigit)).filter (· < 2 ^ 64)

def parseActionSubscriptionID (key : String) : Except String Nat :=
  match (trimSpace key).toList.splitOn ':' with
  | first :: second :: _ :: _ =>
    if first ≠ "subscription".toList then .error "invalid action key"
    else
      match sscanfUint second with
      | none => .error "invalid action key"
      | some id => if id = 0 then .error "invalid action key" else .ok id
  | _ => .error "invalid action key"

example : parseActionSubscriptionID " subscription:7:price_increase:2025-01-02" = .ok 7 ∧
    parseActionSubscriptionID "subscription:7" = .error "invalid action key" := by decide +kernel

def resolveActionSnoozeUntil (input : SnoozeSubscriptionActionInput) (now : Time) : Except String Time :=
  if trimSpace input.untilDate ≠ "" then
    match parseOptionalDateString input.untilDate with
    | .error err => .error err
    | .ok none => .error "snooze date is required"
    | .ok (some parsed) =>
      let snoozedUntil := normalizeDateUTC parsed
      if !snoozedUntil.after (normalizeDateUTC now) then .error "snooze date must be in the future"
        else .ok snoozedUntil
  else
    let days := if input.days ≤ 0 then actionSnoozeDefaultDays else input.days
    let days := if days > actionCenterUpcomingDays then actionCenterUpcomingDays else days
    .ok ((normalizeDateUTC now).addDays days)

/-! ## Snoozes -/

def snoozeAt (userID subscriptionID : Nat) (actionKey : String)
    (snooze : SubscriptionActionSnooze) : Bool :=
  snooze.userID = userID ∧ snooze.subscriptionID = subscriptionID ∧ snooze.actionKey = actionKey

/-- `INSERT ... ON CONFLICT (user_id, subscription_id, action_key) DO UPDATE`. -/
def upsertSnooze (userID subscriptionID : Nat) (actionKey : String) (snoozedUntil savedAt : Time)
    (store : ActionStore) : ActionStore :=
  if affected (snoozeAt userID subscriptionID actionKey) store.snoozes = 0 then
    { store with
      snoozes :=
        store.snoozes ++ [⟨store.nextSnoozeID, userID, subscriptionID, actionKey, snoozedUntil,
          savedAt, savedAt⟩]
      nextSnoozeID := store.nextSnoozeID + 1 }
  else
    { store with
      snoozes := updateWhere (snoozeAt userID subscriptionID actionKey)
        (fun snooze => { snooze with snoozedUntil := snoozedUntil, updatedAt := savedAt })
          store.snoozes }

/-- `SnoozeAction`: `now` is the day that the date is counted from, and `savedAt` the time of the
write. -/
def snoozeAction (userID : Nat) (input : SnoozeSubscriptionActionInput) (now savedAt : Time)
    (store : ActionStore) :
    Except String SubscriptionActionSnooze × ActionStore :=
  let actionKey := trimSpace input.key
  match parseActionSubscriptionID actionKey with
  | .error err => (.error err, store)
  | .ok subscriptionID =>
    if (store.subs.find? fun sub => sub.id = subscriptionID ∧ sub.userID = userID).isNone then
      (.error "subscription not found", store)
    else
      match resolveActionSnoozeUntil input now with
      | .error err => (.error err, store)
      | .ok snoozedUntil =>
        let store := upsertSnooze userID subscriptionID actionKey snoozedUntil savedAt store
        match store.snoozes.find? (snoozeAt userID subscriptionID actionKey) with
        | none => (.error "record not found", store)
        | some saved => (.ok saved, store)

/-- The entry of a key in the map of `activeActionSnoozes`: of several rows the last one stays. -/
def activeActionSnooze (store : ActionStore) (userID : Nat) (today : Time) (key : String) :
    Option SubscriptionActionSnooze :=
  (store.snoozes.filter fun snooze => snooze.userID = userID ∧
    snooze.snoozedUntil.after today).reverse.find? (·.actionKey = key)

/-! ## The action centre -/

structure ActionCenterCounts where
  total : Nat
  critical : Nat
  high : Nat
  medium : Nat
  low : Nat
  needsDecision : Nat
  needsRepair : Nat
  upcomingCharge : Nat
  snoozed : Nat

structure ActionCenter where
  generatedAt : Time
  windowDays : Int
  urgentDays : Int
  items : List SubscriptionAction
  counts : ActionCenterCounts
  availableTypes : List String

def actionSeverityRank (severity : String) : Nat :=
  if severity = actionSeverityCritical then 0
  else if severity = actionSeverityHigh then 1
  else if severity = actionSeverityMedium then 2
  else if severity = actionSeverityLow then 3
  else 4

/-- `time.Parse(time.RFC3339, value)` reads years of four digits and zones of at most 24 hours. -/
def parseEventDate (value : Timestamp) : Option Time :=
  let year := Gregorian.monthOf (value.wall / secondsPerDay) / 12
  if 0 ≤ year ∧ year ≤ 9999 ∧ value.zone.natAbs / 60 ≤ 24 then
    some ⟨(value.wall - value.zone * 60) * nsPerSecond, value.zone * 60⟩
  else none

def actionSortDate (item : SubscriptionAction) : Time :=
  ((item.dueDate.bind parseDate).or (item.eventDate.bind parseEventDate)).getD (dateUTC 9999 12 31)

/-- The function that `sort.Slice` is given. -/
def actionLess (left right : SubscriptionAction) : Bool :=
  let leftPriority := actionSeverityRank left.severity
  let rightPriority := actionSeverityRank right.severity
  if leftPriority ≠ rightPriority then leftPriority < rightPriority
  else
    let leftDue := actionSortDate left
    let rightDue := actionSortDate right
    if !leftDue.equal rightDue then leftDue.before rightDue
    else if left.subscriptionName ≠ right.subscriptionName then
      left.subscriptionName < right.subscriptionName
    else left.key < right.key

def sortActions (items : List SubscriptionAction) : List SubscriptionAction :=
  items.insertionSort fun left right => !actionLess right left

/-- The items before any is hidden. -/
def actionItems (store : ActionStore) (userID : Nat) (now : Time) : List SubscriptionAction :=
  let today := normalizeDateUTC now
  let windowEnd := today.addDays actionCenterUpcomingDays
  let subs :=
    (store.subs.filter (·.userID = userID)).map fun sub => presentSubscriptionForResponse sub
      (store.updatedAt sub.id) now
  subs.flatMap (subscriptionScheduleActions · today windowEnd) ++
    notificationFailureActions store userID today ++
    priceIncreaseActions store userID today

def isSnoozed (store : ActionStore) (userID : Nat) (today : Time) (key : String) : Bool :=
  (activeActionSnooze store userID today key).any fun snooze =>
    (normalizeDateUTC snooze.snoozedUntil).after today

/-- The list that is cut to the first `actionCenterMaxItems`. -/
def visibleActions (store : ActionStore) (userID : Nat) (now : Time) : List SubscriptionAction :=
  sortActions ((actionItems store userID now).filter fun item =>
    !isSnoozed store userID (normalizeDateUTC now) item.key)

def buildActionCenterCounts (items : List SubscriptionAction) (snoozedCount : Nat) :
    ActionCenterCounts where
  total := items.length
  critical := items.countP (·.severity = actionSeverityCritical)
  high := items.countP (·.severity = actionSeverityHigh)
  medium := items.countP (·.severity = actionSeverityMedium)
  low := items.countP (·.severity = actionSeverityLow)
  needsDecision := items.countP (·.needsDecision)
  needsRepair := items.countP (·.needsRepair)
  upcomingCharge := items.countP (·.upcomingCharge)
  snoozed := snoozedCount

/-- `GetActionCenter`. -/
def getActionCenter (store : ActionStore) (userID : Nat) (now : Time) : ActionCenter :=
  let visible := (visibleActions store userID now).take actionCenterMaxItems
  let snoozedCount :=
    (actionItems store userID now).countP fun item =>
      isSnoozed store userID (normalizeDateUTC now) item.key
  { generatedAt := now
    windowDays := actionCenterUpcomingDays
    urgentDays := actionCenterUrgentDays
    items := visible
    counts := buildActionCenterCounts visible snoozedCount
    availableTypes :=
      [actionTypeManualRenewalDue, actionTypeNotificationFailed, actionTypeMissingNextBilling,
       actionTypePriceIncrease,
      actionTypeEndingSoon, actionTypeUpcomingRenewal] }

/-! ## The order of the items -/

section Order
variable {left right : SubscriptionAction} {items : List SubscriptionAction}

def sortKey (item : SubscriptionAction) : ℕ ×ₗ ℤ ×ₗ String ×ₗ String :=
  toLex (actionSeverityRank item.severity,
    toLex ((actionSortDate item).nanos, toLex (item.subscriptionName, item.key)))

/-- The items are compared field by field. -/
theorem actionLess_iff : actionLess left right = true ↔ sortKey left < sortKey right := by
  simp only [sortKey, Prod.Lex.toLex_lt_toLex, actionLess, Time.equal, Time.before]
  by_cases hrank : actionSeverityRank left.severity = actionSeverityRank right.severity
  · by_cases hdue : (actionSortDate left).nanos = (actionSortDate right).nanos
    · by_cases hname : left.subscriptionName = right.subscriptionName
      · simp [hrank, hdue, hname]
      · simp [hrank, hdue, hname]
    · simp [hrank, hdue]
  · simp [hrank]

theorem sortActions_eq (items : List SubscriptionAction) :
    sortActions items = sortByKey sortKey items := by
  have hle : (fun left right => (!actionLess right left) = true) = fun left right =>
      sortKey left ≤ sortKey right := by
    funext left right
    rw [Bool.not_eq_true', ← Bool.not_eq_true, actionLess_iff, not_lt]
  unfold sortActions sortByKey
  congr

theorem key_of_sortKey (h : sortKey left = sortKey right) : left.key = right.key := by
  simp only [sortKey, toLex_inj, Prod.mk.injEq] at h
  exact h.2.2.2

theorem sortActions_filter (hkeys : (items.map (·.key)).Nodup) (p : SubscriptionAction → Bool) :
    (sortActions items).filter p = sortActions (items.filter p) := by
  rw [sortActions_eq, sortActions_eq]
  exact sortByKey_filter (fun x hx y hy h => eq_of_key hkeys hx hy (key_of_sortKey h)) p

end Order

/-! ## Reading a key -/

def scheduleTypes : List String :=
  [actionTypeMissingNextBilling, actionTypeManualRenewalDue, actionTypeEndingSoon,
   actionTypeUpcomingRenewal]

def actionTypes : List String := scheduleTypes ++ [actionTypeNotificationFailed, actionTypePriceIncrease]

section Keys
variable {id : Nat} {t q : String}

theorem isTrimmed_key (ht : IsTrimmed t.toList) (hne : t.toList ≠ []) (id : Nat) (q : String) :
    IsTrimmed (subscriptionActionKey id t q).toList := by
  rw [toList_subscriptionActionKey]
  refine ⟨fun c hc => ?_, fun c hc => ?_⟩
  · obtain rfl : 's' = c := by simpa using hc
    decide
  · unfold qualifierPart at hc
    split at hc
    · rename_i hq
      have hq' : (trimSpace q).toList ≠ [] := fun h => hq (String.toList_eq_nil_iff.1 h)
      refine (isTrimmed_trimSpace q).last c ?_
      simpa [List.getLast?_append, List.getLast?_cons, hq', List.getLast?_eq_some_getLast hq'] using hc
    · refine ht.last c ?_
      simpa [List.getLast?_append, List.getLast?_cons, hne, List.getLast?_eq_some_getLast hne] using hc

theorem isSpace_of_isDigit {c : Char} (h : c.isDigit = true) : isSpace c = false := by
  rw [Bool.eq_false_iff, ne_eq, isSpace_iff]
  simp only [Char.isDigit, Bool.and_eq_true, decide_eq_true_eq, ge_iff_le, UInt32.le_iff_toNat_le] at h
  have hlow : 48 ≤ c.toNat := h.1
  have hhigh : c.toNat ≤ 57 := h.2
  simp only [spaceCodes, List.mem_cons, List.not_mem_nil, or_false]
  omega

/-- A number is read up to the separator. -/
theorem sscanfUint_repr (hid : id < 2 ^ 64) : sscanfUint (toString id).toList = some id := by
  have hdigits : ∀ c ∈ (toString id).toList, c.isDigit = true := by
    intro c hc
    have hmem : c ∈ Nat.toDigits 10 id := by
      rw [← Nat.toList_repr]
      exact hc
    exact Nat.isDigit_of_mem_toDigits (by decide) (by decide) hmem
  have hspace : (toString id).toList.dropWhile (fun c => isSpace c ∧ c ≠ '\n') =
      (toString id).toList := by
    rw [List.dropWhile_eq_self_iff]
    intro hlen h
    have hdigit := hdigits _ (List.getElem_mem hlen)
    simp only [decide_eq_true_eq] at h
    exact absurd ((isSpace_of_isDigit hdigit).symm.trans h.1) (by decide)
  have hnumber : RecurrenceRules.number (toString id).toList = some id := RecurrenceRules.number_repr id
  rw [sscanfUint, hspace, List.takeWhile_eq_self_iff.2 hdigits, hnumber, Option.filter_some,
    if_pos (by simpa using hid)]

/-- The subscription is read back from a key. -/
theorem parseActionSubscriptionID_key (hpos : 0 < id) (hid : id < 2 ^ 64) (ht : IsTrimmed t.toList)
    (hne : t.toList ≠ []) (q : String) :
    parseActionSubscriptionID (subscriptionActionKey id t q) = .ok id := by
  have hnum : ':' ∉ (toString id).toList := RecurrenceRules.notMem_repr (by decide) id
  have hsubscription : ':' ∉ "subscription".toList := by decide
  unfold parseActionSubscriptionID
  rw [(isTrimmed_key ht hne id q).trimSpace_eq, toList_subscriptionActionKey,
    List.splitOn_append_cons_self_of_not_mem hsubscription,
    List.splitOn_append_cons_self_of_not_mem hnum]
  obtain ⟨third, rest, hrest⟩ :=
    List.exists_cons_of_ne_nil (List.splitOn_ne_nil ':' (t.toList ++ qualifierPart q))
  rw [hrest]
  simp only [ne_eq, not_true_eq_false, if_false, sscanfUint_repr hid, hpos.ne']

end Keys

/-! ## Keys that differ -/

/-- The key spells the subscription and the type of the item. -/
def SubscriptionAction.Keyed (item : SubscriptionAction) (id : Nat) (type : String) : Prop :=
  item.subscriptionID = id ∧ ∃ qualifier, item.key = subscriptionActionKey id type qualifier

theorem colon_notMem_actionType : ∀ t ∈ actionTypes, ':' ∉ t.toList := by decide

theorem actionType_trimmed : ∀ t ∈ actionTypes, IsTrimmed t.toList ∧ t.toList ≠ [] := by
  have hall : ∀ t ∈ actionTypes, t.toList.head?.all (!isSpace ·) = true ∧
      t.toList.getLast?.all (!isSpace ·) = true ∧ t.toList ≠ [] := by
    decide
  intro t ht
  obtain ⟨hhead, hlast, hne⟩ := hall t ht
  refine ⟨⟨fun c hc => ?_, fun c hc => ?_⟩, hne⟩
  · simpa using (Option.all_eq_true _ _).1 hhead c hc
  · simpa using (Option.all_eq_true _ _).1 hlast c hc

section Items
variable {store : ActionStore} {userID id id' : Nat} {now today windowEnd : Time}
  {item other : SubscriptionAction} {sub : Subscription}
  {t t' : String}

theorem SubscriptionAction.Keyed.eq (h : item.Keyed id t) (h' : other.Keyed id' t')
    (ht : t ∈ actionTypes) (ht' : t' ∈ actionTypes) (hkey : item.key = other.key) :
    id = id' ∧ t = t' := by
  obtain ⟨-, q, hq⟩ := h
  obtain ⟨-, q', hq'⟩ := h'
  rw [hq, hq', subscriptionActionKey_inj (colon_notMem_actionType t ht)
    (colon_notMem_actionType t' ht')] at hkey
  exact ⟨hkey.1, hkey.2.1⟩

theorem missingNextBilling_keyed {severity message detail : String} {allowedActions : List String} :
    SubscriptionAction.Keyed
      { newAction sub (subscriptionActionKey sub.id actionTypeMissingNextBilling "")
        actionTypeMissingNextBilling severity message detail
          allowedActions with needsRepair := true } sub.id actionTypeMissingNextBilling := by
  refine ⟨rfl, "", ?_⟩
  simp only [newAction]

theorem newScheduleAction_keyed {severity message detail : String}
    {needsDecision upcomingCharge : Bool} {dueDate : Time} {daysUntil : Int}
    {allowedActions : List String} :
    (newScheduleAction sub t severity needsDecision upcomingCharge dueDate daysUntil message detail
      allowedActions).Keyed sub.id t := by
  refine ⟨rfl, dueDate.formatDate, ?_⟩
  simp only [newScheduleAction, newAction]

/-- A subscription has at most one item for its dates. -/
theorem scheduleActions_cases (sub : Subscription) (today windowEnd : Time) :
    subscriptionScheduleActions sub today windowEnd = [] ∨
    ∃ item, subscriptionScheduleActions sub today windowEnd = [item] ∧ ∃ t ∈ scheduleTypes,
    item.Keyed sub.id t := by
  unfold subscriptionScheduleActions
  split
  · exact .inl rfl
  · split
    · exact .inr ⟨_, rfl, actionTypeMissingNextBilling, by decide, missingNextBilling_keyed⟩
    · dsimp only
      split
      · exact .inl rfl
      · split
        · split
          · exact .inl rfl
          · exact .inr ⟨_, rfl, actionTypeManualRenewalDue, by decide, newScheduleAction_keyed⟩
        · split
          · split <;> split
            · exact .inl rfl
            · exact .inr ⟨_, rfl, actionTypeEndingSoon, by decide, newScheduleAction_keyed⟩
            · exact .inl rfl
            · exact .inr ⟨_, rfl, actionTypeEndingSoon, by decide, newScheduleAction_keyed⟩
          · split
            · exact .inl rfl
            · exact .inr ⟨_, rfl, actionTypeUpcomingRenewal, by decide, newScheduleAction_keyed⟩

/-- The rows that the items are made of. -/
def Owned (store : ActionStore) (userID id : Nat) : Prop :=
  ∃ row ∈ store.subs, row.userID = userID ∧ row.id = id

def shownSubscriptions (store : ActionStore) (userID : Nat) (now : Time) : List Subscription :=
  (store.subs.filter (·.userID = userID)).map fun sub => presentSubscriptionForResponse sub
    (store.updatedAt sub.id) now

def scheduleItems (store : ActionStore) (userID : Nat) (now : Time) : List SubscriptionAction :=
  (shownSubscriptions store userID now).flatMap
    (subscriptionScheduleActions · (normalizeDateUTC now)
      ((normalizeDateUTC now).addDays actionCenterUpcomingDays))

theorem actionItems_eq (store : ActionStore) (userID : Nat) (now : Time) : actionItems store userID now =
    scheduleItems store userID now ++ notificationFailureActions store userID (normalizeDateUTC now) ++
      priceIncreaseActions store userID (normalizeDateUTC now) := rfl

theorem owned_of_shown (h : sub ∈ shownSubscriptions store userID now) : Owned store userID sub.id := by
  obtain ⟨row, hrow, rfl⟩ := List.mem_map.1 h
  obtain ⟨hrow, huser⟩ := List.mem_filter.1 hrow
  exact ⟨row, hrow, by simpa using huser, (present_id ..).symm⟩

theorem scheduleItems_keyed (h : item ∈ scheduleItems store userID now) :
    ∃ id, Owned store userID id ∧ ∃ t ∈ scheduleTypes, item.Keyed id t := by
  obtain ⟨sub, hsub, hitem⟩ := List.mem_flatMap.1 h
  rcases scheduleActions_cases sub (normalizeDateUTC now)
    ((normalizeDateUTC now).addDays actionCenterUpcomingDays) with hnil | ⟨made, hmade, t, ht, hkeyed⟩
  · rw [hnil] at hitem
    cases hitem
  · rw [hmade] at hitem
    obtain rfl := List.mem_singleton.1 hitem
    exact ⟨sub.id, owned_of_shown hsub, t, ht, hkeyed⟩

theorem nodup_shown (hids : (store.subs.map (·.id)).Nodup) :
    ((shownSubscriptions store userID now).map (·.id)).Nodup := by
  unfold shownSubscriptions
  rw [List.map_map]
  have hmap : ((·.id) ∘ fun sub => presentSubscriptionForResponse sub
      (store.updatedAt sub.id) now) = fun sub : Subscription => sub.id := by
    funext sub
    exact present_id ..
  rw [hmap]
  exact hids.sublist (List.filter_sublist.map _)

theorem nodup_scheduleItems (hids : (store.subs.map (·.id)).Nodup) :
    ((scheduleItems store userID now).map (·.key)).Nodup := by
  have hshown : ((shownSubscriptions store userID now).map (·.id)).Nodup := nodup_shown hids
  unfold scheduleItems
  rw [List.map_flatMap, List.nodup_flatMap]
  rw [List.Nodup, List.pairwise_map] at hshown
  refine ⟨fun sub _ => ?_, hshown.imp fun {a b} hne => ?_⟩
  · rcases scheduleActions_cases sub (normalizeDateUTC now)
      ((normalizeDateUTC now).addDays actionCenterUpcomingDays) with h | ⟨item, h, -⟩ <;>
      rw [h]
    · exact List.nodup_nil
    · exact List.nodup_singleton _
  · rw [Function.onFun, List.disjoint_left]
    intro key hkey hkey'
    obtain ⟨item, hitem, rfl⟩ := List.mem_map.1 hkey
    obtain ⟨other, hother, hsame⟩ := List.mem_map.1 hkey'
    rcases scheduleActions_cases a (normalizeDateUTC now)
      ((normalizeDateUTC now).addDays actionCenterUpcomingDays) with h | ⟨made, h, t, ht, hkeyed⟩ <;>
      rw [h] at hitem
    · cases hitem
    · rcases scheduleActions_cases b (normalizeDateUTC now)
        ((normalizeDateUTC now).addDays actionCenterUpcomingDays)
        with h' | ⟨made', h', t', ht', hkeyed'⟩ <;>
        rw [h'] at hother
      · cases hother
      · obtain rfl := List.mem_singleton.1 hitem
        obtain rfl := List.mem_singleton.1 hother
        exact hne (hkeyed.eq hkeyed' (List.mem_append_left _ ht)
          (List.mem_append_left _ ht') hsame.symm).1

theorem failureActions_keyed (hids : (store.subs.map (·.id)).Nodup)
    (h : item ∈ notificationFailureActions store userID today) :
    ∃ id, Owned store userID id ∧ item.Keyed id actionTypeNotificationFailed := by
  obtain ⟨log, shown, rfl, -, -, row, hrow, huser, hid, hshown, -⟩ :=
    (mem_notificationFailureActions hids).1 h
  refine ⟨log.subscriptionID, ⟨row, hrow, huser, hid⟩, ?_, log.channelType, rfl⟩
  rw [failureAction_subscriptionID, hshown, present_id, hid]

/-- The changes that are kept are changes of different subscriptions. -/
theorem nodup_priceChanges (events : List SubscriptionEvent) (seen : List Nat) :
    ((priceChanges events seen).map (·.subscriptionID)).Nodup ∧ ∀ change ∈ priceChanges events seen,
    change.subscriptionID ∉ seen := by
  induction events generalizing seen with
  | nil => exact ⟨List.nodup_nil, by simp [priceChanges]⟩
  | cons event events ih =>
    unfold priceChanges
    split
    · rename_i subscriptionID previous current _ _ _
      dsimp only
      split
      · exact ih seen
      · split
        · exact ih seen
        · rename_i hseen
          obtain ⟨hnodup, hfresh⟩ := ih (subscriptionID :: seen)
          have hrest : ∀ change ∈ priceChanges events (subscriptionID :: seen),
              change.subscriptionID ∉ seen :=
            fun change hchange hmem => hfresh change hchange (List.mem_cons_of_mem _ hmem)
          split
          · exact ⟨hnodup, hrest⟩
          · refine ⟨List.nodup_cons.2 ⟨fun hmem => ?_, hnodup⟩, fun change hchange => ?_⟩
            · obtain ⟨change, hchange, hid⟩ := List.mem_map.1 hmem
              exact hfresh change hchange (hid ▸ List.mem_cons_self)
            · rcases List.mem_cons.1 hchange with rfl | hchange
              · exact hseen
              · exact hrest change hchange
    · exact ih seen

theorem priceIncreaseAction_keyed (sub : Subscription) (change : PriceChange) :
    (priceIncreaseAction sub change).Keyed sub.id actionTypePriceIncrease := by
  refine ⟨rfl, change.event.createdAt.formatDate, ?_⟩
  simp only [priceIncreaseAction, newAction]

/-- A change has an item where its subscription is the user's. -/
theorem priceItem_of_change {ids : List Nat} {change : PriceChange}
    (hids : (store.subs.map (·.id)).Nodup)
    (h : activeItem (loadSubscription store userID change.subscriptionID ids today)
      (fun sub => priceIncreaseAction sub change) = some item) :
    Owned store userID change.subscriptionID ∧
    item.Keyed change.subscriptionID actionTypePriceIncrease := by
  obtain ⟨sub, hload, -, rfl⟩ := activeItem_eq_some.1 h
  obtain ⟨-, row, hrow, huser, hid, hsub⟩ := (loadSubscription_iff hids).1 hload
  have hsame : sub.id = change.subscriptionID := by rw [hsub, present_id, hid]
  exact ⟨⟨row, hrow, huser, hid⟩, hsame ▸ priceIncreaseAction_keyed sub change⟩

theorem priceActions_keyed (hids : (store.subs.map (·.id)).Nodup)
    (h : item ∈ priceIncreaseActions store userID today) :
    ∃ id, Owned store userID id ∧ item.Keyed id actionTypePriceIncrease := by
  obtain ⟨change, -, hitem⟩ := List.mem_filterMap.1 h
  exact ⟨_, priceItem_of_change hids hitem⟩

theorem nodup_priceActions (hids : (store.subs.map (·.id)).Nodup) :
    ((priceIncreaseActions store userID today).map (·.key)).Nodup := by
  have hsubs : ((priceIncreaseActions store userID today).map (·.subscriptionID)).Nodup := by
    refine nodup_map_filterMap (fun change item hitem => ?_) (nodup_priceChanges _ []).1
    exact (priceItem_of_change hids hitem).2.1
  rw [List.Nodup, List.pairwise_map] at hsubs ⊢
  refine hsubs.imp_of_mem ?_
  intro a b ha hb hne hkey
  obtain ⟨id, -, hkeyed⟩ := priceActions_keyed hids ha
  obtain ⟨id', -, hkeyed'⟩ := priceActions_keyed hids hb
  refine hne ?_
  rw [hkeyed.1, hkeyed'.1, (hkeyed.eq hkeyed' (by decide) (by decide) hkey).1]

/-- Every item has a key of its subscription, which is the user's. -/
theorem actionItems_keyed (hids : (store.subs.map (·.id)).Nodup)
    (h : item ∈ actionItems store userID now) :
    ∃ id, Owned store userID id ∧ ∃ t ∈ actionTypes, item.Keyed id t := by
  rw [actionItems_eq] at h
  rcases List.mem_append.1 h with h | h
  · rcases List.mem_append.1 h with h | h
    · obtain ⟨id, howned, t, ht, hkeyed⟩ := scheduleItems_keyed h
      exact ⟨id, howned, t, List.mem_append_left _ ht, hkeyed⟩
    · obtain ⟨id, howned, hkeyed⟩ := failureActions_keyed hids h
      exact ⟨id, howned, _, by decide, hkeyed⟩
  · obtain ⟨id, howned, hkeyed⟩ := priceActions_keyed hids h
    exact ⟨id, howned, _, by decide, hkeyed⟩

/-- No two items have one key. -/
theorem nodup_actionItems (hids : (store.subs.map (·.id)).Nodup) :
    ((actionItems store userID now).map (·.key)).Nodup := by
  rw [actionItems_eq, List.map_append, List.map_append]
  refine List.nodup_append.2
    ⟨List.nodup_append.2 ⟨nodup_scheduleItems hids, nodup_failureKeys, ?_⟩, nodup_priceActions hids, ?_⟩
  · intro k hk k' hk' hsame
    obtain ⟨item, hitem, rfl⟩ := List.mem_map.1 hk
    obtain ⟨other, hother, rfl⟩ := List.mem_map.1 hk'
    obtain ⟨id, -, t, ht, hkeyed⟩ := scheduleItems_keyed hitem
    obtain ⟨id', -, hkeyed'⟩ := failureActions_keyed hids hother
    obtain ⟨-, rfl⟩ := hkeyed.eq hkeyed' (List.mem_append_left _ ht) (by decide) hsame
    exact absurd ht (by decide)
  · intro k hk k' hk' hsame
    obtain ⟨other, hother, rfl⟩ := List.mem_map.1 hk'
    obtain ⟨id', -, hkeyed'⟩ := priceActions_keyed hids hother
    rcases List.mem_append.1 hk with hk | hk
    · obtain ⟨item, hitem, rfl⟩ := List.mem_map.1 hk
      obtain ⟨id, -, t, ht, hkeyed⟩ := scheduleItems_keyed hitem
      obtain ⟨-, rfl⟩ := hkeyed.eq hkeyed' (List.mem_append_left _ ht) (by decide) hsame
      exact absurd ht (by decide)
    · obtain ⟨item, hitem, rfl⟩ := List.mem_map.1 hk
      obtain ⟨id, -, hkeyed⟩ := failureActions_keyed hids hitem
      exact absurd (hkeyed.eq hkeyed' (by decide) (by decide) hsame).2 (by decide)

end Items

/-! ## What a snooze changes -/

/-- Ids are primary keys, and a snooze belongs to the subscription that its key spells. -/
structure ActionStore.WellFormed (store : ActionStore) : Prop where
  ids : (store.subs.map (·.id)).Nodup
  words : ∀ sub ∈ store.subs, 0 < sub.id ∧ sub.id < 2 ^ 64
  snoozes : ∀ snooze ∈ store.snoozes,
    parseActionSubscriptionID snooze.actionKey = .ok snooze.subscriptionID

/-- The snoozes that hide a key from a user. -/
def snoozesOf (store : ActionStore) (userID : Nat) (key : String) : List SubscriptionActionSnooze :=
  store.snoozes.filter fun snooze => snooze.userID = userID ∧ snooze.actionKey = key

section Snoozes
variable {store : ActionStore} {userID subscriptionID : Nat} {today now savedAt u : Time}
  {key other : String}

theorem activeActionSnooze_eq : activeActionSnooze store userID today key =
    ((snoozesOf store userID key).filter fun snooze => snooze.snoozedUntil.after today).getLast? := by
  unfold activeActionSnooze snoozesOf
  rw [← List.head?_filter, List.filter_reverse, List.head?_reverse, List.filter_filter,
    List.filter_filter]
  congr 2
  funext snooze
  by_cases huser : snooze.userID = userID <;> by_cases hkey : snooze.actionKey = key <;> simp
    [huser, hkey]

/-- A key is hidden by its own snoozes only. -/
theorem isSnoozed_congr {store' : ActionStore}
    (h : snoozesOf store' userID key = snoozesOf store userID key) :
    isSnoozed store' userID today key = isSnoozed store userID today key := by
  unfold isSnoozed
  rw [activeActionSnooze_eq, activeActionSnooze_eq, h]

theorem isSnoozed_of_none (h : snoozesOf store userID key = []) :
    isSnoozed store userID today key = false := by
  unfold isSnoozed
  rw [activeActionSnooze_eq, h]
  rfl

/-- A snooze that ends at a midnight hides its key on the days before it. -/
theorem isSnoozed_of_all {d n : Int} (hne : snoozesOf store userID key ≠ [])
    (hall : ∀ snooze ∈ snoozesOf store userID key, snooze.snoozedUntil = midnight n) :
    isSnoozed store userID (midnight d) key = decide (d < n) := by
  unfold isSnoozed
  rw [activeActionSnooze_eq]
  by_cases hday : d < n
  · have hfilter : (snoozesOf store userID key).filter
        (fun snooze => snooze.snoozedUntil.after (midnight d)) = snoozesOf store userID key := by
      rw [List.filter_eq_self]
      intro snooze hsnooze
      rw [hall snooze hsnooze, midnight_after, decide_eq_true hday]
    rw [hfilter, List.getLast?_eq_some_getLast hne, Option.any_some, hall _ (List.getLast_mem hne),
      normalizeDateUTC_eq, midnight_day,
      midnight_after]
  · have hfilter : (snoozesOf store userID key).filter
        (fun snooze => snooze.snoozedUntil.after (midnight d)) = [] := by
      rw [List.filter_eq_nil_iff]
      intro snooze hsnooze
      rw [hall snooze hsnooze, midnight_after, decide_eq_true_eq]
      exact hday
    rw [hfilter, decide_eq_false hday]
    rfl

/-- The write sets the row of the three columns, and there is one afterwards. -/
theorem upsertSnooze_spec (userID subscriptionID : Nat) (key : String) (u savedAt : Time)
    (store : ActionStore) :
    ∃ snoozes nextSnoozeID, upsertSnooze userID subscriptionID key u savedAt store =
        { store with snoozes := snoozes, nextSnoozeID := nextSnoozeID } ∧
      snoozes.filter (fun snooze => !snoozeAt userID subscriptionID key snooze) =
        store.snoozes.filter (fun snooze => !snoozeAt userID subscriptionID key snooze) ∧
      (∃ snooze ∈ snoozes, snoozeAt userID subscriptionID key snooze = true) ∧
      ∀ snooze ∈ snoozes, snoozeAt userID subscriptionID key snooze = true →
        snooze.snoozedUntil = u := by
  have hcolumns : ∀ snooze : SubscriptionActionSnooze,
      snoozeAt userID subscriptionID key
        { snooze with snoozedUntil := u, updatedAt := savedAt } = snoozeAt userID subscriptionID key
        snooze :=
    fun _ => rfl
  unfold upsertSnooze
  split
  · rename_i hnone
    -- the UPDATE matched no row, so one is inserted
    have hother := affected_eq_zero.1 hnone
    have hnew : snoozeAt userID subscriptionID key
        ⟨store.nextSnoozeID, userID, subscriptionID, key, u, savedAt, savedAt⟩ = true := by
          simp [snoozeAt]
    refine ⟨_, _, rfl, ?_, ⟨_, List.mem_append_right _ (List.mem_singleton_self _), hnew⟩, ?_⟩
    · rw [List.filter_append, List.filter_singleton, hnew]
      exact List.append_nil _
    · intro snooze hmem hat
      rcases List.mem_append.1 hmem with hmem | hmem
      · exact absurd (hat.symm.trans (hother snooze hmem)) (by decide)
      · rw [List.mem_singleton.1 hmem]
  · rename_i hsome
    refine ⟨_, _, rfl, ?_, ?_, ?_⟩
    · rw [updateWhere, List.filter_map]
      -- an update keeps the columns of the key, so it can be moved out of the filter
      have hcomp : (fun snooze => !snoozeAt userID subscriptionID key snooze) ∘
          (fun r : SubscriptionActionSnooze =>
          if snoozeAt userID subscriptionID key r = true
            then { r with snoozedUntil := u, updatedAt := savedAt } else r) =
          fun snooze => !snoozeAt userID subscriptionID key snooze := by
        funext r
        rw [Function.comp_apply]
        split
        · rw [hcolumns]
        · rfl
      rw [hcomp]
      refine (List.map_congr_left fun r hr => ?_).trans (List.map_id _)
      have hat := (List.mem_filter.1 hr).2
      rw [Bool.not_eq_true'] at hat
      rw [hat]
      rfl
    · obtain ⟨snooze, hmem, hat⟩ : ∃ snooze ∈ store.snoozes,
          snoozeAt userID subscriptionID key snooze = true := by
        by_contra hnot
        exact hsome (affected_eq_zero.2 fun r hr => Bool.eq_false_iff.2 fun h => hnot ⟨r, hr, h⟩)
      exact ⟨_, mem_updateWhere_of hmem hat, (hcolumns snooze).trans hat⟩
    · intro snooze hmem hat
      rcases mem_updateWhere_cases hmem with ⟨-, hnot⟩ | ⟨r, -, -, rfl⟩
      · exact absurd (hat.symm.trans hnot) (by decide)
      · rfl

theorem resolve_midnight {input : SnoozeSubscriptionActionInput}
    (h : resolveActionSnoozeUntil input now = .ok u) : u = midnight u.day := by
  unfold resolveActionSnoozeUntil at h
  split at h
  · split at h
    · cases h
    · cases h
    · dsimp only at h
      split at h
      · cases h
      · rw [← Except.ok.inj h, normalizeDateUTC_eq, midnight_day]
  · rw [← Except.ok.inj h, normalizeDateUTC_eq, midnight_addDays, midnight_day]

end Snoozes

/-! ## One item is hidden -/

/-- The tables with no snooze of a key. -/
def withoutSnooze (store : ActionStore) (userID : Nat) (key : String) : ActionStore :=
  { store with
    snoozes := store.snoozes.filter fun snooze =>
      !decide (snooze.userID = userID ∧ snooze.actionKey = key) }

section Visible
variable {store : ActionStore} {userID id : Nat} {now later clock savedAt u : Time}
  {key other : String} {item : SubscriptionAction}
  {snoozes : List SubscriptionActionSnooze} {nextSnoozeID : Nat}

theorem snoozesOf_withoutSnooze_self : snoozesOf (withoutSnooze store userID key) userID key = [] := by
  simp only [snoozesOf, withoutSnooze, List.filter_filter, List.filter_eq_nil_iff, Bool.and_eq_true,
    Bool.not_eq_true',
    decide_eq_true_eq, decide_eq_false_iff_not]
  exact fun snooze _ h => h.2 h.1

theorem snoozesOf_withoutSnooze (hother : other ≠ key) :
    snoozesOf (withoutSnooze store userID key) userID other = snoozesOf store userID other := by
  simp only [snoozesOf, withoutSnooze, List.filter_filter]
  congr 1
  funext snooze
  by_cases hkey : snooze.actionKey = other
  · simp [hkey, hother]
  · simp [hkey]

/-- The snoozes of a key are all found by a filter that leaves another key's rows out. -/
theorem snoozesOf_filter (hother : other ≠ key) : snoozesOf store userID other =
    (store.snoozes.filter fun snooze => !snoozeAt userID id key snooze).filter fun snooze =>
    snooze.userID = userID ∧ snooze.actionKey = other := by
  simp only [snoozesOf, List.filter_filter]
  congr 1
  funext snooze
  by_cases hkey : snooze.actionKey = other
  · simp [snoozeAt, hkey, hother]
  · simp [hkey]

/-- A user sees the same items but the one that is hidden. -/
theorem visibleActions_of_snooze (hids : (store.subs.map (·.id)).Nodup)
    (hother : ∀ k, k ≠ key →
      snoozesOf { store with snoozes := snoozes, nextSnoozeID := nextSnoozeID } userID k =
      snoozesOf store userID k)
    (hne : snoozesOf { store with snoozes := snoozes, nextSnoozeID := nextSnoozeID } userID key ≠ [])
    (hall : ∀ snooze ∈ snoozesOf
      { store with snoozes := snoozes, nextSnoozeID := nextSnoozeID } userID key,
      snooze.snoozedUntil = midnight u.day) :
    visibleActions { store with snoozes := snoozes, nextSnoozeID := nextSnoozeID } userID later =
      if later.day < u.day then
        (visibleActions (withoutSnooze store userID key) userID later).filter (·.key ≠ key)
      else visibleActions (withoutSnooze store userID key) userID later := by
  have hitems : actionItems
      (withoutSnooze store userID key) userID later = actionItems store userID later := rfl
  have hitems' : actionItems
      { store with snoozes := snoozes, nextSnoozeID := nextSnoozeID } userID later =
      actionItems store userID later := rfl
  have hhidden : ∀ k, k ≠ key →
      isSnoozed { store with snoozes := snoozes, nextSnoozeID := nextSnoozeID } userID
      (midnight later.day) k =
      isSnoozed (withoutSnooze store userID key) userID (midnight later.day) k := by
    intro k hk
    rw [isSnoozed_congr (hother k hk), isSnoozed_congr (snoozesOf_withoutSnooze hk)]
  have hclean : isSnoozed (withoutSnooze store userID key) userID (midnight later.day) key = false :=
    isSnoozed_of_none snoozesOf_withoutSnooze_self
  have hkey := isSnoozed_of_all (d := later.day) hne hall
  have hnodup : ((actionItems store userID later).map (·.key)).Nodup := nodup_actionItems hids
  simp only [visibleActions, hitems, hitems', normalizeDateUTC_eq]
  split
  · rename_i hday
    rw [sortActions_filter (hnodup.sublist (List.filter_sublist.map _)), List.filter_filter]
    congr 2
    funext item
    by_cases hitem : item.key = key
    · simp [hitem, hkey, hday]
    · simp [hitem, hhidden item.key hitem]
  · rename_i hday
    congr 2
    funext item
    by_cases hitem : item.key = key
    · simp [hitem, hkey, hday, hclean]
    · rw [hhidden item.key hitem]

/-- A request for the key of an item finds its subscription, and saves. -/
theorem snoozeAction_eq {input : SnoozeSubscriptionActionInput} (hstore : store.WellFormed)
    (howned : Owned store userID id) (ht : t ∈ actionTypes) (hitem : item.Keyed id t)
    (hinput : input.key = item.key) (hu : resolveActionSnoozeUntil input clock = .ok u)
    (savedAt : Time) :
    parseActionSubscriptionID item.key = .ok id ∧
    ∃ saved, snoozeAction userID input clock savedAt store =
    (.ok saved, upsertSnooze userID id item.key u savedAt store) ∧
      saved ∈ (upsertSnooze userID id item.key u savedAt store).snoozes ∧
        snoozeAt userID id item.key saved = true := by
  obtain ⟨row, hrow, huser, rfl⟩ := howned
  obtain ⟨hpos, hword⟩ := hstore.words row hrow
  obtain ⟨-, q, hkey⟩ := hitem
  obtain ⟨htrimmed, hne⟩ := actionType_trimmed t ht
  have hparse : parseActionSubscriptionID item.key = .ok row.id :=
    hkey ▸ parseActionSubscriptionID_key hpos hword htrimmed hne q
  have htrim : trimSpace input.key = item.key := by
    rw [hinput, hkey]
    exact (isTrimmed_key htrimmed hne row.id q).trimSpace_eq
  have hfound : (store.subs.find? fun sub => sub.id = row.id ∧ sub.userID = userID).isNone = false := by
    rw [Option.isNone_eq_false_iff, List.find?_isSome]
    exact ⟨row, hrow, by simpa using huser⟩
  obtain ⟨snoozes, nextSnoozeID, hupsert, -, ⟨snooze, hsnooze, hat⟩, -⟩ :=
    upsertSnooze_spec userID row.id item.key u savedAt store
  obtain ⟨saved, hsaved⟩ : ∃ saved,
      (upsertSnooze userID row.id item.key u savedAt store).snoozes.find?
      (snoozeAt userID row.id item.key) =
      some saved := by
    rw [hupsert]
    exact Option.isSome_iff_exists.1 (List.find?_isSome.2 ⟨snooze, hsnooze, hat⟩)
  refine ⟨hparse, saved, ?_, List.mem_of_find?_eq_some hsaved, List.find?_some hsaved⟩
  unfold snoozeAction
  simp only [htrim, hparse, hfound, Bool.false_eq_true, if_false, hu, hsaved]

/-- A snooze belongs to the subscription of its key, whatever is asked for. -/
theorem snoozeAction_wellFormed (hstore : store.WellFormed) (userID : Nat)
    (input : SnoozeSubscriptionActionInput) (clock savedAt : Time) :
    (snoozeAction userID input clock savedAt store).2.WellFormed := by
  unfold snoozeAction
  dsimp only
  split
  · exact hstore
  · rename_i id hparse
    split
    · exact hstore
    · split
      · exact hstore
      · rename_i u _
        have hupsert : (upsertSnooze userID id (trimSpace input.key) u savedAt store).WellFormed := by
          unfold upsertSnooze
          split
          · refine ⟨hstore.ids, hstore.words, fun snooze hmem => ?_⟩
            rcases List.mem_append.1 hmem with hmem | hmem
            · exact hstore.snoozes snooze hmem
            · rw [List.mem_singleton.1 hmem]
              exact hparse
          · refine ⟨hstore.ids, hstore.words, fun snooze hmem => ?_⟩
            rcases mem_updateWhere_cases hmem with ⟨hmem, -⟩ | ⟨row, hrow, -, rfl⟩
            · exact hstore.snoozes snooze hmem
            · exact hstore.snoozes row hrow
        split
        · exact hupsert
        · exact hupsert

/-- **A snooze hides one item.** The items have different keys; a snooze of one succeeds and writes
one row, and from then on that item is missing before the date, and no other item ever is. -/
theorem snooze_hides_one (store : ActionStore) (hstore : store.WellFormed) (userID : Nat) (now : Time) :
    ((actionItems store userID now).map (·.key)).Nodup ∧
    ∀ item ∈ actionItems store userID now, ∀ input clock savedAt u, input.key = item.key →
    resolveActionSnoozeUntil input clock = .ok u →
      ∃ saved snoozes nextSnoozeID, snoozeAction userID input clock savedAt store =
          (.ok saved, { store with snoozes := snoozes, nextSnoozeID := nextSnoozeID }) ∧
        saved ∈ snoozes ∧ saved.snoozedUntil = u ∧
          snoozeAt userID item.subscriptionID item.key saved = true ∧
        snoozes.filter (fun snooze => !snoozeAt userID item.subscriptionID item.key snooze) =
          store.snoozes.filter (fun snooze => !snoozeAt userID item.subscriptionID item.key snooze) ∧
        ∀ later, visibleActions
          { store with snoozes := snoozes, nextSnoozeID := nextSnoozeID } userID later =
          if (normalizeDateUTC later).before u then
            (visibleActions (withoutSnooze store userID item.key) userID later).filter (·.key ≠ item.key)
          else visibleActions (withoutSnooze store userID item.key) userID later := by
  refine ⟨nodup_actionItems hstore.ids, ?_⟩
  intro item hitem input clock savedAt u hinput hu
  obtain ⟨id, howned, t, ht, hkeyed⟩ := actionItems_keyed hstore.ids hitem
  obtain rfl := hkeyed.1
  obtain ⟨hparse, saved, haction, hsaved, hat⟩ :=
    snoozeAction_eq hstore howned ht hkeyed hinput hu savedAt
  obtain ⟨snoozes, nextSnoozeID, hupsert, hothers, ⟨snooze, hsnooze, hone⟩, huntil⟩ :=
    upsertSnooze_spec userID item.subscriptionID item.key u savedAt store
  rw [hupsert] at haction hsaved
  have hmidnight := resolve_midnight hu
  refine ⟨saved, snoozes, nextSnoozeID, haction, hsaved, huntil saved hsaved hat, hat, hothers,
    fun later => ?_⟩
  have hbefore : (normalizeDateUTC later).before u = decide (later.day < u.day) := by
    rw [hmidnight, normalizeDateUTC_eq, midnight_before, midnight_day]
  simp only [hbefore, decide_eq_true_eq]
  refine visibleActions_of_snooze hstore.ids ?_ ?_ ?_
  · intro k hk
    rw [snoozesOf_filter hk, snoozesOf_filter hk, hothers]
  · refine List.ne_nil_of_mem (List.mem_filter.2 ⟨hsnooze, ?_⟩)
    simp only [snoozeAt, decide_eq_true_eq] at hone
    simpa using ⟨hone.1, hone.2.2⟩
  · -- a row with this key is the row that was written: the key spells its subscription
    intro row hrow
    obtain ⟨hmem, hrow⟩ := List.mem_filter.1 hrow
    simp only [decide_eq_true_eq] at hrow
    rw [← hmidnight]
    refine huntil row hmem ?_
    cases hrowAt : snoozeAt userID item.subscriptionID item.key row with
    | true => rfl
    | false =>
      have hold : row ∈ store.snoozes.filter fun snooze =>
          !snoozeAt userID item.subscriptionID item.key snooze := by
        rw [← hothers]
        exact List.mem_filter.2 ⟨hmem, by rw [hrowAt]; rfl⟩
      have hspelt := hstore.snoozes row (List.mem_filter.1 hold).1
      rw [hrow.2, hparse] at hspelt
      simp [snoozeAt, hrow, Except.ok.inj hspelt] at hrowAt

end Visible

/-- A renewal that is snoozed for a week on 20 January is gone on the 21st, and back on the 27th. -/
theorem snooze_hides_one_sample : ∃ saved snoozes nextSnoozeID,
    snoozeAction 1 ⟨"subscription:1:upcoming_renewal:2025-01-31", 0, ""⟩ (dateUTC 2025 1 20)
    (dateUTC 2025 1 20) sampleActions =
      (.ok saved, { sampleActions with snoozes := snoozes, nextSnoozeID := nextSnoozeID }) ∧
    (visibleActions { sampleActions with snoozes := snoozes, nextSnoozeID := nextSnoozeID } 1
      (dateUTC 2025 1 21)).map (·.key) =
      ["subscription:1:notification_failed:smtp"] ∧
    (visibleActions { sampleActions with snoozes := snoozes, nextSnoozeID := nextSnoozeID } 1
      (dateUTC 2025 1 27)).map (·.key) =
      ["subscription:1:notification_failed:smtp", "subscription:1:upcoming_renewal:2025-01-31"] := by
  have hstore : sampleActions.WellFormed := ⟨by decide, by decide, by decide⟩
  have hany : ((actionItems sampleActions 1 (dateUTC 2025 1 20)).any
      (·.key = "subscription:1:upcoming_renewal:2025-01-31")) = true := by
    decide +kernel
  obtain ⟨item, hitem, hkey⟩ := List.any_eq_true.1 hany
  simp only [decide_eq_true_eq] at hkey
  have hu : resolveActionSnoozeUntil ⟨"subscription:1:upcoming_renewal:2025-01-31", 0, ""⟩
      (dateUTC 2025 1 20) =
      .ok (dateUTC 2025 1 27) := by decide +kernel
  obtain ⟨saved, snoozes, nextSnoozeID, haction, -, -, -, -, hvisible⟩ :=
    (snooze_hides_one sampleActions hstore 1 (dateUTC 2025 1 20)).2 item hitem
    _ _ (dateUTC 2025 1 20) _ hkey.symm hu
  refine ⟨saved, snoozes, nextSnoozeID, haction, ?_, ?_⟩
  · rw [hvisible, hkey]
    decide +kernel
  · rw [hvisible, hkey]
    decide +kernel

end Subdux
