import Subdux.Lib.ContentLines
import Subdux.Lifecycle
/-!
# The calendar feed

`internal/service/calendar.go`: one `VEVENT` for each active subscription, its
content lines folded at 75 octets. `icalFeed_eq` says that the feed is the lines of
`feedLines`, folded and ended, and `icalFeed_lossless` what a reader gets back.
-/

namespace Subdux
open ContentLines

/-! ## Texts -/

/-- `strings.ReplaceAll(s, old, new)` for one character. -/
def replaceAll (old : Char) (new s : String) : String :=
  String.ofList (s.toList.flatMap fun c => if c = old then new.toList else [c])

def icalEscape (s : String) : String :=
  replaceAll '\r' ""
    (replaceAll '\n' "\\n" (replaceAll ',' "\\," (replaceAll ';' "\\;" (replaceAll '\\' "\\\\" s))))

def icalMaxOctets : Nat := 75

def icalFold (line : String) : String :=
  if line.utf8ByteSize ≤ icalMaxOctets then line
    else String.ofList (foldFrom icalMaxOctets 0 line.toList)

/-- `t.Format("20060102")`. -/
def formatICalDate (t : Time) : String :=
  zeroPadded 4 t.year ++ zeroPadded 2 t.month ++ zeroPadded 2 t.dayOfMonth

/-- `fmt.Sprintf("%.2f", amount)`: the nearest number of hundredths, ties to the even one. -/
def formatAmount (amount : Rat) : String :=
  let scaled := amount.num.natAbs * 100
  let down := scaled / amount.den
  let rest := 2 * (scaled % amount.den)
  let cents := if amount.den < rest ∨ (rest = amount.den ∧ down % 2 = 1) then down + 1 else down
  (if amount < 0 then "-" else "") ++ (cents / 100).repr ++ "." ++ zeroPadded 2 (cents % 100 : Nat)

example : formatAmount (1999 / 200) = "10.00" ∧ formatAmount (-1 / 8) = "-0.12" := by decide +kernel

def buildRRule (sub : Subscription) : String :=
  if sub.recurrenceType = recurrenceTypeInterval then
    match sub.intervalCount with
    | none => ""
    | some count =>
      if sub.intervalUnit = intervalUnitDay then "FREQ=DAILY;INTERVAL=" ++ toString count
      else if sub.intervalUnit = intervalUnitWeek then "FREQ=WEEKLY;INTERVAL=" ++ toString count
      else if sub.intervalUnit = intervalUnitMonth then "FREQ=MONTHLY;INTERVAL=" ++ toString count
      else if sub.intervalUnit = intervalUnitYear then "FREQ=YEARLY;INTERVAL=" ++ toString count
      else ""
  else if sub.recurrenceType = recurrenceTypeMonthlyDate then
    match sub.monthlyDay with
    | none => ""
    | some day => "FREQ=MONTHLY;BYMONTHDAY=" ++ toString day
  else if sub.recurrenceType = recurrenceTypeYearlyDate then
    match sub.yearlyMonth, sub.yearlyDay with
    | some month, some day => "FREQ=YEARLY;BYMONTH=" ++ toString month ++ ";BYMONTHDAY=" ++ toString day
    | _, _ => ""
  else ""

/-! ## The feed -/

/-- `subscription_dashboard.go`. -/
def presentActiveSubscriptions (updatedAt : Subscription → Time) (subs : List Subscription)
    (now : Time) : List Subscription :=
  (subs.map fun sub => presentSubscriptionForResponse sub (updatedAt sub) now).filter
    subscriptionIsActive

def getSubscriptionsForCalendar (updatedAt : Subscription → Time) (userID : Nat) (now : Time)
    (rows : List Subscription) :
    List Subscription :=
  let subs := rows.filter fun sub =>
    sub.userID = userID ∧ sub.status = subscriptionStatusActive ∧
      sub.renewalMode ≠ renewalModeCancelAtPeriodEnd ∧
      sub.nextBillingDate.isSome
  let nanos := fun sub : Subscription => (sub.nextBillingDate.map Time.nanos).getD 0
  presentActiveSubscriptions updatedAt (subs.mergeSort fun a b => nanos a ≤ nanos b) now

def crlf : String := "\r\n"

/-- The rule of a subscription's event; `""` is none. -/
def eventRRule (sub : Subscription) : String :=
  if sub.billingType = billingTypeRecurring ∧
    normalizeRenewalMode sub.renewalMode = renewalModeAutoRenew ∧
      isRecurringScheduleValid sub then
    buildRRule sub
  else ""

def eventSummary (sub : Subscription) : String :=
  sub.name ++ " - " ++ formatAmount sub.amount ++ " " ++ sub.currency

/-- The body of the loop. -/
def icalEvent (sub : Subscription) : String :=
  match sub.nextBillingDate with
  | none => ""
  | some nextBillingDate =>
    let dateStr := formatICalDate nextBillingDate.utc
    "BEGIN:VEVENT" ++ crlf ++ (icalFold ("UID:subdux-sub-" ++ sub.id.repr ++ "@subdux") ++ crlf) ++
      (icalFold ("DTSTART;VALUE=DATE:" ++ dateStr) ++ crlf) ++
        (icalFold ("DTEND;VALUE=DATE:" ++ dateStr) ++ crlf) ++
      (icalFold ("SUMMARY:" ++ icalEscape (eventSummary sub)) ++ crlf) ++
      (if sub.notes ≠ "" then icalFold ("DESCRIPTION:" ++ icalEscape sub.notes) ++ crlf else "") ++
      (if eventRRule sub ≠ "" then icalFold ("RRULE:" ++ eventRRule sub) ++ crlf else "") ++
      ("END:VEVENT" ++ crlf)

/-- What `GenerateICalFeed` writes for the subscriptions it has read. -/
def icalFeed (subs : List Subscription) : String :=
  "BEGIN:VCALENDAR" ++ crlf ++ ("VERSION:2.0" ++ crlf) ++ ("PRODID:-//Subdux//Calendar//EN" ++ crlf) ++
    (icalFold "X-WR-CALNAME:Subdux Subscriptions" ++ crlf) ++ ("CALSCALE:GREGORIAN" ++ crlf) ++
      ("METHOD:PUBLISH" ++ crlf) ++
    String.join (subs.map icalEvent) ++ ("END:VCALENDAR" ++ crlf)

def generateICalFeed (updatedAt : Subscription → Time) (userID : Nat) (now : Time)
    (rows : List Subscription) : String :=
  icalFeed (getSubscriptionsForCalendar updatedAt userID now rows)

/-! ## The lines of the feed -/

def feedHeader : List String :=
  ["BEGIN:VCALENDAR", "VERSION:2.0", "PRODID:-//Subdux//Calendar//EN",
   "X-WR-CALNAME:Subdux Subscriptions",
    "CALSCALE:GREGORIAN", "METHOD:PUBLISH"]

/-- The property lines of a subscription's event. -/
def eventLines (sub : Subscription) : List String :=
  match sub.nextBillingDate with
  | none => []
  | some nextBillingDate =>
    let dateStr := formatICalDate nextBillingDate.utc
    ["BEGIN:VEVENT", "UID:subdux-sub-" ++ sub.id.repr ++ "@subdux", "DTSTART;VALUE=DATE:" ++ dateStr,
        "DTEND;VALUE=DATE:" ++ dateStr, "SUMMARY:" ++ icalEscape (eventSummary sub)] ++
      (if sub.notes ≠ "" then ["DESCRIPTION:" ++ icalEscape sub.notes] else []) ++
      (if eventRRule sub ≠ "" then ["RRULE:" ++ eventRRule sub] else []) ++ ["END:VEVENT"]

def feedLines (subs : List Subscription) : List String :=
  feedHeader ++ subs.flatMap eventLines ++ ["END:VCALENDAR"]

section Lines
variable {s : String} {sub : Subscription}

/-- The characters of lines of text. -/
def chars (ls : List String) : List (List Char) := ls.map String.toList

theorem octets_toList (s : String) : octets s.toList = s.utf8ByteSize := by
  rw [← length_encode, encode, ← String.size_toByteArray]
  conv_rhs => rw [← String.ofList_toList (s := s), String.toByteArray_ofList, List.utf8Encode,
    List.size_toByteArray]

theorem toList_icalFold (s : String) : (icalFold s).toList = fold icalMaxOctets s.toList := by
  rw [icalFold, fold, octets_toList]
  split
  · rfl
  · exact String.toList_ofList

theorem toList_icalEscape (s : String) : (icalEscape s).toList = escape s.toList := by
  simp only [icalEscape, replaceAll, String.toList_ofList, List.flatMap_assoc, escape]
  congr 1
  funext c
  by_cases h1 : c = '\\'
  · subst h1; rfl
  by_cases h2 : c = ';'
  · subst h2; rfl
  by_cases h3 : c = ','
  · subst h3; rfl
  by_cases h4 : c = '\n'
  · subst h4; rfl
  by_cases h5 : c = '\r'
  · subst h5; rfl
  simp [escapeChar, h1, h2, h3, h4, h5]

/-- A text is lines, folded and ended. -/
def Written (s : String) (ls : List String) : Prop := s.toList = write icalMaxOctets (chars ls)

theorem Written.append {s t : String} {ls ms : List String} (hs : Written s ls) (ht : Written t ms) :
    Written (s ++ t) (ls ++ ms) := by
  rw [Written, String.toList_append, hs, ht, chars, chars, chars, List.map_append, write_append]

theorem written_nil : Written "" [] := rfl

theorem written_folded (l : String) : Written (icalFold l ++ crlf) [l] := by
  rw [Written, String.toList_append, toList_icalFold]
  simp [write, chars, crlf]

/-- A line that is never too long. -/
theorem written_short {l : String} (h : l.utf8ByteSize ≤ icalMaxOctets) : Written (l ++ crlf) [l] := by
  have := written_folded l
  rwa [icalFold, if_pos h] at this

theorem written_if (p : Prop) [Decidable p] {s : String} {ls : List String} (h : Written s ls) :
    Written (if p then s else "") (if p then ls else []) := by
  split
  · exact h
  · exact written_nil

theorem written_icalEvent (sub : Subscription) : Written (icalEvent sub) (eventLines sub) := by
  unfold icalEvent eventLines
  cases sub.nextBillingDate with
  | none => exact written_nil
  | some date =>
    exact (((((((written_short (by decide)).append (written_folded _)).append (written_folded _)).append
      (written_folded _)).append (written_folded _)).append (written_if _ (written_folded _))).append
      (written_if _ (written_folded _))).append (written_short (by decide))

/-- The feed is its lines, folded and ended. -/
theorem written_icalFeed (subs : List Subscription) : Written (icalFeed subs) (feedLines subs) := by
  have hevents : Written (String.join (subs.map icalEvent)) (subs.flatMap eventLines) := by
    induction subs with
    | nil => exact written_nil
    | cons sub subs ih =>
      rw [List.map_cons, String.join_cons, List.flatMap_cons]
      exact (written_icalEvent sub).append ih
  exact
    (((((((written_short (by decide)).append (written_short (by decide))).append
      (written_short (by decide))).append
    (written_folded _)).append (written_short (by decide))).append
      (written_short (by decide))).append hevents).append
    (written_short (by decide))

end Lines

/-! ## What a reader gets back -/

section Clean

theorem no_cr_repr (n : Nat) : '\r' ∉ n.repr.toList := by
  rw [Nat.toList_repr]
  intro h
  exact absurd (Nat.isDigit_of_mem_toDigits (by decide) (by decide) h) (by decide)

theorem no_cr_toString (n : Int) : '\r' ∉ (toString n).toList := by
  cases n with
  | ofNat n => exact no_cr_repr n
  | negSucc n =>
    have : (toString (Int.negSucc n)).toList = '-' :: n.succ.repr.toList := by
      rw [show toString (Int.negSucc n) = "-" ++ n.succ.repr from rfl, String.toList_append]
      rfl
    rw [this, List.mem_cons, not_or]
    exact ⟨by decide, no_cr_repr _⟩

theorem no_cr_append {s t : String} (hs : '\r' ∉ s.toList) (ht : '\r' ∉ t.toList) :
    '\r' ∉ (s ++ t).toList := by
  rw [String.toList_append, List.mem_append, not_or]
  exact ⟨hs, ht⟩

theorem no_cr_zeroPadded (width : Nat) (n : Int) : '\r' ∉ (zeroPadded width n).toList := by
  unfold zeroPadded
  refine no_cr_append (no_cr_append ?_ ?_) (no_cr_repr _)
  · split <;> decide
  · rw [String.toList_ofList]
    intro h
    exact absurd (List.eq_of_mem_replicate h) (by decide)

theorem no_cr_formatICalDate (t : Time) : '\r' ∉ (formatICalDate t).toList :=
  no_cr_append (no_cr_append (no_cr_zeroPadded _ _) (no_cr_zeroPadded _ _)) (no_cr_zeroPadded _ _)

theorem no_cr_icalEscape (s : String) : '\r' ∉ (icalEscape s).toList := by
  rw [toList_icalEscape]
  exact escape_no_cr _

theorem no_cr_buildRRule (sub : Subscription) : '\r' ∉ (buildRRule sub).toList := by
  have hempty : '\r' ∉ "".toList := by decide
  have hone : ∀ (s : String) (n : Int), '\r' ∉ s.toList → '\r' ∉ (s ++ toString n).toList :=
    fun s n hs => no_cr_append hs (no_cr_toString n)
  by_cases h1 : sub.recurrenceType = recurrenceTypeInterval
  · rw [buildRRule, if_pos h1]
    cases sub.intervalCount with
    | none => exact hempty
    | some count =>
      dsimp only
      split_ifs
      any_goals exact hone _ _ (by decide)
      exact hempty
  by_cases h2 : sub.recurrenceType = recurrenceTypeMonthlyDate
  · rw [buildRRule, if_neg h1, if_pos h2]
    cases sub.monthlyDay with
    | none => exact hempty
    | some day => exact hone _ _ (by decide)
  by_cases h3 : sub.recurrenceType = recurrenceTypeYearlyDate
  · rw [buildRRule, if_neg h1, if_neg h2, if_pos h3]
    cases sub.yearlyMonth with
    | none => exact hempty
    | some month =>
      cases sub.yearlyDay with
      | none => exact hempty
      | some day => exact hone _ _ (no_cr_append (hone _ _ (by decide)) (by decide))
  · rw [buildRRule, if_neg h1, if_neg h2, if_neg h3]
    exact hempty

theorem no_cr_eventRRule (sub : Subscription) : '\r' ∉ (eventRRule sub).toList := by
  unfold eventRRule
  split
  · exact no_cr_buildRRule sub
  · decide

/-- A property line: a name, and a value without carriage returns. -/
theorem clean_append {name value : String} (h : Clean name.toList) (hne : name ≠ "")
    (hvalue : '\r' ∉ value.toList) :
    Clean (name ++ value).toList := by
  refine ⟨no_cr_append h.no_cr hvalue, ?_⟩
  rw [String.toList_append]
  cases hl : name.toList with
  | nil => exact absurd (String.toList_eq_nil_iff.1 hl) hne
  | cons c cs => simpa [hl] using h.head

theorem clean_eventLines (sub : Subscription) : ∀ l ∈ chars (eventLines sub), Clean l := by
  have hclosed : ∀ name ∈
      ["BEGIN:VEVENT", "END:VEVENT", "UID:subdux-sub-", "DTSTART;VALUE=DATE:", "DTEND;VALUE=DATE:",
       "SUMMARY:",
      "DESCRIPTION:", "RRULE:"], Clean name.toList ∧ name ≠ "" := by
    intro name hname
    refine ⟨⟨?_, ?_⟩, ?_⟩ <;> revert name <;> decide
  have hline : ∀ name ∈
      ["UID:subdux-sub-", "DTSTART;VALUE=DATE:", "DTEND;VALUE=DATE:", "SUMMARY:", "DESCRIPTION:",
       "RRULE:"],
      ∀ value : String, '\r' ∉ value.toList → Clean (name ++ value).toList :=
        fun name hname value hvalue => by
    obtain ⟨h, hne⟩ := hclosed name (by simp at hname ⊢; tauto)
    exact clean_append h hne hvalue
  unfold eventLines
  cases sub.nextBillingDate with
  | none => simp [chars]
  | some date =>
    intro l hl
    simp only [chars, List.mem_map] at hl
    obtain ⟨s, hs, rfl⟩ := hl
    simp only [List.mem_append, List.mem_cons, List.not_mem_nil, or_false] at hs
    rcases hs with (((rfl | rfl | rfl | rfl | rfl) | hs) | hs) | rfl
    · exact (hclosed _ (by decide)).1
    · rw [String.append_assoc]
      exact hline _ (by decide) _ (no_cr_append (no_cr_repr _) (by decide))
    · exact hline _ (by decide) _ (no_cr_formatICalDate _)
    · exact hline _ (by decide) _ (no_cr_formatICalDate _)
    · exact hline _ (by decide) _ (no_cr_icalEscape _)
    · split at hs
      · obtain rfl := List.mem_singleton.1 hs
        exact hline _ (by decide) _ (no_cr_icalEscape _)
      · cases hs
    · split at hs
      · obtain rfl := List.mem_singleton.1 hs
        exact hline _ (by decide) _ (no_cr_eventRRule _)
      · cases hs
    · exact (hclosed _ (by decide)).1

theorem clean_feedLines (subs : List Subscription) : ∀ l ∈ chars (feedLines subs), Clean l := by
  have hclosed : ∀ name ∈ feedHeader ++ ["END:VCALENDAR"], Clean name.toList := by
    intro name hname
    refine ⟨?_, ?_⟩ <;> revert name <;> decide
  intro l hl
  simp only [chars, feedLines, List.mem_map, List.mem_append, List.mem_flatMap] at hl
  obtain ⟨s, (hs | ⟨sub, hsub, hs⟩) | hs, rfl⟩ := hl
  · exact hclosed s (List.mem_append_left _ hs)
  · exact clean_eventLines sub _ (List.mem_map_of_mem hs)
  · exact hclosed s (List.mem_append_right _ hs)

end Clean

/-- Every physical line of the feed is at most 75 octets long and a whole number of
characters; unfolded, the feed is the header, the property lines of one event for
each subscription, and the trailer; and the two free texts, the summary with the
name, the amount and the currency, and the notes, are read back as they were, less
their carriage returns. -/
theorem icalFeed_lossless (subs : List Subscription) :
    (∀ p ∈ splitAt 13 10 (encode (icalFeed subs).toList), p.length ≤ 75 ∧ ∃ cs, p = encode cs) ∧
      lines (unfolded (icalFeed subs).toList) =
        chars (feedHeader ++ subs.flatMap eventLines ++ ["END:VCALENDAR"]) ++ [[]] ∧
      ∀ sub ∈ subs, eventSummary sub = sub.name ++ " - " ++ formatAmount sub.amount ++ " " ++
        sub.currency ∧
        unescape (icalEscape (eventSummary sub)).toList = (eventSummary sub).toList.filter (· ≠ '\r') ∧
        unescape (icalEscape sub.notes).toList = sub.notes.toList.filter (· ≠ '\r') := by
  have hclean := clean_feedLines subs
  rw [written_icalFeed subs, lines_encode]
  refine ⟨fun p hp => ?_, lines_unfolded_write (by decide) hclean, fun sub _ => ?_⟩
  · obtain ⟨cs, hcs, rfl⟩ := List.mem_map.1 hp
    exact ⟨(length_encode cs).trans_le (octets_lines_write (by decide) hclean cs hcs), cs, rfl⟩
  · rw [toList_icalEscape, toList_icalEscape]
    exact ⟨rfl, unescape_escape _, unescape_escape _⟩

end Subdux
