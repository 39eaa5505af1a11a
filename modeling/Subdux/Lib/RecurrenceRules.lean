import Mathlib.Data.List.Range
import Subdux.Lib.Gregorian
/-!
# Recurrence rules of calendar feeds

The part of the `RECUR` grammar with `FREQ`, `INTERVAL`, `BYMONTH` and
`BYMONTHDAY`. A rule's dates count from the start date, which is always one of
them; a day that a month lacks is no date. `parse` reads the text of a rule, and
`parse_freq` and `parse_freq_month` say what it reads from texts of two and three parts.
-/

namespace RecurrenceRules
open Gregorian

/-! ## Rules and their dates -/

inductive Freq where
  | daily
  | weekly
  | monthly
  | yearly
  deriving DecidableEq

structure RRule where
  freq : Freq
  interval : Nat
  byMonth : Option Nat
  byMonthDay : Option Nat
  deriving DecidableEq

def yearOf (n : Int) : Int := monthOf n / 12
def monthNumber (n : Int) : Int := monthOf n % 12 + 1

/-- Whether the rule that starts at `n` has the later date `x`. -/
def RRule.Matches (r : RRule) (n x : Int) : Prop :=
  match r.freq with
  | .daily =>
    (x - n) % r.interval = 0 ∧ (∀ m ∈ r.byMonth, monthNumber x = m) ∧ ∀ d ∈ r.byMonthDay, dayOf x = d
  | .weekly =>
    (x - n) % (7 * r.interval) = 0 ∧ (∀ m ∈ r.byMonth, monthNumber x = m) ∧ ∀ d ∈ r.byMonthDay,
      dayOf x = d
  | .monthly =>
    (monthOf x - monthOf n) % r.interval = 0 ∧ (∀ m ∈ r.byMonth, monthNumber x = m) ∧
      dayOf x = (r.byMonthDay.map Int.ofNat).getD (dayOf n)
  | .yearly =>
    (yearOf x - yearOf n) % r.interval = 0 ∧
      (match r.byMonth with
        | some m => monthNumber x = m
        | none => r.byMonthDay = none → monthNumber x = monthNumber n) ∧
      dayOf x = (r.byMonthDay.map Int.ofNat).getD (dayOf n)

instance (r : RRule) (n x : Int) : Decidable (r.Matches n x) := by
  unfold RRule.Matches
  cases r.freq
  case yearly => cases r.byMonth <;> infer_instance
  all_goals infer_instance

/-- The dates of the rule that starts at `n`. -/
def RRule.Occurs (r : RRule) (n x : Int) : Prop := x = n ∨ n < x ∧ r.Matches n x

instance (r : RRule) (n x : Int) : Decidable (r.Occurs n x) := inferInstanceAs (Decidable (_ ∨ _))

/-- The days from `a` to before `b`. -/
def days (a b : Int) : List Int := (List.range (b - a).toNat).map fun i : Nat => a + i

/-- The dates in a window. -/
def RRule.expand (r : RRule) (n a b : Int) : List Int := (days a b).filter (r.Occurs n ·)

theorem mem_days {a b x : Int} : x ∈ days a b ↔ a ≤ x ∧ x < b := by
  simp only [days, List.mem_map, List.mem_range]
  constructor
  · rintro ⟨i, hi, rfl⟩
    omega
  · intro h
    exact ⟨(x - a).toNat, by omega, by omega⟩

theorem pairwise_days (a b : Int) : (days a b).Pairwise (· < ·) := by
  rw [days, List.pairwise_map]
  exact List.pairwise_lt_range.imp fun h => by omega

theorem mem_expand {r : RRule} {n a b x : Int} :
    x ∈ r.expand n a b ↔ (a ≤ x ∧ x < b) ∧ r.Occurs n x := by
  rw [RRule.expand, List.mem_filter, mem_days, decide_eq_true_eq]

theorem pairwise_expand (r : RRule) (n a b : Int) : (r.expand n a b).Pairwise (· < ·) :=
  (pairwise_days a b).filter _

/-! ## The text of a rule -/

/-- The pieces between the separators. -/
def pieces (sep : Char) : List Char → List (List Char)
  | [] => [[]]
  | c :: cs => if c = sep then [] :: pieces sep cs else (pieces sep cs).modifyHead (c :: ·)

/-- A part's name and value. -/
def nameValue : List Char → Option (List Char × List Char)
  | [] => none
  | c :: cs => if c = '=' then some ([], cs) else (nameValue cs).map fun nv => (c :: nv.1, nv.2)

/-- A number in decimal digits. -/
def number (cs : List Char) : Option Nat :=
  if cs ≠ [] ∧ cs.all Char.isDigit then some (cs.foldl (fun n c => 10 * n + (c.toNat - 48)) 0) else none

def freq (value : List Char) : Option Freq :=
  if value = "DAILY".toList then some .daily
  else if value = "WEEKLY".toList then some .weekly
  else if value = "MONTHLY".toList then some .monthly
  else if value = "YEARLY".toList then some .yearly
  else none

/-- The parts read so far. -/
structure Parts where
  freq : Option Freq
  interval : Option Nat
  byMonth : Option Nat
  byMonthDay : Option Nat

def Parts.read (parts : Parts) (part : List Char) : Option Parts :=
  (nameValue part).bind fun (name, value) =>
    if name = "FREQ".toList then (RecurrenceRules.freq value).map fun f => { parts with freq := some f }
    else if name = "INTERVAL".toList then (number value).map fun n => { parts with interval := some n }
    else if name = "BYMONTH".toList then (number value).map fun n => { parts with byMonth := some n }
    else if name = "BYMONTHDAY".toList then (number value).map fun n =>
      { parts with byMonthDay := some n }
    else none

/-- The rule that a text spells. An interval that is left out is 1. -/
def parse (text : String) : Option RRule :=
  ((pieces ';' text.toList).foldlM Parts.read ⟨none, none, none, none⟩).bind fun parts =>
    parts.freq.map fun f => ⟨f, parts.interval.getD 1, parts.byMonth, parts.byMonthDay⟩

section Text
variable {sep : Char} {l rest name value : List Char}

theorem pieces_append (h : sep ∉ l) (rest : List Char) :
    pieces sep (l ++ sep :: rest) = l :: pieces sep rest := by
  induction l with
  | nil => simp [pieces]
  | cons c l ih =>
    simp only [List.mem_cons, not_or] at h
    rw [List.cons_append, pieces, if_neg (Ne.symm h.1), ih h.2, List.modifyHead_cons]

theorem pieces_self (h : sep ∉ l) : pieces sep l = [l] := by
  induction l with
  | nil => rfl
  | cons c l ih =>
    simp only [List.mem_cons, not_or] at h
    rw [pieces, if_neg (Ne.symm h.1), ih h.2, List.modifyHead_cons]

theorem nameValue_append (h : '=' ∉ name) (value : List Char) :
    nameValue (name ++ '=' :: value) = some (name, value) := by
  induction name with
  | nil => simp [nameValue]
  | cons c name ih =>
    simp only [List.mem_cons, not_or] at h
    rw [List.cons_append, nameValue, if_neg (Ne.symm h.1), ih h.2, Option.map_some]

theorem foldl_toDigits (n : Nat) :
    (Nat.toDigits 10 n).foldl (fun n c => 10 * n + (c.toNat - 48)) 0 = n := by
  induction n using Nat.strongRecOn with
  | ind n ih =>
    by_cases h : n < 10
    · rw [Nat.toDigits_of_lt_base h]
      simp [Nat.toNat_digitChar_of_lt_ten h]
    · rw [Nat.toDigits_of_base_le (by decide) (by omega), List.foldl_append, ih (n / 10) (by omega)]
      simp [Nat.toNat_digitChar_of_lt_ten (Nat.mod_lt n (by decide : 0 < 10))]
      omega

/-- A number is read back from its digits. -/
theorem number_repr (n : Nat) : number n.repr.toList = some n := by
  have hdigits : (Nat.toDigits 10 n).all Char.isDigit = true :=
    List.all_eq_true.2 fun c hc => Nat.isDigit_of_mem_toDigits (by decide) (by decide) hc
  rw [Nat.toList_repr, number, if_pos ⟨Nat.toDigits_ne_nil, hdigits⟩, foldl_toDigits]

theorem notMem_repr (hsep : sep.isDigit = false) (n : Nat) : sep ∉ n.repr.toList := by
  rw [Nat.toList_repr]
  intro h
  rw [Nat.isDigit_of_mem_toDigits (by decide) (by decide) h] at hsep
  cases hsep

/-! ### Texts of two and three parts -/

section Parts
variable {parts : Parts} {n m : Nat}

/-- The three parts with a number. -/
def partNames : List String := ["INTERVAL", "BYMONTH", "BYMONTHDAY"]

theorem numbered_noSep {s : String} (hs : s ∈ partNames) (n : Nat) :
    ';' ∉ s.toList ++ '=' :: n.repr.toList := by
  have hname : ∀ s ∈ partNames, ';' ∉ s.toList := by decide
  simp only [List.mem_append, List.mem_cons, not_or]
  exact ⟨hname s hs, by decide, notMem_repr (by decide) n⟩

theorem nameValue_numbered {s : String} (hs : s ∈ partNames) (n : Nat) :
    nameValue (s.toList ++ '=' :: n.repr.toList) = some (s.toList, n.repr.toList) := by
  have hname : ∀ s ∈ partNames, '=' ∉ s.toList := by decide
  exact nameValue_append (hname s hs) _

theorem read_interval (parts : Parts) (n : Nat) :
    parts.read ("INTERVAL".toList ++ '=' :: n.repr.toList) = some { parts with interval := some n } := by
  rw [Parts.read, nameValue_numbered (by decide), Option.bind_some]
  simp only [number_repr, Option.map_some]
  rfl

theorem read_byMonth (parts : Parts) (n : Nat) :
    parts.read ("BYMONTH".toList ++ '=' :: n.repr.toList) = some { parts with byMonth := some n } := by
  rw [Parts.read, nameValue_numbered (by decide), Option.bind_some]
  simp only [number_repr, Option.map_some]
  rfl

theorem read_byMonthDay (parts : Parts) (n : Nat) :
    parts.read ("BYMONTHDAY".toList ++ '=' :: n.repr.toList) = some
    { parts with byMonthDay := some n } := by
  rw [Parts.read, nameValue_numbered (by decide), Option.bind_some]
  simp only [number_repr, Option.map_some]
  rfl

def Freq.text : Freq → String
  | .daily => "DAILY"
  | .weekly => "WEEKLY"
  | .monthly => "MONTHLY"
  | .yearly => "YEARLY"

theorem freq_noSep (f : Freq) : ';' ∉ "FREQ=".toList ++ f.text.toList := by cases f <;> decide

theorem read_freq (f : Freq) (parts : Parts) :
    parts.read ("FREQ=".toList ++ f.text.toList) = some { parts with freq := some f } := by
  cases f <;> rfl

/-- `FREQ=f;name=n`. -/
theorem parse_freq (f : Freq) {s : String} (hs : s ∈ partNames) (n : Nat) :
    parse ("FREQ=" ++ f.text ++ ";" ++ s ++ "=" ++ n.repr) =
      (Parts.read ⟨some f, none, none, none⟩ (s.toList ++ '=' :: n.repr.toList)).bind fun parts =>
        parts.freq.map fun f => ⟨f, parts.interval.getD 1, parts.byMonth, parts.byMonthDay⟩ := by
  have htext : ("FREQ=" ++ f.text ++ ";" ++ s ++ "=" ++ n.repr).toList =
      ("FREQ=".toList ++ f.text.toList) ++ ';' :: (s.toList ++ '=' :: n.repr.toList) := by
    simp only [String.toList_append, List.append_assoc]
    rfl
  rw [parse, htext, pieces_append (freq_noSep f), pieces_self (numbered_noSep hs n)]
  simp only [List.foldlM_cons, List.foldlM_nil, read_freq, bind_pure]
  rfl

/-- `FREQ=f;BYMONTH=m;BYMONTHDAY=n`. -/
theorem parse_freq_month (f : Freq) (m n : Nat) :
    parse ("FREQ=" ++ f.text ++ ";BYMONTH=" ++ m.repr ++ ";BYMONTHDAY=" ++ n.repr) = some
    ⟨f, 1, some m, some n⟩ := by
  have htext : ("FREQ=" ++ f.text ++ ";BYMONTH=" ++ m.repr ++ ";BYMONTHDAY=" ++ n.repr).toList =
      ("FREQ=".toList ++ f.text.toList) ++ ';' :: (("BYMONTH".toList ++ '=' :: m.repr.toList) ++
        ';' :: ("BYMONTHDAY".toList ++ '=' :: n.repr.toList)) := by
    simp only [String.toList_append, List.append_assoc]
    rfl
  rw [parse, htext, pieces_append (freq_noSep f), pieces_append (numbered_noSep (by decide) m),
    pieces_self (numbered_noSep (by decide) n)]
  simp only [List.foldlM_cons, List.foldlM_nil, read_freq, read_byMonth, read_byMonthDay]
  rfl

end Parts

end Text

end RecurrenceRules
