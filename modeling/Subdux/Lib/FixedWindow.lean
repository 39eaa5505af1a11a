import Mathlib.Data.List.Pairwise
/-!
# A counter that starts over

A limiter of one source: the first call opens a window, calls inside it are counted up to
`limit`, and the first call after it opens the next. `answers` are the answers to calls at given
times. At most `limit` calls are allowed in a window (`count_window_le`), at most twice as
many in an interval as long as a window (`count_interval_le`), and a call is refused only
after `limit` allowed ones (`refused_count`).
-/

namespace FixedWindow

structure Window where
  start : Int
  count : Int
  deriving DecidableEq

/-- When a call was made, the start of the window that it fell in, and whether it was allowed. -/
structure Answer where
  time : Int
  start : Int
  allowed : Bool
  deriving DecidableEq

section Limiter
variable (limit length : Int)

def answer : Option Window → Int → Bool × Window
  | none, now => (true, ⟨now, 1⟩)
  | some w, now =>
    if length ≤ now - w.start then (true, ⟨now, 1⟩)
    else if limit ≤ w.count then (false, w)
    else (true, { w with count := w.count + 1 })

/-- The window after calls at these times. -/
def after (w : Option Window) (nows : List Int) : Option Window :=
  nows.foldl (fun w now => some (answer limit length w now).2) w

def answers (w : Option Window) : List Int → List Answer
  | [] => []
  | now :: nows =>
    ⟨now, (answer limit length w now).2.start, (answer limit length w now).1⟩ :: answers
      (some (answer limit length w now).2) nows

variable {limit length} {w : Option Window} {v : Window} {now t : Int} {nows : List Int}

/-! ## Windows that are open -/

/-- What a call does to an open window. -/
theorem answer_cases (v : Window) (now : Int) :
    length ≤ now - v.start ∧ answer limit length (some v) now = (true, ⟨now, 1⟩) ∨
    now - v.start < length ∧ limit ≤ v.count ∧ answer limit length (some v) now = (false, v) ∨
    now - v.start < length ∧ v.count < limit ∧ answer limit length (some v) now =
    (true, { v with count := v.count + 1 }) := by
  unfold answer
  dsimp only
  split
  · exact .inl ⟨‹_›, rfl⟩
  · split
    · exact .inr (.inl ⟨by omega, ‹_›, rfl⟩)
    · exact .inr (.inr ⟨by omega, by omega, rfl⟩)

/-- A call falls in the window that is open after it. -/
theorem answer_inside (hlength : 0 < length) (hw : ∀ v ∈ w, v.start ≤ now) :
    (answer limit length w now).2.start ≤ now ∧ now < (answer limit length w now).2.start + length := by
  cases w with
  | none =>
    dsimp only [answer]
    omega
  | some v =>
    have hv := hw v rfl
    rcases answer_cases v now with ⟨-, h⟩ | ⟨hlt, -, h⟩ | ⟨hlt, -, h⟩ <;> rw [h] <;> dsimp only <;> omega

/-- The windows after an open one are that one and later ones. -/
theorem answers_start (hlength : 0 < length) (hnows : nows.Pairwise (· ≤ ·))
    (hv : ∀ now ∈ nows, v.start ≤ now) :
    ∀ a ∈ answers limit length (some v) nows, (a.start = v.start ∨ v.start + length ≤ a.start) ∧
    a.start ≤ a.time ∧ a.time < a.start + length := by
  induction nows generalizing v with
  | nil => simp [answers]
  | cons now nows ih =>
    obtain ⟨hlater, hnows⟩ := List.pairwise_cons.1 hnows
    have hnow := hv now List.mem_cons_self
    have hinside : (answer limit length (some v) now).2.start ≤ now ∧
        now < (answer limit length (some v) now).2.start + length :=
      answer_inside hlength (by simpa using hnow)
    have hstart : (answer limit length (some v) now).2.start = v.start ∨
        v.start + length ≤ (answer limit length (some v) now).2.start := by
      rcases answer_cases v now with ⟨hle, h⟩ | ⟨-, -, h⟩ | ⟨-, -, h⟩ <;> rw [h] <;> dsimp only <;> omega
    intro a ha
    rcases List.mem_cons.1 ha with rfl | ha
    · exact ⟨hstart, hinside⟩
    · obtain ⟨h, hin⟩ := ih hnows (fun n hn => Int.le_trans hinside.1 (hlater n hn)) a ha
      refine ⟨?_, hin⟩
      omega

/-- Two calls fall in one window, or in windows that do not overlap. -/
theorem answers_pairwise (hlength : 0 < length) (hnows : nows.Pairwise (· ≤ ·))
    (hw : ∀ v ∈ w, ∀ now ∈ nows, v.start ≤ now) :
    (answers limit length w nows).Pairwise fun a b => b.start = a.start ∨
    a.start + length ≤ b.start := by
  induction nows generalizing w with
  | nil => exact List.Pairwise.nil
  | cons now nows ih =>
    obtain ⟨hlater, hnows⟩ := List.pairwise_cons.1 hnows
    have hinside : (answer limit length w now).2.start ≤ now ∧
        now < (answer limit length w now).2.start + length :=
      answer_inside hlength fun v hv => hw v hv now List.mem_cons_self
    have hrest : ∀ n ∈ nows, (answer limit length w now).2.start ≤ n :=
      fun n hn => Int.le_trans hinside.1 (hlater n hn)
    refine List.pairwise_cons.2 ⟨fun a ha => (answers_start hlength hnows hrest a ha).1, ih hnows ?_⟩
    intro v hv
    obtain rfl := Option.some.inj hv
    exact hrest

theorem answers_inside (hlength : 0 < length) (hnows : nows.Pairwise (· ≤ ·)) :
    ∀ a ∈ answers limit length none nows, a.start ≤ a.time ∧ a.time < a.start + length := by
  cases nows with
  | nil => simp [answers]
  | cons now nows =>
    obtain ⟨hlater, hnows⟩ := List.pairwise_cons.1 hnows
    intro a ha
    rcases List.mem_cons.1 ha with rfl | ha
    · exact answer_inside hlength (by simp)
    · exact (answers_start hlength hnows hlater a ha).2

/-- An answer was given at the time of a call. -/
theorem time_mem {a : Answer} (h : a ∈ answers limit length w nows) : a.time ∈ nows := by
  induction nows generalizing w with
  | nil => cases h
  | cons now nows ih =>
    rcases List.mem_cons.1 h with rfl | h
    · exact List.mem_cons_self
    · exact List.mem_cons_of_mem _ (ih h)

/-! ## Counting -/

/-- The calls that were allowed in the window from `start` on. -/
def inWindow (start : Int) (a : Answer) : Bool := a.allowed && (a.start == start)

/-- The calls that are still allowed in an open window, and those in any later one. -/
theorem count_open (hlimit : 1 ≤ limit) (hlength : 0 < length) (hnows : nows.Pairwise (· ≤ ·))
    (hv : ∀ now ∈ nows, v.start ≤ now) (hcount : v.count ≤ limit) (start : Int) :
    ((answers limit length (some v) nows).countP (inWindow start) : Int) ≤ if start = v.start
    then limit - v.count else limit := by
  induction nows generalizing v with
  | nil =>
    simp only [answers, List.countP_nil]
    split <;> omega
  | cons now nows ih =>
    obtain ⟨hlater, hnows⟩ := List.pairwise_cons.1 hnows
    have hnow := hv now List.mem_cons_self
    rw [answers, List.countP_cons]
    rcases answer_cases v now with ⟨hle, h⟩ | ⟨-, hfull, h⟩ | ⟨-, hfree, h⟩
    · rw [h]
      have hrest := ih hnows (v := ⟨now, 1⟩) hlater hlimit
      by_cases hstart : start = now
      · subst hstart
        have hne : start ≠ v.start := by omega
        simp only [inWindow, Bool.true_and, beq_self_eq_true, if_true, hne, if_false] at hrest ⊢
        omega
      · have hother : (now == start) = false := by simpa using fun h => hstart h.symm
        simp only [inWindow, Bool.true_and, hother, Bool.false_eq_true, if_false, hstart] at hrest ⊢
        split
        · -- no later call falls in the window that is closed
          rename_i hold
          have hnone : (answers limit length (some ⟨now, 1⟩) nows).countP (inWindow start) = 0 := by
            rw [List.countP_eq_zero]
            intro a ha hin
            have := (answers_start hlength hnows hlater a ha).1
            simp only [inWindow, Bool.and_eq_true, beq_iff_eq] at hin
            dsimp only at this
            omega
          change ((List.countP (inWindow start) _ + 0 : Nat) : Int) ≤ _
          omega
        · simpa [inWindow] using hrest
    · rw [h]
      have hrest := ih hnows (v := v) (fun n hn => hv n (List.mem_cons_of_mem _ hn)) hcount
      simpa [inWindow] using hrest
    · rw [h]
      have hrest :=
        ih hnows (v := { v with count := v.count + 1 })
          (fun n hn => hv n (List.mem_cons_of_mem _ hn)) hfree
      by_cases hstart : start = v.start
      · subst hstart
        simp only [inWindow, Bool.true_and, beq_self_eq_true, if_true] at hrest ⊢
        omega
      · have hother : (v.start == start) = false := by simpa using fun h => hstart h.symm
        simp only [inWindow, Bool.true_and, hother, Bool.false_eq_true, if_false, hstart] at hrest ⊢
        simpa using hrest

/-- A first call finds no window, or one that is over. -/
theorem answers_none :
    answers limit length none (now :: nows) = answers limit length (some ⟨now - length, 0⟩)
    (now :: nows) := by
  have hover : length ≤ now - (now - length) := by omega
  simp only [answers, answer, if_pos hover]

/-- At most `limit` calls are allowed in a window. -/
theorem count_window_le (hlimit : 1 ≤ limit) (hlength : 0 < length) (hnows : nows.Pairwise (· ≤ ·))
    (start : Int) : ((answers limit length none nows).countP (inWindow start) : Int) ≤ limit := by
  cases nows with
  | nil =>
    simp only [answers, List.countP_nil]
    omega
  | cons now nows =>
    rw [answers_none]
    have hstart : ∀ n ∈ now :: nows, now - length ≤ n := by
      intro n hn
      rcases List.mem_cons.1 hn with rfl | hn
      · omega
      · have := (List.pairwise_cons.1 hnows).1 n hn
        omega
    have hopen :=
      count_open (v := ⟨now - length, 0⟩) hlimit hlength hnows hstart (by dsimp only; omega) start
    dsimp only at hopen
    split at hopen <;> omega

/-- The calls that were allowed in the interval from `t` on. -/
def inInterval (length t : Int) (a : Answer) : Bool :=
  a.allowed && decide (t ≤ a.time ∧ a.time < t + length)

/-- The windows of two calls are the same, or one is over when the other opens. -/
theorem answers_spaced (hlength : 0 < length) (hnows : nows.Pairwise (· ≤ ·)) :
    ∀ a ∈ answers limit length none nows,
    ∀ b ∈ answers limit length none nows, b.start = a.start ∨ a.start + length ≤ b.start ∨
    b.start + length ≤ a.start := by
  have hsymm : Std.Symm fun a b : Answer => b.start = a.start ∨ a.start + length ≤ b.start ∨
      b.start + length ≤ a.start := ⟨fun a b h => by omega⟩
  have hpairs : (answers limit length none nows).Pairwise fun a b =>
      b.start = a.start ∨ a.start + length ≤ b.start ∨ b.start + length ≤ a.start :=
    (answers_pairwise hlength hnows (by simp)).imp fun h => h.imp_right .inl
  intro a ha b hb
  exact hpairs.forall_of_forall (fun a _ => .inl rfl) ha hb

/-- An interval as long as a window meets at most two windows. -/
theorem interval_windows (hlength : 0 < length) (hnows : nows.Pairwise (· ≤ ·)) (t : Int) :
    ∃ s₁ s₂, ∀ a ∈ answers limit length none nows, inInterval length t a = true → a.start = s₁ ∨
    a.start = s₂ := by
  have hspaced : ∀ a ∈ answers limit length none nows, ∀ b ∈ answers limit length none nows,
      b.start = a.start ∨ a.start + length ≤ b.start ∨ b.start + length ≤ a.start :=
        answers_spaced hlength hnows
  have hnear : ∀ a ∈ answers limit length none nows, inInterval length t a = true →
      t - length < a.start ∧ a.start < t + length := by
    intro a ha hin
    have hinside := answers_inside hlength hnows a ha
    simp only [inInterval, Bool.and_eq_true, decide_eq_true_eq] at hin
    omega
  by_cases hone : ∃ a ∈ answers limit length none nows, inInterval length t a = true
  · obtain ⟨a, ha, hain⟩ := hone
    by_cases htwo : ∃ b ∈ answers limit length none nows, inInterval length t b = true ∧
      b.start ≠ a.start
    · obtain ⟨b, hb, hbin, hne⟩ := htwo
      refine ⟨a.start, b.start, fun c hc hcin => ?_⟩
      -- three windows apart do not fit into two lengths
      have := hspaced a ha b hb
      have := hspaced a ha c hc
      have := hspaced b hb c hc
      have := hnear a ha hain
      have := hnear b hb hbin
      have := hnear c hc hcin
      omega
    · exact ⟨a.start, a.start, fun c hc hcin => .inl (not_not.1 fun hne => htwo ⟨c, hc, hcin, hne⟩)⟩
  · exact ⟨0, 0, fun c hc hcin => absurd ⟨c, hc, hcin⟩ hone⟩

theorem countP_or_le {α : Type*} (p q : α → Bool) (xs : List α) :
    xs.countP (fun x => p x || q x) ≤ xs.countP p + xs.countP q := by
  induction xs with
  | nil => exact Nat.zero_le _
  | cons x xs ih =>
    simp only [List.countP_cons]
    cases p x <;> cases q x <;> simp <;> omega

/-- At most twice `limit` calls are allowed in an interval as long as a window. -/
theorem count_interval_le (hlimit : 1 ≤ limit) (hlength : 0 < length)
    (hnows : nows.Pairwise (· ≤ ·)) (t : Int) :
    ((answers limit length none nows).countP (inInterval length t) : Int) ≤ 2 * limit := by
  obtain ⟨s₁, s₂, hwindows⟩ : ∃ s₁ s₂, ∀ a ∈ answers limit length none nows,
      inInterval length t a = true → a.start = s₁ ∨ a.start = s₂ := interval_windows hlength hnows t
  have hle : (answers limit length none nows).countP (inInterval length t) ≤
      (answers limit length none nows).countP fun a => inWindow s₁ a || inWindow s₂ a := by
    refine List.countP_mono_left fun a ha hin => ?_
    have hallowed : a.allowed = true := by
      simp only [inInterval, Bool.and_eq_true] at hin
      exact hin.1
    simpa [inWindow, hallowed] using hwindows a ha hin
  have hor := countP_or_le (inWindow s₁) (inWindow s₂) (answers limit length none nows)
  have h₁ := count_window_le hlimit hlength hnows s₁
  have h₂ := count_window_le hlimit hlength hnows s₂
  omega

/-! ## Refusals -/

/-- The count of the open window is the number of calls that were allowed in it. -/
theorem after_spec (hlength : 0 < length) (hnows : nows.Pairwise (· ≤ ·))
    (hv : ∀ now ∈ nows, v.start ≤ now) :
    ∃ u, after limit length (some v) nows = some u ∧ (u.start = v.start ∨ v.start + length ≤ u.start) ∧
      u.count = (if u.start = v.start then v.count else 0) +
        (answers limit length (some v) nows).countP (inWindow u.start) := by
  induction nows generalizing v with
  | nil => exact ⟨v, rfl, .inl rfl, by simp [answers]⟩
  | cons now nows ih =>
    obtain ⟨hlater, hnows⟩ := List.pairwise_cons.1 hnows
    have hnow := hv now List.mem_cons_self
    have hrest : ∀ n ∈ nows, v.start ≤ n := fun n hn => hv n (List.mem_cons_of_mem _ hn)
    have hafter : after limit length (some v) (now :: nows) = after limit length
        (some (answer limit length (some v) now).2) nows := rfl
    rw [hafter, answers]
    simp only [List.countP_cons, inWindow]
    rcases answer_cases v now with ⟨hle, h⟩ | ⟨-, -, h⟩ | ⟨-, -, h⟩ <;> rw [h] <;> dsimp only
    · obtain ⟨u, hu, hstart, hcount⟩ := ih hnows (v := ⟨now, 1⟩) hlater
      refine ⟨u, hu, by dsimp only at hstart; omega, ?_⟩
      have hne : u.start ≠ v.start := by
        dsimp only at hstart
        omega
      simp only [if_neg hne, Bool.true_and, beq_iff_eq] at hcount ⊢
      by_cases hsame : u.start = now
      · simp only [hsame, if_true] at hcount ⊢
        omega
      · simp only [hsame, Ne.symm hsame, if_false] at hcount ⊢
        omega
    · obtain ⟨u, hu, hstart, hcount⟩ := ih hnows (v := v) hrest
      refine ⟨u, hu, hstart, ?_⟩
      simpa [inWindow] using hcount
    · obtain ⟨u, hu, hstart, hcount⟩ := ih hnows (v := { v with count := v.count + 1 }) hrest
      refine ⟨u, hu, hstart, ?_⟩
      simp only [Bool.true_and, beq_iff_eq] at hcount ⊢
      by_cases hsame : u.start = v.start
      · simp only [hsame, if_true] at hcount ⊢
        omega
      · simp only [hsame, Ne.symm hsame, if_false] at hcount ⊢
        omega

/-- A call is refused only after `limit` calls that were allowed less than a window before it. -/
theorem refused_count (hlength : 0 < length) (hnows : (before ++ [now]).Pairwise (· ≤ ·))
    (h : (answer limit length (after limit length none before) now).1 = false) :
    limit ≤ (answers limit length none before).countP fun a =>
    a.allowed && decide (now - length < a.time ∧ a.time ≤ now) := by
  obtain ⟨hbefore, -, hlast⟩ := List.pairwise_append.1 hnows
  cases before with
  | nil => cases h
  | cons first rest =>
    have hstart : ∀ n ∈ first :: rest, first - length ≤ n := by
      intro n hn
      rcases List.mem_cons.1 hn with rfl | hn
      · omega
      · have := (List.pairwise_cons.1 hbefore).1 n hn
        omega
    obtain ⟨u, hu, -, hcount⟩ : ∃ u, after limit length (some ⟨first - length, 0⟩)
        (first :: rest) = some u ∧ _ ∧ _ :=
      after_spec hlength hbefore hstart
    have hafter : after limit length none (first :: rest) = some u := by
      have hover : length ≤ first - (first - length) := by omega
      rw [← hu]
      simp only [after, List.foldl_cons, answer, if_pos hover]
    rw [hafter] at h
    rcases answer_cases u now with ⟨-, hanswer⟩ | ⟨hopen, hfull, -⟩ | ⟨-, -, hanswer⟩
    · rw [hanswer] at h
      cases h
    · simp only [ite_self, Int.zero_add] at hcount
      rw [← answers_none] at hcount
      refine Int.le_trans hfull ?_
      rw [hcount]
      have hmono : (answers limit length none (first :: rest)).countP (inWindow u.start) ≤
          (answers limit length none (first :: rest)).countP fun a =>
            a.allowed && decide (now - length < a.time ∧ a.time ≤ now) := by
        refine List.countP_mono_left fun a ha hin => ?_
        have hinside := answers_inside hlength hbefore a ha
        have hle : a.time ≤ now := hlast a.time (time_mem ha) now (List.mem_singleton_self _)
        simp only [inWindow, Bool.and_eq_true, beq_iff_eq] at hin
        simp only [hin.1, Bool.true_and, decide_eq_true_eq]
        omega
      omega
    · rw [hanswer] at h
      cases h

end Limiter

end FixedWindow
