import Subdux.Lib.FixedWindow
import Subdux.Lib.Words
import Subdux.Time
/-!
# Rate limits

`internal/api/security_middleware.go`: `fixedWindowLimiter`. The map of entries is a function of
the key, and a duration is a 64-bit word.

`limiter_bounds` says that each key is limited as if it were alone.
-/

namespace Subdux

/-! ## The limiter -/

structure FixedWindowEntry where
  count : Int
  windowStart : Time
  lastSeen : Time

structure FixedWindowLimiter where
  limit : Int
  window : Int
  entries : String → Option FixedWindowEntry
  ops : Int

def newFixedWindowLimiter (limit window : Int) : FixedWindowLimiter := ⟨limit, window, fun _ => none, 0⟩

def maybeCleanup (limiter : FixedWindowLimiter) (now : Time) : FixedWindowLimiter :=
  let ops := Words.wrap (limiter.ops + 1)
  if ops.tmod 200 ≠ 0 then { limiter with ops := ops }
  else
    let expireBefore := now.add (Words.wrap (-3 * limiter.window))
    { limiter with
      ops := ops
      entries := fun key => (limiter.entries key).filter fun entry =>
        !entry.lastSeen.before expireBefore }

def setEntry (limiter : FixedWindowLimiter) (key : String) (entry : FixedWindowEntry) :
    FixedWindowLimiter :=
  { limiter with entries := fun other => if other = key then some entry else limiter.entries other }

/-- `Allow`, at the reading `now` of the clock. -/
def allow (limiter : FixedWindowLimiter) (key : String) (now : Time) : Bool × FixedWindowLimiter :=
  if key = "" then (true, limiter)
  else
    match limiter.entries key with
    | none => (true, maybeCleanup (setEntry limiter key ⟨1, now, now⟩) now)
    | some entry =>
      if now.sub entry.windowStart ≥ limiter.window then
        (true, maybeCleanup (setEntry limiter key ⟨1, now, now⟩) now)
      else if entry.count ≥ limiter.limit then
        (false, maybeCleanup (setEntry limiter key { entry with lastSeen := now }) now)
      else (true, maybeCleanup
        (setEntry limiter key { entry with count := entry.count + 1, lastSeen := now }) now)

structure AllowCall where
  key : String
  now : Time

/-- A call, its answer, and the window that the limiter has open for its key afterwards. -/
structure AllowAnswer extends AllowCall where
  allowed : Bool
  windowStart : Option Time

def afterCalls (limiter : FixedWindowLimiter) (calls : List AllowCall) : FixedWindowLimiter :=
  calls.foldl (fun limiter call => (allow limiter call.key call.now).2) limiter

def answerCalls (limiter : FixedWindowLimiter) : List AllowCall → List AllowAnswer
  | [] => []
  | call :: calls =>
    let next := (allow limiter call.key call.now).2
    ⟨call, (allow limiter call.key call.now).1, (next.entries call.key).map
      (·.windowStart)⟩ :: answerCalls next calls

/-! ## One key -/

section Key
variable {limit window : Int} {limiter : FixedWindowLimiter} {key other : String} {now : Time}
  {last : Int}
  {entry : Option FixedWindowEntry} {w : Option FixedWindow.Window}

/-- The entry of a key shows its window, or was dropped after the window was over. -/
def Tracks (window last : Int) (entry : Option FixedWindowEntry)
    (w : Option FixedWindow.Window) : Prop :=
  (∃ e v, entry = some e ∧ w = some v ∧ e.count = v.count ∧ e.windowStart.nanos = v.start ∧
    v.start ≤ e.lastSeen.nanos ∧
      e.lastSeen.nanos ≤ last) ∨
    entry = none ∧ ∀ v ∈ w, window ≤ last - v.start

theorem Tracks.mono (h : Tracks window last entry w) (hle : last ≤ now.nanos) :
    Tracks window now.nanos entry w := by
  rcases h with ⟨e, v, he, hv, hcount, hstart, hseen, hlast⟩ | ⟨hentry, hover⟩
  · exact .inl ⟨e, v, he, hv, hcount, hstart, hseen, hlast.trans hle⟩
  · refine .inr ⟨hentry, fun v hv => ?_⟩
    have := hover v hv
    omega

theorem Tracks.start_le (h : Tracks window last entry w) (hwindow : 0 < window) :
    ∀ v ∈ w, v.start ≤ last := by
  intro v hv
  rcases h with ⟨e, v', -, hw, -, -, hseen, hlast⟩ | ⟨-, hover⟩
  · obtain rfl := Option.some.inj (hw.symm.trans hv)
    omega
  · have := hover v hv
    omega

/-- Three windows fit into a duration. -/
theorem wrap_window (hwindow : 0 < window) (hfits : 3 * window ≤ 2 ^ 63) :
    Words.wrap (-3 * window) = -3 * window :=
  Words.wrap_of_inRange ⟨by omega, by omega⟩

theorem sub_ge_iff {t u : Time} (hwindow : 0 < window) (hfits : 3 * window ≤ 2 ^ 63) :
    t.sub u ≥ window ↔ window ≤ t.nanos - u.nanos := by
  unfold Time.sub
  omega

/-- A clean-up drops entries whose window is over. -/
theorem tracks_cleanup (hwindow : 0 < limiter.window) (hfits : 3 * limiter.window ≤ 2 ^ 63)
    (h : Tracks limiter.window now.nanos (limiter.entries key) w) :
    Tracks limiter.window now.nanos ((maybeCleanup limiter now).entries key) w := by
  unfold maybeCleanup
  dsimp only
  split
  · exact h
  · rcases h with ⟨e, v, he, hv, hcount, hstart, hseen, hlast⟩ | ⟨he, hover⟩
    · dsimp only
      rw [he, Option.filter_some]
      split
      · exact .inl ⟨e, v, rfl, hv, hcount, hstart, hseen, hlast⟩
      · rename_i hold
        refine .inr ⟨rfl, fun v' hv' => ?_⟩
        obtain rfl := Option.some.inj (hv.symm.trans hv')
        simp only [Time.before, Time.add, wrap_window hwindow hfits, Bool.not_eq_true',
          decide_eq_false_iff_not, not_not] at hold
        omega
    · dsimp only
      rw [he]
      exact .inr ⟨rfl, hover⟩

/-- A clean-up keeps an entry that was just seen. -/
theorem cleanup_seen {e : FixedWindowEntry} (hwindow : 0 < limiter.window)
    (hfits : 3 * limiter.window ≤ 2 ^ 63) (he : limiter.entries key = some e)
    (hseen : e.lastSeen = now) : (maybeCleanup limiter now).entries key = some e := by
  unfold maybeCleanup
  dsimp only
  split
  · exact he
  · dsimp only
    rw [he, Option.filter_some, if_pos]
    simp only [Time.before, Time.add, wrap_window hwindow hfits, hseen, Bool.not_eq_true',
      decide_eq_false_iff_not]
    omega

@[simp] theorem cleanup_limit (limiter : FixedWindowLimiter) (now : Time) :
    (maybeCleanup limiter now).limit = limiter.limit := by
  unfold maybeCleanup
  dsimp only
  split <;> rfl

@[simp] theorem cleanup_window (limiter : FixedWindowLimiter) (now : Time) :
    (maybeCleanup limiter now).window = limiter.window := by
  unfold maybeCleanup
  dsimp only
  split <;> rfl

/-- A call stores the window that the counter has open after it. -/
theorem allow_stores (hwindow : 0 < limiter.window) (hfits : 3 * limiter.window ≤ 2 ^ 63)
    (hkey : key ≠ "") (h : Tracks limiter.window last (limiter.entries key) w) (hle : last ≤ now.nanos) :
    ∃ e, allow limiter key now =
    ((FixedWindow.answer limiter.limit limiter.window w now.nanos).1,
      maybeCleanup (setEntry limiter key e) now) ∧
      e.lastSeen = now ∧
        e.windowStart.nanos = (FixedWindow.answer limiter.limit limiter.window w now.nanos).2.start ∧
      e.count = (FixedWindow.answer limiter.limit limiter.window w now.nanos).2.count := by
  unfold allow
  rw [if_neg hkey]
  rcases h with ⟨e, v, he, rfl, hcount, hstart, -, -⟩ | ⟨he, hover⟩
  · rw [he]
    dsimp only
    obtain ⟨hclosed, hanswer⟩ | ⟨hopen, hfull, hanswer⟩ | ⟨hopen, hfree, hanswer⟩ :
        limiter.window ≤ now.nanos - v.start ∧ FixedWindow.answer limiter.limit limiter.window
          (some v) now.nanos = _ ∨ _ ∨ _ :=
      FixedWindow.answer_cases v now.nanos <;>
      rw [hanswer]
    · rw [if_pos ((sub_ge_iff hwindow hfits).2 (by omega))]
      exact ⟨_, rfl, rfl, rfl, rfl⟩
    · rw [if_neg (fun hsub => by have := (sub_ge_iff hwindow hfits).1 hsub; omega), if_pos (by omega)]
      exact ⟨_, rfl, rfl, hstart, hcount⟩
    · rw [if_neg (fun hsub => by have := (sub_ge_iff hwindow hfits).1 hsub; omega), if_neg (by omega)]
      exact ⟨_, rfl, rfl, hstart, by dsimp only; rw [hcount]⟩
  · rw [he]
    have hanswer : FixedWindow.answer limiter.limit limiter.window w now.nanos =
        (true, ⟨now.nanos, 1⟩) := by
      cases w with
      | none => rfl
      | some v =>
        have := hover v rfl
        rw [FixedWindow.answer, if_pos (by omega)]
    rw [hanswer]
    exact ⟨_, rfl, rfl, rfl, rfl⟩

theorem allow_config (limiter : FixedWindowLimiter) (key : String) (now : Time) :
    (allow limiter key now).2.limit = limiter.limit ∧
    (allow limiter key now).2.window = limiter.window := by
  unfold allow
  split
  · exact ⟨rfl, rfl⟩
  · split
    · exact ⟨cleanup_limit .., cleanup_window ..⟩
    · split
      · exact ⟨cleanup_limit .., cleanup_window ..⟩
      · split
        · exact ⟨cleanup_limit .., cleanup_window ..⟩
        · exact ⟨cleanup_limit .., cleanup_window ..⟩

/-- A call on one key is answered as the counter of that key answers it. -/
theorem allow_own (hwindow : 0 < limiter.window) (hfits : 3 * limiter.window ≤ 2 ^ 63) (hkey : key ≠ "")
    (h : Tracks limiter.window last (limiter.entries key) w) (hle : last ≤ now.nanos) :
    (allow limiter key now).1 = (FixedWindow.answer limiter.limit limiter.window w now.nanos).1 ∧
    (((allow limiter key now).2.entries key).map (·.windowStart)).map (·.nanos) =
      some (FixedWindow.answer limiter.limit limiter.window w now.nanos).2.start ∧
    Tracks limiter.window now.nanos ((allow limiter key now).2.entries key)
      (some (FixedWindow.answer limiter.limit limiter.window w now.nanos).2) := by
  obtain ⟨e, hallow, hseen, hstart, hcount⟩ := allow_stores hwindow hfits hkey h hle
  have hset : (setEntry limiter key e).entries key = some e := if_pos rfl
  have hstored : (maybeCleanup (setEntry limiter key e) now).entries key = some e :=
    cleanup_seen hwindow hfits hset hseen
  rw [hallow]
  dsimp only
  rw [hstored]
  have hinside : (FixedWindow.answer limiter.limit limiter.window w now.nanos).2.start ≤ now.nanos :=
    (FixedWindow.answer_inside hwindow fun v hv => (h.start_le hwindow v hv).trans hle).1
  exact ⟨rfl, by simpa using hstart,
    .inl ⟨e, _, rfl, rfl, hcount, hstart, hseen ▸ hinside, hseen ▸ le_refl _⟩⟩

/-- A call on another key leaves a key as it is, but for what a clean-up drops. -/
theorem allow_other (hwindow : 0 < limiter.window) (hfits : 3 * limiter.window ≤ 2 ^ 63)
    (hne : other ≠ key) (h : Tracks limiter.window last (limiter.entries other) w)
    (hle : last ≤ now.nanos) :
    Tracks limiter.window now.nanos ((allow limiter key now).2.entries other) w := by
  have hset : ∀ e, Tracks limiter.window now.nanos
      ((maybeCleanup (setEntry limiter key e) now).entries other) w := by
    intro e
    have hentry : (setEntry limiter key e).entries other = limiter.entries other := if_neg hne
    have hkept : Tracks (setEntry limiter key e).window now.nanos
        ((setEntry limiter key e).entries other) w := by
      rw [hentry]
      exact h.mono hle
    exact tracks_cleanup hwindow hfits hkept
  unfold allow
  split
  · exact h.mono hle
  · split
    · exact hset _
    · split
      · exact hset _
      · split
        · exact hset _
        · exact hset _

/-- The answers of a key are those of its counter, at the times of its own calls. -/
theorem answerCalls_own {calls : List AllowCall} (hwindow : 0 < limiter.window)
    (hfits : 3 * limiter.window ≤ 2 ^ 63) (hkey : key ≠ "")
    (hclock : (calls.map (·.now.nanos)).Pairwise (· ≤ ·))
    (hlast : ∀ call ∈ calls, last ≤ call.now.nanos)
    (h : Tracks limiter.window last (limiter.entries key) w) :
    ((answerCalls limiter calls).filter (·.key = key)).map
    (fun a => (a.now.nanos, a.windowStart.map (·.nanos), a.allowed)) =
      (FixedWindow.answers limiter.limit limiter.window w
        ((calls.filter (·.key = key)).map (·.now.nanos))).map
        fun a => (a.time, some a.start, a.allowed) := by
  induction calls generalizing limiter last w with
  | nil => rfl
  | cons call calls ih =>
    obtain ⟨hlater, hclock⟩ := List.pairwise_cons.1 hclock
    have hnow := hlast call List.mem_cons_self
    have hnext : ∀ c ∈ calls, call.now.nanos ≤ c.now.nanos :=
      fun c hc => hlater _ (List.mem_map_of_mem hc)
    obtain ⟨hlimit, hsame⟩ := allow_config limiter call.key call.now
    have hwindow' : 0 < (allow limiter call.key call.now).2.window := hsame ▸ hwindow
    have hfits' : 3 * (allow limiter call.key call.now).2.window ≤ 2 ^ 63 := hsame ▸ hfits
    rw [answerCalls]
    by_cases hcall : call.key = key
    · obtain ⟨hallowed, hstart, htracks⟩ := allow_own hwindow hfits hkey h hnow
      subst hcall
      have hrest := ih hwindow' hfits' hclock hnext (hsame ▸ htracks)
      rw [hlimit, hsame] at hrest
      simp only [List.filter_cons, decide_true, if_true, List.map_cons, FixedWindow.answers, hrest,
        hallowed, hstart]
    · have htracks := allow_other hwindow hfits (Ne.symm hcall) h hnow
      have hrest := ih hwindow' hfits' hclock hnext (hsame ▸ htracks)
      rw [hlimit, hsame] at hrest
      simp only [List.filter_cons, hcall, decide_false, Bool.false_eq_true, if_false, hrest]

/-- The window of a key after some calls is the one of its counter. -/
theorem afterCalls_tracks {calls : List AllowCall} (hwindow : 0 < limiter.window)
    (hfits : 3 * limiter.window ≤ 2 ^ 63) (hkey : key ≠ "")
    (hclock : (calls.map (·.now.nanos)).Pairwise (· ≤ ·))
    (hlast : ∀ call ∈ calls, last ≤ call.now.nanos)
    (hnow : ∀ call ∈ calls, call.now.nanos ≤ now.nanos) (hle : last ≤ now.nanos)
    (h : Tracks limiter.window last (limiter.entries key) w) :
    (afterCalls limiter calls).limit = limiter.limit ∧
    (afterCalls limiter calls).window = limiter.window ∧
    Tracks limiter.window now.nanos ((afterCalls limiter calls).entries key)
      (FixedWindow.after limiter.limit limiter.window w
        ((calls.filter (·.key = key)).map (·.now.nanos))) := by
  induction calls generalizing limiter last w with
  | nil => exact ⟨rfl, rfl, h.mono hle⟩
  | cons call calls ih =>
    obtain ⟨hlater, hclock⟩ := List.pairwise_cons.1 hclock
    have hfirst := hlast call List.mem_cons_self
    have hnext : ∀ c ∈ calls, call.now.nanos ≤ c.now.nanos :=
      fun c hc => hlater _ (List.mem_map_of_mem hc)
    have hrest : ∀ c ∈ calls, c.now.nanos ≤ now.nanos := fun c hc => hnow c (List.mem_cons_of_mem _ hc)
    obtain ⟨hlimit, hsame⟩ := allow_config limiter call.key call.now
    have hwindow' : 0 < (allow limiter call.key call.now).2.window := hsame ▸ hwindow
    have hfits' : 3 * (allow limiter call.key call.now).2.window ≤ 2 ^ 63 := hsame ▸ hfits
    have hstep : ∀ w', Tracks limiter.window call.now.nanos
        ((allow limiter call.key call.now).2.entries key) w' →
        (afterCalls limiter (call :: calls)).limit = limiter.limit ∧
          (afterCalls limiter (call :: calls)).window = limiter.window ∧
        Tracks limiter.window now.nanos ((afterCalls limiter (call :: calls)).entries key)
          (FixedWindow.after limiter.limit limiter.window w'
            ((calls.filter (·.key = key)).map (·.now.nanos))) := by
      intro w' htracks
      have hrun := ih hwindow' hfits' hclock hnext hrest (hnow call List.mem_cons_self) (hsame ▸ htracks)
      rw [hlimit, hsame] at hrun
      exact hrun
    by_cases hcall : call.key = key
    · subst hcall
      have hrun := hstep _ (allow_own hwindow hfits hkey h hfirst).2.2
      simpa only [List.filter_cons, decide_true, if_true, List.map_cons, FixedWindow.after,
        List.foldl_cons] using hrun
    · have hrun := hstep _ (allow_other hwindow hfits (Ne.symm hcall) h hfirst)
      simpa only [List.filter_cons, hcall, decide_false, Bool.false_eq_true, if_false] using hrun

end Key

/-! ## Every key is limited -/

/-- The calls of a key that were allowed, and of which something more holds. -/
def allowedCalls (answers : List AllowAnswer) (key : String) (p : AllowAnswer → Bool) : Nat :=
  answers.countP fun a => decide (a.key = key) && (a.allowed && p a)

/-- What a limiter promises a key. -/
structure Limited (limit window : Int) (calls : List AllowCall) (key : String) : Prop where
  perWindow : ∀ start, (allowedCalls (answerCalls (newFixedWindowLimiter limit window) calls) key
    fun a => a.windowStart.map (·.nanos) == some start : Int) ≤ limit
  perInterval : ∀ t, (allowedCalls (answerCalls (newFixedWindowLimiter limit window) calls) key
    fun a => decide (t ≤ a.now.nanos ∧ a.now.nanos < t + window) : Int) ≤ 2 * limit
  refused : ∀ before call rest, calls = before ++ call :: rest → call.key = key →
    (allow (afterCalls (newFixedWindowLimiter limit window) before) key call.now).1 = false →
    limit ≤ (allowedCalls (answerCalls (newFixedWindowLimiter limit window) before) key
      fun a => decide (call.now.nanos - window < a.now.nanos ∧ a.now.nanos ≤ call.now.nanos) : Int)
  counter : ((answerCalls (newFixedWindowLimiter limit window) calls).filter (·.key = key)).map
    (·.allowed) =
    (FixedWindow.answers limit window none ((calls.filter (·.key = key)).map (·.now.nanos))).map
      (·.allowed)
  alone : ((answerCalls (newFixedWindowLimiter limit window) calls).filter (·.key = key)).map
    (·.allowed) =
    (answerCalls (newFixedWindowLimiter limit window) (calls.filter (·.key = key))).map (·.allowed)

section Bounds
variable {limit window : Int} {calls : List AllowCall} {key : String}

/-- The answers of a new limiter to a key, as its counter gives them. -/
theorem answerCalls_new (limit : Int) (hwindow : 0 < window) (hfits : 3 * window ≤ 2 ^ 63)
    (hkey : key ≠ "") (hclock : (calls.map (·.now.nanos)).Pairwise (· ≤ ·)) :
    ((answerCalls (newFixedWindowLimiter limit window) calls).filter (·.key = key)).map
        (fun a => (a.now.nanos, a.windowStart.map (·.nanos), a.allowed)) =
      (FixedWindow.answers limit window none ((calls.filter (·.key = key)).map (·.now.nanos))).map
        fun a => (a.time, some a.start, a.allowed) := by
  cases calls with
  | nil => rfl
  | cons call calls =>
    have hlast : ∀ c ∈ call :: calls, call.now.nanos ≤ c.now.nanos := by
      intro c hc
      rcases List.mem_cons.1 hc with rfl | hc
      · exact le_refl _
      · exact (List.pairwise_cons.1 hclock).1 _ (List.mem_map_of_mem hc)
    have htracks : Tracks window call.now.nanos
        ((newFixedWindowLimiter limit window).entries key) none := .inr ⟨rfl, by simp⟩
    have hwindow' : 0 < (newFixedWindowLimiter limit window).window := hwindow
    exact answerCalls_own hwindow' hfits hkey hclock hlast htracks

theorem allowed_new (hwindow : 0 < window) (hfits : 3 * window ≤ 2 ^ 63) (hkey : key ≠ "")
    (hclock : (calls.map (·.now.nanos)).Pairwise (· ≤ ·)) :
    ((answerCalls (newFixedWindowLimiter limit window) calls).filter (·.key = key)).map (·.allowed) =
      (FixedWindow.answers limit window none ((calls.filter (·.key = key)).map (·.now.nanos))).map
        (·.allowed) := by
  have hview :=
    congrArg (List.map fun v : Int × Option Int × Bool => v.2.2)
      (answerCalls_new limit hwindow hfits hkey hclock)
  rw [List.map_map, List.map_map] at hview
  exact hview

/-- The answer to the next call of a key. -/
theorem allow_after {now : Time} (hwindow : 0 < window) (hfits : 3 * window ≤ 2 ^ 63) (hkey : key ≠ "")
    (hclock : (calls.map (·.now.nanos)).Pairwise (· ≤ ·))
    (hlast : ∀ call ∈ calls, call.now.nanos ≤ now.nanos) :
    (allow (afterCalls (newFixedWindowLimiter limit window) calls) key now).1 =
    (FixedWindow.answer limit window
      (FixedWindow.after limit window none ((calls.filter (·.key = key)).map (·.now.nanos)))
        now.nanos).1 := by
  obtain ⟨first, hfirst, hle⟩ : ∃ first : Int, (∀ call ∈ calls, first ≤ call.now.nanos) ∧
      first ≤ now.nanos := by
    cases calls with
    | nil => exact ⟨now.nanos, by simp, le_refl _⟩
    | cons call calls =>
      refine ⟨call.now.nanos, fun c hc => ?_, hlast call List.mem_cons_self⟩
      rcases List.mem_cons.1 hc with rfl | hc
      · exact le_refl _
      · exact (List.pairwise_cons.1 hclock).1 _ (List.mem_map_of_mem hc)
  have htracks : Tracks window first ((newFixedWindowLimiter limit window).entries key) none :=
    .inr ⟨rfl, by simp⟩
  have hwindow' : 0 < (newFixedWindowLimiter limit window).window := hwindow
  obtain ⟨hlimit, hsame, hafter⟩ := afterCalls_tracks hwindow' hfits hkey hclock hfirst hlast hle htracks
  have hanswer := (allow_own (hsame ▸ hwindow) (hsame ▸ hfits) hkey (hsame ▸ hafter) (le_refl _)).1
  rw [hlimit, hsame] at hanswer
  exact hanswer

theorem key_mem {limiter : FixedWindowLimiter} {a : AllowAnswer}
    (h : a ∈ answerCalls limiter calls) : a.toAllowCall ∈ calls := by
  induction calls generalizing limiter with
  | nil => cases h
  | cons call calls ih =>
    rcases List.mem_cons.1 h with rfl | h
    · exact List.mem_cons_self
    · exact List.mem_cons_of_mem _ (ih h)

theorem answerCalls_filter :
    (answerCalls (newFixedWindowLimiter limit window) (calls.filter (·.key = key))).filter
    (·.key = key) =
    answerCalls (newFixedWindowLimiter limit window) (calls.filter (·.key = key)) := by
  rw [List.filter_eq_self]
  intro a ha
  exact (List.mem_filter.1 (key_mem ha)).2

/-- A count of answers of a key is a count of answers of its counter. -/
theorem allowedCalls_new (hwindow : 0 < window) (hfits : 3 * window ≤ 2 ^ 63) (hkey : key ≠ "")
    (hclock : (calls.map (·.now.nanos)).Pairwise (· ≤ ·)) {p : AllowAnswer → Bool}
    {q : Int → Option Int → Bool}
    (hp : ∀ a : AllowAnswer, p a = q a.now.nanos (a.windowStart.map (·.nanos))) :
    allowedCalls (answerCalls (newFixedWindowLimiter limit window) calls) key p =
      (FixedWindow.answers limit window none ((calls.filter (·.key = key)).map (·.now.nanos))).countP
        fun a => a.allowed && q a.time (some a.start) := by
  have hview := congrArg (List.countP fun v : Int × Option Int × Bool => v.2.2 && q v.1 v.2.1)
    (answerCalls_new limit hwindow hfits hkey hclock)
  rw [List.countP_map, List.countP_map, List.countP_filter] at hview
  refine Eq.trans ?_ hview
  unfold allowedCalls
  congr 1
  funext a
  rw [Bool.and_comm, hp]
  rfl

theorem pairwise_own (key : String) (hclock : (calls.map (·.now.nanos)).Pairwise (· ≤ ·)) :
    ((calls.filter (·.key = key)).map (·.now.nanos)).Pairwise (· ≤ ·) :=
  hclock.sublist (List.filter_sublist.map _)

theorem pairwise_before {before rest : List AllowCall} (hcalls : calls = before ++ rest)
    (hclock : (calls.map (·.now.nanos)).Pairwise (· ≤ ·)) :
    (before.map (·.now.nanos)).Pairwise (· ≤ ·) := by
  rw [hcalls, List.map_append] at hclock
  exact (List.pairwise_append.1 hclock).1

/-- **The bounds of a rate limit.** For windows of which three fit into a duration, every key is
limited as if it were alone: at most `limit` calls in a window, twice as many in any interval of
that length, and no refusal before `limit` calls. -/
theorem limiter_bounds (limit window : Int) (hlimit : 1 ≤ limit) (hwindow : 0 < window)
    (hfits : 3 * window ≤ 2 ^ 63) (calls : List AllowCall)
    (hclock : (calls.map (·.now.nanos)).Pairwise (· ≤ ·)) (key : String) (hkey : key ≠ "") :
    Limited limit window calls key := by
  have hown := pairwise_own key hclock
  constructor
  · intro start
    rw [allowedCalls_new (q := fun _ s => s == some start) hwindow hfits hkey hclock fun _ => rfl]
    exact FixedWindow.count_window_le hlimit hwindow hown start
  · intro t
    rw [allowedCalls_new (q := fun n _ => decide (t ≤ n ∧ n < t + window)) hwindow hfits hkey hclock
      fun _ => rfl]
    exact FixedWindow.count_interval_le hlimit hwindow hown t
  · intro before call rest hcalls hcall hrefused
    have hbefore := pairwise_before hcalls hclock
    rw [allowedCalls_new (q := fun n _ => decide (call.now.nanos - window < n ∧ n ≤ call.now.nanos))
      hwindow hfits hkey hbefore fun _ => rfl]
    have hlast : ∀ c ∈ before, c.now.nanos ≤ call.now.nanos := by
      intro c hc
      rw [hcalls, List.map_append, List.map_cons] at hclock
      exact (List.pairwise_append.1 hclock).2.2 _ (List.mem_map_of_mem hc) _ List.mem_cons_self
    rw [allow_after hwindow hfits hkey hbefore hlast] at hrefused
    refine FixedWindow.refused_count hwindow ?_ hrefused
    refine List.pairwise_append.2 ⟨pairwise_own key hbefore, List.pairwise_singleton .., ?_⟩
    rintro n hn m hm
    obtain ⟨c, hc, rfl⟩ := List.mem_map.1 hn
    rw [List.mem_singleton.1 hm]
    exact hlast c (List.mem_filter.1 hc).1
  · exact allowed_new hwindow hfits hkey hclock
  · rw [allowed_new hwindow hfits hkey hclock, ← answerCalls_filter,
      allowed_new hwindow hfits hkey hown, List.filter_filter]
    simp only [Bool.and_self]

end Bounds

/-- A call of `a`, 199 calls of `b`, and another call of `a`, all at once. -/
def cleanupCalls : List AllowCall :=
  ⟨"a", ⟨0, 0⟩⟩ :: (List.replicate 199 ⟨"b", ⟨0, 0⟩⟩ ++ [⟨"a", ⟨0, 0⟩⟩])

theorem limiter_bounds_sample : Limited 1 60000000000 cleanupCalls "a" :=
  limiter_bounds 1 60000000000 (by decide) (by decide) (by decide) cleanupCalls
    (by decide +kernel) "a" (by decide)

/-- With a window of 146 years the clean-up at the 200th call drops entries that are in use: three
windows overflow. -/
theorem long_window_unlimited : ¬ ∀ (limit window : Int), 1 ≤ limit → 0 < window → window < 2 ^ 63 →
    ∀ calls : List AllowCall,
    (calls.map (·.now.nanos)).Pairwise (· ≤ ·) → ∀ key, key ≠ "" → Limited limit window calls key := by
  intro h
  have hlimited :=
    (h 1 (2 ^ 62) (by decide) (by decide) (by decide) cleanupCalls (by decide +kernel) "a"
      (by decide)).perWindow 0
  revert hlimited
  decide +kernel

end Subdux
