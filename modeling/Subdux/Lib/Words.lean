import Mathlib.Data.Int.ConditionallyCompleteOrder
import Mathlib.Data.Int.GCD
import Mathlib.Data.Int.ModEq
import Mathlib.Data.Nat.Prime.Basic
import Mathlib.Logic.Function.Iterate
import Mathlib.Tactic.IntervalCases
import Mathlib.Tactic.Linarith
import Mathlib.Tactic.Ring
/-!
# 64-bit two's complement words

`wrap n` is the word that an unbounded result `n` leaves. A loop
`for cur < b { cur += d }` over words is exactly as good as its last round:
`advances_wrap_iff` says when every round moves `cur` up; `wrap_reaches` and
`wrap_stuck`, which loops of this kind end at all.
-/

namespace Words

/-! ## Wrapping -/

/-- The word congruent to `n`. -/
def wrap (n : Int) : Int := (n + 2 ^ 63) % 2 ^ 64 - 2 ^ 63

/-- The values of a word. -/
def InRange (n : Int) : Prop := -2 ^ 63 ≤ n ∧ n < 2 ^ 63

instance (n : Int) : Decidable (InRange n) := inferInstanceAs (Decidable (_ ∧ _))

section Wrap
variable {m n : Int}

theorem wrap_inRange (n : Int) : InRange (wrap n) := by
  unfold InRange wrap
  omega

theorem wrap_of_inRange (h : InRange n) : wrap n = n := by
  unfold InRange at h
  unfold wrap
  omega

theorem wrap_modEq (n : Int) : wrap n ≡ n [ZMOD 2 ^ 64] := by
  unfold wrap Int.ModEq
  omega

theorem wrap_congr (h : m ≡ n [ZMOD 2 ^ 64]) : wrap m = wrap n := by
  unfold Int.ModEq at h
  unfold wrap
  omega

/-- Wrapping early changes nothing under additions and multiplications. -/
theorem wrap_linear (a k n c : Int) : wrap ((a + wrap n) * k + c) = wrap ((a + n) * k + c) :=
  wrap_congr ((((wrap_modEq n).add_left a).mul_right k).add_right c)

theorem wrap_add_mod (m n : Int) : wrap (m + n % 2 ^ 64) = wrap (m + n) :=
  wrap_congr ((Int.mod_modEq n _).add_left m)

end Wrap

/-! ## Loops over words -/

section Loops
variable {step : Int → Int} {a b : Int}

/-- Every round of `for cur < b { cur = step(cur) }` from `a` moves `cur` up. -/
def Advances (step : Int → Int) (a b : Int) : Prop :=
  ∀ n : Nat, (∀ j ≤ n, step^[j] a < b) → step^[n] a < step^[n + 1] a

/-- A loop whose rounds move up ends. -/
theorem Advances.ends (h : Advances step a b) : ∃ n : Nat, b ≤ step^[n] a := by
  by_contra hnot
  push Not at hnot
  have hgrow : ∀ n : Nat, a + n ≤ step^[n] a := by
    intro n
    induction n with
    | zero => simp
    | succ n ih =>
      have := h n fun j _ => hnot j
      push_cast
      omega
  have := hgrow (b - a).toNat
  have := hnot (b - a).toNat
  omega

/-- Rounds that follow a strictly increasing sequence up to the first element
that reaches `b` move up. -/
theorem advances_of_sequence {f : Nat → Int} {k : Nat} (hf : StrictMono f) (h0 : f 0 = a)
    (hstep : ∀ n < k, step (f n) = f (n + 1)) (hk : b ≤ f k) : Advances step a b := by
  have hiter : ∀ n ≤ k, step^[n] a = f n := by
    intro n
    induction n with
    | zero => exact fun _ => h0.symm
    | succ n ih =>
      intro hn
      rw [Function.iterate_succ_apply', ih (by omega), hstep n (by omega)]
  intro n hn
  have hlt : n < k := by
    by_contra hge
    have := hn k (by omega)
    rw [hiter k le_rfl] at this
    omega
  rw [hiter n (by omega), hiter (n + 1) (by omega)]
  exact hf (by omega)

/-- The number of rounds of `d` from `a` to `b`. -/
def rounds (d a b : Int) : Int := (b - a + d - 1) / d

theorem rounds_spec {d : Int} (hd : 0 < d) (hab : a < b) :
    0 < rounds d a b ∧ a + d * (rounds d a b - 1) < b ∧ b ≤ a + d * rounds d a b := by
  have hdiv := Int.emod_add_mul_ediv (b - a + d - 1) d
  have hmod := Int.emod_nonneg (b - a + d - 1) hd.ne'
  have hlt := Int.emod_lt_of_pos (b - a + d - 1) hd
  rw [show (b - a + d - 1) / d = rounds d a b from rfl] at hdiv
  have hbelow : a + d * (rounds d a b - 1) < b := by linarith
  have habove : b ≤ a + d * rounds d a b := by linarith
  refine ⟨?_, hbelow, habove⟩
  by_contra hneg
  have : d * rounds d a b ≤ 0 := Int.mul_nonpos_of_nonneg_of_nonpos hd.le (not_lt.1 hneg)
  omega

/-- A loop that adds `d` to a word, from `a` to a word `b` above it: every round
moves up exactly when `d` is not 0 as a word and the last round does
not pass the end of the range. -/
theorem advances_wrap_iff {d : Int} (ha : InRange a) (hb : InRange b) (hab : a < b)
    (hstep : ∀ x, InRange x → step x = wrap (x + d)) :
    Advances step a b ↔ 0 < d % 2 ^ 64 ∧ a + d % 2 ^ 64 * rounds (d % 2 ^ 64) a b < 2 ^ 63 := by
  have hword : ∀ x, InRange x → step x = wrap (x + d % 2 ^ 64) :=
    fun x hx => by rw [hstep x hx, wrap_add_mod]
  have hd0 : 0 ≤ d % 2 ^ 64 := Int.emod_nonneg _ (by decide)
  have hd64 : d % 2 ^ 64 < 2 ^ 64 := Int.emod_lt_of_pos _ (by decide)
  clear hstep
  generalize d % 2 ^ 64 = d at hword hd0 hd64 ⊢
  constructor
  · intro h
    have hpos : 0 < d := by
      by_contra hzero
      obtain rfl : d = 0 := by omega
      have := h 0 fun j hj => by simpa [Nat.le_zero.1 hj] using hab
      simp [hword a ha, wrap_of_inRange ha] at this
    obtain ⟨hr, hlast, -⟩ := rounds_spec hpos hab
    refine ⟨hpos, ?_⟩
    obtain ⟨k, hk⟩ : ∃ k : Nat, rounds d a b = k + 1 := ⟨(rounds d a b - 1).toNat, by omega⟩
    rw [hk] at hlast ⊢
    -- Up to the last round nothing wraps.
    have hbelow : ∀ n ≤ k, a + d * n < b := by
      intro n hn
      have : d * (n : Int) ≤ d * k := Int.mul_le_mul_of_nonneg_left (by omega) hd0
      have : a + d * (k : Int) < b := by simpa using hlast
      omega
    have hrange : ∀ n ≤ k, InRange (a + d * n) := by
      intro n hn
      have : 0 ≤ d * (n : Int) := Int.mul_nonneg hd0 (by omega)
      have := hbelow n hn
      unfold InRange at *
      omega
    have hiter : ∀ n ≤ k, step^[n] a = a + d * n := by
      intro n
      induction n with
      | zero => simp
      | succ n ih =>
        intro hn
        rw [Function.iterate_succ_apply', ih (by omega), hword _ (hrange n (by omega)), add_assoc,
          ← mul_add_one,
          ← Nat.cast_succ, wrap_of_inRange (hrange (n + 1) hn)]
    have hup := h k fun j hj => by rw [hiter j hj]; exact hbelow j hj
    rw [Function.iterate_succ_apply', hiter k le_rfl, hword _ (hrange k le_rfl), add_assoc,
      ← mul_add_one] at hup
    have hk64 := hrange k le_rfl
    have : d * ((k : Int) + 1) = d * k + d := by ring
    unfold InRange wrap at *
    omega
  · rintro ⟨hpos, hlast⟩
    obtain ⟨hr, -, hreach⟩ := rounds_spec hpos hab
    obtain ⟨k, hk⟩ : ∃ k : Nat, rounds d a b = k := ⟨(rounds d a b).toNat, by omega⟩
    rw [hk] at hlast hreach
    have hmono : StrictMono fun n : Nat => a + d * n := by
      intro m n hmn
      have : d * (m : Int) < d * n := Int.mul_lt_mul_of_pos_left (by omega) hpos
      simp only
      omega
    refine advances_of_sequence hmono (by simp) (fun n hn => ?_) hreach
    have hle : a + d * ((n + 1 : Nat) : Int) ≤ a + d * k := hmono.monotone (by omega : n + 1 ≤ k)
    have hnn : 0 ≤ d * (n : Int) := Int.mul_nonneg hd0 (by omega)
    have hnext : d * ((n + 1 : Nat) : Int) = d * n + d := by push_cast; ring
    unfold InRange at ha
    rw [hword _ (by unfold InRange; omega), wrap_of_inRange (by unfold InRange; omega), hnext]
    ring

end Loops

/-! ## Where such a loop comes to -/

section Orbits
variable {step : Int → Int} {a b d : Int}

/-- The rounds of a loop that adds `d` to a word. -/
theorem iterate_wrap (hstep : ∀ x, InRange x → step x = wrap (x + d)) (ha : InRange a) (n : Nat) :
    step^[n] a = wrap (a + n * d) := by
  induction n with
  | zero => simp [wrap_of_inRange ha]
  | succ n ih =>
    rw [Function.iterate_succ_apply', ih, hstep _ (wrap_inRange _)]
    refine wrap_congr (((wrap_modEq _).add_right d).trans ?_)
    rw [show a + ((n + 1 : Nat) : Int) * d = a + n * d + d by push_cast; ring]

/-- Such a loop comes to every word that differs from the first by a common divisor of
`d` and the size of a word, so to one of the last quarter of the range. -/
theorem wrap_reaches (hd : ¬ 2 ^ 63 ∣ d) (a : Int) : ∃ n : Nat, 2 ^ 62 ≤ wrap (a + n * d) := by
  obtain ⟨k, hk, hgcd⟩ : ∃ k ≤ 64, Int.gcd d (2 ^ 64) = 2 ^ k := by
    have hdvd : Int.gcd d (2 ^ 64) ∣ 2 ^ 64 := by
      have := Int.gcd_dvd_natAbs_right d (2 ^ 64)
      simpa [Int.natAbs_pow] using this
    exact (Nat.dvd_prime_pow Nat.prime_two).1 hdvd
  have hk62 : k ≤ 62 := by
    by_contra hlarge
    refine hd (dvd_trans ?_ (Int.gcd_dvd_left (a := d) (b := 2 ^ 64)))
    rw [hgcd, Nat.cast_pow, Nat.cast_two]
    exact pow_dvd_pow (2 : Int) (by omega : 63 ≤ k)
  -- The last word that is congruent to `a` modulo the divisor.
  have hg : (2 : Int) ^ k ≤ 2 ^ 62 := pow_le_pow_right₀ (by decide) hk62
  have hbezout := Int.gcd_eq_gcd_ab d (2 ^ 64)
  rw [hgcd] at hbezout
  rw [Nat.cast_pow, Nat.cast_two] at hbezout
  have hpow : (2 : Int) ^ 63 = 2 ^ k * 2 ^ (63 - k) := by rw [← pow_add]; congr 1; omega
  obtain ⟨t, ht⟩ : ∃ t, 2 ^ 63 - 2 ^ k + a % 2 ^ k = a + 2 ^ k * t :=
    ⟨2 ^ (63 - k) - 1 - a / 2 ^ k, by have := Int.emod_add_mul_ediv a (2 ^ k); rw [hpow]; linarith⟩
  have hmod := Int.emod_nonneg a (show (2 : Int) ^ k ≠ 0 by positivity)
  have hlt := Int.emod_lt_of_pos a (show (0 : Int) < 2 ^ k by positivity)
  have hword : InRange (a + 2 ^ k * t) := by unfold InRange; omega
  refine ⟨(Int.gcdA d (2 ^ 64) * t % 2 ^ 64).toNat, ?_⟩
  rw [Int.toNat_of_nonneg (Int.emod_nonneg _ (by decide))]
  have hcongr : a + Int.gcdA d (2 ^ 64) * t % 2 ^ 64 * d ≡ a + 2 ^ k * t [ZMOD 2 ^ 64] := by
    refine (((Int.mod_modEq _ _).mul_right d).trans (Int.modEq_iff_dvd.2 ?_)).add_left a
    exact ⟨Int.gcdB d (2 ^ 64) * t, by rw [hbezout]; ring⟩
  rw [wrap_congr hcongr, wrap_of_inRange hword]
  omega

/-- A loop whose step is 0 or half of the words never passes where it starts. -/
theorem wrap_stuck (hd : 2 ^ 63 ∣ d) (h0 : 0 ≤ a) (h : a < 2 ^ 63) (n : Nat) : wrap (a + n * d) ≤ a := by
  obtain ⟨q, rfl⟩ := hd
  unfold wrap
  have : (n : Int) * (2 ^ 63 * q) = 2 ^ 63 * (n * q) := by ring
  rw [this]
  generalize (n : Int) * q = m
  omega

end Orbits
end Words
