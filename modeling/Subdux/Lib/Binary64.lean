import Mathlib.Data.Int.Log
import Mathlib.Data.Rat.Floor
import Mathlib.Tactic.FieldSimp
import Mathlib.Tactic.Linarith
import Mathlib.Tactic.Positivity
import Mathlib.Tactic.Ring
/-!
# Binary floating-point numbers of 64 bits

The finite numbers of the binary64 format: a sign and a magnitude of 53 bits and an
exponent. `ofRat` rounds a rational to the nearest of them, ties to even, and gives
nothing where the result is infinite. A zero has a sign too, which its value forgets.
`shortest` is the decimal with the fewest digits that rounds to a number.
-/

namespace Binary64

/-! ## Rounding to integers -/

def roundHalfEven (q : Rat) : Int :=
  let n := ⌊q⌋
  let rest := q - n
  if rest < 1 / 2 ∨ (rest = 1 / 2 ∧ n % 2 = 0) then n else n + 1

section Round
variable {q : Rat} {n : Int}

theorem roundHalfEven_nonneg (h : 0 ≤ q) : 0 ≤ roundHalfEven q := by
  have := Int.floor_nonneg.2 h
  unfold roundHalfEven
  dsimp only
  split_ifs <;> omega

theorem roundHalfEven_le (h : q < n + 1 / 2) : roundHalfEven q ≤ n := by
  have hlt : ⌊q⌋ < n + 1 := by
    rw [Int.floor_lt]
    push_cast
    linarith
  unfold roundHalfEven
  dsimp only
  split_ifs with hrest
  · omega
  · -- The floor of a number that is rounded up is below `n`.
    by_contra hle
    obtain rfl : ⌊q⌋ = n := by omega
    exact hrest (.inl (by linarith))

end Round

/-- From here on a number rounds to infinity. -/
def overflow : Rat := (2 ^ 54 - 1) * 2 ^ 970

/-- A magnitude of 53 bits, in the range of the exponent. -/
def IsMagnitude (q : Rat) : Prop :=
  ∃ (m : Nat) (e : Int), m < 2 ^ 53 ∧ -1074 ≤ e ∧ e ≤ 971 ∧ q = m * 2 ^ e

/-- The exponent of the last bit. -/
def exponent (q : Rat) : Int := max (Int.log 2 q - 52) (-1074)

/-- The nearest magnitude. -/
def round (q : Rat) : Rat := roundHalfEven (q / 2 ^ exponent q) * 2 ^ exponent q

section Round
variable {q : Rat}

theorem two_zpow_pos (e : Int) : (0 : Rat) < 2 ^ e := zpow_pos two_pos e

theorem div_exponent_lt (q : Rat) : q / 2 ^ exponent q < 2 ^ 53 := by
  rw [div_lt_iff₀ (two_zpow_pos _)]
  have hlog := Int.lt_zpow_succ_log_self (R := Rat) one_lt_two q
  have hexp : Int.log 2 q + 1 ≤ 53 + exponent q := by
    unfold exponent
    omega
  calc q < (2 : Rat) ^ (Int.log 2 q + 1) := by exact_mod_cast hlog
    _ ≤ 2 ^ (53 + exponent q) := zpow_le_zpow_right₀ one_le_two hexp
    _ = 2 ^ 53 * 2 ^ exponent q := by rw [zpow_add₀ two_ne_zero]; norm_num

theorem exponent_le (h : 0 < q) (hover : q < overflow) : exponent q ≤ 971 := by
  have hlt : q < (2 : Rat) ^ (1024 : Int) :=
    calc q < (2 ^ 54 - 1) * 2 ^ 970 := hover
      _ ≤ 2 ^ 54 * 2 ^ 970 := mul_le_mul_of_nonneg_right (by norm_num) (pow_pos two_pos 970).le
      _ = 2 ^ (1024 : Int) := by rw [← pow_add, ← zpow_natCast]; rfl
  have hlog : Int.log 2 q < 1024 := (Int.lt_zpow_iff_log_lt one_lt_two h).1 (by rwa [Nat.cast_ofNat])
  unfold exponent
  omega

theorem round_isMagnitude (h : 0 ≤ q) (hover : q < overflow) : IsMagnitude (round q) := by
  rcases h.eq_or_lt with rfl | hpos
  · exact ⟨0, 0, by norm_num, by norm_num, by norm_num, by simp [round, roundHalfEven]⟩
  have hlow : -1074 ≤ exponent q := le_max_right _ _
  have hhigh := exponent_le hpos hover
  have hscaled : 0 ≤ q / 2 ^ exponent q := div_nonneg h (two_zpow_pos _).le
  obtain ⟨m, hm⟩ := Int.eq_ofNat_of_zero_le (roundHalfEven_nonneg hscaled)
  have hround : round q = m * 2 ^ exponent q := by
    rw [round, hm, Int.cast_natCast]
  have hle : (m : Int) ≤ 2 ^ 53 := by
    rw [← hm]
    refine roundHalfEven_le ?_
    have := div_exponent_lt q
    push_cast
    linarith
  by_cases hlt : m < 2 ^ 53
  · exact ⟨m, exponent q, hlt, hlow, hhigh, hround⟩
  -- The mantissa has carried over: the exponent is one more.
  obtain rfl : m = 2 ^ 53 := by omega
  have hnext : exponent q ≤ 970 := by
    by_contra hlast
    have hexp : exponent q = 971 := by omega
    have hscaledLt : q / 2 ^ exponent q < ((2 ^ 53 - 1 : Int) : Rat) + 1 / 2 := by
      rw [hexp, div_lt_iff₀ (two_zpow_pos _)]
      refine hover.trans_eq ?_
      have hpow : (2 : Rat) ^ (971 : Int) = 2 * 2 ^ 970 := by
        rw [← pow_succ', ← zpow_natCast]
        rfl
      rw [hpow, overflow]
      generalize (2 : Rat) ^ 970 = p
      push_cast
      ring
    have := roundHalfEven_le hscaledLt
    rw [hm] at this
    norm_num at this
  refine ⟨2 ^ 52, exponent q + 1, by norm_num, by omega, by omega, ?_⟩
  rw [hround, zpow_add₀ two_ne_zero]
  push_cast
  ring

end Round

end Binary64

structure Binary64 where
  negative : Bool
  magnitude : Rat
  isMagnitude : Binary64.IsMagnitude magnitude
  deriving DecidableEq

namespace Binary64

def value (x : Binary64) : Rat := if x.negative then -x.magnitude else x.magnitude

/-- The zero without a sign. -/
def zero : Binary64 := ⟨false, 0, 0, 0, by norm_num, by norm_num, by norm_num, by simp⟩

instance : Inhabited Binary64 := ⟨zero⟩

/-- A sign and a magnitude, rounded. -/
def ofRat (negative : Bool) (q : Rat) : Option Binary64 :=
  if h : 0 ≤ q ∧ q < overflow then some ⟨negative, round q, round_isMagnitude h.1 h.2⟩ else none

/-- The nearest number, which is the one of this value where there is one. -/
def ofValue (q : Rat) : Binary64 := (ofRat (decide (q < 0)) |q|).getD zero

/-! ## The shortest decimal -/

/-- The digits, as a number, and the exponent of the last. Of the decimals that round to
`q`, it has the fewest digits, and of these it is the nearest. -/
def shortest (q : Rat) : Nat × Int :=
  let digits := (List.range 17).findSome? fun k : Nat =>
    let last := Int.log 10 q - k
    let rounds (n : Int) : Bool := round (n * 10 ^ last) = q
    let low := ⌊q / 10 ^ last⌋
    ([roundHalfEven (q / 10 ^ last), low, low + 1].find? rounds).map fun n => (n.toNat, last)
  digits.getD (0, 0)

example : (ofRat false (1 / 10)).map (fun x => shortest x.magnitude) = some (1, -1) ∧
    ofRat false (1 / 10) = ofRat false (10000000000000000001 / 100000000000000000000) := by
  decide +kernel

end Binary64
