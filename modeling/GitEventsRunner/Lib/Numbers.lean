/-
# Unsigned numbers, rounding and doubles

The decimal text of an unsigned number of a given width, rounding to the nearest
integer with ties to the even one, and the double next to a positive number.

A double has 53 significant bits.  Only positive numbers far from the ends of the
range of exponents are rounded here, so a double is a rational number and its
exponent is not bounded.  Rounding is monotone and keeps what is a double already,
and nothing else about it is used.
-/

import GitEventsRunner.Lib.Rfc3339
import Mathlib.Algebra.Order.Floor.Ring
import Mathlib.Data.Int.Log
import Mathlib.Data.Rat.Floor
import Mathlib.Tactic.Linarith
import Mathlib.Tactic.NormNum
import Mathlib.Tactic.Positivity

namespace GitEventsRunner.Lib

/-- The text of a number without a plus sign before it. -/
def withoutPlus : List Char → List Char
  | '+' :: rest => rest
  | chars => chars

/-- `str::parse` for an unsigned number of so many bits: digits, perhaps with a
plus sign before them, of a number that fits. -/
def parseUnsigned (bits : ℕ) (text : String) : Option ℕ :=
  if withoutPlus text.toList = [] then none
  else (Rfc3339.number (withoutPlus text.toList)).filter (· < 2 ^ bits)

theorem lt_of_parseUnsigned {bits n : ℕ} {text : String} (h : parseUnsigned bits text = some n) :
    n < 2 ^ bits := by
  rw [parseUnsigned] at h
  split at h
  · cases h
  · exact of_decide_eq_true (Option.filter_eq_some_iff.mp h).2

/-! ## Rounding -/

/-- Round to the nearest integer, from the middle between two to the even one. -/
def roundTiesEven (x : ℚ) : ℤ :=
  if Int.fract x < 1 / 2 then ⌊x⌋
  else if 1 / 2 < Int.fract x then ⌊x⌋ + 1
  else if ⌊x⌋ % 2 = 0 then ⌊x⌋ else ⌊x⌋ + 1

theorem floor_le_roundTiesEven (x : ℚ) : ⌊x⌋ ≤ roundTiesEven x := by
  rw [roundTiesEven]
  split_ifs <;> omega

theorem roundTiesEven_le_floor_add_one (x : ℚ) : roundTiesEven x ≤ ⌊x⌋ + 1 := by
  rw [roundTiesEven]
  split_ifs <;> omega

theorem roundTiesEven_intCast (n : ℤ) : roundTiesEven n = n := by
  rw [roundTiesEven, Int.fract_intCast, if_pos (by norm_num), Int.floor_intCast]

theorem roundTiesEven_mono {x y : ℚ} (h : x ≤ y) : roundTiesEven x ≤ roundTiesEven y := by
  rcases (Int.floor_mono h).lt_or_eq with hlt | heq
  · calc roundTiesEven x ≤ ⌊x⌋ + 1 := roundTiesEven_le_floor_add_one x
      _ ≤ ⌊y⌋ := hlt
      _ ≤ roundTiesEven y := floor_le_roundTiesEven y
  · -- between the same two integers a larger number is not rounded down instead
    have hfract : Int.fract x ≤ Int.fract y := by
      rw [Int.fract, Int.fract, heq]
      linarith
    rw [roundTiesEven, roundTiesEven, heq]
    split_ifs <;> first | omega | linarith

/-- What is rounded to zero. -/
theorem roundTiesEven_eq_zero_iff {x : ℚ} (hx : 0 ≤ x) : roundTiesEven x = 0 ↔ x ≤ 1 / 2 := by
  constructor
  · intro h
    by_contra hlt
    rw [not_le] at hlt
    have hfloor : ⌊x⌋ = 0 := by
      apply le_antisymm
      · exact (floor_le_roundTiesEven x).trans h.le
      · exact Int.floor_nonneg.mpr hx
    have hfract : Int.fract x = x := by
      rw [Int.fract, hfloor, Int.cast_zero, sub_zero]
    rw [roundTiesEven, hfract, hfloor, if_neg hlt.not_gt, if_pos hlt] at h
    cases h
  · intro h
    apply le_antisymm
    · have hhalf : roundTiesEven (1 / 2) = 0 := by decide +kernel
      exact (roundTiesEven_mono h).trans hhalf.le
    · exact (Int.floor_nonneg.mpr hx).trans (floor_le_roundTiesEven x)

/-! ## Doubles -/

namespace Float64

/-- The distance of the doubles around a positive number. -/
def ulp (x : ℚ) : ℚ := 2 ^ (Int.log 2 x - 52)

/-- The double next to a positive number, from the middle between two the one with
the even significand. -/
def round (x : ℚ) : ℚ := roundTiesEven (x / ulp x) * ulp x

theorem ulp_pos (x : ℚ) : 0 < ulp x := zpow_pos two_pos _

theorem two_pow_mul_ulp (x : ℚ) (n : ℕ) :
    ((2 ^ n : ℤ) : ℚ) * ulp x = 2 ^ (Int.log 2 x - 52 + n) := by
  rw [ulp, Int.cast_pow, Int.cast_ofNat, ← zpow_natCast, ← zpow_add₀ two_ne_zero, add_comm]

/-- A number is rounded at most to the next power of two. -/
theorem round_le_zpow (x : ℚ) : round x ≤ 2 ^ (Int.log 2 x + 1) := by
  have hsplit : (2 : ℚ) ^ (Int.log 2 x + 1) = ((2 ^ 53 : ℤ) : ℚ) * ulp x := by
    rw [two_pow_mul_ulp]
    congr 1
    omega
  have hdiv : x / ulp x ≤ ((2 ^ 53 : ℤ) : ℚ) := by
    rw [div_le_iff₀ (ulp_pos x), ← hsplit]
    exact (Int.lt_zpow_succ_log_self one_lt_two x).le
  rw [round, hsplit]
  apply mul_le_mul_of_nonneg_right _ (ulp_pos x).le
  apply Int.cast_le.mpr
  exact (roundTiesEven_mono hdiv).trans_eq (roundTiesEven_intCast _)

/-- A number is rounded at least to the last power of two. -/
theorem zpow_le_round {x : ℚ} (hx : 0 < x) : 2 ^ Int.log 2 x ≤ round x := by
  have hsplit : (2 : ℚ) ^ Int.log 2 x = ((2 ^ 52 : ℤ) : ℚ) * ulp x := by
    rw [two_pow_mul_ulp]
    congr 1
    omega
  have hdiv : ((2 ^ 52 : ℤ) : ℚ) ≤ x / ulp x := by
    rw [le_div_iff₀ (ulp_pos x), ← hsplit]
    exact Int.zpow_log_le_self one_lt_two hx
  rw [round, hsplit]
  apply mul_le_mul_of_nonneg_right _ (ulp_pos x).le
  apply Int.cast_le.mpr
  exact (roundTiesEven_intCast _).symm.trans_le (roundTiesEven_mono hdiv)

theorem round_pos {x : ℚ} (hx : 0 < x) : 0 < round x :=
  (zpow_pos two_pos _).trans_le (zpow_le_round hx)

theorem round_mono {x y : ℚ} (hx : 0 < x) (h : x ≤ y) : round x ≤ round y := by
  rcases (Int.log_mono_right (b := 2) hx h).lt_or_eq with hlt | heq
  · -- a power of two lies between the two
    calc round x ≤ 2 ^ (Int.log 2 x + 1) := round_le_zpow x
      _ ≤ 2 ^ Int.log 2 y := zpow_le_zpow_right₀ one_le_two hlt
      _ ≤ round y := zpow_le_round (hx.trans_le h)
  · have hulp : ulp x = ulp y := by rw [ulp, ulp, heq]
    rw [round, round, hulp]
    apply mul_le_mul_of_nonneg_right _ (ulp_pos y).le
    apply Int.cast_le.mpr
    apply roundTiesEven_mono
    exact div_le_div_of_nonneg_right h (ulp_pos y).le

/-- What has at most 53 significant bits is a double. -/
theorem round_of_significand {x : ℚ} {m : ℕ} {k : ℤ} (hm : 0 < m) (hbits : m < 2 ^ 53)
    (hx : x = m * 2 ^ k) : round x = x := by
  have hpos : 0 < x := by
    rw [hx]
    exact mul_pos (Nat.cast_pos.mpr hm) (zpow_pos two_pos k)
  have hlt : x < 2 ^ (53 + k) := by
    rw [hx, zpow_add₀ two_ne_zero]
    apply mul_lt_mul_of_pos_right _ (zpow_pos two_pos k)
    exact_mod_cast hbits
  have hlog : Int.log 2 x < 53 + k := (Int.lt_zpow_iff_log_lt one_lt_two hpos).mp hlt
  obtain ⟨j, hj⟩ := Int.eq_ofNat_of_zero_le (show 0 ≤ k - (Int.log 2 x - 52) by omega)
  have hdiv : x / ulp x = ((m * 2 ^ j : ℤ) : ℚ) := by
    rw [div_eq_iff (ulp_pos x).ne', Int.cast_mul, mul_assoc, two_pow_mul_ulp]
    have hk : Int.log 2 x - 52 + j = k := by omega
    rw [hk, hx, Int.cast_natCast]
  rw [round, hdiv, roundTiesEven_intCast, ← hdiv, div_mul_cancel₀ x (ulp_pos x).ne']

theorem round_natCast {n : ℕ} (hpos : 0 < n) (hbits : n < 2 ^ 53) : round n = n := by
  apply round_of_significand hpos hbits
  rw [zpow_zero, mul_one]

theorem round_two_pow (n : ℕ) : round (2 ^ n) = 2 ^ n := by
  apply round_of_significand (m := 1) (k := n) one_pos (by norm_num)
  rw [Nat.cast_one, one_mul, zpow_natCast]

/-- The double next to a number whose binary exponent is known. -/
theorem round_eq {x : ℚ} (e : ℤ) (hlow : 2 ^ e ≤ x) (hhigh : x < 2 ^ (e + 1)) :
    round x = roundTiesEven (x / 2 ^ (e - 52)) * 2 ^ (e - 52) := by
  have hpos : 0 < x := (zpow_pos two_pos e).trans_le hlow
  have hlog : Int.log 2 x = e := by
    apply le_antisymm
    · exact Int.lt_add_one_iff.mp ((Int.lt_zpow_iff_log_lt one_lt_two hpos).mp hhigh)
    · exact (Int.zpow_le_iff_le_log one_lt_two hpos).mp hlow
  rw [round, ulp, hlog]

end Float64

/-! ## Durations -/

namespace Duration

/-- The nearest number of nanoseconds. -/
def nearestNanos (secs : ℚ) : Duration := (roundTiesEven (secs * nanosPerSec)).toNat

/-- `Duration::from_secs_f64` of a number that is not negative: the nearest number
of nanoseconds; `none` is the panic on seconds that do not fit 64 bits. -/
def fromSecsF64 (secs : ℚ) : Option Duration :=
  if secs < 2 ^ 64 then some (nearestNanos secs) else none

theorem fromSecsF64_eq_some {secs : ℚ} {period : Duration} (h : fromSecsF64 secs = some period) :
    nearestNanos secs = period := by
  rw [fromSecsF64] at h
  split at h
  · exact Option.some.inj h
  · cases h

/-- Few nanoseconds are few seconds. -/
theorem lt_of_nearestNanos_lt {secs : ℚ} {bound : ℕ}
    (h : nearestNanos secs < bound * nanosPerSec) : secs < bound := by
  by_contra hle
  have hscaled : ((bound * nanosPerSec : ℕ) : ℚ) ≤ secs * nanosPerSec := by
    rw [Nat.cast_mul]
    gcongr
    exact not_lt.mp hle
  have hround : ((bound * nanosPerSec : ℕ) : ℤ) ≤ roundTiesEven (secs * nanosPerSec) :=
    (Int.le_floor.mpr (by exact_mod_cast hscaled)).trans (floor_le_roundTiesEven _)
  exact h.not_ge ((Int.le_toNat ((Int.natCast_nonneg _).trans hround)).mpr hround)

/-- Seconds make a duration, and not the empty one, if they fit and are more than
half a nanosecond. -/
theorem fromSecsF64_pos_iff {secs : ℚ} (h : 0 ≤ secs) :
    (∃ period, fromSecsF64 secs = some period ∧ period ≠ 0) ↔
      secs < 2 ^ 64 ∧ 1 / (2 * nanosPerSec) < secs := by
  have hnanos : (0 : ℚ) < nanosPerSec := by norm_num [nanosPerSec]
  have hscaled : 0 ≤ secs * nanosPerSec := mul_nonneg h hnanos.le
  have hnonneg : 0 ≤ roundTiesEven (secs * nanosPerSec) :=
    (Int.floor_nonneg.mpr hscaled).trans (floor_le_roundTiesEven _)
  have hzero : nearestNanos secs = 0 ↔ secs ≤ 1 / (2 * nanosPerSec) := by
    have hround : (roundTiesEven (secs * nanosPerSec)).toNat = 0 ↔
        roundTiesEven (secs * nanosPerSec) = 0 := by omega
    rw [nearestNanos, hround, roundTiesEven_eq_zero_iff hscaled, ← le_div_iff₀ hnanos, div_div]
  rw [fromSecsF64]
  split
  · next hfits =>
      constructor
      · rintro ⟨period, hperiod, hne⟩
        obtain rfl := Option.some.inj hperiod
        exact ⟨hfits, not_le.mp fun hle => hne (hzero.mpr hle)⟩
      · rintro ⟨-, hlt⟩
        exact ⟨_, rfl, fun heq => not_le.mpr hlt (hzero.mp heq)⟩
  · next hfits =>
      constructor
      · rintro ⟨period, hperiod, -⟩
        cases hperiod
      · rintro ⟨hlt, -⟩
        exact absurd hlt hfits

end Duration

end GitEventsRunner.Lib
