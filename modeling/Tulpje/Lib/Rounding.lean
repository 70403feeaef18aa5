import Mathlib.Algebra.Order.Field.Power
import Mathlib.Data.Int.Log
import Mathlib.Data.Rat.Floor
import Mathlib.Tactic.FieldSimp
import Mathlib.Tactic.Linarith
import Mathlib.Tactic.Positivity

/-!
# Rounding to binary digits

A rational number is rounded to the nearest one with `p` binary digits, and to the one with an even last digit if two
are equally near. Exponents are not bounded. Natural numbers with at most `p` digits are kept (`round_natCast`), and
others change by a `2 ^ p`-th part at most (`abs_round_sub_le`).
-/

namespace Tulpje.Lib.Rounding

/-- The nearest integer. -/
def toEven (x : ℚ) : ℤ :=
  if Int.fract x < 1 / 2 then ⌊x⌋
  else if 1 / 2 < Int.fract x then ⌊x⌋ + 1
  else if Even ⌊x⌋ then ⌊x⌋
  else ⌊x⌋ + 1

/-- The exponent of the last of `p` digits. -/
def lastExponent (p : ℕ) (x : ℚ) : ℤ := Int.log 2 |x| - (p - 1)

def round (p : ℕ) (x : ℚ) : ℚ := toEven (x / 2 ^ lastExponent p x) * 2 ^ lastExponent p x

theorem abs_toEven_sub_le (x : ℚ) : |toEven x - x| ≤ 1 / 2 := by
  have hx := Int.floor_add_fract x
  have hlow : (⌊x⌋ : ℚ) - x = -Int.fract x := by linarith
  have hhigh : ((⌊x⌋ + 1 : ℤ) : ℚ) - x = 1 - Int.fract x := by
    push_cast
    linarith
  have hnonneg := Int.fract_nonneg x
  have hlt := Int.fract_lt_one x
  unfold toEven
  rw [abs_le]
  split_ifs with h₁ h₂ h₃
  · constructor <;> linarith
  · constructor <;> linarith
  · constructor <;> linarith
  · constructor <;> linarith

theorem toEven_intCast (n : ℤ) : toEven n = n := by
  rw [toEven, Int.fract_intCast, if_pos (by norm_num), Int.floor_intCast]

section Round
variable {p : ℕ}

theorem two_zpow_lastExponent_le {x : ℚ} (hx : 0 < x) : (2 : ℚ) ^ lastExponent p x ≤ 2 * x / 2 ^ p := by
  have hlog : (2 : ℚ) ^ Int.log 2 x ≤ x := Int.zpow_log_le_self (by decide) hx
  have hsplit : (2 : ℚ) ^ lastExponent p x = 2 ^ Int.log 2 x * 2 / 2 ^ p := by
    rw [lastExponent, abs_of_pos hx, sub_sub_eq_add_sub, zpow_sub₀ two_ne_zero, zpow_add₀ two_ne_zero, zpow_one,
      zpow_natCast]
  rw [hsplit, mul_comm]
  gcongr

theorem abs_round_sub_le {x : ℚ} (hx : 0 < x) : |round p x - x| ≤ x / 2 ^ p := by
  have hpos : (0 : ℚ) < 2 ^ lastExponent p x := by positivity
  have hscale : round p x - x =
      (toEven (x / 2 ^ lastExponent p x) - x / 2 ^ lastExponent p x) * 2 ^ lastExponent p x := by
    rw [round, sub_mul, div_mul_cancel₀ x hpos.ne']
  rw [hscale, abs_mul, abs_of_pos hpos]
  calc |toEven (x / 2 ^ lastExponent p x) - x / 2 ^ lastExponent p x| * 2 ^ lastExponent p x
      ≤ 1 / 2 * (2 * x / 2 ^ p) := by
        gcongr
        · exact abs_toEven_sub_le _
        · exact two_zpow_lastExponent_le hx
    _ = x / 2 ^ p := by ring

theorem round_natCast (hp : 0 < p) {n : ℕ} (hn : n < 2 ^ p) : round p n = n := by
  -- the last digit has no positive exponent, so that the scaled number is an integer
  have hexponent : lastExponent p n ≤ 0 := by
    have hlog : Nat.log 2 n < p := Nat.log_lt_of_lt_pow' hp.ne' hn
    rw [lastExponent, Nat.abs_cast, Int.log_natCast]
    omega
  obtain ⟨k, hk⟩ := Int.eq_ofNat_of_zero_le (neg_nonneg.mpr hexponent)
  have hscaled : (n : ℚ) / 2 ^ lastExponent p n = ((n * 2 ^ k : ℕ) : ℤ) := by
    rw [div_eq_mul_inv, ← zpow_neg, hk]
    push_cast
    rw [zpow_natCast]
  rw [round, hscaled, toEven_intCast, ← hscaled, div_mul_cancel₀ _ (by positivity)]

end Round

end Tulpje.Lib.Rounding
