import Mathlib.Algebra.Order.Field.Basic
import Mathlib.Data.Rat.Cast.Order
import Mathlib.Tactic.Linarith
import Mathlib.Tactic.Positivity
import Mathlib.Tactic.FieldSimp
import Mathlib.Tactic.Ring

/-!
# Scaling with a fixed point

A count over `ms` units of time is brought to `K` units with a coefficient that was divided
beforehand and has `q` bits after the point. What is lost is below one, and what the coefficient
lost for each of the count.
-/

namespace Wave300.Lib

variable {q K m ms v : ℕ}

/-- `v` is `m * K / ms` rounded down, with an error for each of the `m` that is below `2 ^ -q`. -/
structure RoundsDown (q K m ms v : ℕ) : Prop where
  le : (v : ℚ) ≤ m * K / ms
  short : (m : ℚ) * K / ms - v < 1 + m / 2 ^ q

theorem roundsDown_iff (pos : 0 < ms) : RoundsDown q K m ms v ↔
    v * ms ≤ m * K ∧ m * K * 2 ^ q < ((v + 1) * 2 ^ q + m) * ms := by
  have msPos : (0 : ℚ) < ms := Nat.cast_pos.2 pos
  have unit : (0 : ℚ) < 2 ^ q := by positivity
  have le : (v : ℚ) ≤ m * K / ms ↔ v * ms ≤ m * K := by
    rw [le_div_iff₀ msPos]
    exact_mod_cast Iff.rfl
  have short : (m : ℚ) * K / ms - v < 1 + m / 2 ^ q ↔
      m * K * 2 ^ q < ((v + 1) * 2 ^ q + m) * ms := by
    have scaled : ((v : ℚ) + 1 + m / 2 ^ q) * ms * 2 ^ q = ((v + 1) * 2 ^ q + m) * ms := by
      field_simp
    calc (m : ℚ) * K / ms - v < 1 + m / 2 ^ q
        ↔ (m : ℚ) * K / ms < v + 1 + m / 2 ^ q := by
          constructor <;> intro h <;> linarith
      _ ↔ (m : ℚ) * K < (v + 1 + m / 2 ^ q) * ms := div_lt_iff₀ msPos
      _ ↔ (m : ℚ) * K * 2 ^ q < (v + 1 + m / 2 ^ q) * ms * 2 ^ q :=
          (mul_lt_mul_iff_left₀ unit).symm
      _ ↔ m * K * 2 ^ q < ((v + 1) * 2 ^ q + m) * ms := by
          rw [scaled]
          exact_mod_cast Iff.rfl
  constructor
  · exact fun h => ⟨le.1 h.le, short.1 h.short⟩
  · exact fun h => ⟨le.2 h.1, short.2 h.2⟩

/-- The product with the coefficient, without the bits after the point. -/
theorem roundsDown_scaled (pos : 0 < ms) :
    RoundsDown q K m ms (m * (K * 2 ^ q / ms) / 2 ^ q) := by
  have unit : 0 < 2 ^ q := Nat.two_pow_pos q
  generalize is : K * 2 ^ q / ms = coeff
  generalize value : m * coeff / 2 ^ q = v
  have below : coeff * ms ≤ K * 2 ^ q := is ▸ Nat.div_mul_le_self _ _
  have above : K * 2 ^ q < (coeff + 1) * ms :=
    (Nat.div_lt_iff_lt_mul pos).1 (is ▸ Nat.lt_succ_self coeff)
  have low : v * 2 ^ q ≤ m * coeff := value ▸ Nat.div_mul_le_self _ _
  have high : m * coeff < (v + 1) * 2 ^ q :=
    (Nat.div_lt_iff_lt_mul unit).1 (value ▸ Nat.lt_succ_self v)
  rw [roundsDown_iff pos]
  constructor
  · apply Nat.le_of_mul_le_mul_right _ unit
    calc v * ms * 2 ^ q = v * 2 ^ q * ms := by ring
      _ ≤ m * coeff * ms := Nat.mul_le_mul_right ms low
      _ = m * (coeff * ms) := by ring
      _ ≤ m * (K * 2 ^ q) := Nat.mul_le_mul_left m below
      _ = m * K * 2 ^ q := by ring
  · calc m * K * 2 ^ q = m * (K * 2 ^ q) := by ring
      _ ≤ m * ((coeff + 1) * ms) := Nat.mul_le_mul_left m above.le
      _ = (m * coeff + m) * ms := by ring
      _ < ((v + 1) * 2 ^ q + m) * ms := Nat.mul_lt_mul_of_pos_right (by omega) pos

/-- What is short of a rounding by `2 ^ q` or more does not round. -/
theorem RoundsDown.not_of_add_le {w B : ℕ} (h : RoundsDown q K m ms v) (less : w + B ≤ v)
    (far : 2 ^ q + m ≤ B * 2 ^ q) : ¬ RoundsDown q K m ms w := by
  intro h'
  have unit : (0 : ℚ) < 2 ^ q := by positivity
  have gap : (w : ℚ) + B ≤ v := by exact_mod_cast less
  have wide : 1 + (m : ℚ) / 2 ^ q ≤ B := by
    have cast : (2 : ℚ) ^ q + m ≤ B * 2 ^ q := by exact_mod_cast far
    rw [← div_le_iff₀ unit, add_div, div_self unit.ne'] at cast
    exact cast
  have le := h.le
  have short := h'.short
  linarith

end Wave300.Lib
