import DirectoryGateway.Decimal.Binary64
import Mathlib.Algebra.Order.Field.Power
import Mathlib.Data.Rat.Floor
import Mathlib.Tactic.FieldSimp
import Mathlib.Tactic.Linarith
import Mathlib.Tactic.NormNum

/-!
# How close rounding is

The values of numbers as fractions. What is rounded to fifty-three bits is off by no more than one part in `2 ^ 52`, small
numbers aside, which are off by less than that in all.
-/

namespace DirectoryGateway.Decimal

/-! ### Values -/

namespace Ratio

def value (r : Ratio) : ℚ :=
  r.num / r.den

theorem value_nonneg (r : Ratio) : 0 ≤ r.value :=
  div_nonneg (Nat.cast_nonneg _) (Nat.cast_nonneg _)

theorem scale_den_pos {r : Ratio} (proper : 0 < r.den) {base : Nat} (positive : 0 < base) (power : Int) :
    0 < (r.scale base power).den := by
  rw [scale]
  split
  · exact proper
  · exact Nat.mul_pos proper (Nat.pow_pos positive)

theorem scale_value (r : Ratio) {base : Nat} (positive : 0 < base) (power : Int) :
    (r.scale base power).value = r.value * (base : ℚ) ^ power := by
  have hbase : (base : ℚ) ≠ 0 := by positivity
  rw [scale]
  split
  · next up =>
    obtain ⟨n, rfl⟩ := Int.eq_ofNat_of_zero_le up
    simp only [value, Int.toNat_natCast, Nat.pow_eq, Nat.cast_mul, Nat.cast_pow, zpow_natCast]
    rw [div_mul_eq_mul_div]
  · next down =>
    obtain ⟨n, rfl⟩ : ∃ n : Nat, power = -n := ⟨(-power).toNat, by omega⟩
    simp only [value, neg_neg, Int.toNat_natCast, Nat.pow_eq, Nat.cast_mul, Nat.cast_pow, zpow_neg, zpow_natCast]
    rw [div_mul_eq_div_div, div_eq_mul_inv]

/-- The nearest number is at most one half away. -/
theorem round_near {r : Ratio} (proper : 0 < r.den) : |(r.round : ℚ) - r.value| ≤ 1 / 2 := by
  have hden : (0 : ℚ) < r.den := by exact_mod_cast proper
  have hsplit : (r.num : ℚ) = r.den * (r.num / r.den : Nat) + (r.num % r.den : Nat) := by
    exact_mod_cast (Nat.div_add_mod r.num r.den).symm
  have hvalue : r.value = (r.num / r.den : Nat) + (r.num % r.den : Nat) / r.den := by
    rw [value, hsplit]
    field_simp
  have hrest : ((r.num % r.den : Nat) : ℚ) / r.den * r.den = (r.num % r.den : Nat) := by field_simp
  rw [round, hvalue]
  split
  · next up =>
    have hup : (r.den : ℚ) ≤ 2 * (r.num % r.den : Nat) := by exact_mod_cast (show r.den ≤ 2 * (r.num % r.den) by omega)
    have hle : ((r.num % r.den : Nat) : ℚ) ≤ r.den := by exact_mod_cast (Nat.mod_lt _ proper).le
    have hhalf : 1 / 2 ≤ ((r.num % r.den : Nat) : ℚ) / r.den := by
      rw [le_div_iff₀ hden]
      linarith
    have hone : ((r.num % r.den : Nat) : ℚ) / r.den ≤ 1 := by
      rw [div_le_one hden]
      exact hle
    rw [abs_le]
    push_cast
    constructor <;> linarith
  · next down =>
    have hdown : 2 * ((r.num % r.den : Nat) : ℚ) ≤ r.den := by exact_mod_cast (show 2 * (r.num % r.den) ≤ r.den by omega)
    have hhalf : ((r.num % r.den : Nat) : ℚ) / r.den ≤ 1 / 2 := by
      rw [div_le_iff₀ hden]
      linarith
    have hzero : 0 ≤ ((r.num % r.den : Nat) : ℚ) / r.den := by positivity
    rw [abs_le]
    constructor <;> linarith

end Ratio

namespace Binary64

def value (x : Binary64) : ℚ :=
  x.mantissa * 2 ^ x.exponent

theorem toRatio_den_pos (x : Binary64) : 0 < x.toRatio.den :=
  Ratio.scale_den_pos Nat.one_pos Nat.two_pos _

theorem toRatio_value (x : Binary64) : x.toRatio.value = x.value := by
  rw [toRatio, Ratio.scale_value _ Nat.two_pos]
  simp [Ratio.value, value]

theorem le_iff (x y : Binary64) : x ≤ y ↔ x.value ≤ y.value := by
  have hx : (0 : ℚ) < x.toRatio.den := by exact_mod_cast x.toRatio_den_pos
  have hy : (0 : ℚ) < y.toRatio.den := by exact_mod_cast y.toRatio_den_pos
  rw [← toRatio_value, ← toRatio_value, Ratio.value, Ratio.value, div_le_div_iff₀ hx hy]
  exact_mod_cast Iff.rfl

theorem le_trans {x y z : Binary64} (h : x ≤ y) (h' : y ≤ z) : x ≤ z := by
  rw [le_iff] at h h' ⊢
  exact h.trans h'

/-! ### Rounding -/

theorem ofRatio_value {r : Ratio} (positive : r.num ≠ 0) :
    (ofRatio r).value = (r.scale 2 (-(max (binaryExponent r) leastExponent))).round *
      2 ^ max (binaryExponent r) leastExponent := by
  rw [ofRatio, if_neg positive]
  dsimp only
  split
  · next carried =>
    rw [carried, value, zpow_add_one₀ (by norm_num)]
    push_cast
    ring
  · rfl

/-- The exponent of a fraction takes fifty bits at least from it. -/
theorem binaryExponent_small {r : Ratio} (positive : r.num ≠ 0) (proper : 0 < r.den) :
    (2 : ℚ) ^ binaryExponent r ≤ r.value / 2 ^ 51 := by
  have hguess : binaryExponent r ≤ (r.num.log2 : Int) - (r.den.log2 : Int) - 52 := by
    rw [binaryExponent]
    split <;> omega
  have hnum : (2 : ℚ) ^ r.num.log2 ≤ r.num := by exact_mod_cast Nat.log2_self_le positive
  have hden : (r.den : ℚ) ≤ 2 ^ (r.den.log2 + 1) := by exact_mod_cast Nat.lt_log2_self.le
  have hpos : (0 : ℚ) < r.den := by exact_mod_cast proper
  have hvalue : (2 : ℚ) ^ r.num.log2 / 2 ^ (r.den.log2 + 1) ≤ r.value :=
    div_le_div₀ (Nat.cast_nonneg _) hnum hpos hden
  calc (2 : ℚ) ^ binaryExponent r
      ≤ 2 ^ ((r.num.log2 : Int) - (r.den.log2 : Int) - 52) := zpow_le_zpow_right₀ (by norm_num) hguess
    _ = 2 ^ r.num.log2 / 2 ^ (r.den.log2 + 1) / 2 ^ 51 := by
      rw [zpow_sub₀ (by norm_num), zpow_sub₀ (by norm_num), zpow_natCast, zpow_natCast, pow_succ]
      field_simp
    _ ≤ r.value / 2 ^ 51 := by gcongr

theorem ofRatio_near {r : Ratio} (proper : 0 < r.den) :
    |(ofRatio r).value - r.value| ≤ (r.value + 1) / 2 ^ 52 := by
  by_cases positive : r.num = 0
  · have hvalue : r.value = 0 := by simp [Ratio.value, positive]
    have hzero : (ofRatio r).value = 0 := by simp [ofRatio, positive, value]
    rw [hvalue, hzero]
    norm_num
  · have hscaled := Ratio.round_near (Ratio.scale_den_pos proper Nat.two_pos (-(max (binaryExponent r) leastExponent)))
    rw [Ratio.scale_value _ Nat.two_pos] at hscaled
    rw [ofRatio_value positive]
    have hsmall := binaryExponent_small positive proper
    have hleast : (2 : ℚ) ^ leastExponent ≤ 1 / 2 ^ 51 := by
      rw [one_div, ← zpow_natCast, ← zpow_neg]
      exact zpow_le_zpow_right₀ (by norm_num) (by decide)
    -- The exponent is that of the fraction or the least one.
    have hpower : (2 : ℚ) ^ max (binaryExponent r) leastExponent ≤ (r.value + 1) / 2 ^ 51 := by
      have hnonneg := r.value_nonneg
      rw [add_div]
      rcases max_choice (binaryExponent r) leastExponent with h | h
      · rw [h]
        have : (0 : ℚ) ≤ 1 / 2 ^ 51 := by positivity
        linarith
      · rw [h]
        have : 0 ≤ r.value / 2 ^ 51 := by positivity
        linarith
    generalize max (binaryExponent r) leastExponent = e at hscaled hpower ⊢
    have hpos : (0 : ℚ) < 2 ^ e := zpow_pos (by norm_num) e
    push_cast at hscaled
    have hback : ((r.scale 2 (-e)).round : ℚ) * 2 ^ e - r.value =
        ((r.scale 2 (-e)).round - r.value * 2 ^ (-e)) * 2 ^ e := by
      rw [sub_mul, mul_assoc, ← zpow_add₀ (by norm_num), neg_add_cancel, zpow_zero, mul_one]
    rw [hback, abs_mul, abs_of_pos hpos]
    calc |((r.scale 2 (-e)).round : ℚ) - r.value * 2 ^ (-e)| * 2 ^ e
        ≤ 1 / 2 * ((r.value + 1) / 2 ^ 51) := by gcongr
      _ = (r.value + 1) / 2 ^ 52 := by ring

theorem add_near (x y : Binary64) :
    |(x.add y).value - (x.value + y.value)| ≤ (x.value + y.value + 1) / 2 ^ 52 := by
  have hx : (x.toRatio.den : ℚ) ≠ 0 := by exact_mod_cast x.toRatio_den_pos.ne'
  have hy : (y.toRatio.den : ℚ) ≠ 0 := by exact_mod_cast y.toRatio_den_pos.ne'
  have hsum : (⟨x.toRatio.num * y.toRatio.den + y.toRatio.num * x.toRatio.den,
      x.toRatio.den * y.toRatio.den⟩ : Ratio).value = x.value + y.value := by
    rw [← toRatio_value, ← toRatio_value, Ratio.value, Ratio.value, Ratio.value]
    push_cast
    field_simp
  rw [← hsum, add]
  exact ofRatio_near (Nat.mul_pos x.toRatio_den_pos y.toRatio_den_pos)

end Binary64

end DirectoryGateway.Decimal
