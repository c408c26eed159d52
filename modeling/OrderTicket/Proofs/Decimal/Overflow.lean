import OrderTicket.Proofs.Decimal.Operations

/-!
# Overflow

A result that the context cannot hold is a fault. This module shows where the limit lies: half a
unit above the largest number, from where on the nearest number would be the next power of ten.
Nothing else makes rounding fail.

* `Decimal.overflowThreshold`: the least magnitude that is too large.
* `Decimal.finish_eq_error_iff`: rounding fails exactly from there on.
* `Decimal.abs_eq_error_iff`: so does the absolute value of a number.
* `Decimal.Computes.eq_error_iff`: so does every operation.
-/

namespace OrderTicket.Decimal

/-- The middle between the largest number of the context and the power of ten above it. -/
def overflowThreshold : ℚ :=
  (10 ^ precision - 1 / 2) * 10 ^ (maxExponent + 1 - precision)

/-- The largest power of ten of the context is not too large for it. -/
theorem pow_maxExponent_le_overflowThreshold : (10 : ℚ) ^ maxExponent ≤ overflowThreshold := by
  have hsplit : (10 : ℚ) ^ maxExponent = 10 ^ (27 : ℕ) * 10 ^ (maxExponent + 1 - precision) := by
    rw [← zpow_natCast, ← ten_zpow_add]
    rfl
  rw [hsplit, overflowThreshold]
  exact mul_le_mul_of_nonneg_right (by norm_num [precision]) (ten_zpow_pos _).le

/-- What is too large for the context begins below the next power of ten. -/
theorem overflowThreshold_le_pow : overflowThreshold ≤ 10 ^ (maxExponent + 1) := by
  have hsplit : (10 : ℚ) ^ (maxExponent + 1) =
      10 ^ precision * 10 ^ (maxExponent + 1 - precision) := by
    rw [← zpow_natCast, ← ten_zpow_add]
    rfl
  rw [hsplit, overflowThreshold]
  exact mul_le_mul_of_nonneg_right (by linarith) (ten_zpow_pos _).le

/-- The digits that are kept are all nines, and are rounded up, exactly from the middle to the next
power of ten on. -/
theorem shiftRight_eq_pow_iff (n : Bool) {c places : ℕ}
    (hcount : Digits.count c = precision + places) :
    shiftRight .halfEven n c places = 10 ^ precision ↔
      (2 * 10 ^ precision - 1) * 10 ^ places ≤ 2 * c := by
  have hc : c < 10 ^ precision * 10 ^ places := by
    rw [← pow_add, ← hcount]
    exact Digits.lt_pow_count c
  have hq : c / 10 ^ places < 10 ^ precision := by
    rwa [Nat.div_lt_iff_lt_mul (by positivity)]
  have hr : c % 10 ^ places < 10 ^ places := Nat.mod_lt _ (by positivity)
  have hsum : c / 10 ^ places * 10 ^ places + c % 10 ^ places = c := Nat.div_add_mod' c _
  have hp : (10 : ℕ) ^ precision = 10000000000000000000000000000 := rfl
  rw [shiftRight_eq]
  generalize c / 10 ^ places = q at *
  generalize c % 10 ^ places = r at *
  generalize (10 : ℕ) ^ places = unit at *
  rw [hp] at *
  constructor
  · intro hcarry
    -- a carry means that half of the unit or more is dropped
    obtain ⟨rfl, hhalf⟩ : q = 9999999999999999999999999999 ∧ unit ≤ 2 * r := by
      split_ifs at hcarry with hraises
      · refine ⟨by omega, not_lt.1 fun hlt => ?_⟩
        rw [Nat.compare_eq_lt.2 hlt] at hraises
        simp [Rounding.raises] at hraises
      · omega
    omega
  · intro hle
    have hnines : 9999999999999999999999999999 ≤ q := by
      by_contra hlt
      have hmul := Nat.mul_le_mul_right unit (show q ≤ 9999999999999999999999999998 by omega)
      omega
    obtain rfl : q = 9999999999999999999999999999 := by omega
    have hraises : Rounding.halfEven.raises n 9999999999999999999999999999 r
        (compare (2 * r) unit) = true := by
      rcases (show unit < 2 * r ∨ unit = 2 * r by omega) with hgt | heq
      · rw [Nat.compare_eq_gt.2 hgt]
        rfl
      · rw [Nat.compare_eq_eq.2 heq.symm]
        rfl
    rw [if_pos hraises]

/-- A result whose leading digit has the largest exponent is too large exactly if dropping its
surplus digits carries into a new one. -/
theorem finish_eq_error_iff_of_adjusted {n : Bool} {c : ℕ} {e : ℤ} {fault : Fault} (hc : c ≠ 0)
    (hadj : adjusted c e = maxExponent) :
    finish n c e = .error fault ↔ fault = .overflow ∧ overflowThreshold ≤ c * 10 ^ e := by
  have hp : precision = 28 := rfl
  have hm : maxExponent = 999999 := rfl
  have ht : tinyExponent = -1000026 := rfl
  have hlead : e + Digits.count c - 1 = maxExponent := hadj
  have hpos := ten_zpow_pos (maxExponent + 1 - precision)
  -- digits are dropped if there are more than the precision has
  rcases le_or_gt (Digits.count c) precision with hfits | hlong
  · -- no digit is dropped, and the result is at most the largest number
    have hlow : maxExponent + 1 - precision ≤ e := by omega
    have hdigits : Digits.count c + (e - (maxExponent + 1 - precision)).toNat = precision := by
      omega
    have hwiden : widen c (e - (maxExponent + 1 - precision)) < 10 ^ precision := by
      rw [widen_eq]
      calc c * 10 ^ (e - (maxExponent + 1 - precision)).toNat
          < 10 ^ Digits.count c * 10 ^ (e - (maxExponent + 1 - precision)).toNat :=
            Nat.mul_lt_mul_of_pos_right (Digits.lt_pow_count c) (by positivity)
        _ = 10 ^ precision := by rw [← pow_add, hdigits]
    have hlt : (c : ℚ) * 10 ^ e < overflowThreshold := by
      have hcast : (widen c (e - (maxExponent + 1 - precision)) : ℚ) + 1 ≤ 10 ^ precision := by
        exact_mod_cast hwiden
      rw [← widen_mul_zpow c hlow, overflowThreshold]
      exact mul_lt_mul_of_pos_right (by linarith only [hcast]) hpos
    simp [finish_of_fits hfits (by omega) hadj.le, not_le.2 hlt]
  · obtain ⟨places, hcount⟩ := Nat.exists_eq_add_of_le hlong.le
    have hunit : maxExponent + 1 - precision = places + e := by omega
    have hexcess : Max.max ((Digits.count c : ℤ) - precision) (tinyExponent - e) = places := by
      omega
    have hiff : overflowThreshold ≤ c * 10 ^ e ↔
        (2 * 10 ^ precision - 1) * 10 ^ places ≤ 2 * c := by
      rw [overflowThreshold, hunit, ten_zpow_add, ← mul_assoc,
        mul_le_mul_iff_left₀ (ten_zpow_pos e), zpow_natCast]
      have hone : 1 ≤ 2 * 10 ^ precision := by decide
      rw [← Nat.cast_le (α := ℚ)]
      push_cast [Nat.cast_sub hone]
      constructor <;> intro h <;> linarith
    rw [hiff, ← shiftRight_eq_pow_iff n hcount]
    simp only [finish, if_neg hc, if_neg (not_lt.2 hadj.le), hexcess, Int.toNat_natCast]
    rw [if_neg (by omega)]
    split_ifs with hcarry
    · simp [hcarry, eq_comm]
    · omega
    · simp [hcarry]

/-- Rounding fails exactly if the result is too large, and then it overflows. -/
theorem finish_eq_error_iff {n : Bool} {c : ℕ} {e : ℤ} {fault : Fault} :
    finish n c e = .error fault ↔
      fault = .overflow ∧ overflowThreshold ≤ |(finite n c e).value| := by
  rcases lt_or_ge |(finite n c e).value| (10 ^ maxExponent) with hlt | hge
  · -- far enough below the limit nothing can fail
    obtain ⟨r, hr⟩ := exists_finish hlt
    simp [hr, not_le.2 (hlt.trans_le pow_maxExponent_le_overflowThreshold)]
  rw [abs_value_finite] at hge ⊢
  have hc : c ≠ 0 := by
    rintro rfl
    exact absurd hge (not_le.2 (by simpa using ten_zpow_pos maxExponent))
  have hadj : maxExponent < adjusted c e + 1 :=
    (zpow_lt_zpow_iff_right₀ (by norm_num : (1 : ℚ) < 10)).1 (hge.trans_lt (magnitude_lt c e))
  rcases (show maxExponent < adjusted c e ∨ adjusted c e = maxExponent by omega) with hover | hadj
  · -- the leading digit is beyond the largest exponent
    have hle : overflowThreshold ≤ c * 10 ^ e :=
      overflowThreshold_le_pow.trans
        ((zpow_le_zpow_right₀ (by norm_num) (by omega)).trans (le_magnitude hc e))
    rw [finish, if_neg hc, if_pos hover]
    simp [hle, eq_comm]
  · exact finish_eq_error_iff_of_adjusted hc hadj

/-- The absolute value of a number fails exactly if the number is too large. -/
theorem abs_eq_error_iff {x : Decimal} (hx : x.isFinite = true) {fault : Fault} :
    x.abs = .error fault ↔ fault = .overflow ∧ overflowThreshold ≤ |x.value| := by
  obtain ⟨n, c, e, rfl⟩ := isFinite_iff.1 hx
  rw [abs_value_finite, ← abs_value_finite false]
  exact finish_eq_error_iff

/-- No rounding leads across the threshold of overflow. -/
theorem overflowThreshold_breakPoint : BreakPoint overflowThreshold := by
  refine ⟨2 * 10 ^ precision - 1, maxExponent + 1 - precision, by decide, by decide, ?_⟩
  rw [overflowThreshold]
  push_cast
  ring

/-- An operation fails exactly if its exact result is too large. -/
theorem Computes.eq_error_iff {x : Except Fault Decimal} {v : ℚ} (h : Computes x v)
    {fault : Fault} : x = .error fault ↔ fault = .overflow ∧ overflowThreshold ≤ |v| := by
  obtain ⟨n, c, e, rfl, hside⟩ := h
  rw [finish_eq_error_iff, ← not_lt, hside.abs_lt_iff overflowThreshold_breakPoint, not_lt]

end OrderTicket.Decimal
