import Mathlib.Algebra.Order.Field.Power
import Mathlib.Algebra.Order.Field.Rat
import Mathlib.Tactic.NormNum
import Mathlib.Tactic.Positivity
import OrderTicket.Decimal.Arithmetic

/-!
# Values of decimal numbers

The rational number that a finite decimal number stands for. Several decimal numbers may have the
same value, and comparisons go by values alone.

* `Decimal.value`: the value of a number.
* `Decimal.lt_finite`, `Decimal.le_finite`, `Decimal.equal_finite`: finite numbers compare as their
  values do.
* `Decimal.value_ofInt`, `Decimal.value_flip`: the values of integers and of opposite numbers.
-/

namespace OrderTicket.Decimal

/-- The magnitude `coefficient * 10 ^ exponent`. -/
def magnitude (coefficient : Nat) (exponent : Int) : ℚ :=
  coefficient * 10 ^ exponent

/-- The value of a finite number; infinities and NaNs count as zero. -/
def value : Decimal → ℚ
  | finite negative c e => if negative then -magnitude c e else magnitude c e
  | _ => 0

theorem value_ofInt (i : Int) : (ofInt i).value = i := by
  have habs : ((i.natAbs : Nat) : ℚ) = |(i : ℚ)| := by
    rw [← Int.cast_abs, Int.abs_eq_natAbs, Int.cast_natCast]
  simp only [ofInt, value, magnitude, zpow_zero, mul_one, habs, decide_eq_true_eq]
  split
  · rename_i h
    rw [abs_of_neg (Int.cast_lt_zero.2 h), neg_neg]
  · rename_i h
    rw [abs_of_nonneg (Int.cast_nonneg_iff.2 (not_lt.1 h))]

theorem value_flip (x : Decimal) : x.flip.value = -x.value := by
  cases x with
  | finite negative c e => cases negative <;> simp [flip, value]
  | infinity negative => simp [flip, value]
  | nan negative signaling payload => simp [flip, value]

/-! ## Magnitudes -/

theorem magnitude_nonneg (c : Nat) (e : Int) : 0 ≤ magnitude c e := by
  unfold magnitude
  positivity

theorem magnitude_eq_zero_iff {c : Nat} {e : Int} : magnitude c e = 0 ↔ c = 0 := by
  have hpow : (10 : ℚ) ^ e ≠ 0 := zpow_ne_zero e (by norm_num)
  simp [magnitude, hpow]

/-- A magnitude as a natural number of units `10 ^ low`. -/
theorem magnitude_eq_mul {c : Nat} {e low : Int} (h : low ≤ e) :
    magnitude c e = ((c * 10 ^ (e - low).toNat : Nat) : ℚ) * 10 ^ low := by
  have hexp : e = ((e - low).toNat : Int) + low := by omega
  rw [magnitude, Nat.cast_mul, Nat.cast_pow, mul_assoc, Nat.cast_ofNat, ← zpow_natCast,
    ← zpow_add₀ (by norm_num : (10 : ℚ) ≠ 0), ← hexp]

/-! ## Comparisons -/

theorem compare_mul_right {a b u : ℚ} (hu : 0 < u) : compare (a * u) (b * u) = compare a b := by
  rcases lt_trichotomy a b with h | h | h
  · rw [compare_lt_iff_lt.2 h, compare_lt_iff_lt.2 ((mul_lt_mul_iff_left₀ hu).2 h)]
  · rw [h, compare_eq_iff_eq.2 rfl, compare_eq_iff_eq.2 rfl]
  · rw [compare_gt_iff_gt.2 h, compare_gt_iff_gt.2 ((mul_lt_mul_iff_left₀ hu).2 h)]

theorem compare_natCast (a b : Nat) : compare (a : ℚ) (b : ℚ) = compare a b := by
  rcases lt_trichotomy a b with h | h | h
  · rw [compare_lt_iff_lt.2 h, compare_lt_iff_lt.2 (Nat.cast_lt.2 h)]
  · rw [h, compare_eq_iff_eq.2 rfl, compare_eq_iff_eq.2 rfl]
  · rw [compare_gt_iff_gt.2 h, compare_gt_iff_gt.2 (Nat.cast_lt.2 h)]

theorem compare_neg_neg (a b : ℚ) : compare (-a) (-b) = compare b a := by
  rcases lt_trichotomy a b with h | h | h
  · rw [compare_gt_iff_gt.2 (neg_lt_neg h), compare_gt_iff_gt.2 h]
  · rw [h, compare_eq_iff_eq.2 rfl, compare_eq_iff_eq.2 rfl]
  · rw [compare_lt_iff_lt.2 (neg_lt_neg h), compare_lt_iff_lt.2 h]

theorem compareMagnitude_eq_compare (c₁ : Nat) (e₁ : Int) (c₂ : Nat) (e₂ : Int) :
    compareMagnitude c₁ e₁ c₂ e₂ = compare (magnitude c₁ e₁) (magnitude c₂ e₂) := by
  have hunit : (0 : ℚ) < 10 ^ Min.min e₁ e₂ := zpow_pos (by norm_num) _
  have hleft : (e₁ - Min.min e₁ e₂).toNat = (e₁ - e₂).toNat := by omega
  have hright : (e₂ - Min.min e₁ e₂).toNat = (e₂ - e₁).toNat := by omega
  rw [compareMagnitude_eq, magnitude_eq_mul (min_le_left e₁ e₂),
    magnitude_eq_mul (min_le_right e₁ e₂), compare_mul_right hunit, compare_natCast, hleft, hright,
    widen_eq, widen_eq]

theorem value_lt_of_signum_lt {n₁ n₂ : Bool} {c₁ c₂ : Nat} (e₁ e₂ : Int)
    (h : signum n₁ c₁ < signum n₂ c₂) : (finite n₁ c₁ e₁).value < (finite n₂ c₂ e₂).value := by
  have hzero₁ := @magnitude_eq_zero_iff c₁ e₁
  have hzero₂ := @magnitude_eq_zero_iff c₂ e₂
  have hnonneg₁ := magnitude_nonneg c₁ e₁
  have hnonneg₂ := magnitude_nonneg c₂ e₂
  simp only [signum, value] at *
  grind

/-- Finite numbers are in the order of their values. -/
theorem compareFinite_eq_compare (n₁ : Bool) (c₁ : Nat) (e₁ : Int) (n₂ : Bool) (c₂ : Nat)
    (e₂ : Int) :
    compareFinite n₁ c₁ e₁ n₂ c₂ e₂ =
      compare (finite n₁ c₁ e₁).value (finite n₂ c₂ e₂).value := by
  rw [compareFinite, compareMagnitude_eq_compare, compareMagnitude_eq_compare]
  rcases lt_trichotomy (signum n₁ c₁) (signum n₂ c₂) with h | h | h
  · rw [compare_lt_iff_lt.2 h, compare_lt_iff_lt.2 (value_lt_of_signum_lt e₁ e₂ h)]
    rfl
  · have hzero₁ := @magnitude_eq_zero_iff c₁ e₁
    have hzero₂ := @magnitude_eq_zero_iff c₂ e₂
    have hneg := compare_neg_neg (magnitude c₁ e₁) (magnitude c₂ e₂)
    rw [compare_eq_iff_eq.2 h]
    simp only [signum, value, Ordering.then] at *
    grind
  · rw [compare_gt_iff_gt.2 h, compare_gt_iff_gt.2 (value_lt_of_signum_lt e₂ e₁ h)]
    rfl

theorem lt_finite (n₁ : Bool) (c₁ : Nat) (e₁ : Int) (n₂ : Bool) (c₂ : Nat) (e₂ : Int) :
    (finite n₁ c₁ e₁).lt (finite n₂ c₂ e₂) =
      .ok (decide ((finite n₁ c₁ e₁).value < (finite n₂ c₂ e₂).value)) := by
  have horder := compareFinite_eq_compare n₁ c₁ e₁ n₂ c₂ e₂
  simp only [lt, order, order?, horder, Except.map]
  congr 1
  rw [Bool.eq_iff_iff]
  simp [compare_lt_iff_lt]

theorem le_finite (n₁ : Bool) (c₁ : Nat) (e₁ : Int) (n₂ : Bool) (c₂ : Nat) (e₂ : Int) :
    (finite n₁ c₁ e₁).le (finite n₂ c₂ e₂) =
      .ok (decide ((finite n₁ c₁ e₁).value ≤ (finite n₂ c₂ e₂).value)) := by
  have horder := compareFinite_eq_compare n₁ c₁ e₁ n₂ c₂ e₂
  simp only [le, order, order?, horder, Except.map]
  congr 1
  rw [Bool.eq_iff_iff]
  simp [compare_gt_iff_gt]

theorem equal_finite (n₁ : Bool) (c₁ : Nat) (e₁ : Int) (n₂ : Bool) (c₂ : Nat) (e₂ : Int) :
    (finite n₁ c₁ e₁).equal (finite n₂ c₂ e₂) =
      .ok (decide ((finite n₁ c₁ e₁).value = (finite n₂ c₂ e₂).value)) := by
  have horder := compareFinite_eq_compare n₁ c₁ e₁ n₂ c₂ e₂
  simp only [equal, order?, horder]
  congr 1
  rw [Bool.eq_iff_iff]
  simp

end OrderTicket.Decimal
