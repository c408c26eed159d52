import Mathlib.Algebra.Order.Archimedean.Basic
import Mathlib.Data.Rat.Floor
import OrderTicket.Proofs.Decimal.Order
import OrderTicket.Proofs.Decimal.Operations
import OrderTicket.Proofs.Run

/-!
# Bounds of results

This module shows that an operation returns something if its exact result has a usual size, and how
far what it returns may lie from the exact result. A bound that is representable itself is kept by
rounding, so bounds go through a computation as they are, with nothing to add.

* `Between`: finite numbers between two bounds.
* `Computes.returns`: an operation returns a number between the bounds of its exact result.
* `Rounded.abs_sub_le`: the error of rounding.
-/

namespace OrderTicket.Decimal

/-- A finite number between two bounds. -/
structure Between (low high : ℚ) (x : Decimal) : Prop where
  /-- The number is finite. -/
  isFinite : x.isFinite = true
  /-- It is at least the lower bound. -/
  low_le : low ≤ x.value
  /-- It is at most the upper bound. -/
  le_high : x.value ≤ high

theorem Between.mono {low low' high high' : ℚ} {x : Decimal} (h : Between low high x)
    (hlow : low' ≤ low) (hhigh : high ≤ high') : Between low' high' x :=
  ⟨h.isFinite, hlow.trans h.low_le, h.le_high.trans hhigh⟩

/-- A representable value that is far from the largest number. -/
structure Bound (v : ℚ) : Prop where
  /-- The value is representable. -/
  representable : Representable v
  /-- It is small beside the largest number. -/
  abs_le : |v| ≤ 10 ^ 100

theorem bound_zero : Bound 0 :=
  ⟨representable_zero, by norm_num⟩

theorem bound_pow {n : ℕ} (h : n ≤ 100) : Bound (10 ^ n) := by
  refine ⟨?_, ?_⟩
  · have hrep := representable_zpow (e := n) (by have ht : tinyExponent = -1000026 := rfl; omega)
    rwa [zpow_natCast] at hrep
  · rw [abs_of_pos (by positivity)]
    exact pow_le_pow_right₀ (by norm_num) h

theorem bound_one : Bound 1 := by
  simpa using bound_pow (show 0 ≤ 100 by decide)

theorem bound_inv_pow {n : ℕ} (h : n ≤ 100) : Bound (1 / 10 ^ n) := by
  refine ⟨?_, ?_⟩
  · have hrep := representable_zpow (e := -n) (by have ht : tinyExponent = -1000026 := rfl; omega)
    rwa [zpow_neg, zpow_natCast, inv_eq_one_div] at hrep
  · have hone : (1 : ℚ) ≤ 10 ^ n := one_le_pow₀ (by norm_num)
    rw [abs_of_pos (by positivity)]
    refine (div_le_one_of_le₀ hone (by positivity)).trans ?_
    norm_num

theorem Bound.neg {v : ℚ} (h : Bound v) : Bound (-v) :=
  ⟨h.representable.neg, by rw [abs_neg]; exact h.abs_le⟩

/-- Values up to the limit of bounds are not beyond the largest number. -/
theorem lt_maxExponent {v : ℚ} (h : v ≤ 10 ^ 100) : v < 10 ^ maxExponent := by
  have hlt : (10 : ℚ) ^ (100 : ℤ) < 10 ^ maxExponent :=
    zpow_lt_zpow_right₀ (by norm_num) (by decide)
  exact h.trans_lt (by exact_mod_cast hlt)

/-- An operation whose exact result lies between two bounds returns a number between them. -/
theorem Computes.returns {x : Except Fault Decimal} {v low high : ℚ} (h : Computes x v)
    (hlow : Bound low) (hhigh : Bound high) (hle : low ≤ v) (hge : v ≤ high) :
    Returns x fun r => Rounded v r ∧ Between low high r := by
  -- both bounds are far from the largest number, and so is what lies between them
  have hv : |v| ≤ 10 ^ 100 := by
    have hlow' := (abs_le.1 hlow.abs_le).1
    have hhigh' := (abs_le.1 hhigh.abs_le).2
    exact abs_le.2 ⟨hlow'.trans hle, hge.trans hhigh'⟩
  obtain ⟨r, hr, hround⟩ := h.exists_ok (lt_maxExponent hv)
  exact ⟨r, hr, hround, hround.isFinite, hround.le_value hlow.representable hle,
    hround.value_le hhigh.representable hge⟩

/-- A product of positive numbers. -/
theorem mul_returns_of_pos {x y : Decimal} {a b c d low high : ℚ} (hx : Between a b x)
    (hy : Between c d y) (ha : 0 ≤ a) (hc : 0 ≤ c) (hlow : Bound low) (hhigh : Bound high)
    (hac : low ≤ a * c) (hbd : b * d ≤ high) :
    Returns (x.mul y) fun r => Rounded (x.value * y.value) r ∧ Between low high r := by
  have hx₀ := ha.trans hx.low_le
  have hy₀ := hc.trans hy.low_le
  refine (mul_computes hx.isFinite hy.isFinite).returns hlow hhigh (hac.trans ?_) (le_trans ?_ hbd)
  · exact mul_le_mul hx.low_le hy.low_le hc hx₀
  · exact mul_le_mul hx.le_high hy.le_high hy₀ (hx₀.trans hx.le_high)

/-- A product of numbers that are not negative. -/
theorem mul_returns {x y : Decimal} {a b : ℚ} {n : ℕ} (hx : Between 0 a x) (hy : Between 0 b y)
    (hn : n ≤ 100) (hab : a * b ≤ 10 ^ n) :
    Returns (x.mul y) fun r => Rounded (x.value * y.value) r ∧ Between 0 (10 ^ n) r :=
  mul_returns_of_pos hx hy le_rfl le_rfl bound_zero (bound_pow hn) (by norm_num) hab

/-- A quotient of positive numbers. -/
theorem div_returns_of_pos {x y : Decimal} {a b c d low high : ℚ} (hx : Between a b x)
    (hy : Between c d y) (hc : 0 < c) (hlow : Bound low) (hhigh : Bound high)
    (hlow₀ : 0 ≤ low) (hhigh₀ : 0 ≤ high) (had : low * d ≤ a) (hbc : b ≤ high * c) :
    Returns (x.div y) fun r => Rounded (x.value / y.value) r ∧ Between low high r := by
  have hpos : 0 < y.value := hc.trans_le hy.low_le
  refine (div_computes hx.isFinite hy.isFinite hpos.ne').returns hlow hhigh ?_ ?_
  · rw [le_div_iff₀ hpos]
    calc low * y.value ≤ low * d := mul_le_mul_of_nonneg_left hy.le_high hlow₀
      _ ≤ x.value := had.trans hx.low_le
  · rw [div_le_iff₀ hpos]
    calc x.value ≤ high * c := hx.le_high.trans hbc
      _ ≤ high * y.value := mul_le_mul_of_nonneg_left hy.low_le hhigh₀

/-- A quotient of a number that is not negative by a positive one. -/
theorem div_returns {x y : Decimal} {a b c : ℚ} {n : ℕ} (hx : Between 0 a x) (hy : Between b c y)
    (hb : 0 < b) (hn : n ≤ 100) (hab : a ≤ 10 ^ n * b) :
    Returns (x.div y) fun r => Rounded (x.value / y.value) r ∧ Between 0 (10 ^ n) r :=
  div_returns_of_pos hx hy hb bound_zero (bound_pow hn) le_rfl (by positivity) (by norm_num) hab

/-! ## Comparisons -/

/-- To ask whether a finite number is less than another is to ask this of the values. -/
theorem lt_returns {x y : Decimal} (hx : x.isFinite = true) (hy : y.isFinite = true) :
    Returns (x.lt y) fun b => b = true ↔ x.value < y.value :=
  ⟨_, lt_eq hx hy, decide_eq_true_iff⟩

theorem le_returns {x y : Decimal} (hx : x.isFinite = true) (hy : y.isFinite = true) :
    Returns (x.le y) fun b => b = true ↔ x.value ≤ y.value :=
  ⟨_, le_eq hx hy, decide_eq_true_iff⟩

theorem le_zero_returns {x : Decimal} (hx : x.isFinite = true) :
    Returns (x.le 0) fun b => b = true ↔ x.value ≤ 0 :=
  ⟨_, le_zero_eq hx, decide_eq_true_iff⟩

theorem equal_returns {x y : Decimal} (hx : x.isFinite = true) (hy : y.isFinite = true) :
    Returns (x.equal y) fun b => b = true ↔ x.value = y.value :=
  ⟨_, equal_eq hx hy, decide_eq_true_iff⟩

/-- The lesser of two finite numbers is finite and has the lesser value. -/
theorem min_returns {x y : Decimal} (hx : x.isFinite = true) (hy : y.isFinite = true) :
    Returns (Decimal.min x y) fun r => r.isFinite = true ∧ r.value = Min.min x.value y.value := by
  obtain ⟨r, hr, hmem, hvalue⟩ := min_eq hx hy
  refine ⟨r, hr, ?_, hvalue⟩
  rcases hmem with rfl | rfl
  · exact hx
  · exact hy

/-- Of two numbers between bounds the greater one lies between them. -/
theorem max_returns {x y : Decimal} {low high : ℚ} (hx : Between low high x)
    (hy : Between low high y) :
    Returns (Decimal.max x y) (Between low high) := by
  obtain ⟨r, hr, hmem, -⟩ := max_eq hx.isFinite hy.isFinite
  refine ⟨r, hr, ?_⟩
  rcases hmem with rfl | rfl
  · exact hx
  · exact hy

/-! ## The error of rounding -/

/-- Rounding goes at most to a neighbouring multiple of a unit in which the value has no more digits
than the precision. -/
theorem Rounded.abs_sub_le_unit {v : ℚ} {r : Decimal} {unit : ℤ} (h : Rounded v r)
    (hunit : tinyExponent ≤ unit) (hv : |v| < 10 ^ ((precision : ℤ) + unit)) :
    |r.value - v| ≤ 10 ^ unit := by
  have hpos := ten_zpow_pos unit
  rw [ten_zpow_add, ← div_lt_iff₀ hpos, zpow_natCast] at hv
  -- the multiples of the unit below and above the value
  have hlow : (⌊v / 10 ^ unit⌋ : ℚ) * 10 ^ unit ≤ v := by
    rw [← le_div_iff₀ hpos]
    exact Int.floor_le _
  have hhigh : v ≤ ((⌊v / 10 ^ unit⌋ + 1 : ℤ) : ℚ) * 10 ^ unit := by
    rw [← div_le_iff₀ hpos]
    push_cast
    exact (Int.lt_floor_add_one _).le
  rw [← abs_of_pos hpos, ← abs_div, abs_lt] at hv
  have hfloor : -(10 : ℤ) ^ precision ≤ ⌊v / 10 ^ unit⌋ := by
    rw [Int.le_floor]
    push_cast
    exact hv.1.le
  have hfloor' : ⌊v / 10 ^ unit⌋ < (10 : ℤ) ^ precision := by
    rw [Int.floor_lt]
    push_cast
    exact hv.2
  have hr := h.le_value (representable_of_le (abs_le.2 ⟨hfloor, hfloor'.le⟩) hunit) hlow
  have hr' := h.value_le (representable_of_le (abs_le.2 ⟨by omega, by omega⟩) hunit) hhigh
  rw [abs_le]
  push_cast at hhigh hr'
  constructor <;> linarith

/-- The error of rounding is small beside the value, or very small. -/
theorem Rounded.abs_sub_le {v : ℚ} {r : Decimal} (h : Rounded v r) :
    |r.value - v| ≤ |v| / 10 ^ 27 + 1 / 10 ^ 100 := by
  have hp : precision = 28 := rfl
  have ht : tinyExponent = -1000026 := rfl
  rcases eq_or_ne v 0 with rfl | hne
  · rw [h.eq_of_representable representable_zero]
    norm_num
  obtain ⟨e, hle, hlt⟩ := exists_mem_Ico_zpow (abs_pos.2 hne) (by norm_num : (1 : ℚ) < 10)
  rcases le_total tinyExponent (e - 27) with hnormal | hsmall
  · -- a unit in the last of all digits of the precision
    have herr :=
      h.abs_sub_le_unit hnormal (by rwa [hp, show ((28 : ℕ) : ℤ) + (e - 27) = e + 1 by ring])
    have hunit : (10 : ℚ) ^ (e - 27) = 10 ^ e / 10 ^ 27 := by
      rw [zpow_sub₀ (by norm_num)]
      rfl
    have hdiv : (10 : ℚ) ^ e / 10 ^ 27 ≤ |v| / 10 ^ 27 := by gcongr
    have htiny : (0 : ℚ) ≤ 1 / 10 ^ 100 := by positivity
    linarith
  · -- the last digit that the context has
    have hv : |v| < 10 ^ ((precision : ℤ) + tinyExponent) :=
      hlt.trans_le (zpow_le_zpow_right₀ (by norm_num) (by omega))
    have herr := h.abs_sub_le_unit le_rfl hv
    have htiny : (10 : ℚ) ^ tinyExponent ≤ 1 / 10 ^ 100 := by
      have hpow : (10 : ℚ) ^ tinyExponent ≤ 10 ^ (-100 : ℤ) :=
        zpow_le_zpow_right₀ (by norm_num) (by decide)
      rwa [zpow_neg, inv_eq_one_div] at hpow
    have hdiv : 0 ≤ |v| / 10 ^ 27 := by positivity
    linarith

/-- The error of rounding a value that is not negative. -/
theorem Rounded.bounds {v : ℚ} {r : Decimal} (h : Rounded v r) (hv : 0 ≤ v) :
    v * (1 - 1 / 10 ^ 27) - 1 / 10 ^ 100 ≤ r.value ∧
      r.value ≤ v * (1 + 1 / 10 ^ 27) + 1 / 10 ^ 100 := by
  have herr := h.abs_sub_le
  rw [abs_of_nonneg hv, abs_le] at herr
  constructor <;> linarith

/-- The error of rounding a value that is not very small. -/
theorem Rounded.relative {v : ℚ} {r : Decimal} (h : Rounded v r) (hv : 1 / 10 ^ 60 ≤ v) :
    v * (1 - 2 / 10 ^ 27) ≤ r.value ∧ r.value ≤ v * (1 + 2 / 10 ^ 27) := by
  have hpos : 0 ≤ v := le_trans (by norm_num) hv
  obtain ⟨hlow, hhigh⟩ := h.bounds hpos
  norm_num at hv hlow hhigh ⊢
  constructor <;> linarith

end OrderTicket.Decimal
