import OrderTicket.Proofs.Rules.Kept

/-!
# Only finite numbers reach the grid

What a market makes of a quantity or a price is a positive number of limited size, and it was made
from finite numbers only. That needs nothing of the steps, which may be infinite, have more digits
than the precision or lie below the exponents of the context: infinities and NaNs do not become
finite again, and what is written has few digits.

* `TradingRules.IsMoved`: what is known of every quantity and price that is returned.
* `TradingRules.isMoved_of_quantity`, `TradingRules.isMoved_of_price`: the two cases.
-/

namespace OrderTicket

open Decimal

variable {x y r raw step : Decimal}

/-- A product is finite only if its second factor is. -/
theorem Decimal.isFinite_of_mul_eq_ok_right (h : x.mul y = .ok r) (hr : r.isFinite = true) :
    y.isFinite = true := by
  unfold mul at h
  -- a factor that is not finite leaves a product that is not finite, or a fault
  split at h
  · rfl
  · cases h
    cases hr
  · rfl
  · split at h <;> cases h
    cases hr
  · rw [Step.isFinite_propagate h] at hr
    cases hr

/-- A number that is written and positive is finite, and has no more digits in front of the point
than the precision. -/
theorem Step.between_of_write (h : Step.write x step = .ok r) (hzero : r.le 0 = .ok false) :
    r.isFinite = true ∧ 0 < r.value ∧ r.value < 10 ^ precision := by
  have hx := Step.isFinite_of_write h hzero
  obtain ⟨places, -, htruncate⟩ := bind_eq_ok h
  obtain ⟨-, hlt, n, k, rfl, hk⟩ := truncate_ok hx (liftM_eq_ok htruncate)
  have hpos := value_pos_of_le_zero_eq_false rfl hzero
  refine ⟨rfl, hpos, ?_⟩
  have hunit := ten_zpow_pos (-places : ℤ)
  rw [value_eq_signed, hk] at hpos ⊢
  -- a positive integer part is one that the value reaches
  have hint : (0 : ℚ) < towardZero (x.value * 10 ^ places) := pos_of_mul_pos_left hpos hunit.le
  have hint' : 0 < towardZero (x.value * 10 ^ places) := by exact_mod_cast hint
  have hreach : ((1 : ℕ) : ℚ) ≤ x.value * 10 ^ places :=
    (le_towardZero_iff le_rfl).1 (Int.add_one_le_of_lt hint')
  have hnonneg : 0 ≤ x.value * 10 ^ places := zero_le_one.trans (by exact_mod_cast hreach)
  calc (towardZero (x.value * 10 ^ places) : ℚ) * 10 ^ (-places : ℤ)
      ≤ x.value * 10 ^ places * 10 ^ (-places : ℤ) :=
        mul_le_mul_of_nonneg_right (towardZero_le hnonneg) hunit.le
    _ = x.value := by
        rw [mul_assoc, ← zpow_natCast, ← ten_zpow_add, add_neg_cancel, zpow_zero, mul_one]
    _ ≤ |x.value| := le_abs_self _
    _ < 10 ^ ((precision : ℤ) - places) := hlt
    _ ≤ 10 ^ precision := by
        rw [← zpow_natCast]
        exact zpow_le_zpow_right₀ (by norm_num) (by omega)

/-- The value and the step of a finite multiple are finite, downward -/
theorem Step.isFinite_of_floor (h : Step.floor raw step = .ok x) (hx : x.isFinite = true) :
    raw.isFinite = true ∧ step.isFinite = true := by
  obtain ⟨q, hq, hmul⟩ := bind_eq_ok h
  have hstep := isFinite_of_mul_eq_ok_right hmul hx
  exact ⟨isFinite_of_divTrunc_eq_ok hstep hq (isFinite_of_mul_eq_ok hmul hx), hstep⟩

/-- A number and a step are finite if the multiple of the step above the number is. -/
theorem Step.isFinite_of_ceil (h : Step.ceil raw step = .ok x) (hx : x.isFinite = true) :
    raw.isFinite = true ∧ step.isFinite = true := by
  obtain ⟨q, hq, hrest⟩ := bind_eq_ok h
  obtain ⟨i, hi, hmul⟩ := bind_eq_ok hrest
  have hstep := isFinite_of_mul_eq_ok_right hmul hx
  have hqfin := isFinite_of_toIntegral_eq_ok hi (isFinite_of_mul_eq_ok hmul hx)
  exact ⟨isFinite_of_div_eq_ok hstep hq hqfin, hstep⟩

namespace TradingRules

/-- `r` was made of the raw number by moving it to the step. -/
structure IsMoved (step raw r : Decimal) : Prop where
  /-- The raw number was finite. -/
  raw_isFinite : raw.isFinite = true
  /-- The step was finite. -/
  step_isFinite : step.isFinite = true
  /-- The result is finite. -/
  isFinite : r.isFinite = true
  /-- The result is positive. -/
  pos : 0 < r.value
  /-- The result is not too large for the precision. -/
  lt : r.value < 10 ^ precision

/-- What is written was moved to the step, if it is finite only where raw number and step are. -/
theorem isMoved_of_write
    (hback : x.isFinite = true → raw.isFinite = true ∧ step.isFinite = true)
    (hwrite : Step.write x step = .ok r) (hzero : r.le 0 = .ok false) : IsMoved step raw r := by
  obtain ⟨hraw, hstep⟩ := hback (Step.isFinite_of_write hwrite hzero)
  obtain ⟨hfin, hpos, hlt⟩ := Step.between_of_write hwrite hzero
  exact ⟨hraw, hstep, hfin, hpos, hlt⟩

variable {rules : TradingRules}

/-- Every quantity that is returned. -/
theorem isMoved_of_quantity {market : Bool} (h : rules.quantity market raw = .ok r) :
    IsMoved (rules.lot market).step raw r := by
  obtain ⟨floored, hfloor, -, hwrite, hshort⟩ := quantity_eq_ok h
  exact isMoved_of_write (Step.isFinite_of_floor hfloor) hwrite (fallsShort_eq_false hshort).1

/-- Every price that is returned. -/
theorem isMoved_of_price {side : Option Side} (h : rules.price side raw = .ok r) :
    IsMoved rules.tick raw r := by
  obtain ⟨hround, hshort, -⟩ := price_eq_ok h
  have hzero := (fallsShort_eq_false hshort).1
  -- upward for sales, downward for everything else
  split_ifs at hround
  · obtain ⟨x, hx, hwrite⟩ := bind_eq_ok hround
    exact isMoved_of_write (Step.isFinite_of_ceil (liftM_eq_ok hx)) hwrite hzero
  · obtain ⟨x, hx, hwrite⟩ := bind_eq_ok hround
    exact isMoved_of_write (Step.isFinite_of_floor (liftM_eq_ok hx)) hwrite hzero

end TradingRules

end OrderTicket
