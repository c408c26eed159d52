import OrderTicket.Proofs.Decimal.Bounds
import OrderTicket.Proofs.Rules.Grid

/-!
# Numbers of a usual size are settled

This module shows that the rules of a market never fail to answer if the numbers have a usual size:
a quantity or price is moved to the grid or refused, with the nearest value that would be taken, and
the checks of an order's value and of a limit price's distance come to a result. The integer
quotient by a step and the multiple that is written must each fit into the precision.

* `IsUsualStep`, `TradingRules.Usual`: steps and rules of a usual size.
* `Step.write_returns`: a number is written with the decimals of a step.
* `TradingRules.quantity_settles`, `TradingRules.price_settles`: quantities and prices.
* `TradingRules.notionalRejection?_returns`, `TradingRules.bandRejection?_returns`: the checks.
-/

namespace OrderTicket

open Decimal

/-- A step of a usual size: a multiple of `10 ^ -8`, from there to `10 ^ 8`. -/
structure IsUsualStep (step : Decimal) : Prop where
  /-- The step is finite. -/
  isFinite : step.isFinite = true
  /-- It is a positive multiple of the least step. -/
  multiple : ∃ m : ℕ, 1 ≤ m ∧ m ≤ 10 ^ 16 ∧ step.value = m * 10 ^ (-8 : ℤ)

namespace IsUsualStep

variable {step : Decimal}

theorem inContext (h : IsUsualStep step) : step.InContext := by
  obtain ⟨m, -, hm, hvalue⟩ := h.multiple
  refine ⟨h.isFinite, ?_⟩
  have hrep : Representable ((m : ℤ) * 10 ^ (-8 : ℤ)) := by
    refine representable_of_le ?_ (by decide)
    have hp : precision = 28 := rfl
    rw [hp, abs_of_nonneg (by omega)]
    omega
  rw [hvalue]
  exact_mod_cast hrep

theorem between (h : IsUsualStep step) : Between (1 / 10 ^ 8) (10 ^ 8) step := by
  obtain ⟨m, hone, hm, hvalue⟩ := h.multiple
  have hone' : (1 : ℚ) ≤ m := by exact_mod_cast hone
  have hm' : (m : ℚ) ≤ 10 ^ 16 := by exact_mod_cast hm
  refine ⟨h.isFinite, ?_, ?_⟩ <;>
  · rw [hvalue]
    norm_num
    linarith

theorem pos (h : IsUsualStep step) : 0 < step.value :=
  lt_of_lt_of_le (by norm_num) h.between.low_le

end IsUsualStep

/-! ## Steps -/

/-- A number that is not far too large can be written without trailing zeros. -/
theorem Decimal.normalize_returns {x : Decimal} {high : ℚ} (hx : Between 0 high x)
    (hhigh : high ≤ 10 ^ 100) : Returns x.normalize fun _ => True := by
  have hsmall : |x.value| < 10 ^ maxExponent := by
    rw [abs_of_nonneg hx.low_le]
    exact lt_maxExponent (hx.le_high.trans hhigh)
  obtain ⟨y, hy⟩ := exists_normalize hx.isFinite hsmall
  exact ⟨y, hy, trivial⟩

namespace Step

variable {step value x : Decimal}

/-- A usual step has at most eight decimals, since its last digit is not zero. -/
theorem places_returns (h : IsUsualStep step) : Returns (places step) fun places => places ≤ 8 := by
  obtain ⟨y, hy, -⟩ := normalize_returns (h.between.mono (by norm_num) le_rfl) (by norm_num)
  obtain ⟨-, n, c, e, rfl, -⟩ := normalize_ok h.isFinite hy
  have hplaces : places step = .ok (-e).toNat := by
    simp only [places, hy]
    rfl
  refine ⟨_, hplaces, ?_⟩
  obtain ⟨-, m', hm', hlast⟩ := places_ok h.inContext h.pos hplaces
  obtain ⟨m, -, -, hm⟩ := h.multiple
  by_contra hlt
  -- with more decimals the last one of a multiple of `10 ^ -8` would be zero
  have hpow : (10 : ℚ) ^ (-8 : ℤ) = 10 ^ ((-e).toNat - 8) * 10 ^ (-((-e).toNat : ℤ)) := by
    rw [← zpow_natCast, ← ten_zpow_add]
    congr 1
    omega
  have heq : (m' : ℚ) = (m * 10 ^ ((-e).toNat - 8) : ℕ) := by
    rw [hm, hpow, ← mul_assoc] at hm'
    have hcancel := mul_right_cancel₀ (ten_zpow_pos _).ne' hm'
    rw [← hcancel]
    push_cast
    rfl
  have hzero : m' % 10 = 0 := by
    obtain rfl : m' = m * 10 ^ ((-e).toNat - 8) := by exact_mod_cast heq
    obtain ⟨k, hk⟩ : ∃ k, (-e).toNat - 8 = k + 1 := ⟨(-e).toNat - 9, by omega⟩
    rw [hk, pow_succ, ← mul_assoc, Nat.mul_mod_left]
  rcases hlast with hnone | hlast
  · omega
  · exact hlast hzero

/-- A number of a usual size is written with the decimals of a usual step. -/
theorem write_returns (hstep : IsUsualStep step) (hx : Between 0 (10 ^ 19) x) :
    Returns (write x step) fun r => r.isFinite = true := by
  refine .bind (places_returns hstep) fun places hplaces => ?_
  have hp : precision = 28 := rfl
  have ht : tinyExponent = -1000026 := rfl
  -- at most eight decimals leave room for twenty digits in front of the point
  have hfits : |x.value| < 10 ^ ((precision : ℤ) - places) := by
    rw [abs_of_nonneg hx.low_le]
    have hpow : (10 : ℚ) ^ (20 : ℤ) ≤ 10 ^ ((precision : ℤ) - places) :=
      zpow_le_zpow_right₀ (by norm_num) (by omega)
    refine lt_of_le_of_lt hx.le_high (lt_of_lt_of_le ?_ hpow)
    norm_num
  obtain ⟨r, hr⟩ := exists_truncate hx.isFinite (show (places : ℤ) ≤ -tinyExponent by omega) hfits
  obtain ⟨-, -, n, k, rfl, -⟩ := truncate_ok hx.isFinite hr
  exact .lift ⟨_, hr, rfl⟩

/-- A multiple of a step is written as it is. -/
theorem write_multiple_returns (hstep : IsUsualStep step) (hx : Between 0 (10 ^ 19) x) {k : ℤ}
    (hround : Rounded (k * step.value) x) :
    Returns (write x step) fun r => r.isFinite = true ∧ r.value = k * step.value := by
  obtain ⟨r, hr, -⟩ := write_returns hstep hx
  exact ⟨r, hr, (write_ok hstep.inContext hstep.pos hround hr).2⟩

/-- A number of usual size can be shown. -/
theorem shown_returns (hx : Between 0 (10 ^ 19) x) : Returns (shown x) fun _ => True :=
  .map (normalize_returns hx (by norm_num))

/-- The largest multiple of a step below a number, as an exact number of steps. -/
theorem floor_returns (hstep : IsUsualStep step) (hvalue : Between 0 (10 ^ 19) value) :
    Returns (floor value step) fun x => Between 0 (10 ^ 19) x ∧
      Rounded (towardZero (value.value / step.value) * step.value) x := by
  have hpos := hstep.pos
  have hquot : 0 ≤ value.value / step.value := div_nonneg hvalue.low_le hpos.le
  -- the number of steps fits into the precision, so the quotient is exact
  have hlarge : |value.value / step.value| < 10 ^ precision := by
    rw [abs_of_nonneg hquot, div_lt_iff₀ hpos]
    have hlow := hstep.between.low_le
    have hhigh := hvalue.le_high
    have hp : precision = 28 := rfl
    rw [hp]
    norm_num at hlow hhigh ⊢
    linarith
  obtain ⟨q, hq⟩ := exists_divTrunc hvalue.isFinite hstep.isFinite hpos.ne' hlarge
  obtain ⟨-, hqfin, hqvalue⟩ := divTrunc_ok hvalue.isFinite hstep.isFinite hpos.ne' hq
  have hfloor := towardZero_le hquot
  have hnonneg : (0 : ℚ) ≤ towardZero (value.value / step.value) := by
    exact_mod_cast towardZero_nonneg hquot
  have hle : towardZero (value.value / step.value) * step.value ≤ 10 ^ 19 :=
    ((le_div_iff₀ hpos).1 hfloor).trans hvalue.le_high
  refine .bind ⟨q, hq, rfl⟩ fun q' (hq' : q = q') => ?_
  subst hq'
  refine ((mul_computes hqfin hstep.isFinite).returns bound_zero (bound_pow (by decide)) ?_ ?_).mono
    fun x hx => ⟨hx.2, hqvalue ▸ hx.1⟩
  · rw [hqvalue]
    exact mul_nonneg hnonneg hpos.le
  · rw [hqvalue]
    exact hle

/-- The least multiple of a step above a number; the quotient is rounded before its ceiling is
taken. -/
theorem ceil_returns (hstep : IsUsualStep step) (hvalue : Between 0 (10 ^ 17) value) :
    Returns (ceil value step) fun x => Between 0 (10 ^ 19) x ∧ ∃ k : ℤ,
      Rounded (k * step.value) x ∧ k * step.value ≤ 2 * value.value + 2 * step.value := by
  have hpos := hstep.pos
  have hquot : 0 ≤ value.value / step.value := div_nonneg hvalue.low_le hpos.le
  have hdiv : Returns (value.div step) fun q =>
      Rounded (value.value / step.value) q ∧ Between 0 (10 ^ 25) q :=
    div_returns hvalue hstep.between (by norm_num) (by decide) (by norm_num)
  refine .bind hdiv fun q ⟨hround, hq⟩ => ?_
  obtain ⟨i, hi, hifin, hivalue⟩ := toIntegral_ceiling hq.isFinite
  refine .bind ⟨i, hi, rfl⟩ fun i' (hi' : i = i') => ?_
  subst hi'
  -- neither the rounding of the quotient nor its ceiling adds more than one step
  have hqle := (hround.bounds hquot).2
  have hceil : (⌈q.value⌉ : ℚ) < q.value + 1 := Int.ceil_lt_add_one _
  have hnonneg : (0 : ℚ) ≤ ⌈q.value⌉ := by exact_mod_cast Int.ceil_nonneg hq.low_le
  have hle : (⌈q.value⌉ : ℚ) * step.value ≤ 2 * value.value + 2 * step.value := by
    have hfew : (⌈q.value⌉ : ℚ) ≤ 2 * (value.value / step.value) + 2 := by
      norm_num at hqle
      linarith
    calc (⌈q.value⌉ : ℚ) * step.value
        ≤ (2 * (value.value / step.value) + 2) * step.value :=
          mul_le_mul_of_nonneg_right hfew hpos.le
      _ = 2 * value.value + 2 * step.value := by
          field_simp
  have hhigh := hvalue.le_high
  have hhigh' := hstep.between.le_high
  refine ((mul_computes hifin hstep.isFinite).returns bound_zero (bound_pow (by decide)) ?_ ?_).mono
    fun x hx => ⟨hx.2, ⌈q.value⌉, hivalue ▸ hx.1, hle⟩
  · rw [hivalue]
    exact mul_nonneg hnonneg hpos.le
  · rw [hivalue]
    norm_num at hhigh hhigh' ⊢
    linarith

end Step

/-! ## Rules -/

/-- A lot of a usual size. -/
structure Lot.Usual (lot : Lot) : Prop where
  /-- The step has a usual size. -/
  step : IsUsualStep lot.step
  /-- The least quantity has a usual size. -/
  min : Between 0 (10 ^ 8) lot.min
  /-- The largest quantity has a usual size, if there is one. -/
  max : ∀ x, lot.max = some x → Between 0 (10 ^ 8) x

namespace TradingRules

/-- Rules of a usual size. -/
structure Usual (rules : TradingRules) : Prop where
  /-- The step of quantities. -/
  step : IsUsualStep rules.step
  /-- The step of prices. -/
  tick : IsUsualStep rules.tick
  /-- The step of the quantities of market orders. -/
  marketStep : ∀ s, rules.marketStep = some s → IsUsualStep s
  /-- The least value of an order. -/
  minNotional : Between 0 (10 ^ 8) rules.minNotional
  /-- The largest value of an order. -/
  maxNotional : ∀ x, rules.maxNotional = some x → Between 0 (10 ^ 8) x
  /-- The lower side of the band is a part of the mark price. -/
  bandDown : Between 0 1 rules.bandDown
  /-- The upper side of the band is a part of the mark price. -/
  bandUp : Between 0 1 rules.bandUp
  /-- The least quantity. -/
  minQuantity : Between 0 (10 ^ 8) rules.minQuantity
  /-- The largest quantity. -/
  maxQuantity : ∀ x, rules.maxQuantity = some x → Between 0 (10 ^ 8) x
  /-- The least price. -/
  minPrice : Between 0 (10 ^ 8) rules.minPrice
  /-- The largest price. -/
  maxPrice : ∀ x, rules.maxPrice = some x → Between 0 (10 ^ 8) x
  /-- The least quantity of market orders. -/
  marketMinQuantity : ∀ x, rules.marketMinQuantity = some x → Between 0 (10 ^ 8) x
  /-- The largest quantity of market orders. -/
  marketMaxQuantity : ∀ x, rules.marketMaxQuantity = some x → Between 0 (10 ^ 8) x

theorem Usual.lot {rules : TradingRules} (h : rules.Usual) (market : Bool) :
    (rules.lot market).Usual := by
  cases market with
  | false => exact ⟨h.step, h.minQuantity, h.maxQuantity⟩
  | true =>
    refine ⟨?_, ?_, ?_⟩
    · cases hs : rules.marketStep with
      | none => simpa [TradingRules.lot, hs] using h.step
      | some s => simpa [TradingRules.lot, hs] using h.marketStep s hs
    · cases hm : rules.marketMinQuantity with
      | none => simpa [TradingRules.lot, hm] using h.minQuantity
      | some x => simpa [TradingRules.lot, hm] using h.marketMinQuantity x hm
    · intro x hx
      simp only [TradingRules.lot, if_true, Option.or_eq_some_iff] at hx
      rcases hx with hx | ⟨-, hx⟩
      · exact h.marketMaxQuantity x hx
      · exact h.maxQuantity x hx

variable {rules : TradingRules} {value step x y raw : Decimal} {P : Decimal → Prop}

/-! ## Numbers on the grid -/

/-- A number of usual size can be rounded downward to a usual step. -/
theorem floorWritten_returns (hstep : IsUsualStep step) (hvalue : Between 0 (10 ^ 19) value) :
    Returns (floorWritten value step) fun r => r.isFinite = true ∧ r.value ≤ value.value ∧
      ∃ k : ℤ, r.value = k * step.value := by
  refine .bind (Step.floor_returns hstep hvalue).lift fun x ⟨hx, hround⟩ => ?_
  refine (Step.write_multiple_returns hstep hx hround).mono fun r ⟨hfin, hr⟩ => ⟨hfin, ?_, _, hr⟩
  rw [hr, ← le_div_iff₀ hstep.pos]
  exact towardZero_le (div_nonneg hvalue.low_le hstep.pos.le)

/-- A number of usual size can be rounded upward to a usual step. -/
theorem ceilWritten_returns (hstep : IsUsualStep step) (hvalue : Between 0 (10 ^ 17) value) :
    Returns (ceilWritten value step) fun r => r.isFinite = true ∧
      r.value ≤ 2 * value.value + 2 * step.value ∧ ∃ k : ℤ, r.value = k * step.value := by
  refine .bind (Step.ceil_returns hstep hvalue).lift fun x ⟨hx, k, hround, hle⟩ => ?_
  refine (Step.write_multiple_returns hstep hx hround).mono fun r ⟨hfin, hr⟩ => ⟨hfin, ?_, k, hr⟩
  rw [hr]
  exact hle

/-- Two finite numbers can be compared, and what does not fall short is positive. -/
theorem fallsShort_returns (hx : x.isFinite = true) (hy : y.isFinite = true) :
    Returns (fallsShort x y) fun short => short = false → 0 < x.value := by
  refine .bind (le_zero_returns hx) fun b hb => ?_
  cases b with
  | true => exact .ok (by simp)
  | false =>
    have hpos : 0 < x.value := by simpa using hb
    exact (lt_returns hx hy).mono fun _ _ _ => hpos

/-- A positive multiple of a step is at least the step. -/
theorem step_le_of_multiple {k : ℤ} (hstep : IsUsualStep step) (hx : x.value = k * step.value)
    (hpos : 0 < x.value) : 1 / 10 ^ 8 ≤ x.value := by
  obtain ⟨m, hone, hm⟩ := exists_multiple hstep.pos hx hpos
  have hone' : (1 : ℚ) ≤ m := by exact_mod_cast hone
  calc 1 / 10 ^ 8 ≤ 1 * step.value := by rw [one_mul]; exact hstep.between.low_le
    _ ≤ m * step.value := mul_le_mul_of_nonneg_right hone' hstep.pos.le
    _ = x.value := hm.symm

/-! ## Quantities -/

/-- A quantity that is too large for usual rules is refused without a failure. -/
theorem rejectAbove_settles {lot : Lot} (hlot : lot.Usual) (hx : Between 0 (10 ^ 8) x) :
    Settles (rules.rejectAbove lot raw x) P := by
  have hwide : Between 0 (10 ^ 19) x := hx.mono le_rfl (by norm_num)
  exact .bind (.of_returns (floorWritten_returns hlot.step hwide)) fun _ _ => .refused _ _

theorem rejectBelow_settles {lot : Lot} (hlot : lot.Usual) :
    Settles (rules.rejectBelow lot raw x) P := by
  have hmin : Between 0 (10 ^ 17) lot.min := hlot.min.mono le_rfl (by norm_num)
  have hstep : Between 0 (10 ^ 17) lot.step := hlot.step.between.mono (by norm_num) (by norm_num)
  have hshown : Between 0 (10 ^ 19) lot.step := hstep.mono le_rfl (by norm_num)
  -- the least quantity that would be taken, at least one step
  refine .bind (.lift (max_returns hmin hstep)) fun least hleast => ?_
  refine .bind (.of_returns (ceilWritten_returns hlot.step hleast)) fun _ _ => ?_
  exact .bind (.lift (Step.shown_returns hshown)) fun _ _ => .refused _ _

/-- A quantity on the grid is written, or refused if it falls short. -/
theorem writtenQuantity_settles {lot : Lot} (hlot : lot.Usual) {floored : Decimal}
    (hfloored : Between 0 (10 ^ 19) floored) {k : ℤ}
    (hround : Rounded (k * lot.step.value) floored) :
    Settles (rules.writtenQuantity lot raw floored) fun r =>
      r.isFinite = true ∧ 1 / 10 ^ 8 ≤ r.value ∧ r.value = k * lot.step.value := by
  refine .bind (.of_returns (Step.write_multiple_returns hlot.step hfloored hround))
    fun rounded ⟨hfin, hvalue⟩ => ?_
  refine .bind (.lift (fallsShort_returns hfin hlot.min.isFinite)) fun short hshort => ?_
  cases short with
  | true => exact rejectBelow_settles hlot
  | false => exact .ok ⟨hfin, step_le_of_multiple hlot.step hvalue (hshort rfl), hvalue⟩

/-- A quantity is cut to the grid or refused. -/
theorem quantity_settles (h : rules.Usual) (market : Bool) (hraw : Between 0 (10 ^ 19) raw) :
    Settles (rules.quantity market raw) (Between (1 / 10 ^ 8) raw.value) := by
  have hlot := h.lot market
  have hpos := hlot.step.pos
  refine .bind (.lift (Step.floor_returns hlot.step hraw)) fun floored ⟨hfloored, hround⟩ => ?_
  -- writing only cuts decimals, so the quantity stays at most the raw one
  have hwritten : Settles (rules.writtenQuantity (rules.lot market) raw floored)
      (Between (1 / 10 ^ 8) raw.value) := by
    refine (writtenQuantity_settles hlot hfloored hround).mono fun r ⟨hfin, hlow, hvalue⟩ => ?_
    refine ⟨hfin, hlow, ?_⟩
    rw [hvalue, ← le_div_iff₀ hpos]
    exact towardZero_le (div_nonneg hraw.low_le hpos.le)
  cases hmax : (rules.lot market).max with
  | none => exact hwritten
  | some bound =>
    have hbound := hlot.max bound hmax
    refine .bind (.lift (lt_returns hbound.isFinite hfloored.isFinite)) fun b _ => ?_
    cases b with
    | true => exact rejectAbove_settles hlot hbound
    | false => exact hwritten

/-! ## Prices -/

theorem rejectLowPrice_settles (h : rules.Usual) : Settles (rules.rejectLowPrice raw) P := by
  have hmin : Between 0 (10 ^ 19) rules.minPrice := h.minPrice.mono le_rfl (by norm_num)
  have htick : Between 0 (10 ^ 19) rules.tick := h.tick.between.mono (by norm_num) (by norm_num)
  refine .bind (.lift (max_returns hmin htick)) fun least hleast => ?_
  exact .bind (.of_returns (Step.write_returns h.tick hleast)) fun _ _ => .refused _ _

theorem rejectHighPrice_settles (h : rules.Usual) (hx : Between 0 (10 ^ 8) x) :
    Settles (rules.rejectHighPrice raw x) P := by
  have hwide : Between 0 (10 ^ 19) x := hx.mono le_rfl (by norm_num)
  exact .bind (.of_returns (floorWritten_returns h.tick hwide)) fun _ _ => .refused _ _

/-- A price on the grid is taken, if it lies within the bounds, or refused. -/
theorem boundedPrice_settles (h : rules.Usual) {rounded : Decimal} (hfin : rounded.isFinite = true)
    {k : ℤ} (hvalue : rounded.value = k * rules.tick.value) :
    Settles (rules.boundedPrice raw rounded) (Between (1 / 10 ^ 8) rounded.value) := by
  refine .bind (.lift (fallsShort_returns hfin h.minPrice.isFinite)) fun short hshort => ?_
  cases short with
  | true => exact rejectLowPrice_settles h
  | false =>
    have hbetween : Between (1 / 10 ^ 8) rounded.value rounded :=
      ⟨hfin, step_le_of_multiple h.tick hvalue (hshort rfl), le_rfl⟩
    cases hmax : rules.maxPrice with
    | none => exact .ok hbetween
    | some bound =>
      have hbound := h.maxPrice bound hmax
      refine .bind (.lift (lt_returns hbound.isFinite hfin)) fun b _ => ?_
      cases b with
      | true => exact rejectHighPrice_settles h hbound
      | false => exact .ok hbetween

/-- A price is moved to the grid or refused. What moves it up is less than the price and two
ticks. -/
theorem price_settles (h : rules.Usual) (side : Option Side) (hraw : Between 0 (10 ^ 17) raw) :
    Settles (rules.price side raw) (Between (1 / 10 ^ 8) (2 * raw.value + 2 * 10 ^ 8)) := by
  have htick := h.tick.between.le_high
  have hnonneg := hraw.low_le
  have hgrid : Returns
      (if side = some .sell then ceilWritten raw rules.tick else floorWritten raw rules.tick)
      fun r => r.isFinite = true ∧ r.value ≤ 2 * raw.value + 2 * 10 ^ 8 ∧
        ∃ k : ℤ, r.value = k * rules.tick.value := by
    split
    · refine (ceilWritten_returns h.tick hraw).mono fun r ⟨hfin, hle, hmultiple⟩ => ?_
      exact ⟨hfin, by linarith, hmultiple⟩
    · have hwide : Between 0 (10 ^ 19) raw := hraw.mono le_rfl (by norm_num)
      refine (floorWritten_returns h.tick hwide).mono fun r ⟨hfin, hle, hmultiple⟩ => ?_
      exact ⟨hfin, by linarith, hmultiple⟩
  rw [price_eq]
  refine .bind (.of_returns hgrid) fun rounded ⟨hfin, hle, k, hvalue⟩ => ?_
  exact (boundedPrice_settles h hfin hvalue).mono fun r hr => hr.mono le_rfl hle

/-! ## The value of an order and the band -/

/-- An amount of usual size can be written in cents. -/
theorem money_returns (hx : Between 0 (10 ^ 25) x) : Returns (money x) fun _ => True := by
  have hfits : |x.value| < 10 ^ ((precision : ℤ) - (2 : ℕ)) := by
    have hpow : ((precision : ℤ) - (2 : ℕ)) = (26 : ℕ) := rfl
    rw [abs_of_nonneg hx.low_le, hpow, zpow_natCast]
    exact hx.le_high.trans_lt (by norm_num)
  obtain ⟨r, hr⟩ := exists_truncate hx.isFinite (by decide) hfits
  exact .map ⟨r, hr, trivial⟩

/-- The check of an order's value comes to a result, also where it has to find a better quantity. -/
theorem notionalRejection?_returns (h : rules.Usual) (hx : Between (1 / 10 ^ 8) (10 ^ 19) x)
    (hy : Between (1 / 10 ^ 8) (10 ^ 17) y) (hvalue : x.value * y.value ≤ 10 ^ 25)
    (checkMin : Bool) :
    Returns (rules.notionalRejection? x y checkMin) fun _ => True := by
  have hnonneg : 0 ≤ x.value * y.value :=
    mul_nonneg (le_trans (by norm_num) hx.low_le) (le_trans (by norm_num) hy.low_le)
  -- a bound of an order's value as a quantity
  have hquotient {bound : Decimal} (hbound : Between 0 (10 ^ 8) bound) :
      Returns (bound.div y) (Between 0 (10 ^ 16)) :=
    (div_returns hbound hy (by norm_num) (by decide) (by norm_num)).mono fun _ h => h.2
  have hproduct : Returns (x.mul y) fun r =>
      Rounded (x.value * y.value) r ∧ Between 0 (10 ^ 25) r :=
    (mul_computes hx.isFinite hy.isFinite).returns bound_zero (bound_pow (by decide)) hnonneg hvalue
  refine .bind hproduct.lift fun notional ⟨_, hnotional⟩ => ?_
  have hcheck : Returns (if checkMin = true then notional.lt rules.minNotional else .ok false)
      fun _ => True := by
    split
    · exact (lt_returns hnotional.isFinite h.minNotional.isFinite).mono fun _ _ => trivial
    · exact .ok trivial
  refine .bind hcheck.lift fun low _ => ?_
  cases low with
  | true =>
    -- too little: the quantity that reaches the least value, moved up to the grid
    refine .bind (hquotient h.minNotional).lift fun enough henough => ?_
    refine .bind (Step.ceil_returns h.step (henough.mono le_rfl (by norm_num))).lift
      fun enough ⟨henough, _⟩ => ?_
    refine .bind (max_returns henough (h.minQuantity.mono le_rfl (by norm_num))).lift
      fun least hleast => ?_
    refine .bind (Step.write_returns h.step hleast) fun nearest _ => ?_
    refine .bind (money_returns hnotional).lift fun _ _ => ?_
    exact .bind (Step.shown_returns (h.minNotional.mono le_rfl (by norm_num))).lift
      fun _ _ => .ok trivial
  | false =>
    cases hmax : rules.maxNotional with
    | none => exact .ok trivial
    | some most =>
      have hmost := h.maxNotional most hmax
      refine .bind (lt_returns hmost.isFinite hnotional.isFinite).lift fun high _ => ?_
      cases high with
      | true =>
        -- too much: the quantity that reaches the largest value, moved down to the grid
        refine .bind (hquotient hmost).lift fun enough henough => ?_
        refine .bind (floorWritten_returns h.step (henough.mono le_rfl (by norm_num)))
          fun nearest _ => ?_
        refine .bind (money_returns hnotional).lift fun _ _ => ?_
        exact .bind (Step.shown_returns (hmost.mono le_rfl (by norm_num))).lift fun _ _ =>
          .ok trivial
      | false => exact .ok trivial

/-- The band around a mark price. -/
theorem band_returns (h : rules.Usual) (hx : Between 0 (10 ^ 9) x) :
    Returns (rules.band x) fun b => Between 0 (10 ^ 10) b.1 ∧ Between 0 (10 ^ 10) b.2 := by
  have hone : (1 : Decimal).value = 1 := by simp
  -- at most the whole price is taken away, so the lower factor is not negative
  have hdown : Returns (Decimal.sub 1 rules.bandDown) (Between 0 1) := by
    have hlow := h.bandDown.low_le
    have hhigh := h.bandDown.le_high
    refine ((sub_computes rfl h.bandDown.isFinite).returns bound_zero bound_one ?_ ?_).mono
      fun _ hr => hr.2 <;>
    · rw [hone]
      linarith
  have hup : Returns (Decimal.add 1 rules.bandUp) (Between 0 (10 ^ 1)) := by
    have hlow := h.bandUp.low_le
    have hhigh := h.bandUp.le_high
    refine ((add_computes rfl h.bandUp.isFinite).returns bound_zero (bound_pow (by decide))
      ?_ ?_).mono fun _ hr => hr.2 <;>
    · rw [hone]
      linarith
  refine .bind hdown fun down hdown => ?_
  have hlow : Returns (x.mul down) fun r =>
      Rounded (x.value * down.value) r ∧ Between 0 (10 ^ 10) r :=
    mul_returns hx hdown (by decide) (by norm_num)
  refine .bind hlow fun low ⟨_, hlow⟩ => ?_
  refine .bind hup fun up hup => ?_
  have hhigh : Returns (x.mul up) fun r =>
      Rounded (x.value * up.value) r ∧ Between 0 (10 ^ 10) r :=
    mul_returns hx hup (by decide) (by norm_num)
  exact .bind hhigh fun high ⟨_, hhigh⟩ => .ok ⟨hlow, hhigh⟩

theorem within_returns {low high : Decimal} (hlow : low.isFinite = true) (hx : x.isFinite = true)
    (hhigh : high.isFinite = true) : Returns (within low x high) fun _ => True := by
  refine .bind (le_returns hlow hx) fun b _ => ?_
  cases b with
  | true => exact (le_returns hx hhigh).mono fun _ _ => trivial
  | false => exact .ok trivial

/-- The check of a limit price comes to a result, also where it has to find a better price. -/
theorem bandRejection?_returns (h : rules.Usual) (hx : Between 0 (10 ^ 9) x)
    (hy : y.isFinite = true) :
    Returns (rules.bandRejection? x y) fun _ => True := by
  refine .bind (band_returns h hx).lift fun (low, high) ⟨hlow, hhigh⟩ => ?_
  refine .bind (within_returns hlow.isFinite hy hhigh.isFinite).lift fun inside _ => ?_
  cases inside with
  | true => exact .ok trivial
  | false =>
    refine .bind (lt_returns hy hlow.isFinite).lift fun below _ => ?_
    cases below with
    | true =>
      -- the nearest price inside the band lies above or below
      exact .bind (ceilWritten_returns h.tick (hlow.mono le_rfl (by norm_num))) fun _ _ =>
        .ok trivial
    | false =>
      exact .bind (floorWritten_returns h.tick (hhigh.mono le_rfl (by norm_num))) fun _ _ =>
        .ok trivial

end TradingRules

end OrderTicket
