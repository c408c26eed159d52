import OrderTicket.Proofs.Decimal.Overflow
import OrderTicket.Proofs.Rules.Quantity

/-!
# The value of an order

What the check of an order's value says, and whether the quantity that it suggests can be placed.
The suggestion is computed from the lot rules of limit orders, by a division and a step upward or
downward, both with rounding. Where these are the lot rules that the order is held against, and the
roundings cannot be seen in the value of a multiple of the step, it is a quantity that the market
takes, provided that there is any.

* `TradingRules.notionalRejection?_eq_none`, `TradingRules.notionalRejection?_eq_some`: what the
  check says.
* `TradingRules.Takes`: quantities that the market takes at a price.
* `TradingRules.Discernible`: the values of multiples of the step can be told apart at a bound.
* `TradingRules.exists_enough`, `TradingRules.exists_most`: the number of steps that a bound leads
  to.
* `TradingRules.takes_least`, `TradingRules.takes_most`: when the suggestions are taken.
-/

namespace OrderTicket

open Decimal

/-! ## Rounded quotients -/

namespace Decimal

section

variable {n a e : ℤ}

/-- Rounding does not move an integer of many digits below one of fewer digits. -/
theorem nearest_mul_lt_iff (ha : |a| < 10 ^ precision) (he : tinyExponent ≤ e) :
    nearest (n * 10 ^ e) < a * 10 ^ e ↔ n < a := by
  have hunit := ten_zpow_pos e
  have hkept {m : ℤ} (hm : |m| ≤ 10 ^ precision) : nearest (m * 10 ^ e) = m * 10 ^ e :=
    nearest_of_representable (representable_of_le hm he)
  constructor
  · intro h
    by_contra hle
    refine absurd h (not_lt.2 ?_)
    rw [← hkept ha.le]
    exact nearest_mono (mul_le_mul_of_nonneg_right (by exact_mod_cast not_lt.1 hle) hunit.le)
  · intro h
    -- the next lower integer is kept as well
    have hpred : |a - 1| ≤ 10 ^ precision := by
      rw [abs_lt] at ha
      exact abs_le.2 ⟨by omega, by omega⟩
    have hle : (n : ℚ) * 10 ^ e ≤ (a - 1 : ℤ) * 10 ^ e :=
      mul_le_mul_of_nonneg_right (by exact_mod_cast Int.le_sub_one_of_lt h) hunit.le
    refine (nearest_mono hle).trans_lt ?_
    rw [hkept hpred]
    exact mul_lt_mul_of_pos_right (by exact_mod_cast sub_one_lt a) hunit

/-- A multiple of the step lies above a rounded bound exactly if it lies above the bound. -/
theorem lt_nearest_mul_iff (ha : |a| < 10 ^ precision) (he : tinyExponent ≤ e) :
    a * 10 ^ e < nearest (n * 10 ^ e) ↔ a < n := by
  have h := nearest_mul_lt_iff (n := -n) (a := -a) (by rwa [abs_neg]) he
  rw [Int.cast_neg, Int.cast_neg, neg_mul, neg_mul, nearest_neg, neg_lt_neg_iff,
    neg_lt_neg_iff] at h
  exact h

end

section

variable {s : ℚ} {a b j : ℤ}

/-- A value that is at least a step is rounded with a small relative error. -/
theorem abs_nearest_sub_le_of_step {v : ℚ}
    (hs : (10 : ℚ) ^ ((precision : ℤ) - 1 + tinyExponent) ≤ s)
    (hv : s ≤ v) : |nearest v - v| ≤ v / (2 * 10 ^ 27) := by
  have hspos : 0 < s := (ten_zpow_pos _).trans_le hs
  have hpos : 0 < v := hspos.trans_le hv
  have herr := abs_nearest_sub_le (v := v) (by rw [abs_of_pos hpos]; exact hs.trans hv)
  rwa [abs_of_pos hpos] at herr

/-- A quotient that lies above a number of steps is still above it after it was rounded twice, if
its numerator has two digits less than the precision. -/
theorem lt_nearest_quotient (hs : (10 : ℚ) ^ ((precision : ℤ) - 1 + tinyExponent) ≤ s)
    (ha : a < 10 ^ 26) (hb : 0 < b) (hj : 1 ≤ j) (h : j * b < a) :
    j < nearest (nearest (a * s / b) / s) := by
  have hspos : 0 < s := (ten_zpow_pos _).trans_le hs
  have hb' : (0 : ℚ) < b := by exact_mod_cast hb
  have hj' : (1 : ℚ) ≤ j := by exact_mod_cast hj
  have hab : (j : ℚ) * b + 1 ≤ a := by exact_mod_cast Int.add_one_le_of_lt h
  have hlarge : (j : ℚ) * b ≤ 10 ^ 26 := by exact_mod_cast (h.trans ha).le
  have hjb : j ≤ j * b := le_mul_of_one_le_right (by omega) hb
  have hone : s ≤ j * s := le_mul_of_one_le_left hspos.le hj'
  -- the quotient exceeds the number of steps by a step over `b`
  have hgap : j * s + j * s / 10 ^ 26 ≤ a * s / b := by
    have hfrac : j * s / 10 ^ 26 * b ≤ s := by
      rw [div_mul_eq_mul_div, div_le_iff₀ (by positivity), mul_right_comm, mul_comm s]
      exact mul_le_mul_of_nonneg_right hlarge hspos.le
    rw [le_div_iff₀ hb', add_mul]
    calc j * s * b + j * s / 10 ^ 26 * b ≤ j * s * b + s := add_le_add_right hfrac _
      _ = (j * b + 1) * s := by ring
      _ ≤ a * s := mul_le_mul_of_nonneg_right hab hspos.le
  have hsteps : 0 ≤ j * s / 10 ^ 26 := by positivity
  have herr := (abs_le.1 (abs_nearest_sub_le_of_step hs (hone.trans (by linarith)))).1
  have hlow : j * s + j * s / 10 ^ 27 ≤ nearest (a * s / b) := by linarith
  refine lt_nearest (representable_intCast ?_) ?_ ?_
  · rw [abs_of_nonneg (by omega)]
    exact (hjb.trans (h.trans ha).le).trans (by decide)
  · exact le_trans (zpow_le_one_of_nonpos₀ (by norm_num) (by decide)) hj'
  · rw [le_div_iff₀ hspos, add_mul, div_mul_eq_mul_div]
    exact hlow

/-- A number of steps that a rounded quotient reaches is one that the quotient itself reaches. -/
theorem mul_le_of_le_nearest (hs : (10 : ℚ) ^ ((precision : ℤ) - 1 + tinyExponent) ≤ s)
    (ha : a < 10 ^ 26) (hb : 0 < b) (hone : s ≤ a * s / b) (h : j * s ≤ nearest (a * s / b)) :
    j * b ≤ a := by
  have hspos : 0 < s := (ten_zpow_pos _).trans_le hs
  have hb' : (0 : ℚ) < b := by exact_mod_cast hb
  have ha' : (a : ℚ) ≤ 10 ^ 26 := by exact_mod_cast ha.le
  by_contra hlt
  have hab : (a : ℚ) + 1 ≤ j * b := by exact_mod_cast Int.add_one_le_of_lt (not_le.1 hlt)
  have hquot : a * s / b * b = a * s := div_mul_cancel₀ _ hb'.ne'
  have herr := (abs_le.1 (abs_nearest_sub_le_of_step hs hone)).2
  generalize a * s / b = v at *
  -- the next number of steps lies farther away than rounding goes
  have hfrac : v / 10 ^ 26 * b ≤ s := by
    rw [div_mul_eq_mul_div, hquot, div_le_iff₀ (by positivity), mul_comm s]
    exact mul_le_mul_of_nonneg_right ha' hspos.le
  have hnext : (v + v / 10 ^ 26) * b ≤ j * s * b :=
    calc (v + v / 10 ^ 26) * b = a * s + v / 10 ^ 26 * b := by rw [add_mul, hquot]
      _ ≤ a * s + s := add_le_add_right hfrac _
      _ = (a + 1) * s := by ring
      _ ≤ j * b * s := mul_le_mul_of_nonneg_right hab hspos.le
      _ = j * s * b := by ring
  have hnext := le_of_mul_le_mul_right hnext hb'
  linarith

/-- How many steps suffice for a value, if some number of steps that are known to be writable do and
a smaller number does not. -/
theorem ceil_quotient_between {k k₀ : ℕ}
    (hs : (10 : ℚ) ^ ((precision : ℤ) - 1 + tinyExponent) ≤ s) (ha : a < 10 ^ 26) (hb : 0 < b)
    (hk : 1 ≤ k) (hlow : k * b < a) (hhigh : a ≤ k₀ * b) (hrep : Representable (k₀ * s))
    (hk₀ : k₀ < 10 ^ precision) :
    a ≤ ⌈nearest (nearest (a * s / b) / s)⌉ * b ∧ k < ⌈nearest (nearest (a * s / b) / s)⌉ ∧
      ⌈nearest (nearest (a * s / b) / s)⌉ ≤ k₀ := by
  have hspos : 0 < s := (ten_zpow_pos _).trans_le hs
  have hb' : (0 : ℚ) < b := by exact_mod_cast hb
  have henough : a ≤ ⌈nearest (nearest (a * s / b) / s)⌉ * b := by
    by_contra hlt
    -- the larger of two numbers of steps that do not suffice lies below the rounded quotient
    have hmax : Max.max ⌈nearest (nearest (a * s / b) / s)⌉ (k : ℤ) * b < a := by
      rcases max_choice ⌈nearest (nearest (a * s / b) / s)⌉ (k : ℤ) with h | h <;> rw [h]
      · exact not_le.1 hlt
      · exact hlow
    have hbelow := lt_nearest_quotient hs ha hb
      ((by exact_mod_cast hk : (1 : ℤ) ≤ k).trans (le_max_right _ _)) hmax
    exact absurd (Int.lt_ceil.2 hbelow) (not_lt.2 (le_max_left _ _))
  refine ⟨henough, lt_of_mul_lt_mul_right (hlow.trans_le henough) hb.le, Int.ceil_le.2 ?_⟩
  have hquot : (a : ℚ) * s / b ≤ k₀ * s := by
    rw [div_le_iff₀ hb', mul_right_comm]
    exact mul_le_mul_of_nonneg_right (by exact_mod_cast hhigh) hspos.le
  have hrounded := nearest_mono hquot
  rw [nearest_of_representable hrep, ← div_le_iff₀ hspos] at hrounded
  have hrounded := nearest_mono hrounded
  rwa [← Int.cast_natCast (R := ℚ), nearest_of_representable (representable_intCast (by
    rw [Nat.abs_cast]
    exact_mod_cast hk₀.le))] at hrounded

/-- How many steps a value suffices for, if it does for some number of steps that are known to be
writable and not for a larger number. -/
theorem towardZero_quotient_between {k k₀ : ℕ}
    (hs : (10 : ℚ) ^ ((precision : ℤ) - 1 + tinyExponent) ≤ s) (ha : a < 10 ^ 26) (hb : 0 < b)
    (hk₀ : 1 ≤ k₀) (hlow : k₀ * b ≤ a) (hhigh : a < k * b) (hrep : Representable (k₀ * s)) :
    towardZero (nearest (a * s / b) / s) * b ≤ a ∧ k₀ ≤ towardZero (nearest (a * s / b) / s) ∧
      towardZero (nearest (a * s / b) / s) < k := by
  have hspos : 0 < s := (ten_zpow_pos _).trans_le hs
  have hb' : (0 : ℚ) < b := by exact_mod_cast hb
  have hquot : (k₀ : ℚ) * s ≤ a * s / b := by
    rw [le_div_iff₀ hb', mul_right_comm]
    exact mul_le_mul_of_nonneg_right (by exact_mod_cast hlow) hspos.le
  have hone : s ≤ a * s / b :=
    le_trans (le_mul_of_one_le_left hspos.le (by exact_mod_cast hk₀)) hquot
  -- the steps that can be written are representable, so rounding does not fall below them
  have hrounded := nearest_mono hquot
  rw [nearest_of_representable hrep, ← le_div_iff₀ hspos] at hrounded
  have hfloor : towardZero (nearest (a * s / b) / s) = ⌊nearest (a * s / b) / s⌋ :=
    if_pos ((Nat.cast_nonneg k₀).trans hrounded)
  rw [hfloor]
  have hreached : ⌊nearest (a * s / b) / s⌋ * b ≤ a :=
    mul_le_of_le_nearest hs ha hb hone ((le_div_iff₀ hspos).1 (Int.floor_le _))
  exact ⟨hreached, Int.le_floor.2 (by exact_mod_cast hrounded),
    lt_of_mul_lt_mul_right (hreached.trans_lt hhigh) hb.le⟩

end

/-- A product that does not overflow does not do so with a smaller factor either. -/
theorem exists_mul_of_le {x y factor product : Decimal} (hx : x.isFinite = true)
    (hy : y.isFinite = true) (hfactor : factor.isFinite = true) (hpos : 0 ≤ factor.value)
    (hnonneg : 0 ≤ x.value) (hle : x.value ≤ y.value) (h : y.mul factor = .ok product) :
    ∃ smaller, x.mul factor = .ok smaller ∧ smaller.isFinite = true ∧ product.isFinite = true ∧
      smaller.value ≤ product.value := by
  have hleft := mul_computes hx hfactor
  have hright := mul_computes hy hfactor
  have hmul := mul_le_mul_of_nonneg_right hle hpos
  cases hr : x.mul factor with
  | error fault =>
    obtain ⟨-, hlarge⟩ := hleft.eq_error_iff.1 hr
    rw [abs_of_nonneg (mul_nonneg hnonneg hpos)] at hlarge
    have herror := hright.eq_error_iff.2 ⟨rfl, (hlarge.trans hmul).trans (le_abs_self _)⟩
    rw [h] at herror
    cases herror
  | ok smaller =>
    refine ⟨smaller, rfl, (hleft.rounded hr).isFinite, (hright.rounded h).isFinite, ?_⟩
    rw [hleft.value_eq hr, hright.value_eq h]
    exact nearest_mono hmul

end Decimal

namespace TradingRules

section

variable {rules : TradingRules} {market : Bool} {raw q q₀ v price step : Decimal} {checkMin : Bool}
  {r : Rejection}

/-! ## What the check says -/

/-- No rejection of a value: the value lies within the bounds that are checked. -/
theorem notionalRejection?_eq_none {quantity price : Decimal} {checkMin : Bool}
    (h : rules.notionalRejection? quantity price checkMin = .ok none) :
    ∃ notional, quantity.mul price = .ok notional ∧
      (checkMin = true → notional.lt rules.minNotional = .ok false) ∧
      ∀ most, rules.maxNotional = some most → most.lt notional = .ok false := by
  obtain ⟨notional, hnotional, h⟩ := bind_eq_ok h
  obtain ⟨low, hlow, h⟩ := bind_eq_ok h
  refine ⟨notional, liftM_eq_ok hnotional, ?_⟩
  cases low with
  | true =>
    -- this branch returns a rejection
    exfalso
    rw [if_pos rfl] at h
    obtain ⟨_, _, h⟩ := bind_eq_ok h
    obtain ⟨_, _, h⟩ := bind_eq_ok h
    obtain ⟨_, _, h⟩ := bind_eq_ok h
    obtain ⟨_, _, h⟩ := bind_eq_ok h
    obtain ⟨_, _, h⟩ := bind_eq_ok h
    obtain ⟨_, _, h⟩ := bind_eq_ok h
    cases h
  | false =>
    rw [if_neg (by decide)] at h
    refine ⟨?_, ?_⟩
    · rintro rfl
      exact liftM_eq_ok hlow
    · intro most hmost
      rw [hmost] at h
      obtain ⟨high, hhigh, h⟩ := bind_eq_ok h
      cases high with
      | false => exact liftM_eq_ok hhigh
      | true =>
        exfalso
        rw [if_pos rfl] at h
        obtain ⟨_, _, h⟩ := bind_eq_ok h
        obtain ⟨_, _, h⟩ := bind_eq_ok h
        obtain ⟨_, _, h⟩ := bind_eq_ok h
        obtain ⟨_, _, h⟩ := bind_eq_ok h
        cases h

/-- No rejection where the value lies within the bounds. -/
theorem notionalRejection?_eq {notional : Decimal} (hnotional : q.mul price = .ok notional)
    (hleast : notional.lt rules.minNotional = .ok false)
    (hmost : ∀ most, rules.maxNotional = some most → most.lt notional = .ok false) :
    rules.notionalRejection? q price true = .ok none := by
  simp only [notionalRejection?, hnotional, hleast, Failure.liftM_eq, Except.mapError, bind,
    Except.bind, if_true, Bool.false_eq_true, if_false]
  cases hbound : rules.maxNotional with
  | none => rfl
  | some most =>
    simp only [hmost most hbound, Bool.false_eq_true, if_false]
    rfl

/-- A rejection of a value, and the steps to the quantity that it suggests. -/
theorem notionalRejection?_eq_some
    (h : rules.notionalRejection? q price checkMin = .ok (some r)) :
    (r.code = .belowMinNotional ∧ ∃ notional enough x least v, q.mul price = .ok notional ∧
      notional.lt rules.minNotional = .ok true ∧ rules.minNotional.div price = .ok enough ∧
      Step.ceil enough rules.step = .ok x ∧ Decimal.max x rules.minQuantity = .ok least ∧
      Step.write least rules.step = .ok v ∧ r.nearestValid = some v) ∨
    (r.code = .aboveMaxNotional ∧ ∃ notional most enough v, q.mul price = .ok notional ∧
      rules.maxNotional = some most ∧ most.lt notional = .ok true ∧ most.div price = .ok enough ∧
      floorWritten enough rules.step = .ok v ∧ r.nearestValid = some v) := by
  obtain ⟨notional, hnotional, h⟩ := bind_eq_ok h
  obtain ⟨low, hlow, h⟩ := bind_eq_ok h
  -- the least value is checked first, and the largest one only if that check was passed
  cases low with
  | true =>
    rw [if_pos rfl] at h
    obtain ⟨enough, henough, h⟩ := bind_eq_ok h
    obtain ⟨x, hx, h⟩ := bind_eq_ok h
    obtain ⟨least, hleast, h⟩ := bind_eq_ok h
    obtain ⟨v, hv, h⟩ := bind_eq_ok h
    obtain ⟨value, -, h⟩ := bind_eq_ok h
    obtain ⟨bound, -, h⟩ := bind_eq_ok h
    cases h
    have hlt : notional.lt rules.minNotional = .ok true := by
      cases checkMin with
      | true => exact liftM_eq_ok hlow
      | false => cases hlow
    exact .inl ⟨rfl, notional, enough, x, least, v, liftM_eq_ok hnotional, hlt,
      liftM_eq_ok henough, liftM_eq_ok hx, liftM_eq_ok hleast, hv, rfl⟩
  | false =>
    rw [if_neg (by decide)] at h
    cases hmax : rules.maxNotional with
    | none =>
      rw [hmax] at h
      cases h
    | some most =>
      rw [hmax] at h
      obtain ⟨high, hhigh, h⟩ := bind_eq_ok h
      cases high with
      | false => cases h
      | true =>
        rw [if_pos rfl] at h
        obtain ⟨enough, henough, h⟩ := bind_eq_ok h
        obtain ⟨v, hv, h⟩ := bind_eq_ok h
        obtain ⟨value, -, h⟩ := bind_eq_ok h
        obtain ⟨bound, -, h⟩ := bind_eq_ok h
        cases h
        exact .inr ⟨rfl, notional, most, enough, v, liftM_eq_ok hnotional, rfl,
          liftM_eq_ok hhigh, liftM_eq_ok henough, hv, rfl⟩

/-! ## What the check suggests -/

/-- The market takes the quantity of an order as it is, and its value at the price. -/
def Takes (rules : TradingRules) (market : Bool) (price q : Decimal) : Prop :=
  rules.quantity market q = .ok q ∧ rules.notionalRejection? q price true = .ok none

/-- The values of multiples of the step can be told apart at a bound: over a common power of ten the
bound has two digits less than the precision. -/
structure Discernible (step price bound : Decimal) : Prop where
  /-- The bound is finite. -/
  isFinite : bound.isFinite = true
  /-- The step is not so small that it would have fewer digits. -/
  normal : (10 : ℚ) ^ ((precision : ℤ) - 1 + tinyExponent) ≤ step.value
  /-- The bound and the value of a single step are integers over a power of ten. -/
  aligned : ∃ a b e : ℤ, tinyExponent ≤ e ∧ bound.value = a * 10 ^ e ∧
    step.value * price.value = b * 10 ^ e ∧ |a| < 10 ^ 26

/-- How the value of a number of steps compares with a bound, in units of the bound's last digit. -/
theorem lt_bound_of_isWritten {k : ℕ} {notional bound : Decimal} {a b e : ℤ}
    (hq : Step.IsWritten step k q) (hprice : price.isFinite = true) (hbound : bound.isFinite = true)
    (he : tinyExponent ≤ e) (ha : |a| < 10 ^ 26) (hvalue : bound.value = a * 10 ^ e)
    (hunit : step.value * price.value = b * 10 ^ e) (h : q.mul price = .ok notional) :
    notional.lt bound = .ok (decide (k * b < a)) ∧
      bound.lt notional = .ok (decide (a < k * b)) := by
  have ha' : |a| < 10 ^ precision := ha.trans (by decide)
  have hexact := (mul_computes hq.isFinite hprice).exactly_nearest h
  rw [hq.value_eq, mul_assoc, hunit, ← mul_assoc, ← Int.cast_natCast (R := ℚ), ← Int.cast_mul]
    at hexact
  rw [lt_eq hexact.isFinite hbound, lt_eq hbound hexact.isFinite, hexact.value_eq, hvalue]
  simp only [nearest_mul_lt_iff ha' he, lt_nearest_mul_iff ha' he, and_self]

/-- A bound and the value of a step that are multiples of one unit give a quotient in steps. -/
theorem div_eq_of_aligned {bound price step : ℚ} {a b e : ℤ} (hprice : 0 < price) (hstep : 0 < step)
    (hbound : bound = a * 10 ^ e) (hunit : step * price = b * 10 ^ e) :
    0 < b ∧ bound / price = a * step / b := by
  have hten := ten_zpow_pos e
  have hb : (0 : ℚ) < b := pos_of_mul_pos_left (hunit ▸ mul_pos hstep hprice) hten.le
  refine ⟨by exact_mod_cast hb, ?_⟩
  rw [div_eq_div_iff hprice.ne' hb.ne', hbound, mul_assoc (a : ℚ), mul_assoc (a : ℚ), hunit]
  ring

/-- The number of steps that are worth a least value: more than any that are not, and no more than
any that are. -/
theorem exists_enough {k k₀ : ℕ} {bound notional notional₀ enough x : Decimal}
    (hstep : step.InContext) (hpos : 0 < step.value) (hprice : price.isFinite = true)
    (hpricepos : 0 < price.value) (hdiscernible : Discernible step price bound)
    (hk : Step.IsWritten step k q) (hnotional : q.mul price = .ok notional)
    (hlow : notional.lt bound = .ok true) (hk₀ : Step.IsWritten step k₀ q₀)
    (hnotional₀ : q₀.mul price = .ok notional₀) (hleast₀ : notional₀.lt bound = .ok false)
    (henough : bound.div price = .ok enough) (hx : Step.ceil enough step = .ok x) :
    ∃ E : ℕ, Exactly (E * step.value) x ∧ k < E ∧ E ≤ k₀ ∧
      ∀ K v worth, E ≤ K → Step.IsWritten step K v → v.mul price = .ok worth →
        worth.lt bound = .ok false := by
  obtain ⟨a, b, e, he, hbound, hunit, ha⟩ := hdiscernible.aligned
  obtain ⟨hb, hquot⟩ := div_eq_of_aligned hpricepos hpos hbound hunit
  -- multiples of the step are compared with the bound by their counts alone
  have hcompare {j : ℕ} {r worth : Decimal} (hr : Step.IsWritten step j r)
      (h : r.mul price = .ok worth) : worth.lt bound = .ok (decide (j * b < a)) :=
    (lt_bound_of_isWritten hr hprice hdiscernible.isFinite he ha hbound hunit h).1
  have hkb : k * b < a := by simpa [hcompare hk hnotional] using hlow
  have hk₀b : a ≤ k₀ * b := by simpa [hcompare hk₀ hnotional₀] using hleast₀
  have hdiv := (div_computes hdiscernible.isFinite hprice hpricepos.ne').exactly_nearest henough
  obtain ⟨w, -, hw, hround⟩ := Step.ceil_rounded hstep hpos hdiv.isFinite hx
  rw [hw, hdiv.value_eq, hquot] at hround
  obtain ⟨hE, hkE, hEk₀⟩ := ceil_quotient_between hdiscernible.normal (abs_lt.1 ha).2 hb hk.one_le
    hkb hk₀b (hk₀.representable hstep hpos) (hk₀.lt_pow hstep hpos)
  generalize ⌈nearest (nearest (a * step.value / b) / step.value)⌉ = E at *
  obtain ⟨E, rfl⟩ := Int.eq_ofNat_of_zero_le (by omega : 0 ≤ E)
  have hEk₀' : E ≤ k₀ := by exact_mod_cast hEk₀
  refine ⟨E, ⟨hround.isFinite, ?_⟩, by exact_mod_cast hkE, hEk₀', fun K v worth hK hv hworth => ?_⟩
  · exact hround.eq_of_representable (hk₀.representable_of_le hstep hpos hEk₀')
  · have hKb : a ≤ K * b := hE.trans (mul_le_mul_of_nonneg_right (by exact_mod_cast hK) hb.le)
    rw [hcompare hv hworth, decide_eq_false (not_lt.2 hKb)]

/-- The number of steps that are not worth more than a largest value: less than any that are, and no
less than any that are not. -/
theorem exists_most {k k₀ : ℕ} {bound notional notional₀ enough x : Decimal}
    (hstep : step.InContext) (hpos : 0 < step.value) (hprice : price.isFinite = true)
    (hpricepos : 0 < price.value) (hdiscernible : Discernible step price bound)
    (hk : Step.IsWritten step k q) (hnotional : q.mul price = .ok notional)
    (hhigh : bound.lt notional = .ok true) (hk₀ : Step.IsWritten step k₀ q₀)
    (hnotional₀ : q₀.mul price = .ok notional₀) (hmost₀ : bound.lt notional₀ = .ok false)
    (henough : bound.div price = .ok enough) (hx : Step.floor enough step = .ok x) :
    ∃ F : ℕ, Exactly (F * step.value) x ∧ k₀ ≤ F ∧ F < k ∧
      ∀ v worth, Step.IsWritten step F v → v.mul price = .ok worth →
        bound.lt worth = .ok false := by
  obtain ⟨a, b, e, he, hbound, hunit, ha⟩ := hdiscernible.aligned
  obtain ⟨hb, hquot⟩ := div_eq_of_aligned hpricepos hpos hbound hunit
  -- multiples of the step are compared with the bound by their counts alone
  have hcompare {j : ℕ} {r worth : Decimal} (hr : Step.IsWritten step j r)
      (h : r.mul price = .ok worth) : bound.lt worth = .ok (decide (a < j * b)) :=
    (lt_bound_of_isWritten hr hprice hdiscernible.isFinite he ha hbound hunit h).2
  have hkb : a < k * b := by simpa [hcompare hk hnotional] using hhigh
  have hk₀b : k₀ * b ≤ a := by simpa [hcompare hk₀ hnotional₀] using hmost₀
  have hdiv := (div_computes hdiscernible.isFinite hprice hpricepos.ne').exactly_nearest henough
  have hround := Step.floor_rounded hstep hpos hdiv.isFinite hx
  rw [hdiv.value_eq, hquot] at hround
  obtain ⟨hF, hk₀F, hFk⟩ := towardZero_quotient_between hdiscernible.normal (abs_lt.1 ha).2 hb
    hk₀.one_le hk₀b hkb (hk₀.representable hstep hpos)
  generalize towardZero (nearest (a * step.value / b) / step.value) = F at *
  obtain ⟨F, rfl⟩ := Int.eq_ofNat_of_zero_le (by omega : 0 ≤ F)
  have hFk' : F < k := by exact_mod_cast hFk
  refine ⟨F, ⟨hround.isFinite, ?_⟩, by exact_mod_cast hk₀F, hFk', fun v worth hv hworth => ?_⟩
  · exact hround.eq_of_representable (hk.representable_of_le hstep hpos hFk'.le)
  · rw [hcompare hv hworth, decide_eq_false (not_lt.2 hF)]

/-- The larger of a number of steps and a least quantity that is a number of steps is a number of
steps as well. -/
theorem exists_max_steps {E k₀ : ℕ} {x least most : Decimal} (hpos : 0 < step.value)
    (hx : Exactly (E * step.value) x) (hleast : least.isFinite = true)
    (hmultiple : ∃ k : ℤ, least.value = k * step.value) (hE : E ≤ k₀)
    (hle : least.value ≤ k₀ * step.value) (h : Decimal.max x least = .ok most) :
    ∃ K : ℕ, Exactly (K * step.value) most ∧ E ≤ K ∧ K ≤ k₀ ∧ least.value ≤ K * step.value := by
  obtain ⟨m, hm⟩ := hmultiple
  rw [hm, mul_le_mul_iff_left₀ hpos] at hle
  have hmk₀ : m ≤ k₀ := by exact_mod_cast hle
  obtain ⟨hfin, -, hvalue⟩ := max_ok hx.isFinite hleast h
  obtain ⟨K, hK⟩ := Int.eq_ofNat_of_zero_le (by omega : 0 ≤ Max.max (E : ℤ) m)
  have hvalueK : most.value = K * step.value := by
    rw [hvalue, hx.value_eq, hm, ← max_mul_of_nonneg _ _ hpos.le, ← Int.cast_natCast E,
      ← Int.cast_max, hK, Int.cast_natCast]
  refine ⟨K, ⟨hfin, hvalueK⟩, by omega, by omega, ?_⟩
  rw [← hvalueK, hvalue]
  exact le_max_right _ _

/-- A number of steps within the bounds of quantity and value is taken. -/
theorem takes_of_isWritten {k : ℕ} {notional : Decimal} (hlot : (rules.lot market).InContext)
    (hv : Step.IsWritten (rules.lot market).step k v) (hbounds : (rules.lot market).Bounds v.value)
    (hnotional : v.mul price = .ok notional) (hleast : notional.lt rules.minNotional = .ok false)
    (hmost : ∀ most, rules.maxNotional = some most → most.lt notional = .ok false) :
    rules.Takes market price v :=
  ⟨quantity_isWritten hlot hv hbounds, notionalRejection?_eq hnotional hleast hmost⟩

/-- The least quantity that is worth enough is taken, if any quantity is, where it is computed from
the lot rules that it is held against. -/
theorem takes_least {notional enough x least : Decimal} (hlot : (rules.lot market).InContext)
    (hstep : (rules.lot market).step = rules.step)
    (hmin : (rules.lot market).min = rules.minQuantity)
    (hmultiple : ∃ k : ℤ, rules.minQuantity.value = k * rules.step.value)
    (hprice : price.isFinite = true) (hpricepos : 0 < price.value)
    (hdiscernible : Discernible rules.step price rules.minNotional)
    (hq : rules.quantity market raw = .ok q) (hnotional : q.mul price = .ok notional)
    (hlow : notional.lt rules.minNotional = .ok true)
    (henough : rules.minNotional.div price = .ok enough)
    (hx : Step.ceil enough rules.step = .ok x)
    (hleast : Decimal.max x rules.minQuantity = .ok least)
    (hv : Step.write least rules.step = .ok v) (hq₀ : rules.Takes market price q₀) :
    rules.Takes market price v := by
  have hpos : 0 < rules.step.value := hstep ▸ lot_step_value_pos hlot
  have hcontext : rules.step.InContext := hstep ▸ hlot.step
  obtain ⟨-, -, k, hk, -, -⟩ := (quantity_eq_ok_iff hlot).1 hq
  obtain ⟨-, hbounds₀, k₀, hk₀, -, -⟩ := (quantity_eq_ok_iff hlot).1 hq₀.1
  obtain ⟨notional₀, hnotional₀, hleast₀, hmost₀⟩ := notionalRejection?_eq_none hq₀.2
  rw [hstep] at hk hk₀
  obtain ⟨E, hexact, hkE, hEk₀, hworthEnough⟩ := exists_enough hcontext hpos hprice hpricepos
    hdiscernible hk hnotional hlow hk₀ hnotional₀ (hleast₀ rfl) henough hx
  -- the least quantity of the lot is a number of steps as well, and not more than what is taken
  obtain ⟨K, hexactK, hEK, hKk₀, hminK⟩ := exists_max_steps hpos hexact (hmin ▸ hlot.min) hmultiple
    hEk₀ (hk₀.value_eq ▸ hmin ▸ hbounds₀.min_le) hleast
  obtain ⟨v', hv'⟩ := hk₀.exists_of_le hcontext hpos (by omega) hKk₀
  obtain rfl := Except.ok.inj (hv.symm.trans (hv'.write_eq hcontext hpos hexactK))
  have hvq₀ := hv'.value_le hk₀ hpos hKk₀
  obtain ⟨worth, hworth, hfin, hfin₀, hle⟩ := exists_mul_of_le hv'.isFinite hk₀.isFinite hprice
    hpricepos.le (hv'.value_pos hpos).le hvq₀ hnotional₀
  refine takes_of_isWritten hlot (hstep ▸ hv') ⟨?_, fun bound hbound => ?_⟩ hworth ?_
    fun most hmax => ?_
  · rw [hmin, hv'.value_eq]
    exact hminK
  · exact hvq₀.trans (hbounds₀.le_max bound hbound)
  · exact hworthEnough K v worth hEK hv' hworth
  · exact lt_eq_false_of_le hfin hfin₀ hle (hmost₀ most hmax)

/-- The largest quantity that is not worth too much is taken, if any quantity is, where it is
computed from the step that it is held against. -/
theorem takes_most {most enough : Decimal} (hlot : (rules.lot market).InContext)
    (hstep : (rules.lot market).step = rules.step) (hprice : price.isFinite = true)
    (hpricepos : 0 < price.value) (hdiscernible : Discernible rules.step price most)
    (hq : rules.quantity market raw = .ok q) {notional : Decimal}
    (hnotional : q.mul price = .ok notional) (hmax : rules.maxNotional = some most)
    (hhigh : most.lt notional = .ok true) (henough : most.div price = .ok enough)
    (hv : floorWritten enough rules.step = .ok v) (hq₀ : rules.Takes market price q₀) :
    rules.Takes market price v := by
  have hpos : 0 < rules.step.value := hstep ▸ lot_step_value_pos hlot
  have hcontext : rules.step.InContext := hstep ▸ hlot.step
  obtain ⟨-, hbounds, k, hk, -, -⟩ := (quantity_eq_ok_iff hlot).1 hq
  obtain ⟨-, hbounds₀, k₀, hk₀, -, -⟩ := (quantity_eq_ok_iff hlot).1 hq₀.1
  obtain ⟨notional₀, hnotional₀, hleast₀, hmost₀⟩ := notionalRejection?_eq_none hq₀.2
  rw [hstep] at hk hk₀
  obtain ⟨x, hx, hwrite⟩ := bind_eq_ok hv
  obtain ⟨F, hexact, hk₀F, hFk, hworthMost⟩ := exists_most hcontext hpos hprice hpricepos
    hdiscernible hk hnotional hhigh hk₀ hnotional₀ (hmost₀ most hmax) henough (liftM_eq_ok hx)
  -- the suggestion lies between the two quantities, so it is written and lies within the bounds
  obtain ⟨v', hv'⟩ := hk.exists_of_le hcontext hpos (hk₀.one_le.trans hk₀F) hFk.le
  obtain rfl := Except.ok.inj (hwrite.symm.trans (hv'.write_eq hcontext hpos hexact))
  have hvq := hv'.value_le hk hpos hFk.le
  have hq₀v := hk₀.value_le hv' hpos hk₀F
  obtain ⟨worth, hworth, hfin, -, -⟩ := exists_mul_of_le hv'.isFinite hk.isFinite hprice
    hpricepos.le (hv'.value_pos hpos).le hvq hnotional
  obtain ⟨worth₀, hworth₀, hfin₀, -, hle⟩ := exists_mul_of_le hk₀.isFinite hv'.isFinite hprice
    hpricepos.le (hk₀.value_pos hpos).le hq₀v hworth
  obtain rfl := Except.ok.inj (hnotional₀.symm.trans hworth₀)
  refine takes_of_isWritten hlot (hstep ▸ hv') ⟨?_, fun bound hbound => ?_⟩ hworth ?_ ?_
  · exact hbounds₀.min_le.trans hq₀v
  · exact hvq.trans (hbounds.le_max bound hbound)
  · exact lt_eq_false_of_ge hfin hfin₀ hle (hleast₀ rfl)
  · intro most' hmax'
    obtain rfl := Option.some.inj (hmax.symm.trans hmax')
    exact hworthMost v worth hv' hworth

end

end TradingRules

end OrderTicket
