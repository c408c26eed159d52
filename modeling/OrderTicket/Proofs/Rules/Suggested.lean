import OrderTicket.Proofs.Rules.Price
import OrderTicket.Proofs.Rules.Refused

/-!
# What a refusal suggests

A quantity or price out of range is refused with a number that is to take its place. For quantities
that is the nearest one that the lot allows. For prices that are too high it is the largest price
allowed. For prices that are too low the least price is cut to the decimals of the tick, which leads
to a price that is allowed only where the least price lies on the grid.

* `Lot.Allows`: the amounts that a lot allows.
* `Lot.exists_greatest`, `Lot.exists_least`: the outermost of them, as they are computed.
* `TradingRules.quantity_suggests`: the suggested quantity is taken, and none is nearer.
* `TradingRules.price_suggests`: when the suggested price is taken.
-/

namespace OrderTicket

open Decimal

/-! ## The nearest member of a set -/

section

variable {s : Set ℚ} {v x a : ℚ}

/-- The least member of a set above a number is the nearest one to it. -/
theorem abs_sub_le_of_isLeast (h : IsLeast s v) (hx : x ≤ v) (ha : a ∈ s) : |v - x| ≤ |a - x| := by
  have hle := h.2 ha
  rw [abs_of_nonneg (by linarith), abs_of_nonneg (by linarith)]
  linarith

/-- The greatest member of a set below a number is the nearest one to it. -/
theorem abs_sub_le_of_isGreatest (h : IsGreatest s v) (hx : v ≤ x) (ha : a ∈ s) :
    |v - x| ≤ |a - x| := by
  have hle := h.2 ha
  rw [abs_of_nonpos (by linarith), abs_of_nonpos (by linarith)]
  linarith

end

/-! ## Multiples of a step -/

namespace Step

variable {value step x r : Decimal} {k : ℕ}

/-- A step that has a count of decimals does not reach above the context. -/
theorem lt_pow_of_places {places : ℕ} (hstep : step.isFinite = true) (hpos : 0 < step.value)
    (h : Step.places step = .ok places) : step.value < 10 ^ (maxExponent + 1) := by
  obtain ⟨y, hy, -⟩ := bind_eq_ok h
  obtain ⟨n, c, e, rfl⟩ := isFinite_iff.1 hstep
  by_contra hle
  have hlarge : overflowThreshold ≤ |(finite n c e).value| := by
    rw [abs_of_pos hpos]
    exact overflowThreshold_le_pow.trans (not_lt.1 hle)
  have hfin : finish n c e = .error .overflow := finish_eq_error_iff.2 ⟨rfl, hlarge⟩
  have hy := liftM_eq_ok hy
  simp [Decimal.normalize, hfin, bind, Except.bind] at hy

/-- Writing a number that is not negative does not increase it. -/
theorem value_le_of_write (hx : x.isFinite = true) (hnonneg : 0 ≤ x.value)
    (h : Step.write x step = .ok r) : r.value ≤ x.value := by
  obtain ⟨places, -, htruncate⟩ := bind_eq_ok h
  obtain ⟨-, -, n, c, rfl, hc⟩ := truncate_ok hx (liftM_eq_ok htruncate)
  have hunit := ten_zpow_pos (-places : ℤ)
  have hcut : ((signed n c : ℤ) : ℚ) ≤ x.value * 10 ^ places :=
    hc ▸ towardZero_le (by positivity)
  calc (finite n c (-places)).value = signed n c * 10 ^ (-places : ℤ) := value_eq_signed n c _
    _ ≤ x.value * 10 ^ places * 10 ^ (-places : ℤ) := mul_le_mul_of_nonneg_right hcut hunit.le
    _ = x.value := by
      rw [mul_assoc, ← zpow_natCast, ← ten_zpow_add, add_neg_cancel, zpow_zero, mul_one]

/-- A quantity whose multiple lies above a written one lies above it itself. -/
theorem lt_of_lt_floor {v : Decimal} (hstep : step.InContext) (hpos : 0 < step.value)
    (hvalue : value.isFinite = true) (hv : IsWritten step k v) (h : Step.floor value step = .ok x)
    (hlt : v.value < x.value) : v.value < value.value := by
  have hround := floor_rounded hstep hpos hvalue h
  rw [hv.value_eq] at hlt ⊢
  by_contra hle
  rw [not_lt, ← div_le_iff₀ hpos] at hle
  -- no more steps than were written are not rounded
  have hsteps : towardZero (value.value / step.value) ≤ k := by
    by_contra hmore
    linarith [add_one_le_of_lt_towardZero (not_le.1 hmore)]
  have hmultiple : (towardZero (value.value / step.value) : ℚ) * step.value ≤ k * step.value :=
    mul_le_mul_of_nonneg_right (by exact_mod_cast hsteps) hpos.le
  exact absurd hlt (not_lt.2 (hround.value_le (hv.representable hstep hpos) hmultiple))

end Step

namespace TradingRules

variable {value step r : Decimal} {k : ℕ}

/-- A finite number that falls short of a bound is not positive, or less than the bound. -/
theorem fallsShort_eq_true {bound : Decimal} (hvalue : value.isFinite = true)
    (hbound : bound.isFinite = true) (h : fallsShort value bound = .ok true) :
    value.value ≤ 0 ∨ value.value < bound.value := by
  obtain ⟨b, hb, h⟩ := bind_eq_ok h
  cases b with
  | true => simpa [le_zero_eq hvalue] using Or.inl hb
  | false => simpa [lt_eq hvalue hbound] using Or.inr h

/-- Only a finite number is moved to the grid and then compared. -/
theorem isFinite_of_fallsShort {side : Option Side} {bound : Decimal} {b : Bool}
    (hstep : step.InContext) (hpos : 0 < step.value)
    (hround : (if side = some .sell then ceilWritten value step else floorWritten value step) =
      .ok r)
    (h : fallsShort r bound = .ok b) : value.isFinite = true := by
  obtain ⟨_, hplace, -⟩ := bind_eq_ok h
  split_ifs at hround
  · exact isFinite_of_ceilWritten hstep hpos hround hplace
  · exact isFinite_of_floorWritten hstep hpos hround hplace

/-- A number that is cut to less than a multiple is less than it. -/
theorem lt_of_floorWritten_lt (hstep : step.InContext) (hpos : 0 < step.value)
    (hvalue : value.isFinite = true) (h : floorWritten value step = .ok r) (hk : 1 ≤ k)
    (hlt : r.value < k * step.value) : value.value < k * step.value := by
  obtain ⟨-, hr⟩ := floorWritten_of_isFinite hstep hpos hvalue h
  rw [hr, mul_lt_mul_iff_left₀ hpos] at hlt
  rw [← div_lt_iff₀ hpos]
  exact (towardZero_lt_iff hk).1 (by exact_mod_cast hlt)

/-- Steps below a number that was rounded downward lie below the number itself. -/
theorem lt_of_lt_floorWritten (hstep : step.InContext) (hpos : 0 < step.value)
    (hvalue : value.isFinite = true) (h : floorWritten value step = .ok r)
    (hlt : k * step.value < r.value) : k * step.value < value.value := by
  obtain ⟨-, hr⟩ := floorWritten_of_isFinite hstep hpos hvalue h
  rw [hr, mul_lt_mul_iff_left₀ hpos] at hlt
  rw [← lt_div_iff₀ hpos]
  linarith [add_one_le_of_lt_towardZero (by exact_mod_cast hlt)]

/-- Moving up does not lead to more steps than the precision has digits for. -/
theorem abs_ceil_lt_of_ceilWritten (hstep : step.InContext) (hpos : 0 < step.value)
    (hvalue : value.isFinite = true) (h : ceilWritten value step = .ok r) :
    |⌈nearest (value.value / step.value)⌉| < 10 ^ precision := by
  obtain ⟨hrfin, hr⟩ := ceilWritten_of_isFinite hstep hpos hvalue h
  have hfew := abs_lt_of_ceilWritten hstep hpos h (le_zero_eq hrfin)
  rw [hr, abs_mul, abs_of_pos hpos, mul_lt_mul_iff_left₀ hpos] at hfew
  exact_mod_cast hfew

/-- A number that is moved up to less than a multiple is less than it. -/
theorem lt_of_ceilWritten_lt (hstep : step.InContext) (hpos : 0 < step.value)
    (hvalue : value.isFinite = true) (h : ceilWritten value step = .ok r)
    (hlt : r.value < k * step.value) : value.value < k * step.value := by
  obtain ⟨-, hr⟩ := ceilWritten_of_isFinite hstep hpos hvalue h
  have hfew := abs_lt.1 (abs_ceil_lt_of_ceilWritten hstep hpos hvalue h)
  rw [hr, mul_lt_mul_iff_left₀ hpos] at hlt
  rw [← div_lt_iff₀ hpos]
  generalize value.value / step.value = q at *
  have hsteps : ⌈nearest q⌉ < k := by exact_mod_cast hlt
  by_contra hle
  -- the next number of steps is representable, so rounding would have kept it
  have hnext : ((⌈nearest q⌉ + 1 : ℤ) : ℚ) ≤ q :=
    le_trans (by exact_mod_cast hsteps) (not_lt.1 hle)
  have hreached := le_ceil_nearest (abs_le.2 ⟨by omega, by omega⟩) hnext
  omega

/-- Steps below a number that was rounded upward lie below the number itself. -/
theorem lt_of_lt_ceilWritten (hstep : step.InContext) (hpos : 0 < step.value)
    (hvalue : value.isFinite = true) (h : ceilWritten value step = .ok r)
    (hlt : k * step.value < r.value) : k * step.value < value.value := by
  obtain ⟨-, hr⟩ := ceilWritten_of_isFinite hstep hpos hvalue h
  have hfew := abs_ceil_lt_of_ceilWritten hstep hpos hvalue h
  rw [hr, mul_lt_mul_iff_left₀ hpos] at hlt
  have hsteps : (k : ℤ) < ⌈nearest (value.value / step.value)⌉ := by exact_mod_cast hlt
  have hk : |(k : ℤ)| ≤ 10 ^ precision := by
    rw [Nat.abs_cast]
    exact (hsteps.trans ((le_abs_self _).trans_lt hfew)).le
  have hbelow := lt_of_lt_ceil_nearest hk hsteps
  exact (lt_div_iff₀ hpos).1 (by exact_mod_cast hbelow)

end TradingRules

/-! ## What a lot allows -/

namespace Lot

/-- An amount that the lot allows: a positive multiple of the step within the bounds. -/
structure Allows (lot : Lot) (amount : ℚ) : Prop where
  /-- There is at least one step. -/
  multiple : ∃ k : ℕ, 1 ≤ k ∧ amount = k * lot.step.value
  /-- The amount lies within the bounds. -/
  bounds : lot.Bounds amount

/-- The least amount lies on the grid, or below its first step. -/
def LeastOnGrid (lot : Lot) : Prop :=
  lot.min.value ≤ lot.step.value ∨ ∃ k : ℤ, lot.min.value = k * lot.step.value

section

variable {lot : Lot} {bound least v : Decimal} {k : ℕ} {a : ℚ}

/-- The largest amount that is allowed is the largest one, cut to the step. -/
theorem exists_greatest (hlot : lot.IsFinite) (hpos : 0 < lot.step.value)
    (hmax : lot.max = some bound) (hv : TradingRules.floorWritten bound lot.step = .ok v)
    (ha : lot.Allows a) :
    ∃ k : ℕ, Step.IsWritten lot.step k v ∧ IsGreatest {a | lot.Allows a} v.value := by
  obtain ⟨⟨j, hj, rfl⟩, hbounds⟩ := ha
  have hbound := hlot.max bound hmax
  have hj' : (j : ℚ) ≤ bound.value / lot.step.value :=
    (le_div_iff₀ hpos).2 (hbounds.le_max bound hmax)
  -- something is allowed, so the largest amount is at least a step
  obtain ⟨hvfin, hvalue⟩ := TradingRules.floorWritten_of_isFinite hlot.step hpos hbound hv
  have hsteps := (le_towardZero_iff hj).2 hj'
  have hvpos : 0 < v.value := by
    rw [hvalue]
    exact mul_pos (by exact_mod_cast (by omega : (0 : ℤ) < _)) hpos
  have hzero : v.le 0 = .ok false := by rw [le_zero_eq hvfin, decide_eq_false (not_le.2 hvpos)]
  obtain ⟨k, hk, -, hlow, hhigh⟩ :=
    TradingRules.isWritten_of_floorWritten hlot.step hpos hv hzero
  have hupper {i : ℕ} (hi : i * lot.step.value ≤ bound.value) :
      i * lot.step.value ≤ v.value := by
    have hlt := hi.trans_lt hhigh
    rw [mul_lt_mul_iff_left₀ hpos] at hlt
    have hik : i ≤ k := Nat.lt_succ_iff.1 (by exact_mod_cast hlt)
    rw [hk.value_eq]
    exact mul_le_mul_of_nonneg_right (by exact_mod_cast hik) hpos.le
  refine ⟨k, hk, ⟨⟨k, hk.one_le, hk.value_eq⟩, ?_, ?_⟩, ?_⟩
  · exact hbounds.min_le.trans (hupper (hbounds.le_max bound hmax))
  · intro bound' hbound'
    obtain rfl := Option.some.inj (hmax.symm.trans hbound')
    exact hk.value_eq.trans_le hlow
  · rintro _ ⟨⟨i, -, rfl⟩, hbounds'⟩
    exact hupper (hbounds'.le_max bound hmax)

/-- A written multiple that is not below the least amount, and not more steps than any other that is
not, is the least one that is allowed. -/
theorem isLeast_of_isWritten (hpos : 0 < lot.step.value) (hk : Step.IsWritten lot.step k v)
    (hmin : lot.min.value ≤ v.value)
    (hle : ∀ j : ℕ, 1 ≤ j → lot.min.value ≤ j * lot.step.value → k ≤ j) (ha : lot.Allows a) :
    IsLeast {a | lot.Allows a} v.value := by
  have hlower {b : ℚ} (hb : lot.Allows b) : v.value ≤ b := by
    obtain ⟨⟨j, hj, rfl⟩, hbounds⟩ := hb
    rw [hk.value_eq]
    exact mul_le_mul_of_nonneg_right (by exact_mod_cast hle j hj hbounds.min_le) hpos.le
  exact ⟨⟨⟨k, hk.one_le, hk.value_eq⟩, hmin,
    fun bound hbound => (hlower ha).trans (ha.bounds.le_max bound hbound)⟩, fun _ hb => hlower hb⟩

/-- The least amount that is allowed is the least one, or a single step if that is more, moved up to
the grid. -/
theorem exists_least (hlot : lot.IsFinite) (hpos : 0 < lot.step.value)
    (haligned : AlignedBelow (10 ^ (precision - 1)) lot.min.value lot.step.value)
    (hleast : Decimal.max lot.min lot.step = .ok least)
    (hv : TradingRules.ceilWritten least lot.step = .ok v) (ha : lot.Allows a) :
    ∃ k : ℕ, Step.IsWritten lot.step k v ∧ IsLeast {a | lot.Allows a} v.value := by
  obtain ⟨hfin, hmem, hvalue⟩ := max_ok hlot.min hlot.step.isFinite hleast
  have hone : ((1 : ℤ) : ℚ) ≤ least.value / lot.step.value := by
    rw [Int.cast_one, one_le_div hpos, hvalue]
    exact le_max_right _ _
  have hceil := le_ceil_nearest (by decide) hone
  obtain ⟨hvfin, hvalue'⟩ := TradingRules.ceilWritten_of_isFinite hlot.step hpos hfin hv
  have hvpos : 0 < v.value := by
    rw [hvalue']
    exact mul_pos (by exact_mod_cast (by omega : (0 : ℤ) < _)) hpos
  have hzero : v.le 0 = .ok false := by rw [le_zero_eq hvfin, decide_eq_false (not_le.2 hvpos)]
  obtain ⟨k, hk, -, hceilk⟩ := TradingRules.isWritten_of_ceilWritten hlot.step hpos hv hzero
  refine ⟨k, hk, isLeast_of_isWritten hpos hk ?_ (fun j hj hmin => ?_) ha⟩
  · -- the ceiling of the rounded quotient is not below the exact one
    rcases hmem with rfl | rfl
    · have hle := haligned.le_ceil_mul hpos hceil
      rwa [hceilk, Int.cast_natCast, ← hk.value_eq] at hle
    · rw [hk.value_eq]
      refine le_trans (hvalue ▸ le_max_left _ _) (le_mul_of_one_le_left hpos.le ?_)
      exact_mod_cast hk.one_le
  · by_contra hlt
    have hfew : |(j : ℤ)| ≤ 10 ^ precision := by
      rw [Nat.abs_cast]
      exact_mod_cast (Nat.lt_of_not_le hlt).le.trans (hk.lt_pow hlot.step hpos).le
    have hbelow := lt_of_lt_ceil_nearest (v := least.value / lot.step.value) hfew (by omega)
    rw [Int.cast_natCast, lt_div_iff₀ hpos, hvalue] at hbelow
    have hj' : lot.step.value ≤ j * lot.step.value :=
      le_mul_of_one_le_left hpos.le (by exact_mod_cast hj)
    exact absurd hbelow (not_lt.2 (max_le hmin hj'))

/-- A least amount that lies on the grid is written as the least one that is allowed. -/
theorem exists_leastOnGrid (hlot : lot.IsFinite) (hpos : 0 < lot.step.value)
    (hgrid : lot.LeastOnGrid) (hleast : Decimal.max lot.min lot.step = .ok least)
    (hv : Step.write least lot.step = .ok v) (ha : lot.Allows a) :
    ∃ k : ℕ, Step.IsWritten lot.step k v ∧ IsLeast {a | lot.Allows a} v.value := by
  obtain ⟨hfin, -, hvalue⟩ := max_ok hlot.min hlot.step.isFinite hleast
  -- the larger one of least quantity and step is a multiple of the step in either case
  obtain ⟨j, hj⟩ : ∃ j : ℤ, least.value = j * lot.step.value := by
    rcases hgrid with hle | ⟨j, hj⟩
    · exact ⟨1, by rw [hvalue, max_eq_right hle, Int.cast_one, one_mul]⟩
    · rcases le_total lot.min.value lot.step.value with hle | hle
      · exact ⟨1, by rw [hvalue, max_eq_right hle, Int.cast_one, one_mul]⟩
      · exact ⟨j, by rw [hvalue, max_eq_left hle, hj]⟩
  have hleastpos : 0 < least.value := hvalue ▸ hpos.trans_le (le_max_right _ _)
  obtain ⟨k, hk, hkvalue⟩ := TradingRules.exists_multiple hpos hj hleastpos
  have hwritten := Step.isWritten_of_write hlot.step hpos hk ⟨hfin, hkvalue⟩ hv
  rw [hkvalue] at hvalue
  refine ⟨k, hwritten, isLeast_of_isWritten hpos hwritten ?_ (fun i hi hmin => ?_) ha⟩
  · rw [hwritten.value_eq, hvalue]
    exact le_max_left _ _
  · have hi' : lot.step.value ≤ i * lot.step.value :=
      le_mul_of_one_le_left hpos.le (by exact_mod_cast hi)
    have hle := hvalue.trans_le (max_le hmin hi')
    rw [mul_le_mul_iff_left₀ hpos] at hle
    exact_mod_cast hle

/-- A number that falls short of the least amount, after it was moved to the step in whichever
direction, lies below every amount that is allowed. -/
theorem Allows.lt_of_fallsShort {raw rounded : Decimal} (ha : lot.Allows a) (side : Option Side)
    (hlot : lot.IsFinite) (hpos : 0 < lot.step.value) (hraw : raw.isFinite = true)
    (hround : (if side = some .sell then TradingRules.ceilWritten raw lot.step else
      TradingRules.floorWritten raw lot.step) = .ok rounded)
    (hshort : TradingRules.fallsShort rounded lot.min = .ok true) : raw.value < a := by
  obtain ⟨⟨j, hj, rfl⟩, hbounds⟩ := ha
  have hbelow (hfin : rounded.isFinite = true) : rounded.value < j * lot.step.value := by
    rcases TradingRules.fallsShort_eq_true hfin hlot.min hshort with hzero | hmin
    · exact hzero.trans_lt (mul_pos (by exact_mod_cast hj) hpos)
    · exact hmin.trans_le hbounds.min_le
  split_ifs at hround with hside
  · have hfin := (TradingRules.ceilWritten_of_isFinite hlot.step hpos hraw hround).1
    exact TradingRules.lt_of_ceilWritten_lt hlot.step hpos hraw hround (hbelow hfin)
  · have hfin := (TradingRules.floorWritten_of_isFinite hlot.step hpos hraw hround).1
    exact TradingRules.lt_of_floorWritten_lt hlot.step hpos hraw hround hj (hbelow hfin)

/-- A number that exceeds the largest amount, after it was moved to the step in whichever direction,
lies above every amount that is allowed. -/
theorem Allows.lt_of_lt_rounded {raw rounded : Decimal} (ha : lot.Allows a) (side : Option Side)
    (hlot : lot.IsFinite) (hpos : 0 < lot.step.value) (hraw : raw.isFinite = true)
    (hmax : lot.max = some bound)
    (hround : (if side = some .sell then TradingRules.ceilWritten raw lot.step else
      TradingRules.floorWritten raw lot.step) = .ok rounded)
    (hlt : bound.lt rounded = .ok true) : a < raw.value := by
  obtain ⟨⟨j, hj, rfl⟩, hbounds⟩ := ha
  have habove (hfin : rounded.isFinite = true) : j * lot.step.value < rounded.value := by
    rw [lt_eq (hlot.max bound hmax) hfin] at hlt
    exact (hbounds.le_max bound hmax).trans_lt (of_decide_eq_true (Except.ok.inj hlt))
  split_ifs at hround with hside
  · have hfin := (TradingRules.ceilWritten_of_isFinite hlot.step hpos hraw hround).1
    exact TradingRules.lt_of_lt_ceilWritten hlot.step hpos hraw hround (habove hfin)
  · have hfin := (TradingRules.floorWritten_of_isFinite hlot.step hpos hraw hround).1
    exact TradingRules.lt_of_lt_floorWritten hlot.step hpos hraw hround (habove hfin)

end

end Lot

/-! ## Suggested quantities and prices -/

namespace TradingRules

section

variable {rules : TradingRules} {market : Bool} {side : Option Side} {raw v : Decimal} {k : ℕ}
  {rejections : List Rejection}

/-- The amounts that prices may have. -/
def prices (rules : TradingRules) : Lot :=
  { step := rules.tick, min := rules.minPrice, max := rules.maxPrice }

/-- A quantity that is allowed and written is taken as it is. -/
theorem quantity_keeps_allowed (hlot : (rules.lot market).IsFinite)
    (hpos : 0 < (rules.lot market).step.value) (hk : Step.IsWritten (rules.lot market).step k v)
    (hv : (rules.lot market).Allows v.value) : rules.quantity market v = .ok v := by
  obtain ⟨places, -, hplaces, -⟩ := hk.digits
  exact quantity_isWritten ⟨hlot, Step.lt_pow_of_places hlot.step.isFinite hpos hplaces⟩ hk
    hv.bounds

/-- A price that is allowed is returned as it is, whichever side it is for. -/
theorem price_keeps_allowed (hprices : rules.prices.IsFinite)
    (hk : Step.IsWritten rules.tick k v) (hv : rules.prices.Allows v.value) (side : Option Side) :
    rules.price side v = .ok v := by
  have hpos := tick_value_pos hprices.step
  refine price_of_isWritten hprices.step hk (fallsShort_of_le hk.isFinite hprices.min
    (hk.value_pos hpos) hv.bounds.min_le) (fun bound hbound => ?_) side
  rw [lt_eq (hprices.max bound hbound) hk.isFinite,
    decide_eq_false (not_lt.2 (hv.bounds.le_max bound hbound))]

/-- A price that is taken as it is, is allowed. -/
theorem allows_of_price_eq_self (hprices : rules.prices.IsFinite) (h : rules.price side v = .ok v) :
    rules.prices.Allows v.value := by
  have hgrid := price_ok hprices.step h
  refine ⟨hgrid.multiple, ?_, fun bound hbound => ?_⟩
  · have hmin := (le_eq hprices.min hgrid.isFinite).symm.trans hgrid.min_le
    exact of_decide_eq_true (Except.ok.inj hmin)
  · have hmax := hgrid.le_max bound hbound
    rw [le_eq hgrid.isFinite (hprices.max bound hbound)] at hmax
    exact of_decide_eq_true (Except.ok.inj hmax)

/-- If the least price, written with the decimals of the tick, is taken as it is, then it lies on
the grid. -/
theorem leastOnGrid_of_price_eq_self (hprices : rules.prices.IsFinite) {least : Decimal}
    (hleast : Decimal.max rules.minPrice rules.tick = .ok least)
    (hv : Step.write least rules.tick = .ok v) (h : rules.price side v = .ok v) :
    rules.prices.LeastOnGrid := by
  have hpos : 0 < rules.prices.step.value := tick_value_pos hprices.step
  obtain ⟨hfin, -, hvalue⟩ := max_ok hprices.min hprices.step.isFinite hleast
  obtain ⟨⟨k, -, hk⟩, hbounds⟩ := allows_of_price_eq_self hprices h
  rcases le_total rules.prices.min.value rules.prices.step.value with hle | hle
  · exact .inl hle
  · -- it was cut to at most the least price, and is not below it
    rw [max_eq_left hle] at hvalue
    have hcut := Step.value_le_of_write hfin (hvalue ▸ hpos.le.trans hle) hv
    exact .inr ⟨k, (le_antisymm (hcut.trans hvalue.le) hbounds.min_le).symm.trans hk⟩

/-- Every refusal of a quantity suggests the nearest one that is allowed, which is taken as it is:
the least one where the raw quantity is too small, the largest one where it is too large. -/
theorem quantity_suggests (hlot : (rules.lot market).IsFinite)
    (haligned : AlignedBelow (10 ^ (precision - 1)) (rules.lot market).min.value
      (rules.lot market).step.value)
    (hraw : raw.isFinite = true) (hallows : ∃ a, (rules.lot market).Allows a)
    (h : rules.quantity market raw = .error (.rejected rejections)) :
    ∃ v, (Suggests rejections .belowMinQuantity v ∧
          IsLeast {a | (rules.lot market).Allows a} v.value ∨
        Suggests rejections .aboveMaxQuantity v ∧
          IsGreatest {a | (rules.lot market).Allows a} v.value) ∧
      rules.quantity market v = .ok v ∧
      ∀ a, (rules.lot market).Allows a → |v.value - raw.value| ≤ |a - raw.value| := by
  have hpos := value_pos_of_le_zero_eq_false hlot.step.isFinite (rules.lot_step_pos market)
  obtain ⟨a, ha⟩ := hallows
  obtain ⟨floored, v, hfloor, ⟨hsuggests, bound, hmax, hlt, hv⟩ |
    ⟨hsuggests, rounded, least, hwrite, hshort, hleast, hv⟩⟩ := quantity_eq_rejected h
  · -- too large: the bound was exceeded before the quantity was written
    obtain ⟨k, hk, hgreatest⟩ := Lot.exists_greatest hlot hpos hmax hv ha
    have hfloored := (Step.floor_rounded hlot.step hpos hraw hfloor).isFinite
    rw [lt_eq (hlot.max bound hmax) hfloored] at hlt
    have habove := (hgreatest.1.bounds.le_max bound hmax).trans_lt
      (of_decide_eq_true (Except.ok.inj hlt))
    have hle := (Step.lt_of_lt_floor hlot.step hpos hraw hk hfloor habove).le
    exact ⟨v, .inr ⟨hsuggests, hgreatest⟩, quantity_keeps_allowed hlot hpos hk hgreatest.1,
      fun a ha => abs_sub_le_of_isGreatest hgreatest hle ha⟩
  · -- too small: what was written falls short of the least quantity
    obtain ⟨k, hk, hleast⟩ := Lot.exists_least hlot hpos haligned hleast hv ha
    have hcut : floorWritten raw (rules.lot market).step = .ok rounded :=
      (liftM_bind_of_eq_ok hfloor).trans hwrite
    have hle := (hleast.1.lt_of_fallsShort none hlot hpos hraw hcut hshort).le
    exact ⟨v, .inl ⟨hsuggests, hleast⟩, quantity_keeps_allowed hlot hpos hk hleast.1,
      fun a ha => abs_sub_le_of_isLeast hleast hle ha⟩

/-- Every refusal of a price suggests a number. Where the price is too high, that is the largest one
that is allowed, which is taken as it is on either side. Where it is too low, the same holds of the
least one if the least price lies on the grid. If it does not, the suggested number is not taken as
it is on any side. -/
theorem price_suggests (hprices : rules.prices.IsFinite) (hallows : ∃ a, rules.prices.Allows a)
    (h : rules.price side raw = .error (.rejected rejections)) :
    ∃ v, Suggests rejections .priceOutOfRange v ∧
      ((∀ a, rules.prices.Allows a → a < raw.value) ∧
          IsGreatest {a | rules.prices.Allows a} v.value ∧
          (∀ side', rules.price side' v = .ok v) ∨
        (∀ a, rules.prices.Allows a → raw.value < a) ∧
          (rules.prices.LeastOnGrid → IsLeast {a | rules.prices.Allows a} v.value ∧
            ∀ side', rules.price side' v = .ok v) ∧
          (¬ rules.prices.LeastOnGrid → ∀ side', rules.price side' v ≠ .ok v)) := by
  have hpos := tick_value_pos hprices.step
  obtain ⟨a, ha⟩ := hallows
  obtain ⟨rounded, v, hround, hsuggests, hcases⟩ := price_eq_rejected h
  refine ⟨v, hsuggests, ?_⟩
  obtain ⟨hshort, least, hleast, hv⟩ | ⟨hshort, bound, hmax, hlt, hv⟩ := hcases
  -- a price that is too low: the least one is written, not moved, so it may lie off the grid
  · right
    have hraw := isFinite_of_fallsShort hprices.step hpos hround hshort
    refine ⟨fun b hb => hb.lt_of_fallsShort side hprices hpos hraw hround hshort, fun hgrid => ?_,
      fun hgrid side' hkept => hgrid ?_⟩
    · obtain ⟨k, hk, hleast⟩ := Lot.exists_leastOnGrid hprices hpos hgrid hleast hv ha
      exact ⟨hleast, price_keeps_allowed hprices hk hleast.1⟩
    · exact leastOnGrid_of_price_eq_self hprices hleast hv hkept
  · left
    have hraw := isFinite_of_fallsShort hprices.step hpos hround hshort
    obtain ⟨k, hk, hgreatest⟩ := Lot.exists_greatest hprices hpos hmax hv ha
    have habove := hgreatest.1.lt_of_lt_rounded side hprices hpos hraw hmax hround hlt
    exact ⟨fun b hb => (hgreatest.2 hb).trans_lt habove, hgreatest,
      price_keeps_allowed hprices hk hgreatest.1⟩

end

namespace Sample

theorem rules_lot_isFinite : (rules.lot false).IsFinite :=
  ⟨rules_lot.step, rules_lot.min, rules_lot.max⟩

theorem rules_prices_isFinite : rules.prices.IsFinite where
  step := inContext_finite (by decide) (by decide)
  min := rfl
  max := by rintro _ ⟨⟩

/-- A market whose step of quantities lies below the context. -/
def tinyRules : TradingRules where
  symbol := .name "BTCUSDT"
  step := .finite false 1 (-1000027)
  tick := 0.5
  step_pos := rfl
  tick_pos := rfl
  marketStep_pos := isPositive_of_none

/-- A market whose least price is no multiple of the tick. -/
def offGridRules : TradingRules where
  symbol := .name "BTCUSDT"
  step := 0.5
  tick := 0.5
  minPrice := 5.3
  step_pos := rfl
  tick_pos := rfl
  marketStep_pos := isPositive_of_none

end Sample

/-- A quantity that the sample market refuses is sent to the least one that it allows. -/
theorem quantity_suggests_sample : ∃ rejections v,
    Sample.rules.quantity false 0.02 = .error (.rejected rejections) ∧
      Suggests rejections .belowMinQuantity v ∧
      IsLeast {a | (Sample.rules.lot false).Allows a} v.value ∧
      Sample.rules.quantity false v = .ok v := by
  have hstep : (Sample.rules.lot false).step.value = 25 * 10 ^ (-3 : ℤ) := value_positive 25 (-3)
  have hmin : (Sample.rules.lot false).min.value = 3 * 10 ^ (-2 : ℤ) := value_positive 3 (-2)
  have haligned : AlignedBelow (10 ^ (precision - 1)) (Sample.rules.lot false).min.value
      (Sample.rules.lot false).step.value :=
    ⟨30, 25, -3, by rw [hmin]; norm_num, by rw [hstep]; norm_num, by decide⟩
  have hallows : (Sample.rules.lot false).Allows (2 * (Sample.rules.lot false).step.value) := by
    refine ⟨⟨2, by decide, by norm_num⟩, by rw [hmin, hstep]; norm_num, ?_⟩
    rintro _ ⟨⟩
    rw [hstep, value_ofNat]
    norm_num
  have hrun : ∃ rejections, Sample.rules.quantity false 0.02 = .error (.rejected rejections) ∧
      Suggests rejections .belowMinQuantity 0.050 := ⟨_, rfl, _, rfl⟩
  obtain ⟨rejections, hrun, hbelow⟩ := hrun
  obtain ⟨v, ⟨hsuggests, hleast⟩ | ⟨hsuggests, -⟩, hkept, -⟩ :=
    quantity_suggests Sample.rules_lot_isFinite haligned rfl ⟨_, hallows⟩ hrun
  · exact ⟨rejections, v, hrun, hsuggests, hleast, hkept⟩
  · exact nomatch (hbelow.unique hsuggests).1

/-- A step that the context does not hold is taken for zero where a quantity is written, so that
zero is suggested. -/
theorem not_suggests_tiny : ∃ rejections,
    Sample.tinyRules.quantity false 0 = .error (.rejected rejections) ∧
      Suggests rejections .belowMinQuantity 0 ∧
      AlignedBelow (10 ^ (precision - 1)) (Sample.tinyRules.lot false).min.value
        (Sample.tinyRules.lot false).step.value ∧
      (Sample.tinyRules.lot false).Allows (Sample.tinyRules.lot false).step.value ∧
      ¬ (Sample.tinyRules.lot false).Allows (value 0) := by
  have hstep : (Sample.tinyRules.lot false).step.value = 1 * 10 ^ (-1000027 : ℤ) :=
    value_positive 1 (-1000027)
  have hunit := ten_zpow_pos (-1000027)
  have hmin : (Sample.tinyRules.lot false).min.value = 0 := value_ofNat 0
  refine ⟨_, rfl, ⟨_, rfl⟩, ⟨0, 1, -1000027, ?_, ?_, by decide⟩, ⟨⟨1, le_rfl, ?_⟩, ?_, ?_⟩, ?_⟩
  · rw [hmin, Int.cast_zero, zero_mul]
  · rw [hstep, Int.cast_one]
  · rw [Nat.cast_one, one_mul]
  · rw [hmin, hstep, one_mul]
    exact hunit.le
  · rintro _ ⟨⟩
  · rintro ⟨⟨k, hk, hzero⟩, -⟩
    have hk' : (1 : ℚ) ≤ k := by exact_mod_cast hk
    rw [hstep, one_mul, value_ofNat, Nat.cast_zero] at hzero
    exact absurd hzero (mul_pos (by linarith) hunit).ne

/-- A price that the sample market refuses is sent to the least one that it allows. -/
theorem price_suggests_sample : ∃ rejections v,
    Sample.rules.price none 3 = .error (.rejected rejections) ∧
      Suggests rejections .priceOutOfRange v ∧
      IsLeast {a | Sample.rules.prices.Allows a} v.value ∧
      Sample.rules.price (some .sell) v = .ok v := by
  have htick : Sample.rules.prices.step.value = 25 * 10 ^ (-1 : ℤ) := value_positive 25 (-1)
  have hmin : Sample.rules.prices.min.value = 5 := value_ofNat 5
  have hallows : Sample.rules.prices.Allows (2 * Sample.rules.prices.step.value) := by
    refine ⟨⟨2, by decide, by norm_num⟩, by rw [hmin, htick]; norm_num, ?_⟩
    rintro _ ⟨⟩
  have hgrid : Sample.rules.prices.LeastOnGrid := .inr ⟨2, by rw [hmin, htick]; norm_num⟩
  have hrun : ∃ rejections, Sample.rules.price none 3 = .error (.rejected rejections) := ⟨_, rfl⟩
  obtain ⟨rejections, hrun⟩ := hrun
  obtain ⟨v, hsuggests, ⟨habove, -⟩ | ⟨-, hgridded, -⟩⟩ :=
    price_suggests Sample.rules_prices_isFinite ⟨_, hallows⟩ hrun
  · have hlt := habove _ hallows
    rw [htick, value_ofNat] at hlt
    norm_num at hlt
  · exact ⟨rejections, v, hrun, hsuggests, (hgridded hgrid).1, (hgridded hgrid).2 (some .sell)⟩

/-- The suggested price is refused for a buy and moved for a sell, although another one is
allowed. -/
theorem not_suggests_offGrid : ∃ rejections,
    Sample.offGridRules.price none 4 = .error (.rejected rejections) ∧
      Suggests rejections .priceOutOfRange 5.3 ∧
      IsLeast {a | Sample.offGridRules.prices.Allows a} (value 5.5) ∧
      (∀ p, Sample.offGridRules.price none 5.3 ≠ .ok p) ∧
      Sample.offGridRules.price (some .sell) 5.3 = .ok 5.5 := by
  have htick : Sample.offGridRules.prices.step.value = 5 * 10 ^ (-1 : ℤ) := value_positive 5 (-1)
  have hmin : Sample.offGridRules.prices.min.value = 53 * 10 ^ (-1 : ℤ) := value_positive 53 (-1)
  have hvalue : value 5.5 = 55 * 10 ^ (-1 : ℤ) := value_positive 55 (-1)
  refine ⟨_, rfl, ⟨_, rfl⟩, ⟨⟨⟨11, by decide, ?_⟩, ?_, ?_⟩, ?_⟩, by rintro _ ⟨⟩, rfl⟩
  · rw [htick, hvalue]
    norm_num
  · rw [hmin, hvalue]
    norm_num
  · rintro _ ⟨⟩
  · rintro _ ⟨⟨k, -, rfl⟩, hlow, -⟩
    -- ten ticks are less than the least price
    rw [htick, hmin] at hlow
    have hk : (10 : ℚ) < k := by norm_num at hlow; linarith
    have hk' : (11 : ℚ) ≤ k := by exact_mod_cast hk
    rw [htick, hvalue]
    norm_num
    linarith

end TradingRules

end OrderTicket
