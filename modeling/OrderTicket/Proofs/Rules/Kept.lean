import OrderTicket.Proofs.Decimal.Alike
import OrderTicket.Proofs.Rules.Grid

/-!
# Numbers that the grid keeps

A positive number of steps that fits into the precision with the decimals of the step is a number
that a market returns. This module says which numbers these are, that either direction of rounding
leads to one of them or to nothing, and that both keep it. Downward the quotient by the step is
exact; upward it is rounded to nearest before its ceiling is taken.

* `Step.IsWritten`: so many steps, as they are written.
* `Step.exists_places`, `Step.exists_isWritten`: a step that the context holds has a count of
  decimals, and a multiple that fits is written.
* `TradingRules.isWritten_of_floorWritten`, `TradingRules.isWritten_of_ceilWritten`: what rounding
  returns.
* `TradingRules.floorWritten_eq`, `TradingRules.ceilWritten_eq`: when it returns a given multiple.
-/

namespace OrderTicket

open Decimal

/-! ## Integer parts -/

namespace Decimal

variable {v : ℚ}

theorem value_positive (c : ℕ) (e : ℤ) : (finite false c e).value = c * 10 ^ e :=
  rfl

/-- The integer part reaches the positive integers that the value reaches. -/
theorem le_towardZero_iff {k : ℕ} (hk : 1 ≤ k) : (k : ℤ) ≤ towardZero v ↔ (k : ℚ) ≤ v := by
  have hone : (1 : ℚ) ≤ k := by exact_mod_cast hk
  by_cases hv : 0 ≤ v
  · rw [towardZero, if_pos hv, Int.le_floor, Int.cast_natCast]
  · -- a negative value has no positive integer part
    rw [towardZero, if_neg hv]
    constructor
    · intro h
      have hceil : ⌈v⌉ ≤ 0 := Int.ceil_le.2 (by push_cast; linarith)
      omega
    · intro h
      linarith

/-- What is cut to more than a natural number is greater than it by one at least. -/
theorem add_one_le_of_lt_towardZero {k : ℕ} (h : (k : ℤ) < towardZero v) : (k : ℚ) + 1 ≤ v := by
  exact_mod_cast (le_towardZero_iff (by omega : 1 ≤ k + 1)).1 (by exact_mod_cast h)

/-- What is cut to less than a positive number is less than it. -/
theorem towardZero_lt_iff {k : ℕ} (hk : 1 ≤ k) : towardZero v < k ↔ v < k := by
  rw [← not_le, le_towardZero_iff hk, not_le]

/-- What is cut to a positive number lies between it and the next one. -/
theorem towardZero_eq_iff {k : ℕ} (hk : 1 ≤ k) : towardZero v = k ↔ (k : ℚ) ≤ v ∧ v < k + 1 := by
  rw [← le_towardZero_iff hk, ← Nat.cast_succ, ← towardZero_lt_iff (by omega : 1 ≤ k.succ)]
  omega

/-- The ceiling of a rounded value lies above no smaller integer than the value. -/
theorem lt_of_lt_ceil_nearest {j : ℤ} (hj : |j| ≤ 10 ^ precision) (h : j < ⌈nearest v⌉) :
    (j : ℚ) < v := by
  by_contra hle
  have hnearest := nearest_mono (not_lt.1 hle)
  rw [nearest_of_representable (representable_intCast hj)] at hnearest
  exact absurd h (not_lt.2 (Int.ceil_le.2 hnearest))

/-- To round a number does not bring its ceiling below an integer that the number reaches. -/
theorem le_ceil_nearest {j : ℤ} (hj : |j| ≤ 10 ^ precision) (h : (j : ℚ) ≤ v) :
    j ≤ ⌈nearest v⌉ := by
  have hnearest := nearest_mono h
  rw [nearest_of_representable (representable_intCast hj)] at hnearest
  exact_mod_cast hnearest.trans (Int.le_ceil _)

/-- Representable values that are not beyond the largest exponent are not too large. -/
theorem Representable.lt_overflowThreshold (h : Representable v)
    (hlt : v < 10 ^ (maxExponent + 1)) :
    v < overflowThreshold := by
  by_contra hle
  have hpos := ten_zpow_pos (maxExponent + 1 - precision)
  have hpow : (10 : ℚ) ^ (maxExponent + 1) =
      10 ^ precision * 10 ^ (maxExponent + 1 - precision) := by
    rw [← zpow_natCast, ← ten_zpow_add]
    rfl
  have hlow : (10 : ℚ) ^ ((precision : ℤ) - 1 + (maxExponent + 1 - precision)) ≤ |v| := by
    refine (le_trans ?_ (not_lt.1 hle)).trans (le_abs_self v)
    exact le_trans (le_of_eq (by congr 1)) pow_maxExponent_le_overflowThreshold
  -- so many digits make it a multiple of the last unit, and the largest one is all nines
  obtain ⟨k, rfl⟩ := h.eq_mul_unit (.inl hlow)
  rw [hpow, mul_lt_mul_iff_left₀ hpos] at hlt
  rw [overflowThreshold, not_lt, mul_le_mul_iff_left₀ hpos] at hle
  have hk : k < 10 ^ precision := by exact_mod_cast hlt
  have hk' : (k : ℚ) ≤ 10 ^ precision - 1 := by exact_mod_cast Int.le_sub_one_of_lt hk
  linarith

end Decimal

namespace Step

variable {value step x r : Decimal} {k : ℕ}

/-! ## Multiples as they are written -/

/-- `r` is `k` steps, written with the decimals of the step. -/
structure IsWritten (step : Decimal) (k : ℕ) (r : Decimal) : Prop where
  /-- There is at least one step. -/
  one_le : 1 ≤ k
  /-- The number is that multiple of the step. -/
  value_eq : r.value = k * step.value
  /-- It has as many decimals as the step, and its digits fit into the precision. -/
  digits : ∃ (places c : ℕ), Step.places step = .ok places ∧ c < 10 ^ precision ∧
    r = finite false c (-places)

/-- A step within the exponents of the context has a count of decimals. -/
theorem exists_places (hstep : step.InContext) (hpos : 0 < step.value)
    (hlt : step.value < 10 ^ (maxExponent + 1)) : ∃ places, Step.places step = .ok places := by
  have hbelow := hstep.representable.lt_overflowThreshold hlt
  have hnormal : ∃ y, step.normalize = .ok y := by
    obtain ⟨n, c, e, rfl⟩ := isFinite_iff.1 hstep.isFinite
    cases hfin : finish n c e with
    | error fault =>
      have hlarge := (finish_eq_error_iff.1 hfin).2
      rw [abs_of_pos hpos] at hlarge
      exact absurd hlarge (not_le.2 hbelow)
    | ok y => exact exists_normalize_of_finish hfin
  obtain ⟨y, hy⟩ := hnormal
  obtain ⟨-, n, c, e, rfl, -⟩ := normalize_ok hstep.isFinite hy
  refine ⟨(-e).toNat, ?_⟩
  simp only [places, hy]
  rfl

/-- A multiple of the step that fits into the precision with the decimals of the step is written. -/
theorem exists_isWritten {places : ℕ} (hstep : step.InContext) (hpos : 0 < step.value)
    (hplaces : Step.places step = .ok places) (hk : 1 ≤ k)
    (hfits : k * step.value < 10 ^ ((precision : ℤ) - places)) : ∃ r, IsWritten step k r := by
  obtain ⟨-, m, hm, -⟩ := places_ok hstep hpos hplaces
  have hunit := ten_zpow_pos (-places : ℤ)
  have hvalue : (finite false (k * m) (-places)).value = k * step.value := by
    rw [value_positive, hm]
    push_cast
    ring
  refine ⟨finite false (k * m) (-places), hk, hvalue, places, k * m, hplaces, ?_, rfl⟩
  rw [← hvalue, value_positive, sub_eq_add_neg, ten_zpow_add, zpow_natCast,
    mul_lt_mul_iff_left₀ hunit] at hfits
  exact_mod_cast hfits

namespace IsWritten

theorem isFinite (h : IsWritten step k r) : r.isFinite = true := by
  obtain ⟨places, c, -, -, rfl⟩ := h.digits
  rfl

theorem value_pos (h : IsWritten step k r) (hpos : 0 < step.value) : 0 < r.value := by
  have hone : (1 : ℚ) ≤ k := by exact_mod_cast h.one_le
  rw [h.value_eq]
  exact mul_pos (by linarith) hpos

/-- More steps are no less. -/
theorem value_le {j : ℕ} {r' : Decimal} (h : IsWritten step k r) (h' : IsWritten step j r')
    (hpos : 0 < step.value) (hle : k ≤ j) : r.value ≤ r'.value := by
  rw [h.value_eq, h'.value_eq]
  exact mul_le_mul_of_nonneg_right (by exact_mod_cast hle) hpos.le

/-- The digits of a written number are those of its step, taken as often as there are steps. -/
theorem exists_digits (h : IsWritten step k r) (hstep : step.InContext) (hpos : 0 < step.value) :
    ∃ places m : ℕ, Step.places step = .ok places ∧ (places : ℤ) ≤ -tinyExponent ∧ 1 ≤ m ∧
      step.value = m * 10 ^ (-places : ℤ) ∧ k * m < 10 ^ precision ∧
      r = finite false (k * m) (-places) := by
  obtain ⟨places, c, hplaces, hc, rfl⟩ := h.digits
  obtain ⟨htiny, m, hm, -⟩ := places_ok hstep hpos hplaces
  have hunit := ten_zpow_pos (-places : ℤ)
  have hm₀ : m ≠ 0 := by
    rintro rfl
    simp [hm] at hpos
  have hvalue := h.value_eq
  rw [value_positive, hm, ← mul_assoc] at hvalue
  obtain rfl : c = k * m := by exact_mod_cast mul_right_cancel₀ hunit.ne' hvalue
  exact ⟨places, m, hplaces, htiny, Nat.one_le_iff_ne_zero.2 hm₀, hm, hc, rfl⟩

/-- A written number can be held, also with fewer steps. -/
theorem representable_of_le (h : IsWritten step k r) (hstep : step.InContext)
    (hpos : 0 < step.value) {j : ℕ} (hj : j ≤ k) : Representable (j * step.value) := by
  obtain ⟨places, m, -, htiny, -, hm, hfits, -⟩ := h.exists_digits hstep hpos
  have hle : j * m ≤ 10 ^ precision := (Nat.mul_le_mul_right m hj).trans hfits.le
  have hrep : Representable (((j * m : ℕ) : ℤ) * 10 ^ (-places : ℤ)) := by
    refine Decimal.representable_of_le ?_ (by omega)
    rw [Nat.abs_cast]
    exact_mod_cast hle
  rw [hm, ← mul_assoc]
  exact_mod_cast hrep

/-- The multiple of the step that a written number stands for can be held. -/
theorem representable (h : IsWritten step k r) (hstep : step.InContext) (hpos : 0 < step.value) :
    Representable (k * step.value) :=
  h.representable_of_le hstep hpos le_rfl

/-- A written number has no more steps than the precision has digits for. -/
theorem lt_pow (h : IsWritten step k r) (hstep : step.InContext) (hpos : 0 < step.value) :
    k < 10 ^ precision := by
  obtain ⟨places, m, -, -, hm₀, -, hfits, -⟩ := h.exists_digits hstep hpos
  exact (Nat.le_mul_of_pos_right k hm₀).trans_lt hfits

/-- A written number is less than so many units of the last decimal as the precision has digits
for. -/
theorem abs_lt (h : IsWritten step k r) (hpos : 0 < step.value) {places : ℕ}
    (hplaces : Step.places step = .ok places) :
    |k * step.value| < 10 ^ ((precision : ℤ) - places) := by
  have hrpos := h.value_pos hpos
  obtain ⟨places', c, hplaces', hc, rfl⟩ := h.digits
  obtain rfl := Except.ok.inj (hplaces.symm.trans hplaces')
  rw [← h.value_eq, abs_of_pos hrpos, value_positive, sub_eq_add_neg, ten_zpow_add, zpow_natCast]
  refine mul_lt_mul_of_pos_right ?_ (ten_zpow_pos _)
  exact_mod_cast hc

/-- A written number is far from the largest number of the context. -/
theorem abs_lt_maxExponent (h : IsWritten step k r) (hpos : 0 < step.value) :
    |k * step.value| < 10 ^ maxExponent := by
  obtain ⟨places, -, hplaces, -⟩ := h.digits
  refine (h.abs_lt hpos hplaces).trans_le (zpow_le_zpow_right₀ (by norm_num) ?_)
  have hp : precision = 28 := rfl
  have hm : maxExponent = 999999 := rfl
  omega

/-- A smaller number of steps can be written if a larger one can. -/
theorem exists_of_le (h : IsWritten step k r) (hstep : step.InContext) (hpos : 0 < step.value)
    {j : ℕ} (hj : 1 ≤ j) (hle : j ≤ k) : ∃ r', IsWritten step j r' := by
  obtain ⟨places, -, hplaces, -⟩ := h.digits
  refine exists_isWritten hstep hpos hplaces hj ?_
  calc j * step.value ≤ k * step.value :=
        mul_le_mul_of_nonneg_right (by exact_mod_cast hle) hpos.le
    _ ≤ |k * step.value| := le_abs_self _
    _ < 10 ^ ((precision : ℤ) - places) := h.abs_lt hpos hplaces

/-! ## Rounding that leads to a multiple -/

/-- A number of the value of a written multiple is written as that multiple. -/
theorem write_eq (h : IsWritten step k r) (hstep : step.InContext) (hpos : 0 < step.value)
    (hx : Exactly (k * step.value) x) : Step.write x step = .ok r := by
  have hxpos : 0 < x.value := by
    rw [hx.value_eq, ← h.value_eq]
    exact h.value_pos hpos
  obtain ⟨places, m, hplaces, htiny, -, hm, -, rfl⟩ := h.exists_digits hstep hpos
  have hlt := h.abs_lt hpos hplaces
  rw [← hx.value_eq] at hlt
  obtain ⟨y, hy⟩ := exists_truncate hx.isFinite htiny hlt
  obtain ⟨-, -, n, c, rfl, hc⟩ := truncate_ok hx.isFinite hy
  -- in units of the last decimal the number is an integer, which gives digits and sign
  have hint : x.value * 10 ^ places = ((k * m : ℕ) : ℤ) := by
    rw [hx.value_eq, hm, ← mul_assoc, mul_assoc, ← zpow_natCast, ← ten_zpow_add, neg_add_cancel,
      zpow_zero, mul_one]
    push_cast
    rfl
  rw [hint, towardZero_intCast] at hc
  have hcpos : 0 < k * m := by
    have hscaled : 0 < x.value * 10 ^ places := by positivity
    rw [hint] at hscaled
    exact_mod_cast hscaled
  obtain ⟨rfl, rfl⟩ : n = false ∧ c = k * m := by
    cases n with
    | false => exact ⟨rfl, Int.natCast_inj.1 hc⟩
    | true =>
      simp only [signed, if_true] at hc
      omega
  simp only [Step.write, hplaces]
  exact congrArg (Except.mapError _) hy

/-- The steps below a value, which is less than one more step. -/
theorem floor_returns (h : IsWritten step k r) (hstep : step.InContext) (hpos : 0 < step.value)
    (hvalue : value.isFinite = true) (hlow : k * step.value ≤ value.value)
    (hhigh : value.value < (k + 1) * step.value) :
    Returns (Step.floor value step) (Exactly (k * step.value)) := by
  rw [← le_div_iff₀ hpos] at hlow
  rw [← div_lt_iff₀ hpos] at hhigh
  have hk : (k : ℚ) + 1 ≤ 10 ^ precision := by exact_mod_cast h.lt_pow hstep hpos
  have hsmall : |value.value / step.value| < 10 ^ precision := by
    rw [abs_of_nonneg ((Nat.cast_nonneg k).trans hlow)]
    exact hhigh.trans_le hk
  obtain ⟨q, hq⟩ := exists_divTrunc hvalue hstep.isFinite hpos.ne' hsmall
  obtain ⟨-, hqfin, hqvalue⟩ := divTrunc_ok hvalue hstep.isFinite hpos.ne' hq
  rw [(towardZero_eq_iff h.one_le).2 ⟨hlow, hhigh⟩, Int.cast_natCast] at hqvalue
  refine .bind ⟨q, hq, rfl⟩ fun q' (hq' : q = q') => ?_
  subst hq'
  -- the product with the step needs no rounding
  have hproduct := mul_computes hqfin hstep.isFinite
  rw [hqvalue] at hproduct
  exact hproduct.returns_exactly (h.representable hstep hpos) (h.abs_lt_maxExponent hpos)

/-- A quotient whose rounded value has such a ceiling lies between zero and the largest integer of
the precision. -/
theorem quotient_between (h : IsWritten step k r) (hstep : step.InContext) (hpos : 0 < step.value)
    {v : ℚ} (hceil : ⌈nearest v⌉ = k) : 0 < v ∧ v < 10 ^ precision := by
  have hone := h.one_le
  have hk := h.lt_pow hstep hpos
  have hlow := lt_of_lt_ceil_nearest (v := v) (j := 0) (by simp) (by omega)
  refine ⟨by exact_mod_cast hlow, lt_of_not_ge fun hle => ?_⟩
  have hlarge := le_ceil_nearest (j := 10 ^ precision) (by decide) (by exact_mod_cast hle)
  have hint : (10 ^ precision : ℕ) ≤ k := by exact_mod_cast hceil ▸ hlarge
  omega

/-- The steps above a value, counted after the quotient was rounded. -/
theorem ceil_returns (h : IsWritten step k r) (hstep : step.InContext) (hpos : 0 < step.value)
    (hvalue : value.isFinite = true) (hceil : ⌈nearest (value.value / step.value)⌉ = k) :
    Returns (Step.ceil value step) (Exactly (k * step.value)) := by
  have hdiv := div_computes hvalue hstep.isFinite hpos.ne'
  obtain ⟨hlow, hhigh⟩ := h.quotient_between hstep hpos hceil
  have hsmall : |value.value / step.value| < 10 ^ maxExponent := by
    rw [abs_of_pos hlow, ← zpow_natCast] at *
    exact hhigh.trans (zpow_lt_zpow_right₀ (by norm_num) (by decide))
  obtain ⟨q, hq, hround⟩ := hdiv.exists_ok hsmall
  obtain ⟨i, hi, hifin, hivalue⟩ := toIntegral_ceiling hround.isFinite
  rw [hdiv.value_eq hq, hceil, Int.cast_natCast] at hivalue
  refine .bind ⟨q, hq, rfl⟩ fun q' (hq' : q = q') => ?_
  subst hq'
  refine .bind ⟨i, hi, rfl⟩ fun i' (hi' : i = i') => ?_
  subst hi'
  have hproduct := mul_computes hifin hstep.isFinite
  rw [hivalue] at hproduct
  exact hproduct.returns_exactly (h.representable hstep hpos) (h.abs_lt_maxExponent hpos)

end IsWritten

/-! ## What rounding leads to -/

/-- A multiple that could be written has few enough digits. -/
theorem isWritten_of_write (hstep : step.InContext) (hpos : 0 < step.value) (hk : 1 ≤ k)
    (hx : Exactly (k * step.value) x) (h : Step.write x step = .ok r) : IsWritten step k r := by
  obtain ⟨places, hplaces, htruncate⟩ := bind_eq_ok h
  obtain ⟨-, hlt, -⟩ := truncate_ok hx.isFinite (liftM_eq_ok htruncate)
  rw [hx.value_eq] at hlt
  obtain ⟨r', hr'⟩ := exists_isWritten hstep hpos hplaces hk ((le_abs_self _).trans_lt hlt)
  -- the multiple is written in one way only
  obtain rfl := Except.ok.inj (h.symm.trans (hr'.write_eq hstep hpos hx))
  exact hr'

/-- What is written of a rounded multiple is that multiple, if it is positive. -/
theorem exists_isWritten_of_write {j : ℤ} (hstep : step.InContext) (hpos : 0 < step.value)
    (hround : Rounded (j * step.value) x) (h : Step.write x step = .ok r) (hr : 0 < r.value) :
    ∃ k : ℕ, (k : ℤ) = j ∧ IsWritten step k r := by
  obtain ⟨hx, -, hvalue⟩ := write_ok hstep hpos hround h
  rw [hvalue] at hr
  have hj : (0 : ℚ) < j := pos_of_mul_pos_left hr hpos.le
  have hj' : 0 < j := by exact_mod_cast hj
  obtain ⟨k, rfl⟩ := Int.eq_ofNat_of_zero_le hj'.le
  rw [Int.cast_natCast] at hx
  exact ⟨k, rfl, isWritten_of_write hstep hpos (by omega) ⟨hround.isFinite, hx⟩ h⟩

end Step

namespace TradingRules

variable {value step r : Decimal} {k : ℕ}

/-- Cutting leads to the multiple below the value, as it is written. -/
theorem isWritten_of_floorWritten (hstep : step.InContext) (hpos : 0 < step.value)
    (h : floorWritten value step = .ok r) (hzero : r.le 0 = .ok false) :
    ∃ k : ℕ, Step.IsWritten step k r ∧ value.isFinite = true ∧ k * step.value ≤ value.value ∧
      value.value < (k + 1) * step.value := by
  obtain ⟨x, hx, hwrite⟩ := bind_eq_ok h
  have hfin := Step.isFinite_of_write hwrite hzero
  obtain ⟨hvalue, hround⟩ := Step.floor_ok hstep hpos (liftM_eq_ok hx) hfin
  obtain ⟨-, hrfin, -⟩ := Step.write_ok hstep hpos hround hwrite
  have hrpos := value_pos_of_le_zero_eq_false hrfin hzero
  obtain ⟨k, hk, hwritten⟩ := Step.exists_isWritten_of_write hstep hpos hround hwrite hrpos
  obtain ⟨hlow, hhigh⟩ := (towardZero_eq_iff hwritten.one_le).1 hk.symm
  exact ⟨k, hwritten, hvalue, (le_div_iff₀ hpos).1 hlow, (div_lt_iff₀ hpos).1 hhigh⟩

/-- Moving up leads to the multiple above the rounded quotient, as it is written. -/
theorem isWritten_of_ceilWritten (hstep : step.InContext) (hpos : 0 < step.value)
    (h : ceilWritten value step = .ok r) (hzero : r.le 0 = .ok false) :
    ∃ k : ℕ, Step.IsWritten step k r ∧ value.isFinite = true ∧
      ⌈nearest (value.value / step.value)⌉ = k := by
  obtain ⟨x, hx, hwrite⟩ := bind_eq_ok h
  have hfin := Step.isFinite_of_write hwrite hzero
  obtain ⟨hvalue, q, -, hq, hround⟩ := Step.ceil_ok hstep hpos (liftM_eq_ok hx) hfin
  obtain ⟨-, hrfin, -⟩ := Step.write_ok hstep hpos hround hwrite
  have hrpos := value_pos_of_le_zero_eq_false hrfin hzero
  obtain ⟨k, hk, hwritten⟩ := Step.exists_isWritten_of_write hstep hpos hround hwrite hrpos
  exact ⟨k, hwritten, hvalue, hq ▸ hk.symm⟩

/-- Cutting returns the multiple below the value. -/
theorem floorWritten_eq (h : Step.IsWritten step k r) (hstep : step.InContext)
    (hpos : 0 < step.value) (hvalue : value.isFinite = true) (hlow : k * step.value ≤ value.value)
    (hhigh : value.value < (k + 1) * step.value) : floorWritten value step = .ok r := by
  obtain ⟨x, hx, hexact⟩ := h.floor_returns hstep hpos hvalue hlow hhigh
  simp only [floorWritten, hx]
  exact h.write_eq hstep hpos hexact

/-- Moving up returns the multiple above the rounded quotient. -/
theorem ceilWritten_eq (h : Step.IsWritten step k r) (hstep : step.InContext)
    (hpos : 0 < step.value) (hvalue : value.isFinite = true)
    (hceil : ⌈nearest (value.value / step.value)⌉ = k) : ceilWritten value step = .ok r := by
  obtain ⟨x, hx, hexact⟩ := h.ceil_returns hstep hpos hvalue hceil
  simp only [ceilWritten, hx]
  exact h.write_eq hstep hpos hexact

/-- A number that is written is not moved when it is cut. -/
theorem floorWritten_isWritten (h : Step.IsWritten step k r) (hstep : step.InContext)
    (hpos : 0 < step.value) : floorWritten r step = .ok r := by
  refine floorWritten_eq h hstep hpos h.isFinite h.value_eq.ge ?_
  rw [h.value_eq, mul_lt_mul_iff_left₀ hpos]
  exact lt_add_one _

/-- To round a written number upward does not move it. -/
theorem ceilWritten_isWritten (h : Step.IsWritten step k r) (hstep : step.InContext)
    (hpos : 0 < step.value) : ceilWritten r step = .ok r := by
  have hk : |(k : ℤ)| ≤ 10 ^ precision := by
    rw [Nat.abs_cast]
    exact_mod_cast (h.lt_pow hstep hpos).le
  refine ceilWritten_eq h hstep hpos h.isFinite ?_
  rw [h.value_eq, mul_div_cancel_right₀ _ hpos.ne', ← Int.cast_natCast (R := ℚ),
    nearest_of_representable (representable_intCast hk), Int.ceil_intCast]

end TradingRules

end OrderTicket
