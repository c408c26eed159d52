import OrderTicket.Proofs.Decimal.Quantum
import OrderTicket.Proofs.Run
import OrderTicket.Rules.Normal

/-!
# The grid of a market

A quantity or price that a market takes is a multiple of a step, exactly, although it is computed
with rounding: the integer quotient by the step and the product with it are rounded to the
precision. A product that was rounded has too many digits to be written with the decimals of the
step, so writing it fails, and a number off the grid is never returned.

* `Decimal.InContext`: numbers that the context can hold.
* `OnGrid`: the positive multiples of a step within bounds.
* `Step.write_ok`: what is written is the exact multiple.
* `TradingRules.quantity_ok`, `TradingRules.price_ok`: quantities and prices are on the grid.
* `TradingRules.price_of_multiple`, `TradingRules.price_of_near`: a price on the grid is kept, one
  near it moves by at most a step.
-/

namespace OrderTicket

open Decimal

/-- A finite number with no more digits than the precision, none of them below the context. -/
structure Decimal.InContext (x : Decimal) : Prop where
  /-- The number is finite. -/
  isFinite : x.isFinite = true
  /-- It can be held exactly. -/
  representable : Representable x.value

/-- A number of few digits within the exponents of the context can be held. -/
theorem Decimal.inContext_finite {n : Bool} {c : ℕ} {e : ℤ} (hc : c < 10 ^ precision)
    (he : tinyExponent ≤ e) : (finite n c e).InContext where
  isFinite := rfl
  representable := by
    refine ⟨signed n c, e, ?_, he, value_eq_signed n c e⟩
    have hlt : (c : ℤ) < 10 ^ precision := by exact_mod_cast hc
    cases n <;> simpa [signed] using hlt

/-- A positive multiple of a step within bounds. The bounds may be infinite. -/
structure OnGrid (step min : Decimal) (max : Option Decimal) (x : Decimal) : Prop where
  /-- The number is finite. -/
  isFinite : x.isFinite = true
  /-- It is a positive multiple of the step. -/
  multiple : ∃ k : ℕ, 1 ≤ k ∧ x.value = k * step.value
  /-- It is at least the lower bound. -/
  min_le : min.le x = .ok true
  /-- It is at most the upper bound, if there is one. -/
  le_max : ∀ bound, max = some bound → x.le bound = .ok true

/-- There is no step that is not positive where none is given. -/
theorem isPositive_of_none (s : Decimal) (h : none = some s) : s.IsPositive := by
  cases h

/-! ## Steps -/

namespace Step

variable {value step x r : Decimal}

/-- The decimals of a step are those of its last digit that is not zero. -/
theorem places_ok {places : ℕ} (hstep : step.InContext) (hpos : 0 < step.value)
    (h : Step.places step = .ok places) :
    (places : ℤ) ≤ -tinyExponent ∧
      ∃ m : ℕ, step.value = m * 10 ^ (-places : ℤ) ∧ (places = 0 ∨ m % 10 ≠ 0) := by
  obtain ⟨y, hy, h⟩ := bind_eq_ok h
  obtain ⟨hround, n, c, e, rfl, htiny, hlast⟩ := normalize_ok hstep.isFinite (liftM_eq_ok hy)
  -- a step that the context holds loses no digit when its zeros are dropped
  have hval := hround.eq_of_representable hstep.representable
  obtain rfl : (-e).toNat = places := Except.ok.inj h
  have ht : tinyExponent < 0 := by decide
  refine ⟨by omega, ?_⟩
  -- a positive number has no sign
  cases n with
  | true =>
    exfalso
    have hneg : (finite true c e).value ≤ 0 := neg_nonpos.2 (magnitude_nonneg c e)
    linarith
  | false =>
    rcases le_total 0 e with he | he
    · refine ⟨c * 10 ^ e.toNat, ?_, .inl (by omega)⟩
      have hexp : e = (e.toNat : ℤ) := by omega
      have hzero : (-e).toNat = 0 := by omega
      rw [← hval, hzero, Nat.cast_zero, neg_zero, zpow_zero, mul_one, Nat.cast_mul, Nat.cast_pow,
        Nat.cast_ofNat, ← zpow_natCast, ← hexp]
      rfl
    · refine ⟨c, ?_, hlast.imp_left fun h => by omega⟩
      have hexp : -((-e).toNat : ℤ) = e := by omega
      rw [← hval, hexp]
      rfl

/-- A rounded multiple of a power of ten is written only if it was not changed by rounding. -/
theorem truncate_of_multiple {v : ℚ} {k : ℤ} {places : ℕ} (hx : Rounded v x)
    (hv : v = k * 10 ^ (-places : ℤ)) (h : x.truncate places = .ok r) :
    x.value = v ∧ r.isFinite = true ∧ r.value = v := by
  obtain ⟨hplaces, hfits, n, c, rfl, hc⟩ := truncate_ok hx.isFinite h
  -- at this bound the digits of a multiple no longer fit
  have hbound : Representable (10 ^ ((precision : ℤ) - places)) :=
    representable_zpow (by have hp : tinyExponent = -1000026 := rfl; omega)
  have hunit : (10 : ℚ) ^ ((precision : ℤ) - places) = 10 ^ precision * 10 ^ (-places : ℤ) := by
    rw [sub_eq_add_neg, ten_zpow_add, zpow_natCast]
  have hpos := ten_zpow_pos (-places : ℤ)
  have hexact : x.value = v := by
    -- few digits are not rounded; more of them would not fit, so nothing would be written
    by_cases hk : |k| ≤ 10 ^ precision
    · refine hx.eq_of_representable ?_
      rw [hv]
      exact representable_of_le hk (by omega)
    · exfalso
      have hlarge : (10 : ℚ) ^ ((precision : ℤ) - places) ≤ |v| := by
        rw [hunit, hv, abs_mul, abs_of_pos hpos]
        refine mul_le_mul_of_nonneg_right ?_ hpos.le
        exact_mod_cast (not_le.1 hk).le
      rcases le_abs.1 hlarge with hle | hle
      · have := hx.le_value hbound hle
        exact absurd (this.trans (le_abs_self _)) (not_le.2 hfits)
      · have := hx.value_le hbound.neg (le_neg_of_le_neg hle)
        exact absurd ((le_neg_of_le_neg this).trans (neg_le_abs _)) (not_le.2 hfits)
  have hint : v * 10 ^ places = k := by
    rw [hv, mul_assoc, ← zpow_natCast, ← ten_zpow_add, neg_add_cancel, zpow_zero, mul_one]
  refine ⟨hexact, rfl, ?_⟩
  rw [value_eq_signed, hc, hexact, hint, towardZero_intCast, hv]

/-- A rounded multiple of a step is written only if it is exact. -/
theorem write_ok {k : ℤ} (hstep : step.InContext) (hpos : 0 < step.value)
    (hx : Rounded (k * step.value) x) (h : Step.write x step = .ok r) :
    x.value = k * step.value ∧ r.isFinite = true ∧ r.value = k * step.value := by
  obtain ⟨places, hplaces, h⟩ := bind_eq_ok h
  obtain ⟨-, m, hm, -⟩ := places_ok hstep hpos hplaces
  -- a multiple of the step is one of the step's last decimal place
  refine truncate_of_multiple (k := k * m) hx ?_ (liftM_eq_ok h)
  rw [hm]
  push_cast
  ring

/-- A step is at least a unit of its last decimal, so a number that is written is not more than so
many steps as the precision has digits for. -/
theorem abs_lt_of_write (hstep : step.InContext) (hpos : 0 < step.value) (hx : x.isFinite = true)
    (h : Step.write x step = .ok r) : |x.value| < 10 ^ precision * step.value := by
  obtain ⟨places, hplaces, h⟩ := bind_eq_ok h
  obtain ⟨-, m, hm, -⟩ := places_ok hstep hpos hplaces
  obtain ⟨-, hlt, -⟩ := truncate_ok hx (liftM_eq_ok h)
  have hunit := ten_zpow_pos (-places : ℤ)
  rw [sub_eq_add_neg, ten_zpow_add, zpow_natCast] at hlt
  rw [hm] at hpos ⊢
  have hone : (1 : ℚ) ≤ m := by
    exact_mod_cast Nat.one_le_iff_ne_zero.2 fun hzero => by simp [hzero] at hpos
  refine hlt.trans_le (mul_le_mul_of_nonneg_left ?_ (by positivity))
  exact le_mul_of_one_le_left hunit.le hone

/-- What is written has a place in the order only if it was a finite number. -/
theorem isFinite_of_write {y : Decimal} {b : Bool} (h : Step.write x step = .ok r)
    (hplace : r.le y = .ok b) : x.isFinite = true := by
  obtain ⟨places, -, h⟩ := bind_eq_ok h
  have h := liftM_eq_ok h
  cases x with
  | finite => rfl
  | infinity => cases h
  -- a quiet NaN is written as it is, but has no place in the order
  | nan n s p =>
    cases s with
    | true => cases h
    | false =>
      obtain rfl := Except.ok.inj h
      cases y <;> cases hplace

/-! Infinities and NaNs do not become finite again on the way to the grid. -/

/-- What an operation passes on without computing is not finite. -/
theorem isFinite_propagate {a b : Decimal} (h : propagate a b = .ok r) : r.isFinite = false := by
  unfold propagate at h
  split at h <;> cases h <;> rfl

theorem isFinite_of_mul_eq_ok {y : Decimal} (h : x.mul y = .ok r) (hr : r.isFinite = true) :
    x.isFinite = true := by
  unfold mul at h
  split at h
  · rfl
  · cases h
    cases hr
  · split at h <;> cases h
    cases hr
  · rfl
  · rw [isFinite_propagate h] at hr
    cases hr

theorem isFinite_of_divTrunc_eq_ok {y : Decimal} (hy : y.isFinite = true) (h : x.divTrunc y = .ok r)
    (hr : r.isFinite = true) : x.isFinite = true := by
  unfold divTrunc at h
  split at h
  · rfl
  · cases h
  · cases h
    cases hr
  · cases hy
  · rw [isFinite_propagate h] at hr
    cases hr

theorem isFinite_of_div_eq_ok {y : Decimal} (hy : y.isFinite = true) (h : x.div y = .ok r)
    (hr : r.isFinite = true) : x.isFinite = true := by
  unfold div at h
  split at h
  · rfl
  · cases h
  · cases h
    cases hr
  · cases hy
  · rw [isFinite_propagate h] at hr
    cases hr

theorem isFinite_of_toIntegral_eq_ok {mode : Rounding} (h : x.toIntegral mode = .ok r)
    (hr : r.isFinite = true) : x.isFinite = true := by
  unfold toIntegral at h
  split at h
  · rfl
  · cases h
    cases hr
  · rw [isFinite_propagate h] at hr
    cases hr

/-- A finite number is rounded downward to a multiple of the step. -/
theorem floor_rounded (hstep : step.InContext) (hpos : 0 < step.value)
    (hvalue : value.isFinite = true) (h : Step.floor value step = .ok x) :
    Rounded (towardZero (value.value / step.value) * step.value) x := by
  obtain ⟨q, hq, h⟩ := bind_eq_ok h
  -- the quotient is exact, only the product with the step is rounded
  obtain ⟨-, hqfin, hval⟩ := divTrunc_ok hvalue hstep.isFinite hpos.ne' hq
  rw [← hval]
  exact (mul_computes hqfin hstep.isFinite).rounded h

/-- Rounding downward to the grid. -/
theorem floor_ok (hstep : step.InContext) (hpos : 0 < step.value)
    (h : Step.floor value step = .ok x) (hx : x.isFinite = true) :
    value.isFinite = true ∧ Rounded (towardZero (value.value / step.value) * step.value) x := by
  obtain ⟨q, hq, hmul⟩ := bind_eq_ok h
  have hvalue :=
    isFinite_of_divTrunc_eq_ok hstep.isFinite hq (isFinite_of_mul_eq_ok hmul hx)
  exact ⟨hvalue, floor_rounded hstep hpos hvalue h⟩

/-- A finite number is rounded upward to a multiple of the step. The quotient is rounded to nearest
before its ceiling is taken. -/
theorem ceil_rounded (hstep : step.InContext) (hpos : 0 < step.value)
    (hvalue : value.isFinite = true) (h : Step.ceil value step = .ok x) :
    ∃ q, Rounded (value.value / step.value) q ∧
      q.value = nearest (value.value / step.value) ∧ Rounded (⌈q.value⌉ * step.value) x := by
  obtain ⟨q, hq, h⟩ := bind_eq_ok h
  obtain ⟨i, hi, h⟩ := bind_eq_ok h
  have hdiv := div_computes hvalue hstep.isFinite hpos.ne'
  have hround := hdiv.rounded hq
  obtain ⟨j, hj, hifin, hval⟩ := toIntegral_ceiling hround.isFinite
  obtain rfl := Except.ok.inj (hi.symm.trans hj)
  refine ⟨q, hround, hdiv.value_eq hq, ?_⟩
  rw [← hval]
  exact (mul_computes hifin hstep.isFinite).rounded h

/-- Rounding upward to the grid. -/
theorem ceil_ok (hstep : step.InContext) (hpos : 0 < step.value)
    (h : Step.ceil value step = .ok x) (hx : x.isFinite = true) :
    value.isFinite = true ∧ ∃ q, Rounded (value.value / step.value) q ∧
      q.value = nearest (value.value / step.value) ∧ Rounded (⌈q.value⌉ * step.value) x := by
  obtain ⟨q, hq, hrest⟩ := bind_eq_ok h
  obtain ⟨i, hi, hmul⟩ := bind_eq_ok hrest
  have hqfin := isFinite_of_toIntegral_eq_ok hi (isFinite_of_mul_eq_ok hmul hx)
  have hvalue := isFinite_of_div_eq_ok hstep.isFinite hq hqfin
  exact ⟨hvalue, ceil_rounded hstep hpos hvalue h⟩

end Step

/-! ## Quantities and prices -/

namespace TradingRules

variable {value step x r : Decimal}

/-- Only a finite number leads to one that has a place in the order, when it is cut to the grid. -/
theorem isFinite_of_floorWritten (hstep : step.InContext) (hpos : 0 < step.value)
    (h : floorWritten value step = .ok r) {y : Decimal} {b : Bool} (hplace : r.le y = .ok b) :
    value.isFinite = true := by
  obtain ⟨x, hx, h⟩ := bind_eq_ok h
  exact (Step.floor_ok hstep hpos (liftM_eq_ok hx) (Step.isFinite_of_write h hplace)).1

/-- A number is finite if it is rounded upward to something that can be compared with a number. -/
theorem isFinite_of_ceilWritten (hstep : step.InContext) (hpos : 0 < step.value)
    (h : ceilWritten value step = .ok r) {y : Decimal} {b : Bool} (hplace : r.le y = .ok b) :
    value.isFinite = true := by
  obtain ⟨x, hx, h⟩ := bind_eq_ok h
  exact (Step.ceil_ok hstep hpos (liftM_eq_ok hx) (Step.isFinite_of_write h hplace)).1

/-- A finite number cut to the grid is a multiple of the step. -/
theorem floorWritten_of_isFinite (hstep : step.InContext) (hpos : 0 < step.value)
    (hvalue : value.isFinite = true) (h : floorWritten value step = .ok r) :
    r.isFinite = true ∧ r.value = towardZero (value.value / step.value) * step.value := by
  obtain ⟨x, hx, h⟩ := bind_eq_ok h
  exact (Step.write_ok hstep hpos (Step.floor_rounded hstep hpos hvalue (liftM_eq_ok hx)) h).2

/-- A finite number moved up to the grid is a multiple of the step. -/
theorem ceilWritten_of_isFinite (hstep : step.InContext) (hpos : 0 < step.value)
    (hvalue : value.isFinite = true) (h : ceilWritten value step = .ok r) :
    r.isFinite = true ∧ r.value = ⌈nearest (value.value / step.value)⌉ * step.value := by
  obtain ⟨x, hx, h⟩ := bind_eq_ok h
  obtain ⟨q, -, hq, hround⟩ := Step.ceil_rounded hstep hpos hvalue (liftM_eq_ok hx)
  rw [← hq]
  exact (Step.write_ok hstep hpos hround h).2

/-- A number cut to the grid is a multiple of the step. -/
theorem floorWritten_ok (hstep : step.InContext) (hpos : 0 < step.value)
    (h : floorWritten value step = .ok r) {y : Decimal} {b : Bool} (hplace : r.le y = .ok b) :
    r.isFinite = true ∧ r.value = towardZero (value.value / step.value) * step.value :=
  floorWritten_of_isFinite hstep hpos (isFinite_of_floorWritten hstep hpos h hplace) h

/-- A number moved up to the grid is a multiple of the step. -/
theorem ceilWritten_ok (hstep : step.InContext) (hpos : 0 < step.value)
    (h : ceilWritten value step = .ok r) {y : Decimal} {b : Bool} (hplace : r.le y = .ok b) :
    ∃ q, Rounded (value.value / step.value) q ∧
      r.isFinite = true ∧ r.value = ⌈q.value⌉ * step.value := by
  obtain ⟨x, hx, h⟩ := bind_eq_ok h
  have hfin := Step.isFinite_of_write h hplace
  obtain ⟨-, q, hq, -, hround⟩ := Step.ceil_ok hstep hpos (liftM_eq_ok hx) hfin
  exact ⟨q, hq, (Step.write_ok hstep hpos hround h).2⟩

/-- What is rounded upward to a step is not more than so many steps as the precision has digits
for. -/
theorem abs_lt_of_ceilWritten (hstep : step.InContext) (hpos : 0 < step.value)
    (h : ceilWritten value step = .ok r) {y : Decimal} {b : Bool} (hplace : r.le y = .ok b) :
    |r.value| < 10 ^ precision * step.value := by
  obtain ⟨x, hx, h⟩ := bind_eq_ok h
  have hfin := Step.isFinite_of_write h hplace
  obtain ⟨-, q, hq, -, hround⟩ := Step.ceil_ok hstep hpos (liftM_eq_ok hx) hfin
  obtain ⟨hxval, -, hval⟩ := Step.write_ok hstep hpos hround h
  rw [hval, ← hxval]
  exact Step.abs_lt_of_write hstep hpos hfin h

/-- A number that is large enough is positive and at least the bound. -/
theorem fallsShort_eq_false {bound : Decimal} (h : fallsShort x bound = .ok false) :
    x.le 0 = .ok false ∧ bound.le x = .ok true := by
  obtain ⟨b, hb, h⟩ := bind_eq_ok h
  cases b with
  | true => cases h
  | false => exact ⟨hb, le_of_lt_eq_false h⟩

/-- An integer multiple of a step that is positive is a positive multiple. -/
theorem exists_multiple {k : ℤ} (hpos : 0 < step.value) (hx : x.value = k * step.value)
    (hxpos : 0 < x.value) : ∃ k : ℕ, 1 ≤ k ∧ x.value = k * step.value := by
  have hk : (0 : ℚ) < k := pos_of_mul_pos_left (hx ▸ hxpos) hpos.le
  have hk' : 0 < k := by exact_mod_cast hk
  refine ⟨k.toNat, by omega, ?_⟩
  have hcast : ((k.toNat : ℕ) : ℚ) = ((k.toNat : ℤ) : ℚ) := (Int.cast_natCast _).symm
  rw [hx, hcast, Int.toNat_of_nonneg hk'.le]

/-- The step of quantities is one that the rules check. -/
theorem lot_step_pos (rules : TradingRules) (market : Bool) :
    (rules.lot market).step.IsPositive := by
  cases market with
  | false => exact rules.step_pos
  | true =>
    cases hs : rules.marketStep with
    | none => simpa [lot, hs] using rules.step_pos
    | some s => simpa [lot, hs] using rules.marketStep_pos s hs

/-- A quantity that is refused as too large is not returned. -/
theorem rejectAbove_ne_ok {rules : TradingRules} {lot : Lot} {raw bound : Decimal} :
    rules.rejectAbove lot raw bound ≠ .ok r := by
  intro h
  obtain ⟨_, _, h⟩ := bind_eq_ok h
  cases h

theorem rejectBelow_ne_ok {rules : TradingRules} {lot : Lot} {raw rounded : Decimal} :
    rules.rejectBelow lot raw rounded ≠ .ok r := by
  intro h
  obtain ⟨_, _, h⟩ := bind_eq_ok h
  obtain ⟨_, _, h⟩ := bind_eq_ok h
  obtain ⟨_, _, h⟩ := bind_eq_ok h
  cases h

theorem rejectLowPrice_ne_ok {rules : TradingRules} {raw : Decimal} :
    rules.rejectLowPrice raw ≠ .ok r := by
  intro h
  obtain ⟨_, _, h⟩ := bind_eq_ok h
  obtain ⟨_, _, h⟩ := bind_eq_ok h
  cases h

theorem rejectHighPrice_ne_ok {rules : TradingRules} {raw bound : Decimal} :
    rules.rejectHighPrice raw bound ≠ .ok r := by
  intro h
  obtain ⟨_, _, h⟩ := bind_eq_ok h
  cases h

/-- Where a check that refuses is passed, it said so. -/
theorem ite_reject_eq_ok {check : Except Fault Bool} {refuse go : Except Failure Decimal}
    (hne : ∀ r, refuse ≠ .ok r)
    (h : ((liftM check : Except Failure Bool) >>= fun b => if b = true then refuse else go) =
      .ok r) :
    check = .ok false ∧ go = .ok r := by
  obtain ⟨b, hb, h⟩ := bind_eq_ok h
  cases b with
  | true => exact absurd h (hne r)
  | false => exact ⟨liftM_eq_ok hb, h⟩

/-- A check that is passed is followed by the rest. -/
theorem ite_reject_of_eq {check : Except Fault Bool} {refuse go : Except Failure Decimal}
    (h : check = .ok false) :
    ((liftM check : Except Failure Bool) >>= fun b => if b = true then refuse else go) = go := by
  subst h
  rfl

/-- What `quantity` does with a quantity on the grid that is not too large. -/
def writtenQuantity (rules : TradingRules) (lot : Lot) (raw floored : Decimal) :
    Except Failure Decimal := do
  let rounded ← Step.write floored lot.step
  if ← liftM (fallsShort rounded lot.min) then rules.rejectBelow lot raw rounded
  else return rounded

/-- A quantity that is returned is the cut one with the decimals of the step, and is not too
small. -/
theorem writtenQuantity_eq_ok {rules : TradingRules} {lot : Lot} {raw floored q : Decimal}
    (h : rules.writtenQuantity lot raw floored = .ok q) :
    Step.write floored lot.step = .ok q ∧ fallsShort q lot.min = .ok false := by
  obtain ⟨rounded, hwrite, h⟩ := bind_eq_ok h
  obtain ⟨hshort, h⟩ := ite_reject_eq_ok (fun _ => rejectBelow_ne_ok) h
  obtain rfl := Except.ok.inj h
  exact ⟨hwrite, hshort⟩

/-- The steps of a quantity that is taken: cut to the grid, not above the largest quantity, written,
and not below the least one. -/
theorem quantity_eq_ok {rules : TradingRules} {market : Bool} {raw q : Decimal}
    (h : rules.quantity market raw = .ok q) :
    ∃ floored, Step.floor raw (rules.lot market).step = .ok floored ∧
      (∀ bound, (rules.lot market).max = some bound → bound.lt floored = .ok false) ∧
      Step.write floored (rules.lot market).step = .ok q ∧
      fallsShort q (rules.lot market).min = .ok false := by
  obtain ⟨floored, hfloor, h⟩ := bind_eq_ok h
  refine ⟨floored, liftM_eq_ok hfloor, ?_⟩
  cases hmax : (rules.lot market).max with
  | none =>
    rw [hmax] at h
    exact ⟨by simp, writtenQuantity_eq_ok h⟩
  | some bound =>
    rw [hmax] at h
    obtain ⟨hlt, h⟩ := ite_reject_eq_ok (fun _ => rejectAbove_ne_ok) h
    exact ⟨fun _ hb => Option.some.inj hb ▸ hlt, writtenQuantity_eq_ok h⟩

/-- A quantity that is taken lies on the grid of its lot. -/
theorem quantity_ok {rules : TradingRules} {market : Bool} {raw q : Decimal}
    (hstep : (rules.lot market).step.InContext) (h : rules.quantity market raw = .ok q) :
    OnGrid (rules.lot market).step (rules.lot market).min (rules.lot market).max q := by
  have hpos := value_pos_of_le_zero_eq_false hstep.isFinite (rules.lot_step_pos market)
  obtain ⟨floored, hfloor, hmax, hwrite, hshort⟩ := quantity_eq_ok h
  obtain ⟨hzero, hmin⟩ := fallsShort_eq_false hshort
  have hfin := Step.isFinite_of_write hwrite hzero
  obtain ⟨-, hround⟩ := Step.floor_ok hstep hpos hfloor hfin
  obtain ⟨hfloored, hqfin, hval⟩ := Step.write_ok hstep hpos hround hwrite
  refine ⟨hqfin, exists_multiple hpos hval (value_pos_of_le_zero_eq_false hqfin hzero), hmin, ?_⟩
  intro bound hbound
  -- the bound was compared with the number before it was written, which has the same value
  have hlt := hmax bound hbound
  rw [le_congr hqfin hfin (hval.trans hfloored.symm)]
  exact le_of_lt_eq_false hlt

/-- What `price` does with a price on the grid. -/
def boundedPrice (rules : TradingRules) (raw rounded : Decimal) : Except Failure Decimal := do
  if ← liftM (fallsShort rounded rules.minPrice) then rules.rejectLowPrice raw
  else
    match rules.maxPrice with
    | some bound =>
      if ← liftM (bound.lt rounded) then rules.rejectHighPrice raw bound else return rounded
    | none => return rounded

/-- A price that is returned is the rounded one and lies within the bounds. -/
theorem boundedPrice_eq_ok {rules : TradingRules} {raw rounded p : Decimal}
    (h : rules.boundedPrice raw rounded = .ok p) :
    rounded = p ∧ fallsShort p rules.minPrice = .ok false ∧
      ∀ bound, rules.maxPrice = some bound → bound.lt p = .ok false := by
  obtain ⟨hshort, h⟩ := ite_reject_eq_ok (fun _ => rejectLowPrice_ne_ok) h
  cases hmax : rules.maxPrice with
  | none =>
    rw [hmax] at h
    obtain rfl := Except.ok.inj h
    exact ⟨rfl, hshort, by simp⟩
  | some bound =>
    rw [hmax] at h
    obtain ⟨hlt, h⟩ := ite_reject_eq_ok (fun _ => rejectHighPrice_ne_ok) h
    obtain rfl := Except.ok.inj h
    exact ⟨rfl, hshort, fun _ hb => Option.some.inj hb ▸ hlt⟩

/-- A price is moved to the grid first; its bounds are checked alike, whichever way it was moved. -/
theorem price_eq (rules : TradingRules) (side : Option Side) (raw : Decimal) :
    rules.price side raw =
      (if side = some .sell then ceilWritten raw rules.tick else floorWritten raw rules.tick) >>=
        rules.boundedPrice raw := by
  unfold price
  split_ifs <;> rfl

/-- The steps of a price that is taken: moved to the grid, not below the least price and not above
the largest one. -/
theorem price_eq_ok {rules : TradingRules} {side : Option Side} {raw p : Decimal}
    (h : rules.price side raw = .ok p) :
    (if side = some .sell then ceilWritten raw rules.tick else floorWritten raw rules.tick) =
      .ok p ∧
      fallsShort p rules.minPrice = .ok false ∧
      ∀ bound, rules.maxPrice = some bound → bound.lt p = .ok false := by
  rw [price_eq] at h
  obtain ⟨rounded, hround, h⟩ := bind_eq_ok h
  obtain ⟨rfl, hbounds⟩ := boundedPrice_eq_ok h
  exact ⟨hround, hbounds⟩

/-- A price that is taken lies on the grid of prices. -/
theorem price_ok {rules : TradingRules} {side : Option Side} {raw p : Decimal}
    (htick : rules.tick.InContext) (h : rules.price side raw = .ok p) :
    OnGrid rules.tick rules.minPrice rules.maxPrice p := by
  have hpos := value_pos_of_le_zero_eq_false htick.isFinite rules.tick_pos
  obtain ⟨hround, hshort, hmax⟩ := price_eq_ok h
  obtain ⟨hzero, hmin⟩ := fallsShort_eq_false hshort
  -- either direction of rounding leads to a multiple of the tick
  have hmultiple : p.isFinite = true ∧ ∃ k : ℤ, p.value = k * rules.tick.value := by
    split_ifs at hround
    · obtain ⟨q, -, hfin, hval⟩ := ceilWritten_ok htick hpos hround hzero
      exact ⟨hfin, _, hval⟩
    · obtain ⟨hfin, hval⟩ := floorWritten_ok htick hpos hround hzero
      exact ⟨hfin, _, hval⟩
  obtain ⟨hfin, k, hval⟩ := hmultiple
  exact ⟨hfin, exists_multiple hpos hval (value_pos_of_le_zero_eq_false hfin hzero), hmin,
    fun bound hbound => le_of_lt_eq_false (hmax bound hbound)⟩

/-! ## Prices near the grid -/

section Near

variable {rules : TradingRules} {side : Option Side} {raw p : Decimal} {k : ℤ}

/-- A price on the grid is kept. -/
theorem price_of_multiple (htick : rules.tick.InContext) (hk : 0 < k)
    (hraw : raw.value = k * rules.tick.value) (h : rules.price side raw = .ok p) :
    p.value = raw.value := by
  have hpos := value_pos_of_le_zero_eq_false htick.isFinite rules.tick_pos
  obtain ⟨hround, hshort, -⟩ := price_eq_ok h
  obtain ⟨hzero, -⟩ := fallsShort_eq_false hshort
  have hquot : raw.value / rules.tick.value = k := by rw [hraw, mul_div_cancel_right₀ _ hpos.ne']
  split_ifs at hround
  · obtain ⟨q, hq, hfin, hval⟩ := ceilWritten_ok htick hpos hround hzero
    have hlt := abs_lt_of_ceilWritten htick hpos hround hzero
    rw [hval, abs_mul, abs_of_pos hpos, mul_lt_mul_iff_left₀ hpos] at hlt
    rw [hquot] at hq
    -- more steps than the precision has digits for would not have been written
    have hle : k ≤ 10 ^ precision := by
      by_contra hgt
      have hcast : ((10 ^ precision : ℤ) : ℚ) ≤ k := by exact_mod_cast (not_le.1 hgt).le
      have hge := hq.le_value (representable_intCast (m := 10 ^ precision) (by decide)) hcast
      have hceil : 10 ^ precision ≤ ⌈q.value⌉ := by
        exact_mod_cast hge.trans (Int.le_ceil q.value)
      have habs : |⌈q.value⌉| < 10 ^ precision := by exact_mod_cast hlt
      exact absurd ((le_abs_self _).trans_lt habs) (not_lt.2 hceil)
    have hexact := hq.eq_of_representable
      (representable_intCast (abs_le.2 ⟨by omega, hle⟩))
    rw [hval, hexact, Int.ceil_intCast, hraw]
  · obtain ⟨-, hval⟩ := floorWritten_ok htick hpos hround hzero
    rw [hval, hquot, towardZero_intCast, hraw]

/-- The ceiling of a rounded quotient that lies within a half of an integer. -/
theorem ceil_of_near {v : ℚ} {q : Decimal} (hk : 0 < k) (hk' : k ≤ 10 ^ (precision - 2))
    (hlow : k - 1 / 2 ≤ v) (hhigh : v ≤ k + 1 / 2) (hq : Rounded v q) :
    ⌈q.value⌉ = k ∨ ⌈q.value⌉ = k + 1 := by
  -- the halves next to the integer are representable, so rounding does not go beyond them
  have hhalf {m : ℤ} (hm : 0 ≤ m) (hm' : m ≤ 2 * 10 ^ (precision - 2) + 1) :
      Representable ((m : ℚ) / 2) := by
    have hrep : Representable ((5 * m : ℤ) * 10 ^ (-1 : ℤ)) := by
      refine representable_of_le (abs_le.2 ⟨?_, ?_⟩) (by decide) <;> simp only [precision] at * <;>
        omega
    convert hrep using 1
    push_cast
    rw [zpow_neg_one]
    ring
  have hlow' := hq.le_value (hhalf (m := 2 * k - 1) (by omega) (by omega))
    (by push_cast; linarith)
  have hhigh' := hq.value_le (hhalf (m := 2 * k + 1) (by omega) (by omega))
    (by push_cast; linarith)
  push_cast at hlow' hhigh'
  have hceil : k - 1 < ⌈q.value⌉ := by
    rw [Int.lt_ceil]
    push_cast
    linarith
  have hceil' : ⌈q.value⌉ ≤ k + 1 := by
    rw [Int.ceil_le]
    push_cast
    linarith
  omega

/-- The integer part of a quotient that lies within a half of a positive integer. -/
theorem towardZero_of_near {v : ℚ} (hk : 0 < k) (hlow : k - 1 / 2 ≤ v) (hhigh : v ≤ k + 1 / 2) :
    towardZero v = k ∨ towardZero v = k - 1 := by
  have hone : (1 : ℚ) ≤ k := by exact_mod_cast hk
  rw [towardZero, if_pos (by linarith)]
  have hfloor : k - 1 ≤ ⌊v⌋ := by
    rw [Int.le_floor]
    push_cast
    linarith
  have hfloor' : ⌊v⌋ < k + 1 := by
    rw [Int.floor_lt]
    push_cast
    linarith
  omega

/-- A price within half a tick of the grid stays there, or goes to the next tick in the direction of
rounding. -/
theorem price_of_near (htick : rules.tick.InContext) (hk : 0 < k) (hk' : k ≤ 10 ^ (precision - 2))
    (hlow : (k - 1 / 2) * rules.tick.value ≤ raw.value)
    (hhigh : raw.value ≤ (k + 1 / 2) * rules.tick.value) (h : rules.price side raw = .ok p) :
    p.value = k * rules.tick.value ∨
      p.value = (k + if side = some .sell then 1 else -1) * rules.tick.value := by
  have hpos := value_pos_of_le_zero_eq_false htick.isFinite rules.tick_pos
  obtain ⟨hround, hshort, -⟩ := price_eq_ok h
  obtain ⟨hzero, -⟩ := fallsShort_eq_false hshort
  rw [← le_div_iff₀ hpos] at hlow
  rw [← div_le_iff₀ hpos] at hhigh
  split_ifs at hround ⊢
  · obtain ⟨q, hq, -, hval⟩ := ceilWritten_ok htick hpos hround hzero
    refine (ceil_of_near hk hk' hlow hhigh hq).imp (fun h => ?_) fun h => ?_ <;> rw [hval, h]
    push_cast
    rfl
  · obtain ⟨-, hval⟩ := floorWritten_ok htick hpos hround hzero
    refine (towardZero_of_near hk hlow hhigh).imp (fun h => ?_) fun h => ?_ <;> rw [hval, h]
    push_cast
    rw [sub_eq_add_neg]

end Near

end TradingRules

end OrderTicket
