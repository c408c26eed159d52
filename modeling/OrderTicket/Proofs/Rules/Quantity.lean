import Mathlib.Order.Bounds.Basic
import OrderTicket.Proofs.Rules.Kept

/-!
# Quantities are cut to the step

What a market makes of a quantity, although the quotient, the product with the step and the written
number are each subject to the precision: the largest multiple of the step that is not above it, or
a refusal. A quantity that was cut before is kept, and a larger quantity is not cut to less.

* `Lot.IsCut`: a quantity cut to the step of a lot, within its bounds.
* `Lot.Holds`: the amounts that a lot can hold.
* `TradingRules.quantity_eq_ok_iff`: which quantity is returned.
* `TradingRules.quantity_cuts`: quantities are cut exactly.
-/

namespace OrderTicket

open Decimal

namespace Lot

/-- Lot rules of finite numbers, with a step that has no digit below the context. -/
structure IsFinite (lot : Lot) : Prop where
  /-- The step has no more digits than the precision, none of them below the context. -/
  step : lot.step.InContext
  /-- The least amount is finite. -/
  min : lot.min.isFinite = true
  /-- The largest amount is finite, if there is one. -/
  max : ∀ bound, lot.max = some bound → bound.isFinite = true

/-- Lot rules of finite numbers, with a step that the context can hold. -/
structure InContext (lot : Lot) : Prop extends lot.IsFinite where
  /-- The step does not reach above the context. -/
  step_lt : lot.step.value < 10 ^ (maxExponent + 1)

/-- An amount within the bounds of a lot. -/
structure Bounds (lot : Lot) (amount : ℚ) : Prop where
  /-- It is at least the least quantity. -/
  min_le : lot.min.value ≤ amount
  /-- It is at most the largest quantity, if there is one. -/
  le_max : ∀ bound, lot.max = some bound → amount ≤ bound.value

/-- `q` is the raw quantity, cut to the step of a lot. -/
structure IsCut (lot : Lot) (raw q : Decimal) : Prop where
  /-- It is a positive multiple of the step. -/
  multiple : ∃ k : ℕ, 1 ≤ k ∧ q.value = k * lot.step.value
  /-- It is not above the raw quantity. -/
  le_raw : q.value ≤ raw.value
  /-- It lies less than a step below. -/
  raw_lt : raw.value < q.value + lot.step.value
  /-- It lies within the bounds. -/
  bounds : lot.Bounds q.value
  /-- It is written with the decimals of the step. -/
  exponent : ∃ places c : ℕ, Step.places lot.step = .ok places ∧ q = finite false c (-places)

/-- A positive amount within the bounds of a lot, whose digits fit into the precision where the step
has `places` decimals. -/
structure Holds (lot : Lot) (places : ℕ) (amount : ℚ) : Prop where
  /-- The amount is positive. -/
  pos : 0 < amount
  /-- It lies within the bounds. -/
  bounds : lot.Bounds amount
  /-- Written with so many decimals, it has no more digits than the precision. -/
  digits : ∃ c : ℕ, c < 10 ^ precision ∧ amount = c * 10 ^ (-places : ℤ)

end Lot

namespace TradingRules

section

variable {rules : TradingRules} {market : Bool} {raw raw' q q' : Decimal}

theorem lot_step_value_pos (hlot : (rules.lot market).InContext) :
    0 < (rules.lot market).step.value :=
  value_pos_of_le_zero_eq_false hlot.step.isFinite (rules.lot_step_pos market)

/-- A positive number that is at least the bound does not fall short of it. -/
theorem fallsShort_of_le {bound : Decimal} (hq : q.isFinite = true) (hbound : bound.isFinite = true)
    (hpos : 0 < q.value) (hle : bound.value ≤ q.value) : fallsShort q bound = .ok false := by
  simp only [fallsShort, le_zero_eq hq, decide_eq_false (not_le.2 hpos), lt_eq hq hbound,
    decide_eq_false (not_lt.2 hle)]
  rfl

/-- What is returned is the multiple of the step below the raw quantity, as it is written. -/
theorem exists_isWritten_of_quantity (hstep : (rules.lot market).step.InContext)
    (h : rules.quantity market raw = .ok q) :
    ∃ k : ℕ, Step.IsWritten (rules.lot market).step k q ∧ raw.isFinite = true ∧
      k * (rules.lot market).step.value ≤ raw.value ∧
      raw.value < (k + 1) * (rules.lot market).step.value := by
  have hpos := value_pos_of_le_zero_eq_false hstep.isFinite (rules.lot_step_pos market)
  obtain ⟨floored, hfloor, -, hwrite, hshort⟩ := quantity_eq_ok h
  have hcut : floorWritten raw (rules.lot market).step = .ok q := by
    simp only [floorWritten, hfloor]
    exact hwrite
  exact isWritten_of_floorWritten hstep hpos hcut (fallsShort_eq_false hshort).1

/-- A quantity that is returned is a written multiple of the step within the bounds. -/
theorem isWritten_of_quantity (hlot : (rules.lot market).InContext)
    (h : rules.quantity market raw = .ok q) :
    raw.isFinite = true ∧ (rules.lot market).Bounds q.value ∧
      ∃ k : ℕ, Step.IsWritten (rules.lot market).step k q ∧
        k * (rules.lot market).step.value ≤ raw.value ∧
        raw.value < (k + 1) * (rules.lot market).step.value := by
  obtain ⟨k, hwritten, hraw, hbetween⟩ := exists_isWritten_of_quantity hlot.step h
  have hgrid := quantity_ok hlot.step h
  refine ⟨hraw, ⟨?_, fun bound hbound => ?_⟩, k, hwritten, hbetween⟩
  · simpa [le_eq hlot.min hwritten.isFinite] using hgrid.min_le
  · simpa [le_eq hwritten.isFinite (hlot.max bound hbound)] using hgrid.le_max bound hbound

/-- A written multiple of the step within the bounds is returned as it is. -/
theorem quantity_eq_of_isWritten (hlot : (rules.lot market).InContext) (hraw : raw.isFinite = true)
    (hbounds : (rules.lot market).Bounds q.value) {k : ℕ}
    (hwritten : Step.IsWritten (rules.lot market).step k q)
    (hlow : k * (rules.lot market).step.value ≤ raw.value)
    (hhigh : raw.value < (k + 1) * (rules.lot market).step.value) :
    rules.quantity market raw = .ok q := by
  have hpos := lot_step_value_pos hlot
  obtain ⟨floored, hfloor, hexact⟩ := hwritten.floor_returns hlot.step hpos hraw hlow hhigh
  have hwrite := hwritten.write_eq hlot.step hpos hexact
  have hshort := fallsShort_of_le hwritten.isFinite hlot.min (hwritten.value_pos hpos)
    hbounds.min_le
  have hgo : rules.writtenQuantity (rules.lot market) raw floored = .ok q := by
    rw [writtenQuantity, hwrite]
    exact ite_reject_of_eq hshort
  simp only [quantity, hfloor]
  cases hmax : (rules.lot market).max with
  | none => exact hgo
  | some bound =>
    -- the bound is compared with the number before it is written
    have hle := hbounds.le_max bound hmax
    rw [hwritten.value_eq, ← hexact.value_eq] at hle
    have hlt := lt_eq (hlot.max bound hmax) hexact.isFinite
    rw [decide_eq_false (not_lt.2 hle)] at hlt
    exact (ite_reject_of_eq hlt).trans hgo

/-- Which quantity is returned: the multiple of the step below the raw quantity, as it is written,
if it lies within the bounds. -/
theorem quantity_eq_ok_iff (hlot : (rules.lot market).InContext) :
    rules.quantity market raw = .ok q ↔ raw.isFinite = true ∧ (rules.lot market).Bounds q.value ∧
      ∃ k : ℕ, Step.IsWritten (rules.lot market).step k q ∧
        k * (rules.lot market).step.value ≤ raw.value ∧
        raw.value < (k + 1) * (rules.lot market).step.value := by
  constructor
  · exact isWritten_of_quantity hlot
  · rintro ⟨hraw, hbounds, k, hwritten, hlow, hhigh⟩
    exact quantity_eq_of_isWritten hlot hraw hbounds hwritten hlow hhigh

/-- A multiple of the step within the bounds is kept. -/
theorem quantity_isWritten (hlot : (rules.lot market).InContext) {k : ℕ}
    (h : Step.IsWritten (rules.lot market).step k q) (hbounds : (rules.lot market).Bounds q.value) :
    rules.quantity market q = .ok q := by
  have hpos := lot_step_value_pos hlot
  refine (quantity_eq_ok_iff hlot).2 ⟨h.isFinite, hbounds, k, h, h.value_eq.ge, ?_⟩
  rw [h.value_eq, mul_lt_mul_iff_left₀ hpos]
  exact lt_add_one _

/-- A quantity that was cut is kept. -/
theorem quantity_keeps (hlot : (rules.lot market).InContext)
    (h : rules.quantity market raw = .ok q) : rules.quantity market q = .ok q := by
  obtain ⟨-, hbounds, k, hwritten, -, -⟩ := (quantity_eq_ok_iff hlot).1 h
  exact quantity_isWritten hlot hwritten hbounds

/-- A larger quantity is not cut to less. -/
theorem quantity_mono (hlot : (rules.lot market).InContext) (hle : raw.value ≤ raw'.value)
    (h : rules.quantity market raw = .ok q) (h' : rules.quantity market raw' = .ok q') :
    q.value ≤ q'.value := by
  have hpos := lot_step_value_pos hlot
  obtain ⟨-, -, k, hwritten, hlow, -⟩ := (quantity_eq_ok_iff hlot).1 h
  obtain ⟨-, -, k', hwritten', -, hhigh'⟩ := (quantity_eq_ok_iff hlot).1 h'
  have hlt := (hlow.trans hle).trans_lt hhigh'
  rw [mul_lt_mul_iff_left₀ hpos] at hlt
  have hk : k ≤ k' := Nat.lt_succ_iff.1 (by exact_mod_cast hlt)
  exact hwritten.value_le hwritten' hpos hk

/-- The largest multiple below the raw quantity is returned if the lot can hold it. -/
theorem quantity_returns_greatest (hlot : (rules.lot market).InContext)
    (hraw : raw.isFinite = true) {places : ℕ} {m : ℚ}
    (hplaces : Step.places (rules.lot market).step = .ok places)
    (hgreatest : IsGreatest {v | v ≤ raw.value ∧ ∃ k : ℤ, v = k * (rules.lot market).step.value} m)
    (hholds : (rules.lot market).Holds places m) :
    ∃ q, rules.quantity market raw = .ok q ∧ q.value = m := by
  have hpos := lot_step_value_pos hlot
  obtain ⟨⟨hle, k, rfl⟩, hupper⟩ := hgreatest
  have hk : (0 : ℚ) < k := pos_of_mul_pos_left hholds.pos hpos.le
  have hk' : 0 < k := by exact_mod_cast hk
  obtain ⟨k, rfl⟩ := Int.eq_ofNat_of_zero_le hk'.le
  obtain ⟨c, hc, hdigits⟩ := hholds.digits
  rw [Int.cast_natCast] at hle hdigits
  have hfits : k * (rules.lot market).step.value < 10 ^ ((precision : ℤ) - places) := by
    rw [hdigits, sub_eq_add_neg, ten_zpow_add, zpow_natCast]
    exact mul_lt_mul_of_pos_right (by exact_mod_cast hc) (ten_zpow_pos _)
  obtain ⟨q, hwritten⟩ := Step.exists_isWritten hlot.step hpos hplaces (by omega) hfits
  have hbounds := hholds.bounds
  rw [Int.cast_natCast, ← hwritten.value_eq] at hbounds
  refine ⟨q, (quantity_eq_ok_iff hlot).2 ⟨hraw, hbounds, k, hwritten, hle, ?_⟩, ?_⟩
  · -- the next multiple is not below the raw quantity as well
    by_contra hge
    have hnext := hupper ⟨not_lt.1 hge, k + 1, by push_cast; rfl⟩
    rw [Int.cast_natCast, mul_le_mul_iff_left₀ hpos] at hnext
    linarith
  · rw [hwritten.value_eq, Int.cast_natCast]

/-- Quantities are cut exactly. Whatever is returned is the largest multiple of the step not above
the raw quantity, written with the decimals of the step; it is kept when it is cut again, and larger
quantities are not cut to less. And that multiple is returned whenever the lot can hold it. -/
theorem quantity_cuts (hlot : (rules.lot market).InContext) (hraw : raw.isFinite = true) :
    (∀ q, rules.quantity market raw = .ok q →
      (rules.lot market).IsCut raw q ∧ rules.quantity market q = .ok q ∧
        ∀ raw' q', raw.value ≤ raw'.value → rules.quantity market raw' = .ok q' →
          q.value ≤ q'.value) ∧
    ∃ places, Step.places (rules.lot market).step = .ok places ∧
      ∀ m, IsGreatest {v | v ≤ raw.value ∧ ∃ k : ℤ, v = k * (rules.lot market).step.value} m →
        (rules.lot market).Holds places m →
          ∃ q, rules.quantity market raw = .ok q ∧ q.value = m := by
  have hpos := lot_step_value_pos hlot
  constructor
  · intro q h
    obtain ⟨-, hbounds, k, hwritten, hlow, hhigh⟩ := (quantity_eq_ok_iff hlot).1 h
    obtain ⟨places, c, hplaces, -, hq⟩ := hwritten.digits
    refine ⟨?_, quantity_keeps hlot h, fun raw' q' hle h' => quantity_mono hlot hle h h'⟩
    exact {
      multiple := ⟨k, hwritten.one_le, hwritten.value_eq⟩
      le_raw := hwritten.value_eq.le.trans hlow
      raw_lt := by rwa [hwritten.value_eq, ← add_one_mul]
      bounds := hbounds
      exponent := ⟨places, c, hplaces, hq⟩ }
  · obtain ⟨places, hplaces⟩ := Step.exists_places hlot.step hpos hlot.step_lt
    exact ⟨places, hplaces, fun m hgreatest hholds =>
      quantity_returns_greatest hlot hraw hplaces hgreatest hholds⟩

end

namespace Sample

/-- A market whose steps are not powers of ten, with a least quantity that is not a multiple. -/
def rules : TradingRules where
  symbol := .name "ETHUSDT"
  step := 0.025
  marketStep := some 0.05
  tick := 2.5
  minQuantity := 0.03
  maxQuantity := some 90
  minPrice := 5
  step_pos := rfl
  tick_pos := rfl
  marketStep_pos := by
    rintro s ⟨⟩
    rfl

theorem rules_lot : (rules.lot false).InContext where
  step := inContext_finite (by decide) (by decide)
  step_lt := by
    have hvalue : (rules.lot false).step.value = 25 * 10 ^ (-3 : ℤ) := value_positive 25 (-3)
    rw [hvalue]
    exact lt_of_lt_of_le (by norm_num) (one_le_zpow₀ (by norm_num) (by decide))
  min := rfl
  max := by
    rintro bound ⟨⟩
    rfl

end Sample

/-- A quantity on the sample market is cut to forty-nine steps. -/
theorem quantity_cuts_sample : ∃ q, Sample.rules.quantity false 1.234 = .ok q ∧
    (Sample.rules.lot false).IsCut 1.234 q ∧ q.value = 49 * (25 * 10 ^ (-3 : ℤ)) := by
  have hraw : (1.234 : Decimal).isFinite = true := rfl
  have hvalue : (1.234 : Decimal).value = 1234 * 10 ^ (-3 : ℤ) := value_positive 1234 (-3)
  have hstep : (Sample.rules.lot false).step.value = 25 * 10 ^ (-3 : ℤ) := value_positive 25 (-3)
  have hmin : (Sample.rules.lot false).min.value = 3 * 10 ^ (-2 : ℤ) := value_positive 3 (-2)
  have hgreatest : IsGreatest {v | v ≤ (1.234 : Decimal).value ∧
      ∃ k : ℤ, v = k * (Sample.rules.lot false).step.value} (49 * (25 * 10 ^ (-3 : ℤ))) := by
    refine ⟨⟨by rw [hvalue]; norm_num, 49, by rw [hstep]; norm_num⟩, ?_⟩
    rintro _ ⟨hle, k, rfl⟩
    -- 50 steps would be more
    rw [hvalue, hstep] at hle
    have hlt : (k : ℚ) < 50 := by norm_num at hle ⊢; linarith
    have hk : k ≤ 49 := Int.lt_add_one_iff.1 (by exact_mod_cast hlt)
    rw [hstep]
    exact mul_le_mul_of_nonneg_right (by exact_mod_cast hk) (by positivity)
  have hholds : (Sample.rules.lot false).Holds 3 (49 * (25 * 10 ^ (-3 : ℤ))) := by
    refine ⟨by norm_num, ⟨by rw [hmin]; norm_num, ?_⟩, 1225, by decide, by norm_num⟩
    rintro bound ⟨⟩
    rw [value_ofNat]
    norm_num
  obtain ⟨hcut, places, hplaces, hreturns⟩ := quantity_cuts Sample.rules_lot hraw
  obtain rfl : places = 3 := (Except.ok.inj hplaces).symm
  obtain ⟨q, hq, hqvalue⟩ := hreturns _ hgreatest hholds
  exact ⟨q, hq, (hcut q hq).1, hqvalue⟩

end TradingRules

end OrderTicket
