import OrderTicket.Proofs.Rules.Quantity

/-!
# Prices are moved to the tick

What a market makes of a price: a multiple of the tick, next to the price in the direction of
rounding. Downward the quotient by the tick is exact. Upward it is rounded to the precision before
its ceiling is taken, so that a price with very many digits may come to lie just below the raw one,
but never by a digit that the precision can tell. A price that was moved is kept on either side.

* `AlignedBelow`: two values over a common power of ten, with few digits of the first one.
* `TradingRules.IsTicked`: a price moved to the tick.
* `TradingRules.price_isWritten`: which price is returned.
* `TradingRules.price_ticks`: prices are moved to the right tick.
-/

namespace OrderTicket

open Decimal

/-- Over a common power of ten, both values are integers, the first one less than `limit`. -/
def AlignedBelow (limit : ℤ) (x y : ℚ) : Prop :=
  ∃ a b e : ℤ, x = a * 10 ^ e ∧ y = b * 10 ^ e ∧ |a| < limit

/-- The rounded quotient of two integers has no ceiling below the exact one, unless the first of
them has as many digits as the precision. -/
theorem Decimal.le_ceil_nearest_div {a b : ℤ} (ha : |a| < 10 ^ (precision - 1)) (hb : 0 < b)
    (hone : 1 ≤ ⌈nearest (a / b)⌉) : (a / b : ℚ) ≤ ⌈nearest (a / b)⌉ := by
  by_contra hlt
  have hlt := not_le.1 hlt
  have hb' : (0 : ℚ) < b := by exact_mod_cast hb
  generalize hceil : ⌈nearest (a / b : ℚ)⌉ = j at *
  have hle : nearest (a / b : ℚ) ≤ j := hceil ▸ Int.le_ceil _
  have hj : j * b + 1 ≤ a := by
    rw [lt_div_iff₀ hb'] at hlt
    exact Int.add_one_le_of_lt (by exact_mod_cast hlt)
  have hja : j ≤ j * b := le_mul_of_one_le_right (by omega) hb
  have hrep : Representable j := representable_intCast (by
    have ha' := (le_abs_self a).trans_lt ha
    have hpow : (10 : ℤ) ^ (precision - 1) ≤ 10 ^ precision := by decide
    rw [abs_of_nonneg (by omega)]
    omega)
  have hlow : (10 : ℚ) ^ ((precision : ℤ) - 1 + tinyExponent) ≤ j :=
    le_trans (zpow_le_one_of_nonpos₀ (by norm_num) (by decide)) (by exact_mod_cast hone)
  -- the quotient exceeds the integer by a whole unit of the divisor, which the precision can tell
  refine absurd (lt_nearest (v := a / b) hrep hlow ?_) (not_lt.2 hle)
  have hunit : (j : ℚ) * b ≤ 10 ^ (precision - 1) := by
    exact_mod_cast (show j * b ≤ 10 ^ (precision - 1) by
      have ha' := (le_abs_self a).trans_lt ha
      omega)
  have hj' : (j : ℚ) * b + 1 ≤ a := by exact_mod_cast hj
  have hfrac : (j : ℚ) / 10 ^ (precision - 1) ≤ 1 / b := by
    rw [div_le_div_iff₀ (by positivity) hb', one_mul]
    exact hunit
  calc (j : ℚ) + j / 10 ^ (precision - 1) ≤ j + 1 / b := add_le_add_right hfrac _
    _ = (j * b + 1) / b := by field_simp
    _ ≤ a / b := by gcongr

/-- Moving up to a multiple leads to no less, unless the raw value has as many digits as the
precision. -/
theorem AlignedBelow.le_ceil_mul {x y : ℚ} (h : AlignedBelow (10 ^ (precision - 1)) x y)
    (hy : 0 < y) (hone : 1 ≤ ⌈nearest (x / y)⌉) : x ≤ ⌈nearest (x / y)⌉ * y := by
  obtain ⟨a, b, e, hx, hy', ha⟩ := h
  have hunit := ten_zpow_pos e
  have hb : 0 < b := by
    have hb' : (0 : ℚ) < b := pos_of_mul_pos_left (hy' ▸ hy) hunit.le
    exact_mod_cast hb'
  have hquot : x / y = a / b := by rw [hx, hy', mul_div_mul_right _ _ hunit.ne']
  rw [← div_le_iff₀ hy]
  rw [hquot] at hone ⊢
  exact le_ceil_nearest_div ha hb hone

namespace TradingRules

/-- `p` is the raw price, moved to the tick of the rules. -/
structure IsTicked (rules : TradingRules) (side : Option Side) (raw p : Decimal) : Prop where
  /-- It is a positive multiple of the tick within the bounds. -/
  onGrid : OnGrid rules.tick rules.minPrice rules.maxPrice p
  /-- Unless it is for a sell, it does not lie above the raw price. -/
  le_raw : side ≠ some .sell → p.value ≤ raw.value
  /-- Unless it is for a sell, it lies less than a tick below the raw price. -/
  raw_lt : side ≠ some .sell → raw.value < p.value + rules.tick.value
  /-- For a sell it lies less than a tick above the raw price. -/
  sub_lt : side = some .sell → p.value - rules.tick.value < raw.value
  /-- For a sell it does not lie below the raw price, if that has fewer digits than the precision
  beside the tick. -/
  raw_le : side = some .sell → AlignedBelow (10 ^ (precision - 1)) raw.value rules.tick.value →
    raw.value ≤ p.value

section

variable {rules : TradingRules} {side side' : Option Side} {raw raw' p p' : Decimal}

theorem tick_value_pos (htick : rules.tick.InContext) : 0 < rules.tick.value :=
  value_pos_of_le_zero_eq_false htick.isFinite rules.tick_pos

/-- Which price is returned: the multiple of the tick below the raw price, or above the rounded
quotient, as it is written. -/
theorem price_isWritten (htick : rules.tick.InContext) (h : rules.price side raw = .ok p) :
    raw.isFinite = true ∧ ∃ k : ℕ, Step.IsWritten rules.tick k p ∧
      (side ≠ some .sell →
        k * rules.tick.value ≤ raw.value ∧ raw.value < (k + 1) * rules.tick.value) ∧
      (side = some .sell → ⌈nearest (raw.value / rules.tick.value)⌉ = k) := by
  have hpos := tick_value_pos htick
  obtain ⟨hround, hshort, -⟩ := price_eq_ok h
  obtain ⟨hzero, -⟩ := fallsShort_eq_false hshort
  split_ifs at hround with hside
  · obtain ⟨k, hwritten, hraw, hceil⟩ := isWritten_of_ceilWritten htick hpos hround hzero
    exact ⟨hraw, k, hwritten, fun hne => absurd hside hne, fun _ => hceil⟩
  · obtain ⟨k, hwritten, hraw, hbetween⟩ := isWritten_of_floorWritten htick hpos hround hzero
    exact ⟨hraw, k, hwritten, fun _ => hbetween, fun heq => absurd heq hside⟩

/-- Only positive prices are moved to a tick. -/
theorem raw_pos_of_price (htick : rules.tick.InContext) (h : rules.price side raw = .ok p) :
    0 < raw.value := by
  have hpos := tick_value_pos htick
  obtain ⟨-, k, hwritten, hdown, hup⟩ := price_isWritten htick h
  by_cases hside : side = some .sell
  · exact (div_pos_iff_of_pos_right hpos).1 (hwritten.quotient_between htick hpos (hup hside)).1
  · exact (hwritten.value_eq ▸ hwritten.value_pos hpos).trans_le (hdown hside).1

/-- A price that is written is kept on either side, if it lies within the bounds. -/
theorem price_of_isWritten {k : ℕ} (htick : rules.tick.InContext)
    (hwritten : Step.IsWritten rules.tick k p) (hshort : fallsShort p rules.minPrice = .ok false)
    (hmax : ∀ bound, rules.maxPrice = some bound → bound.lt p = .ok false) (side : Option Side) :
    rules.price side p = .ok p := by
  have hpos := tick_value_pos htick
  have hround : (if side = some .sell then ceilWritten p rules.tick else
      floorWritten p rules.tick) = .ok p := by
    split_ifs
    · exact ceilWritten_isWritten hwritten htick hpos
    · exact floorWritten_isWritten hwritten htick hpos
  rw [price_eq, hround]
  refine (ite_reject_of_eq hshort).trans ?_
  cases hbound : rules.maxPrice with
  | none => rfl
  | some bound => exact ite_reject_of_eq (hmax bound hbound)

/-- A price that was moved is kept, also on the other side. -/
theorem price_keeps (htick : rules.tick.InContext) (h : rules.price side raw = .ok p)
    (side' : Option Side) : rules.price side' p = .ok p := by
  obtain ⟨-, k, hwritten, -⟩ := price_isWritten htick h
  -- the bounds are those that it was compared with before
  obtain ⟨-, hshort, hmax⟩ := price_eq_ok h
  exact price_of_isWritten htick hwritten hshort hmax side'

/-- A larger price is not moved to less. -/
theorem price_mono (htick : rules.tick.InContext) (hle : raw.value ≤ raw'.value)
    (h : rules.price side raw = .ok p) (h' : rules.price side raw' = .ok p') :
    p.value ≤ p'.value := by
  have hpos := tick_value_pos htick
  obtain ⟨-, k, hwritten, hdown, hup⟩ := price_isWritten htick h
  obtain ⟨-, k', hwritten', hdown', hup'⟩ := price_isWritten htick h'
  have hk : k ≤ k' := by
    by_cases hside : side = some .sell
    · have hceil := Int.ceil_mono (nearest_mono (div_le_div_of_nonneg_right hle hpos.le))
      rw [hup hside, hup' hside] at hceil
      exact_mod_cast hceil
    · have hlt := ((hdown hside).1.trans hle).trans_lt (hdown' hside).2
      rw [mul_lt_mul_iff_left₀ hpos] at hlt
      exact Nat.lt_succ_iff.1 (by exact_mod_cast hlt)
  exact hwritten.value_le hwritten' hpos hk

/-- A price for a sell lies less than a tick above the raw one. -/
theorem sub_lt_of_price_sell (htick : rules.tick.InContext)
    (h : rules.price (some .sell) raw = .ok p) : p.value - rules.tick.value < raw.value := by
  have hpos := tick_value_pos htick
  obtain ⟨-, k, hwritten, -, hup⟩ := price_isWritten htick h
  have hone := hwritten.one_le
  have hk : (k : ℤ) < 10 ^ precision := by exact_mod_cast hwritten.lt_pow htick hpos
  have hlt := lt_of_lt_ceil_nearest (v := raw.value / rules.tick.value) (j := (k : ℤ) - 1)
    (abs_le.2 ⟨by omega, by omega⟩) (by rw [hup rfl]; omega)
  rw [lt_div_iff₀ hpos] at hlt
  push_cast at hlt
  rw [hwritten.value_eq]
  linarith

/-- The price of a sell lies below the raw one at most by what rounding the quotient changes. -/
theorem sub_le_of_price_sell (htick : rules.tick.InContext)
    (h : rules.price (some .sell) raw = .ok p) : raw.value - raw.value / 10 ^ 27 ≤ p.value := by
  have hpos := tick_value_pos htick
  obtain ⟨-, k, hwritten, -, hup⟩ := price_isWritten htick h
  have hlt := sub_lt_of_price_sell htick h
  have hone : (1 : ℚ) ≤ k := by exact_mod_cast hwritten.one_le
  have hceil := Int.le_ceil (nearest (raw.value / rules.tick.value))
  rw [hup rfl, Int.cast_natCast] at hceil
  have hraw : raw.value = raw.value / rules.tick.value * rules.tick.value :=
    (div_mul_cancel₀ _ hpos.ne').symm
  rw [hwritten.value_eq] at hlt ⊢
  generalize raw.value / rules.tick.value = v at *
  have hstep : rules.tick.value ≤ k * rules.tick.value := le_mul_of_one_le_left hpos.le hone
  have hdigit : 0 ≤ raw.value / 10 ^ 27 :=
    div_nonneg (raw_pos_of_price htick h).le (by positivity)
  rcases le_total v 1 with hle | hge
  · have hsmall : raw.value ≤ rules.tick.value := hraw ▸ mul_le_of_le_one_left hpos.le hle
    linarith
  · -- more than one step is rounded by little beside itself
    have herr := abs_le.1 (abs_nearest_sub_le_of_le
      ((zpow_le_one_of_nonpos₀ (by norm_num) (by norm_num)).trans hge))
    have hv : v - v / 10 ^ 27 ≤ k := by linarith [herr.1]
    calc raw.value - raw.value / 10 ^ 27 = (v - v / 10 ^ 27) * rules.tick.value := by
          rw [hraw]
          ring
      _ ≤ k * rules.tick.value := mul_le_mul_of_nonneg_right hv hpos.le

/-- The price of a sell does not lie below the raw one, if that has fewer digits than the precision
beside the tick. -/
theorem le_of_price_sell (htick : rules.tick.InContext)
    (haligned : AlignedBelow (10 ^ (precision - 1)) raw.value rules.tick.value)
    (h : rules.price (some .sell) raw = .ok p) : raw.value ≤ p.value := by
  have hpos := tick_value_pos htick
  obtain ⟨-, k, hwritten, -, hup⟩ := price_isWritten htick h
  have hceil := hup rfl
  have hle := haligned.le_ceil_mul hpos (by rw [hceil]; exact_mod_cast hwritten.one_le)
  rwa [hceil, Int.cast_natCast, ← hwritten.value_eq] at hle

/-- The price of a sell lies below the raw one exactly where rounding the quotient takes all of its
fraction away. -/
theorem price_lt_iff_of_sell (htick : rules.tick.InContext)
    (h : rules.price (some .sell) raw = .ok p) :
    p.value < raw.value ↔ ∃ j : ℤ, nearest (raw.value / rules.tick.value) = j ∧
      j < raw.value / rules.tick.value := by
  have hpos := tick_value_pos htick
  obtain ⟨-, k, hwritten, -, hup⟩ := price_isWritten htick h
  have hceil := hup rfl
  rw [hwritten.value_eq, ← lt_div_iff₀ hpos]
  constructor
  · intro hlt
    -- the number of ticks can be held, so the rounded quotient does not come to lie below it
    have hrep : Representable (k : ℤ) := representable_intCast (by
      rw [abs_of_nonneg (by omega)]
      exact_mod_cast (hwritten.lt_pow htick hpos).le)
    have hlow : (k : ℚ) ≤ nearest (raw.value / rules.tick.value) := by
      have hmono := nearest_mono hlt.le
      rwa [← Int.cast_natCast, nearest_of_representable hrep] at hmono
    have hhigh := Int.le_ceil (nearest (raw.value / rules.tick.value))
    rw [hceil] at hhigh
    exact ⟨k, le_antisymm hhigh (by exact_mod_cast hlow), by exact_mod_cast hlt⟩
  · rintro ⟨j, hnear, hlt⟩
    rw [hnear, Int.ceil_intCast] at hceil
    rw [hceil] at hlt
    exact_mod_cast hlt

/-- Prices are moved to the right tick, whichever side they are for. They are kept when they are
moved again, for whatever side, and a larger price is not moved to less. -/
theorem price_ticks (htick : rules.tick.InContext) (h : rules.price side raw = .ok p) :
    rules.IsTicked side raw p ∧ (∀ side', rules.price side' p = .ok p) ∧
      ∀ raw' p', raw.value ≤ raw'.value → rules.price side raw' = .ok p' → p.value ≤ p'.value := by
  refine ⟨?_, price_keeps htick h, fun raw' p' hle h' => price_mono htick hle h h'⟩
  obtain ⟨-, k, hwritten, hdown, -⟩ := price_isWritten htick h
  exact {
    onGrid := price_ok htick h
    le_raw := fun hside => hwritten.value_eq.le.trans (hdown hside).1
    raw_lt := fun hside => by
      rw [hwritten.value_eq, ← add_one_mul]
      exact (hdown hside).2
    sub_lt := by
      rintro rfl
      exact sub_lt_of_price_sell htick h
    raw_le := by
      rintro rfl haligned
      exact le_of_price_sell htick haligned h }

end

/-- A sell on the sample market is moved up to a tick. -/
theorem price_ticks_sample : ∃ p, Sample.rules.price (some .sell) 1001.3 = .ok p ∧
    Sample.rules.IsTicked (some .sell) 1001.3 p ∧ (1001.3 : Decimal).value ≤ p.value := by
  have htick : Sample.rules.tick.InContext := inContext_finite (by decide) (by decide)
  have hprice : Sample.rules.price (some .sell) 1001.3 = .ok 1002.5 := by rfl
  have hticked := (price_ticks htick hprice).1
  refine ⟨_, hprice, hticked, hticked.raw_le rfl ⟨10013, 25, -1, ?_, ?_, by decide⟩⟩
  · exact value_positive 10013 (-1)
  · exact value_positive 25 (-1)

/-- With more digits than the precision the raw price may lie above the price for a sell. -/
example : Sample.rules.price (some .sell) 5.0000000000000000000000000001 = .ok 5.0 :=
  rfl

end TradingRules

end OrderTicket
