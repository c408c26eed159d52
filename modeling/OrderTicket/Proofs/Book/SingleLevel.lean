import OrderTicket.Proofs.Book.Closed
import OrderTicket.Proofs.Rules.Grid

/-!
# Amounts spent at one level

An amount of the quote currency that the best level is worth is spent there, at one price. The
quantity is a rounded quotient, and the average price is the amount divided by that quantity,
rounded again. It is the price of the level if the quantity needs no rounding; else it may differ
from it in the last digits, in either direction.

* `averageAt`: the average price of an amount that is spent at one price.
* `averageAt_eq`, `abs_averageAt_sub_le`: it is that price, exactly or nearly.
* `slippage_averageAt_le`: there is hardly any slippage.
* `Fill.SpentAt`, `Fill.spentAt_of_along`: the fill of such an amount.
-/

namespace OrderTicket

open Decimal

/-! ## The average price -/

/-- The average price of an amount that is spent at one price: the amount divided by the rounded
quantity. -/
def averageAt (amount price : ℚ) : ℚ :=
  nearest (amount / nearest (amount / price))

section AverageAt

variable {amount price : ℚ}

/-- The average is the price if the quantity needs no rounding. -/
theorem averageAt_eq (hprice : Representable price) (hamount : amount ≠ 0)
    (hquantity : Representable (amount / price)) : averageAt amount price = price := by
  rw [averageAt, nearest_of_representable hquantity, div_div_cancel₀ hamount,
    nearest_of_representable hprice]

/-- The average is close to the price if neither price nor quantity is very small. -/
theorem abs_averageAt_sub_le (hprice : (10 : ℚ) ^ (-1000 : ℤ) ≤ price)
    (hquantity : (10 : ℚ) ^ (-1000 : ℤ) ≤ amount / price) :
    |averageAt amount price - price| ≤ price / 10 ^ 26 := by
  have hsmall : (10 : ℚ) ^ (-2000 : ℤ) ≤ 10 ^ (-1000 : ℤ) / 2 := by
    rw [le_div_iff₀ two_pos]
    calc (10 : ℚ) ^ (-2000 : ℤ) * 2 ≤ 10 ^ (-2000 : ℤ) * 10 ^ (1000 : ℤ) := by
          refine mul_le_mul_of_nonneg_left ?_ (ten_zpow_pos _).le
          exact (by norm_num : (2 : ℚ) ≤ 10 ^ (1 : ℤ)).trans
            (zpow_le_zpow_right₀ (by norm_num) (by norm_num))
      _ = 10 ^ (-1000 : ℤ) := by rw [← ten_zpow_add]; norm_num
  have hpos := (ten_zpow_pos _).trans_le hprice
  have hpos' := (ten_zpow_pos _).trans_le hquantity
  rw [averageAt]
  -- the quantity is rounded first
  have herr := abs_nearest_sub_le_of_le (v := amount / price) (by linarith)
  have hamount : amount = price * (amount / price) := by rw [mul_div_cancel₀ _ hpos.ne']
  generalize amount / price = v at *
  generalize nearest v = q at *
  obtain ⟨hlow, hhigh⟩ := abs_le.1 herr
  have hhalf : v / 2 ≤ q := by linarith
  have hq : 0 < q := by linarith
  -- so the quotient is close to the price, and it is rounded once more
  have hratio : |amount / q - price| ≤ price / 10 ^ 27 := by
    have hdiff : amount / q - price = price * (v - q) / q := by
      rw [hamount]
      field_simp
    rw [hdiff, abs_div, abs_mul, abs_of_pos hpos, abs_of_pos hq, div_le_iff₀ hq, abs_sub_comm]
    calc price * |q - v| ≤ price * (v / (2 * 10 ^ 27)) := mul_le_mul_of_nonneg_left herr hpos.le
      _ = price / 10 ^ 27 * (v / 2) := by ring
      _ ≤ price / 10 ^ 27 * q := mul_le_mul_of_nonneg_left hhalf (by positivity)
  obtain ⟨hlow', hhigh'⟩ := abs_le.1 hratio
  obtain ⟨hlow, hhigh⟩ := abs_le.1 (abs_nearest_sub_le_of_le (v := amount / q) (by linarith))
  rw [abs_le]
  constructor <;> linarith

/-- The average of an amount at one price has hardly any slippage. -/
theorem slippage_averageAt_le (hprice : (10 : ℚ) ^ (-1000 : ℤ) ≤ price)
    (hquantity : (10 : ℚ) ^ (-1000 : ℤ) ≤ amount / price) :
    slippage price (averageAt amount price) ≤ 10 ^ (-23 : ℤ) := by
  have hpos := (ten_zpow_pos _).trans_le hprice
  obtain ⟨m, hlow, hhigh⟩ := exists_mem_Ico_zpow hpos (by norm_num : (1 : ℚ) < 10)
  have hm : -1000 < m + 1 :=
    (zpow_lt_zpow_iff_right₀ (by norm_num : (1 : ℚ) < 10)).1 (hprice.trans_lt hhigh)
  have ht : tinyExponent = -1000026 := rfl
  rw [show (-23 : ℤ) = -25 + 2 from rfl]
  refine slippage_le (m := m) (by omega) (by omega) hlow ?_
  calc |averageAt amount price - price| ≤ price / 10 ^ 26 :=
        abs_averageAt_sub_le hprice hquantity
    _ ≤ 10 ^ (m + 1) / 10 ^ 26 := div_le_div_of_nonneg_right hhigh.le (by norm_num)
    _ = 10 ^ (m + -25) := by
      rw [ten_zpow_add, ten_zpow_add, mul_div_assoc]
      norm_num

end AverageAt

namespace Fill

/-! ## The fill -/

/-- The fill of an amount that is spent at one level. -/
structure SpentAt (amount price : ℚ) (fill : Fill) : Prop where
  /-- The quantity is the rounded quotient. -/
  quantity : Exactly (nearest (amount / price)) fill.quantity
  /-- The whole amount is spent. -/
  notional : Exactly amount fill.notional
  /-- The average price is rounded once more. -/
  averagePrice : Exactly (averageAt amount price) fill.averagePrice
  /-- The slippage is that of the average price. -/
  slippagePercent : Exactly (slippage price (averageAt amount price)) fill.slippagePercent
  /-- The side does not end. -/
  exhausted : fill.exhausted = false

/-- An amount that a level is worth, in numbers that the context can hold. -/
structure Fits (amount : Decimal) (level : Level) : Prop extends level.Positive where
  /-- The amount can be held. -/
  amount_inContext : amount.InContext
  /-- The amount is positive. -/
  amount_pos : 0 < amount.value
  /-- The price of the level can be held. -/
  price_inContext : level.price.InContext
  /-- The quantity of the level can be held. -/
  quantity_inContext : level.quantity.InContext
  /-- The level is worth the amount. -/
  le_worth : amount.value ≤ level.quantity.value * level.price.value

variable {side : Side} {best : Level} {rest : List Level} {requested : Decimal}
  {progress : Progress}
  {fill : Fill}

/-- What a level gives for an amount that it is worth. -/
theorem take_of_fits (hfits : Fits requested best) {r : Decimal × Decimal × Decimal}
    (h : take .notional requested best = .ok r) :
    Exactly (nearest (requested.value / best.price.value)) r.1 ∧ r.2 = (requested, 0) := by
  obtain ⟨affordable, hdiv, h⟩ := bind_eq_ok h
  obtain ⟨enough, henough, h⟩ := bind_eq_ok h
  have hcomputes :=
    div_computes hfits.amount_inContext.isFinite hfits.price_inContext.isFinite hfits.price_pos.ne'
  have hexact := hcomputes.exactly_nearest hdiv
  -- the quantity of the level is representable, so rounding does not go beyond it
  have hle : affordable.value ≤ best.quantity.value :=
    (hcomputes.rounded hdiv).value_le hfits.quantity_inContext.representable
      ((div_le_iff₀ hfits.price_pos).2 hfits.le_worth)
  rw [le_eq hexact.isFinite hfits.quantity_inContext.isFinite, decide_eq_true hle] at henough
  obtain rfl := Except.ok.inj henough
  obtain rfl := Except.ok.inj h
  exact ⟨hexact, rfl⟩

/-- A walk for an amount that the first level is worth ends after that level. -/
theorem walk_of_fits (hfits : Fits requested best)
    (h : walk .notional (best :: rest) ⟨requested, 0, 0, best.price, 0⟩ = .ok progress) :
    progress.remaining = 0 ∧
      Exactly (nearest (requested.value / best.price.value)) progress.quantity ∧
      Exactly requested.value progress.notional := by
  obtain ⟨done, hdone, h⟩ := bind_eq_ok h
  rw [le_zero_eq hfits.amount_inContext.isFinite,
    decide_eq_false (not_le.2 hfits.amount_pos)] at hdone
  obtain rfl := Except.ok.inj hdone
  obtain ⟨next, hnext, h⟩ := bind_eq_ok h
  obtain ⟨⟨taken, spent, left⟩, htake, hnext⟩ := bind_eq_ok hnext
  obtain ⟨sum, hsum, hnext⟩ := bind_eq_ok hnext
  obtain ⟨value, hvalue, hnext⟩ := bind_eq_ok hnext
  obtain rfl := Except.ok.inj hnext
  obtain ⟨htaken, hrest⟩ := take_of_fits hfits htake
  obtain ⟨rfl, rfl⟩ := Prod.mk.inj hrest
  rw [walk_of_done rfl (by simp)] at h
  obtain rfl := Except.ok.inj h
  -- both sums start from zero, so they are not rounded again
  have hsum := (add_computes rfl htaken.isFinite).exactly_nearest hsum
  have hvalue := (add_computes rfl hfits.amount_inContext.isFinite).exactly_nearest hvalue
  rw [value_ofNat, Nat.cast_zero, zero_add, htaken.value_eq, nearest_nearest] at hsum
  rw [value_ofNat, Nat.cast_zero, zero_add,
    nearest_of_representable hfits.amount_inContext.representable] at hvalue
  exact ⟨rfl, hsum, hvalue⟩

/-- The fill of an amount that the first level is worth is spent at its price. -/
theorem spentAt_of_along (hfits : Fits requested best)
    (h : along side .notional requested best rest = .ok fill) :
    fill.SpentAt requested.value best.price.value := by
  obtain ⟨progress, hwalk, hdivided⟩ := bind_eq_ok h
  obtain ⟨hremaining, hquantity, hnotional⟩ := walk_of_fits hfits hwalk
  have hcloses := closes_of_along h hwalk (by rw [hremaining]; rfl) hquantity.isFinite
    hnotional.isFinite hfits.price_inContext.isFinite
  have haverage := hcloses.averagePrice
  have hslippage := hcloses.slippagePercent
  rw [hnotional.value_eq, hquantity.value_eq] at haverage
  rw [haverage.value_eq] at hslippage
  refine ⟨hcloses.quantity ▸ hquantity, hcloses.notional ▸ hnotional, haverage, hslippage, ?_⟩
  rw [Bool.eq_false_iff, Ne, hcloses.exhausted, hremaining]
  simp

end Fill

end OrderTicket
