import OrderTicket.Proofs.Book.Larger
import OrderTicket.Proofs.Book.Within
import OrderTicket.Proofs.Rules.Grid

/-!
# The advised size is the slippage limit

The size that is advised for a slippage adds up levels, and a fill walks them. Where nothing is
rounded both stop at the same place: an order ends within the price limit exactly if it is no
larger than the advised size. Its slippage goes through four more rounded operations, and none of
them takes it above the slippage that was asked for, since that is representable. With rules the
size is cut to the step of market orders.

* `Side.priceLimit`, `Side.ExactLimit`: the price limit of a slippage, and limits that are not
  rounded.
* `Book.priceLimit_returns`: the limit that is computed.
* `Fill.Takes.slippageBps_returns`: the slippage of a fill that ends within the limit.
* `TradingRules.isGreatest_of_floorWritten`: cutting to a step.
* `Book.Advised`, `Book.quantityWithin_advised`: the advised size.
-/

namespace OrderTicket

open Decimal

/-! ## The limit -/

/-- The worst price that a slippage in hundredths of a percent allows. -/
def Side.priceLimit (side : Side) (best bps : ℚ) : ℚ :=
  best * (1 + side.sign * (bps / 10000))

/-- A slippage of which no step to the price limit is rounded. With a factor that is rounded the
limit can lie below a price that is exactly at it. -/
structure Side.ExactLimit (side : Side) (best bps : ℚ) : Prop where
  /-- The slippage as a ratio. -/
  ratio : Representable (bps / 10000)
  /-- The factor of the best price. -/
  factor : Representable (1 + side.sign * (bps / 10000))
  /-- The price limit. -/
  limit : Representable (side.priceLimit best bps)

namespace Decimal

variable {v : ℚ} {k : ℤ}

/-- A representable number times a power of ten that is not below one is representable. -/
theorem Representable.mul_zpow (h : Representable v) (hk : 0 ≤ k) : Representable (v * 10 ^ k) := by
  obtain ⟨m, e, hm, he, rfl⟩ := h
  exact ⟨m, e + k, hm, by omega, by rw [ten_zpow_add, mul_assoc]⟩

/-- A large representable value is a multiple of ten. -/
theorem Representable.exists_mul_ten (h : Representable v) (hlarge : 10 ^ precision ≤ |v|) :
    ∃ m : ℤ, v = ((m * 10 : ℤ) : ℚ) := by
  obtain ⟨m, e, hm, -, rfl⟩ := h
  have he : 1 ≤ e := by
    by_contra hlt
    have hle : (10 : ℚ) ^ e ≤ 1 := zpow_le_one_of_nonpos₀ (by norm_num) (by omega)
    have hcast : (|m| : ℚ) < 10 ^ precision := by exact_mod_cast hm
    rw [abs_mul, abs_of_pos (ten_zpow_pos e)] at hlarge
    exact absurd (hlarge.trans (mul_le_of_le_one_right (abs_nonneg _) hle)) (not_le.2 hcast)
  refine ⟨m * 10 ^ (e - 1).toNat, ?_⟩
  rw [ten_zpow_eq_mul he, zpow_one]
  push_cast
  ring

/-- A representable number is not very large if the next one, or the one before, is
representable. -/
theorem Representable.abs_lt (h : Representable v) {sign : ℚ} (hsign : |sign| = 1)
    (hsucc : Representable (1 + sign * v)) : |v| < 10 ^ (29 : ℤ) := by
  by_contra hlarge
  have habs : |sign * v| = |v| := by rw [abs_mul, hsign, one_mul]
  have hlarge' : (10 : ℚ) ^ precision ≤ |1 + sign * v| := by
    have hsub := abs_sub_abs_le_abs_sub (sign * v) (-1)
    rw [abs_neg, abs_one, sub_neg_eq_add, add_comm (sign * v), habs] at hsub
    refine le_trans ?_ hsub
    norm_num [precision] at hlarge ⊢
    linarith
  obtain ⟨m, hm⟩ := h.exists_mul_ten (by norm_num [precision] at hlarge ⊢; linarith)
  obtain ⟨n, hn⟩ := hsucc.exists_mul_ten hlarge'
  -- a difference of one is no multiple of ten
  rcases eq_or_eq_neg_of_abs_eq hsign with rfl | rfl
  · rw [hm] at hn
    have hint : (1 : ℤ) + m * 10 = n * 10 := by
      exact_mod_cast (by linarith : (1 : ℚ) + ((m * 10 : ℤ) : ℚ) = ((n * 10 : ℤ) : ℚ))
    omega
  · rw [hm] at hn
    have hint : (1 : ℤ) - m * 10 = n * 10 := by
      exact_mod_cast (by linarith : (1 : ℚ) - ((m * 10 : ℤ) : ℚ) = ((n * 10 : ℤ) : ℚ))
    omega

end Decimal

variable {a b : ℕ} {side : Side} {best last : Level} {rest : List Level} {bps : ℚ}

namespace Book

/-- The limit is computed without rounding. -/
theorem priceLimit_returns {best bps : Decimal} (hbest : best.isFinite = true)
    (hlt : |best.value| < 10 ^ (27 : ℤ)) (hbps : bps.isFinite = true)
    (hexact : side.ExactLimit best.value bps.value) :
    Returns (priceLimit side best bps) (Exactly (side.priceLimit best.value bps.value)) := by
  have hratio : |bps.value / 10000| < 10 ^ (29 : ℤ) :=
    hexact.ratio.abs_lt side.abs_sign hexact.factor
  have hfactor : |1 + side.sign * (bps.value / 10000)| < 10 ^ (30 : ℤ) := by
    have hadd := abs_add_le 1 (side.sign * (bps.value / 10000))
    rw [abs_mul, side.abs_sign, one_mul, abs_one] at hadd
    norm_num at hratio hadd ⊢
    linarith
  have hlimit : |side.priceLimit best.value bps.value| < 10 ^ (57 : ℤ) := by
    rw [Side.priceLimit, abs_mul, (by norm_num : (57 : ℤ) = 27 + 30), ten_zpow_add]
    exact mul_lt_mul'' hlt hfactor (abs_nonneg _) (abs_nonneg _)
  have hten : (10000 : Decimal).value = 10000 := value_ofNat 10000
  have hdiv := div_computes hbps (y := 10000) rfl (by norm_num [hten])
  rw [hten] at hdiv
  refine .bind (hdiv.returns_exactly hexact.ratio (hratio.trans
    (zpow_lt_zpow_right₀ (by norm_num) (by decide)))) fun tolerance htolerance => ?_
  -- the factor is a sum for buys and a difference for sells
  have hproduct {factor : Decimal}
      (hexactly : Exactly (1 + side.sign * (bps.value / 10000)) factor) :
      Returns (best.mul factor) (Exactly (side.priceLimit best.value bps.value)) := by
    have hmul := mul_computes hbest hexactly.isFinite
    rw [hexactly.value_eq] at hmul
    exact hmul.returns_exactly hexact.limit
      (hlimit.trans (zpow_lt_zpow_right₀ (by norm_num) (by decide)))
  have hbound := hfactor.trans (zpow_lt_zpow_right₀ (by norm_num) (by decide : 30 < maxExponent))
  have hone : (1 : Decimal).value = 1 := by simp
  cases side with
  | buy =>
    have hadd := add_computes (x := 1) rfl htolerance.isFinite
    rw [hone, htolerance.value_eq, ← one_mul (bps.value / 10000)] at hadd
    exact .bind (hadd.returns_exactly hexact.factor hbound) fun factor => hproduct
  | sell =>
    have hsub := sub_computes (x := 1) rfl htolerance.isFinite
    rw [hone, htolerance.value_eq, sub_eq_add_neg, ← neg_one_mul] at hsub
    exact .bind (hsub.returns_exactly hexact.factor hbound) fun factor => hproduct

end Book

/-! ## The slippage of a fill -/

/-- A price within the limit is no farther from the best one than the slippage allows. -/
theorem abs_sub_le_of_within {best price : ℚ} (hle : side.sign * best ≤ side.sign * price)
    (hwithin : side.sign * price ≤ side.sign * side.priceLimit best bps) :
    |price - best| ≤ best * (bps / 10000) := by
  have hlimit : side.sign * side.priceLimit best bps =
      side.sign * best + side.sign * side.sign * (best * (bps / 10000)) := by
    rw [Side.priceLimit]
    ring
  rw [side.sign_mul_sign, one_mul] at hlimit
  rw [Fill.abs_sub_eq_sign hle]
  linarith

/-- The slippage of a price whose distance from the best one is not rounded. -/
theorem slippage_le_percent {best price ratio : ℚ} (hbest : 0 < best) (hratio : Representable ratio)
    (hprice : Representable (price - best)) (hle : |price - best| ≤ best * ratio) :
    slippage best price ≤ ratio * 10 ^ (2 : ℤ) := by
  have hquotient : |price - best| / best ≤ ratio := by
    rw [div_le_iff₀ hbest]
    linarith
  have hnearest := nearest_mono hquotient
  rw [nearest_of_representable hratio] at hnearest
  rw [slippage, nearest_of_representable hprice, nearest_abs, nearest_of_representable hprice,
    ← nearest_of_representable (hratio.mul_zpow (k := 2) (by decide))]
  refine nearest_mono ?_
  norm_num at hnearest ⊢
  linarith

namespace Fill

variable {needed : ℚ} {fill : Fill}

/-- A fill that ends within the limit has no more slippage than was asked for. -/
theorem Takes.slippageBps_returns (h : fill.Takes needed (best :: rest)) (hab : a + b ≤ 1000)
    (hlevels : ∀ level ∈ best :: rest, level.Scaled a b) (hsorted : Sorted side (best :: rest))
    (hneeded : 0 < needed)
    (hnotional : totalNotional (best :: rest) < 10 ^ (27 - (a + b : ℕ) : ℤ))
    (hexact : side.ExactLimit best.price.value bps)
    (hwithin : side.sign * fill.worstPrice.value ≤
      side.sign * side.priceLimit best.price.value bps) :
    Returns fill.slippageBps fun r => r.isFinite = true ∧ r.value ≤ bps := by
  have hfill := h.isBest hab hlevels hsorted hneeded hnotional
  have hbest : best.price = fill.bestPrice := Option.some.inj h.bestPrice
  have hfirst : best ∈ best :: rest := List.mem_cons_self
  obtain ⟨last, hlast, hworst⟩ := Option.map_eq_some_iff.1 h.worstPrice
  have hmem : last ∈ best :: rest := List.mem_of_mem_take (List.mem_of_getLast? hlast)
  have hlow := hfill.best_le_average
  have hhigh := hfill.average_le_worst
  rw [← hbest] at hlow
  rw [← hworst] at hhigh hwithin
  -- the distance of the worst price is not rounded
  have hrep : Representable (last.price.value - best.price.value) := by
    refine ((hlevels last hmem).price.sub (hlevels best hfirst).price).representable (by omega) ?_
    have hlt := price_lt_limit hlevels hmem hnotional
    have hlt' := price_lt_limit hlevels hfirst hnotional
    have hpos := (hlevels last hmem).price_pos
    have hpos' := (hlevels best hfirst).price_pos
    exact abs_lt.2 ⟨by linarith, by linarith⟩
  have hdistance : |fill.averagePrice.value - best.price.value| ≤
      |last.price.value - best.price.value| := by
    rw [abs_sub_eq_sign hlow, abs_sub_eq_sign (hlow.trans hhigh)]
    linarith
  have hpercent : fill.slippagePercent.value ≤ bps / 10000 * 10 ^ (2 : ℤ) := by
    rw [h.slippagePercent.value_eq, ← hbest]
    exact (slippage_mono (hlevels best hfirst).price_pos.le hdistance).trans
      (slippage_le_percent (hlevels best hfirst).price_pos hexact.ratio hrep
        (abs_sub_le_of_within (hlow.trans hhigh) hwithin))
  have hratio := hexact.ratio.abs_lt side.abs_sign hexact.factor
  have hnonneg := hfill.slippagePercent_nonneg
  have hbps : bps = bps / 10000 * 10 ^ (4 : ℤ) := by
    norm_num
  have hle : fill.slippagePercent.value * value 100 ≤ bps := by
    rw [value_ofNat]
    norm_num at hpercent ⊢
    linarith
  have hsmall : |fill.slippagePercent.value * value 100| ≤ 10 ^ (33 : ℤ) := by
    rw [abs_of_nonneg (mul_nonneg hnonneg (by simp))]
    norm_num at hratio ⊢
    linarith [le_abs_self (bps / 10000)]
  refine ((mul_computes h.slippagePercent.isFinite rfl).returns_nearest (by decide) (by decide)
    hsmall).mono fun r hr => ⟨hr.1.isFinite, ?_⟩
  rw [hr.1.value_eq]
  have hbound := nearest_mono hle
  rwa [hbps, nearest_of_representable (hexact.ratio.mul_zpow (by decide)), ← hbps] at hbound

end Fill

/-! ## Steps -/

/-- A finite number with no more digits than the precision. -/
structure Decimal.Short (x : Decimal) : Prop where
  /-- The number is finite. -/
  isFinite : x.isFinite = true
  /-- It has few digits. -/
  digits : ∃ k e : ℤ, |k| < 10 ^ precision ∧ x.value = k * 10 ^ e

/-- What is cut to a step is the largest multiple of it that is not above the number. -/
theorem TradingRules.isGreatest_of_floorWritten {value step r : Decimal}
    (hvalue : value.isFinite = true) (hlow : (10 : ℚ) ^ (-1000 : ℤ) ≤ value.value)
    (hstep : step.Short) (hpos : 0 < step.value) (h : floorWritten value step = .ok r) :
    r.isFinite = true ∧
      IsGreatest {v | (∃ k : ℤ, v = k * step.value) ∧ v ≤ value.value} r.value := by
  obtain ⟨x, hx, hwrite⟩ := bind_eq_ok h
  obtain ⟨q, hq, hmul⟩ := bind_eq_ok (liftM_eq_ok hx)
  obtain ⟨hfits, hqfin, hquotient⟩ := divTrunc_ok hvalue hstep.isFinite hpos.ne' hq
  have hvaluePos := (ten_zpow_pos _).trans_le hlow
  -- a step that the number is divided by is not very small, so the context can hold it
  have hcontext : step.InContext := by
    obtain ⟨k, e, hk, hke⟩ := hstep.digits
    refine ⟨hstep.isFinite, k, e, hk, ?_, hke⟩
    rw [abs_of_pos (div_pos hvaluePos hpos), div_lt_iff₀ hpos, hke] at hfits
    have hcast : (k : ℚ) ≤ 10 ^ precision := by exact_mod_cast (le_abs_self k).trans hk.le
    have hlt : (10 : ℚ) ^ (-1000 : ℤ) < 10 ^ ((precision : ℤ) + precision + e) := by
      refine (hlow.trans_lt hfits).trans_le ?_
      rw [ten_zpow_add, ten_zpow_add, zpow_natCast, mul_assoc]
      exact mul_le_mul_of_nonneg_left (mul_le_mul_of_nonneg_right hcast (ten_zpow_pos e).le)
        (by positivity)
    have hexp := (zpow_lt_zpow_iff_right₀ (by norm_num : (1 : ℚ) < 10)).1 hlt
    have hp : (precision : ℤ) = 28 := rfl
    have ht : tinyExponent = -1000026 := rfl
    omega
  have hround := (mul_computes hqfin hstep.isFinite).rounded hmul
  rw [hquotient] at hround
  obtain ⟨-, hrfin, hrvalue⟩ := Step.write_ok hcontext hpos hround hwrite
  rw [towardZero, if_pos (div_nonneg hvaluePos.le hpos.le)] at hrvalue
  refine ⟨hrfin, ⟨⟨_, hrvalue⟩, ?_⟩, ?_⟩
  · rw [hrvalue, ← le_div_iff₀ hpos]
    exact Int.floor_le _
  · rintro _ ⟨⟨k, rfl⟩, hk⟩
    rw [hrvalue]
    refine mul_le_mul_of_nonneg_right ?_ hpos.le
    exact_mod_cast Int.le_floor.2 ((le_div_iff₀ hpos).2 hk)

/-! ## The advised size -/

namespace Book

/-- A fill whose price stays within the limit of a slippage exactly if the order is not larger than
a size. -/
structure LimitedBy (side : Side) (best bps most requested : ℚ) (fill : Fill) : Prop where
  /-- The worst price is finite. -/
  worstPrice_isFinite : fill.worstPrice.isFinite = true
  /-- It is within the limit exactly for orders that are not larger. -/
  within_iff : side.sign * fill.worstPrice.value ≤ side.sign * side.priceLimit best bps ↔
    requested ≤ most
  /-- Orders that are not larger have no more slippage than that. -/
  slippageBps : requested ≤ most →
    Returns fill.slippageBps fun r => r.isFinite = true ∧ r.value ≤ bps

/-- A size that is the limit of a slippage, for orders whose quantity has at most `b` decimals. -/
structure Advised (b : ℕ) (book : Book) (side : Side) (best : ℚ) (bps most : Decimal) : Prop where
  /-- The size is finite. -/
  isFinite : most.isFinite = true
  /-- It is positive. -/
  pos : 0 < most.value
  /-- Orders that the side can fill are within the limit exactly if they are not larger. -/
  fill : ∀ requested : Decimal, 0 < requested.value → Decimal.HasPlaces b requested.value →
    requested.value ≤ OrderTicket.totalQuantity (book.levels side) →
    Returns (book.fill side (some requested) none)
      (LimitedBy side best bps.value most.value requested.value)
  /-- With rules, whatever is returned is the largest multiple of the step of market orders that is
  not above it. -/
  floor : ∀ (rules : TradingRules) (r : Decimal), (rules.lot true).step.Short →
    book.quantityWithin side bps (some rules) = .ok r →
    r.isFinite = true ∧
      IsGreatest {v | (∃ k : ℤ, v = k * (rules.lot true).step.value) ∧ v ≤ most.value} r.value

/-- The fill of an order that the side can fill is limited by what the side holds within the price
limit. -/
theorem limitedBy_of_takes {requested : ℚ} {fill : Fill}
    (h : fill.Takes requested (best :: rest)) (hab : a + b ≤ 1000)
    (hlevels : ∀ level ∈ best :: rest, level.Scaled a b)
    (hsorted : Fill.Sorted side (best :: rest)) (hpos : 0 < requested)
    (hle : requested ≤ OrderTicket.totalQuantity (best :: rest))
    (hnotional : totalNotional (best :: rest) < 10 ^ (27 - (a + b : ℕ) : ℤ))
    (hexact : side.ExactLimit best.price.value bps) :
    LimitedBy side best.price.value bps
      (held (fun v => side.sign * v ≤ side.sign * side.priceLimit best.price.value bps)
        (best :: rest)) requested fill := by
  obtain ⟨last, hlast, hworst⟩ := Option.map_eq_some_iff.1 h.worstPrice
  have hmem : last ∈ best :: rest := List.mem_of_mem_take (List.mem_of_getLast? hlast)
  have hreached := Fill.reached_of_last (positive_of_scaled hlevels) hsorted hpos hlast
  rw [hworst] at hreached
  have hiff : side.sign * fill.worstPrice.value ≤
      side.sign * side.priceLimit best.price.value bps ↔ _ :=
    hreached.within_iff (stocked_of_scaled hlevels) hle
  exact ⟨hworst ▸ (hlevels last hmem).price_isFinite, hiff, fun hwithin =>
    h.slippageBps_returns hab hlevels hsorted hpos hnotional hexact (hiff.2 hwithin)⟩

variable {symbol : String} {depth timestamp : Payload} {book : Book} {bps : Decimal}

/-- The sum up to the price limit is what the side holds within it. -/
theorem exists_sum_within (hb : b ≤ 1000) (hlevels : ∀ level ∈ best :: rest, level.Scaled a b)
    (hsorted : Fill.Sorted side (best :: rest))
    (hquantity : OrderTicket.totalQuantity (best :: rest) < 10 ^ (27 - b : ℤ))
    (hnotional : totalNotional (best :: rest) < 10 ^ (27 - (a + b : ℕ) : ℤ))
    (hbps : bps.isFinite = true) (hexact : side.ExactLimit best.price.value bps.value) :
    ∃ limit most, priceLimit side best.price bps = .ok limit ∧
      quantityUpTo side limit (best :: rest) 0 = .ok most ∧
      Decimal.Scaled b (10 ^ (27 - b : ℤ)) most ∧
      most.value = held (fun v => side.sign * v ≤
        side.sign * side.priceLimit best.price.value bps.value) (best :: rest) := by
  have hfirst : best ∈ best :: rest := List.mem_cons_self
  have hbest : |best.price.value| < 10 ^ (27 : ℤ) := by
    rw [abs_of_pos (hlevels best hfirst).price_pos]
    exact (price_lt_limit hlevels hfirst hnotional).trans_le
      (zpow_le_zpow_right₀ (by norm_num) (by omega))
  obtain ⟨limit, hlimit, hvalue⟩ :=
    priceLimit_returns (hlevels best hfirst).price_isFinite hbest hbps hexact
  obtain ⟨most, hmost, hsum⟩ := quantityUpTo_returns hb hlevels hsorted
    (isNumber_of_isFinite hvalue.isFinite)
    (Fill.room_start 0 best.price hquantity hnotional).quantity
  refine ⟨limit, most, hlimit, hmost, hsum.toScaled, ?_⟩
  rw [hsum.value_eq, value_ofNat, Nat.cast_zero, zero_add, ← hvalue.value_eq]
  exact held_congr (fun v => Side.within_iff hvalue.isFinite) _

/-- The advised size is the limit of the slippage, if prices and quantities have few decimals, the
totals are not large and the price limit needs no rounding. -/
theorem quantityWithin_advised (hbook : ofDepth symbol depth timestamp = .ok book) (side : Side)
    (hside : book.levels side = best :: rest) (hab : a + b ≤ 1000)
    (hlevels : ∀ level ∈ book.levels side, level.HasPlaces a b)
    (hquantity : OrderTicket.totalQuantity (book.levels side) < 10 ^ (27 - b : ℤ))
    (hnotional : totalNotional (book.levels side) < 10 ^ (27 - (a + b : ℕ) : ℤ))
    (hbps : bps.isFinite = true) (hnonneg : 0 ≤ bps.value)
    (hexact : side.ExactLimit best.price.value bps.value) :
    ∃ most, book.quantityWithin side bps none = .ok most ∧
      book.Advised b side best.price.value bps most := by
  have hsorted : Fill.Sorted side (book.levels side) :=
    pairwise_levels hbook fun level hlevel => (hlevels level hlevel).price_isFinite
  have hscaled := scaled_levels hbook hlevels
  have hfills (requested : Decimal) (hpos : 0 < requested.value)
      (hplaces : Decimal.HasPlaces b requested.value)
      (hle : requested.value ≤ OrderTicket.totalQuantity (book.levels side)) :=
    fill_takes_of_lt hbook side (hside ▸ List.cons_ne_nil best rest) hpos hab hlevels hplaces
      (hle.trans_lt hquantity) hquantity hnotional
  rw [hside] at hscaled hsorted hquantity hnotional hfills
  obtain ⟨limit, most, hlimit, hmost, hsum, hvalue⟩ :=
    exists_sum_within (by omega) hscaled hsorted hquantity hnotional hbps hexact
  have hadvised := quantityWithin_eq hside hlimit hmost
  -- the best price itself is within the limit
  have hbest := hscaled best List.mem_cons_self
  have hwithin : side.sign * best.price.value ≤
      side.sign * side.priceLimit best.price.value bps.value := by
    have hmore := mul_nonneg hbest.price_pos.le (div_nonneg hnonneg (by norm_num : (0 : ℚ) ≤ 10000))
    rw [Side.priceLimit, mul_add, mul_add, mul_one, mul_left_comm best.price.value, ← mul_assoc,
      side.sign_mul_sign, one_mul]
    linarith
  have hpos : 0 < most.value := by
    rw [hvalue, held_cons, if_pos hwithin]
    have hrest := held_nonneg (p := fun v => side.sign * v ≤
      side.sign * side.priceLimit best.price.value bps.value)
      (stocked_of_scaled (List.forall_mem_cons.1 hscaled).2)
    linarith [hbest.quantity_pos]
  refine ⟨most, hadvised none, hsum.isFinite, hpos, fun requested hrequested hplaces hle => ?_,
    fun rules r hstep hr => ?_⟩
  · rw [hside] at hle
    rw [hvalue]
    exact (hfills requested hrequested hplaces hle).mono fun fill hfill =>
      limitedBy_of_takes hfill hab hscaled hsorted hrequested hle hnotional hexact
  · rw [hadvised (some rules)] at hr
    have hlow := (zpow_le_zpow_right₀ (by norm_num : (1 : ℚ) ≤ 10)
      (by omega : (-1000 : ℤ) ≤ -b)).trans (hsum.hasPlaces.le_of_pos hpos)
    exact TradingRules.isGreatest_of_floorWritten hsum.isFinite hlow hstep
      (value_pos_of_le_zero_eq_false hstep.isFinite (rules.lot_step_pos true)) hr

/-- A slippage of 40 hundredths of a percent allows the better ask, which holds two units. -/
theorem quantityWithin_advised_purchase :
    ∃ book, ofDepth "BTCUSDT" Sample.depth .null = .ok book ∧
      ∃ most, book.quantityWithin .buy 40 none = .ok most ∧
        book.Advised 0 .buy (Decimal.finite false 1005 (-1)).value 40 most := by
  obtain ⟨book, hbook, hasks⟩ := Sample.exists_book
  have hexact : Side.buy.ExactLimit (Decimal.finite false 1005 (-1)).value (Decimal.value 40) := by
    refine ⟨⟨4, -3, by decide, by decide, ?_⟩, ⟨1004, -3, by decide, by decide, ?_⟩,
      ⟨100902, -3, by decide, by decide, ?_⟩⟩ <;>
      norm_num [Side.priceLimit, Side.sign, Sample.value_price]
  exact ⟨book, hbook, quantityWithin_advised hbook .buy hasks (by decide)
    (hasks ▸ Sample.asks_hasPlaces) (by norm_num [hasks, Sample.asks])
    (by norm_num [hasks, Sample.asks, Sample.value_price]) rfl (by simp) hexact⟩

end Book

end OrderTicket
