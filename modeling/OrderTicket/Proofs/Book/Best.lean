import OrderTicket.Proofs.Book.Closed

/-!
# The walk for a quantity is the best fill

An order for a quantity walks a side from its best level on. If prices and quantities have few
decimals and the totals are not large, nothing is rounded on the way, and no other way of taking
that quantity from the levels is better for the order. The average price is a rounded quotient, but
it cannot leave the prices that were paid, since these are representable.

* `Side.IsBest`, `Fill.IsBest`: the best amount, and the best fill.
* `Fill.average_between`: averages lie between the first and the last price.
* `Fill.Takes.isBest`, `Book.fill_isBest`: every walk for a quantity comes to the best fill.
-/

namespace OrderTicket

open Decimal

/-- The best of some amounts of the quote currency: the least for a buyer, who pays it, and the
greatest for a seller, who receives it. -/
def Side.IsBest : Side → Set ℚ → ℚ → Prop
  | .buy, amounts, amount => IsLeast amounts amount
  | .sell, amounts, amount => IsGreatest amounts amount

/-- An amount is the best one of a set for a side if, with the sign of the side, it is the least
one. -/
theorem Side.isBest_of_sign {side : Side} {amounts : Set ℚ} {amount : ℚ} (hmem : amount ∈ amounts)
    (hle : ∀ other ∈ amounts, side.sign * amount ≤ side.sign * other) :
    side.IsBest amounts amount := by
  cases side with
  | buy => exact ⟨hmem, fun other hother => by simpa [Side.sign] using hle other hother⟩
  | sell => exact ⟨hmem, fun other hother => by simpa [Side.sign] using hle other hother⟩

namespace Fill

/-- The best fill of an order for a quantity. -/
structure IsBest (side : Side) (levels : List Level) (needed : ℚ) (fill : Fill) : Prop where
  /-- The order gets what it needs, or all that there is. -/
  quantity : Exactly (min needed (totalQuantity levels)) fill.quantity
  /-- What it pays or receives is finite. -/
  notional_isFinite : fill.notional.isFinite = true
  /-- No other way of taking that quantity from the levels costs less, or brings in more. -/
  notional_isBest : side.IsBest
    {amount | ∃ amounts, Allocation levels amounts ∧ amounts.sum = fill.quantity.value ∧
      worth levels amounts = amount} fill.notional.value
  /-- The side ends before the order has enough if it holds less. -/
  exhausted : fill.exhausted = true ↔ totalQuantity levels < needed
  /-- No fewer levels hold enough. -/
  isLeast_levelsTaken : needed ≤ totalQuantity levels →
    IsLeast {k | needed ≤ totalQuantity (levels.take k)} fill.levelsTaken
  /-- If they do not hold enough, all are taken from. -/
  levelsTaken_eq : totalQuantity levels < needed → fill.levelsTaken = levels.length
  /-- The best price is that of the first level. -/
  bestPrice : levels.head?.map (·.price) = some fill.bestPrice
  /-- The worst price is that of the last level taken from. -/
  worstPrice : levels[fill.levelsTaken - 1]?.map (·.price) = some fill.worstPrice
  /-- The average price is finite. -/
  averagePrice_isFinite : fill.averagePrice.isFinite = true
  /-- It is no better than the best price. -/
  best_le_average : side.sign * fill.bestPrice.value ≤ side.sign * fill.averagePrice.value
  /-- It is no worse than the worst price. -/
  average_le_worst : side.sign * fill.averagePrice.value ≤ side.sign * fill.worstPrice.value
  /-- The slippage is finite. -/
  slippagePercent_isFinite : fill.slippagePercent.isFinite = true
  /-- It is not negative. -/
  slippagePercent_nonneg : 0 ≤ fill.slippagePercent.value

variable {a b : ℕ} {side : Side} {best last : Level} {levels rest : List Level} {needed : ℚ}

/-! ## Amounts and prices -/

/-- The sum that is weighted with signed prices is the signed worth of the amounts. -/
theorem weighted_sign (side : Side) (levels : List Level) (amounts : List ℚ) :
    weighted (fun level => side.sign * level.price.value) levels amounts =
      side.sign * worth levels amounts := by
  cases side <;> simp [Side.sign, worth, weighted_neg]

/-- Levels with the best price first. -/
def Sorted (side : Side) (levels : List Level) : Prop :=
  levels.Pairwise fun better worse =>
    side.sign * better.price.value ≤ side.sign * worse.price.value

/-- Taking from the levels in turn is the best way of taking a quantity. -/
theorem isBest_inTurn (hstocked : Stocked levels) (hsorted : Sorted side levels)
    (hneeded : 0 ≤ needed) :
    side.IsBest {amount | ∃ amounts, Allocation levels amounts ∧
      amounts.sum = min needed (totalQuantity levels) ∧ worth levels amounts = amount}
      (worth levels (inTurn needed levels)) := by
  refine Side.isBest_of_sign
    ⟨_, allocation_inTurn hstocked hneeded, sum_inTurn hstocked hneeded, rfl⟩ ?_
  rintro _ ⟨amounts, hamounts, hsum, rfl⟩
  rw [← weighted_sign, ← weighted_sign]
  exact weighted_inTurn_le hstocked hsorted hneeded hamounts
    (hsum.trans (sum_inTurn hstocked hneeded).symm)

/-- The average of what is taken in turn lies between the first and the last price. -/
theorem average_between (hstocked : Stocked (best :: rest)) (hsorted : Sorted side (best :: rest))
    (hneeded : 0 ≤ needed) (hpos : 0 < min needed (totalQuantity (best :: rest)))
    (hlast : ((best :: rest).take (levelsFor needed (best :: rest))).getLast? = some last) :
    side.sign * best.price.value ≤ side.sign *
        (worth (best :: rest) (inTurn needed (best :: rest)) /
          min needed (totalQuantity (best :: rest))) ∧
      side.sign * (worth (best :: rest) (inTurn needed (best :: rest)) /
        min needed (totalQuantity (best :: rest))) ≤ side.sign * last.price.value := by
  have hfloor : ∀ level ∈ best :: rest,
      side.sign * best.price.value ≤ side.sign * level.price.value :=
    List.forall_mem_cons.2 ⟨le_rfl, (List.pairwise_cons.1 hsorted).1⟩
  have hlow := (allocation_inTurn hstocked hneeded).le_weighted hfloor
  have hhigh := weighted_inTurn_le_last hstocked hsorted hneeded hlast
  rw [weighted_sign, sum_inTurn hstocked hneeded] at hlow hhigh
  rw [← mul_div_assoc, le_div_iff₀ hpos, div_le_iff₀ hpos]
  exact ⟨hlow, hhigh⟩

/-! ## The fill -/

/-- To round to the context commutes with the sign of a side. -/
theorem sign_mul_nearest (side : Side) (v : ℚ) :
    side.sign * nearest v = nearest (side.sign * v) := by
  cases side <;> simp [Side.sign, nearest_neg]

/-- A fill that takes a quantity from sorted levels in turn is the best one. -/
theorem Takes.isBest {fill : Fill} (h : fill.Takes needed (best :: rest)) (hab : a + b ≤ 1000)
    (hlevels : ∀ level ∈ best :: rest, level.Scaled a b) (hsorted : Sorted side (best :: rest))
    (hneeded : 0 < needed)
    (hnotional : totalNotional (best :: rest) < 10 ^ (27 - (a + b : ℕ) : ℤ)) :
    fill.IsBest side (best :: rest) needed := by
  have hstocked := stocked_of_scaled hlevels
  have hfirst : best ∈ best :: rest := List.mem_cons_self
  obtain ⟨last, hlast, hget⟩ := exists_last_levelsFor hneeded (List.cons_ne_nil best rest)
  have hmem : last ∈ best :: rest := List.mem_of_mem_take (List.mem_of_getLast? hlast)
  have hbest : best.price = fill.bestPrice := Option.some.inj h.bestPrice
  have hworst : last.price = fill.worstPrice := by
    have hworst := h.worstPrice
    rw [hlast] at hworst
    exact Option.some.inj hworst
  have hpos : 0 < min needed (totalQuantity (best :: rest)) :=
    lt_min hneeded (totalQuantity_pos (positive_of_scaled hlevels))
  -- both prices are representable, so the quotient is rounded to something between them
  obtain ⟨hlow, hhigh⟩ := average_between hstocked hsorted hneeded.le hpos hlast
  have hlow := nearest_mono hlow
  have hhigh := nearest_mono hhigh
  rw [← sign_mul_nearest, ← sign_mul_nearest,
    nearest_of_representable (price_representable hab hlevels hnotional hfirst),
    ← h.averagePrice.value_eq, hbest] at hlow
  rw [← sign_mul_nearest, ← sign_mul_nearest,
    nearest_of_representable (price_representable hab hlevels hnotional hmem),
    ← h.averagePrice.value_eq, hworst] at hhigh
  refine ⟨h.quantity, h.notional.isFinite, ?_, h.exhausted, fun hle => ?_, fun hlt => ?_,
    h.bestPrice, ?_, h.averagePrice.isFinite, hlow, hhigh, h.slippagePercent.isFinite, ?_⟩
  · rw [h.quantity.value_eq, h.notional.value_eq]
    exact isBest_inTurn hstocked hsorted hneeded.le
  · rw [h.levelsTaken]
    exact isLeast_levelsFor hle
  · rw [h.levelsTaken]
    exact levelsFor_of_lt hstocked hlt
  · rw [h.levelsTaken, hget, ← hworst]
    rfl
  · rw [h.slippagePercent.value_eq, ← hbest]
    exact slippage_nonneg (hlevels best hfirst).price_pos.le _

end Fill

namespace Book

/-- An order for a quantity gets the best fill there is, if prices and quantities have few decimals
and the totals are not large. -/
theorem fill_isBest {symbol : String} {depth timestamp : Payload} {book : Book}
    (hbook : ofDepth symbol depth timestamp = .ok book) (side : Side)
    (hne : book.levels side ≠ []) {requested : Decimal} (hpos : 0 < requested.value) {a b : ℕ}
    (hab : a + b ≤ 1000) (hlevels : ∀ level ∈ book.levels side, level.HasPlaces a b)
    (hplaces : Decimal.HasPlaces b requested.value)
    (hquantity : OrderTicket.totalQuantity (book.levels side) + requested.value <
      10 ^ (27 - b : ℤ))
    (hnotional : totalNotional (book.levels side) < 10 ^ (27 - (a + b : ℕ) : ℤ)) :
    ∃ fill, book.fill side (some requested) none = .ok fill ∧
      fill.IsBest side (book.levels side) requested.value := by
  have hsorted : Fill.Sorted side (book.levels side) :=
    pairwise_levels hbook fun level hlevel => (hlevels level hlevel).price_isFinite
  have hscaled := scaled_levels hbook hlevels
  refine (fill_takes hbook side hne hpos hab hlevels hplaces hquantity hnotional).mono
    fun fill hfill => ?_
  obtain ⟨best, rest, hside⟩ := List.exists_cons_of_ne_nil hne
  rw [hside] at hscaled hsorted hnotional hfill ⊢
  exact hfill.isBest hab hscaled hsorted hpos hnotional

/-- A purchase of four from the sample book takes them at the least cost. -/
theorem fill_isBest_purchase : ∃ book, ofDepth "BTCUSDT" Sample.depth .null = .ok book ∧
    ∃ fill, book.fill .buy (some 4) none = .ok fill ∧ fill.IsBest .buy Sample.asks 4 := by
  obtain ⟨book, hbook, hasks⟩ := Sample.exists_book
  have hpos : 0 < Decimal.value 4 := by simp
  have hplaces : Decimal.HasPlaces 0 (Decimal.value 4) := ⟨4, by norm_num⟩
  have hfill := fill_isBest hbook .buy (by simp [hasks, Sample.asks]) hpos (by decide)
    (hasks ▸ Sample.asks_hasPlaces) hplaces (by norm_num [hasks, Sample.asks])
    (by norm_num [hasks, Sample.asks, Sample.value_price])
  rw [hasks, value_ofNat] at hfill
  exact ⟨book, hbook, hfill⟩

end Book

end OrderTicket
