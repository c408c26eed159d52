import OrderTicket.Proofs.Book.Best

/-!
# Larger orders

An order for more goes at least as far along the levels, and gets no better average price: what it
takes, scaled down to the smaller quantity, is one way of taking that, and the smaller order takes
it in the best way. Rounding keeps the order of the averages, and so does the slippage.

* `Side.NoBetter`: prices in the order in which an order prefers them.
* `Fill.NoBetter`: what a larger order gets.
* `Fill.Takes.noBetter`: larger quantities of the same levels.
* `Book.fill_noBetter`: larger orders.
-/

namespace OrderTicket

open Decimal

/-- A price that is no better than another one: not lower for a buyer, and not higher for a
seller. -/
def Side.NoBetter : Side → Decimal → Decimal → Prop
  | .buy, price, other => other.le price = .ok true
  | .sell, price, other => price.le other = .ok true

/-- A price is no better than another one if it is not lower with the sign of the side. -/
theorem Side.noBetter_of_sign {side : Side} {price other : Decimal} (h : price.isFinite = true)
    (h' : other.isFinite = true) (hle : side.sign * other.value ≤ side.sign * price.value) :
    side.NoBetter price other := by
  cases side with
  | buy =>
    rw [Side.sign, one_mul, one_mul] at hle
    rw [Side.NoBetter, le_eq h' h, decide_eq_true hle]
  | sell =>
    rw [Side.sign, neg_one_mul, neg_one_mul, neg_le_neg_iff] at hle
    rw [Side.NoBetter, le_eq h h', decide_eq_true hle]

namespace Fill

/-- A fill on worse terms than another one, or on the same. -/
structure NoBetter (side : Side) (fill other : Fill) : Prop where
  /-- The average price is no better. -/
  averagePrice : side.NoBetter fill.averagePrice other.averagePrice
  /-- The slippage is no less. -/
  slippagePercent : other.slippagePercent.le fill.slippagePercent = .ok true
  /-- No fewer levels are taken from. -/
  levelsTaken : other.levelsTaken ≤ fill.levelsTaken
  /-- The side ends if it does for the other one. -/
  exhausted : other.exhausted = true → fill.exhausted = true

variable {a b : ℕ} {side : Side} {best : Level} {levels rest : List Level} {needed more : ℚ}
  {small large : Fill}

/-- The average of a larger quantity is no better, before it is rounded. -/
theorem average_noBetter (hstocked : Stocked levels) (hsorted : Sorted side levels)
    (hpos : 0 < min needed (totalQuantity levels)) (hle : needed ≤ more) :
    side.sign * (worth levels (inTurn needed levels) / min needed (totalQuantity levels)) ≤
      side.sign * (worth levels (inTurn more levels) / min more (totalQuantity levels)) := by
  rw [← mul_div_assoc, ← mul_div_assoc, ← weighted_sign, ← weighted_sign]
  exact weighted_inTurn_div_mono hstocked hsorted hpos hle

/-- The distance from the best price does not depend on the side. -/
theorem abs_sub_eq_sign {price best : ℚ} (hle : side.sign * best ≤ side.sign * price) :
    |price - best| = side.sign * price - side.sign * best := by
  cases side with
  | buy =>
    simp only [Side.sign, one_mul] at hle ⊢
    rw [abs_of_nonneg (sub_nonneg.2 hle)]
  | sell =>
    simp only [Side.sign, neg_one_mul, neg_le_neg_iff] at hle ⊢
    rw [abs_of_nonpos (sub_nonpos.2 hle)]
    ring

/-- A fill that takes more from the same levels is no better. -/
theorem Takes.noBetter (h : small.Takes needed (best :: rest))
    (h' : large.Takes more (best :: rest)) (hab : a + b ≤ 1000)
    (hlevels : ∀ level ∈ best :: rest, level.Scaled a b)
    (hsorted : Sorted side (best :: rest)) (hneeded : 0 < needed) (hle : needed ≤ more)
    (hnotional : totalNotional (best :: rest) < 10 ^ (27 - (a + b : ℕ) : ℤ)) :
    large.NoBetter side small := by
  have hstocked := stocked_of_scaled hlevels
  have hsmall := h.isBest hab hlevels hsorted hneeded hnotional
  have hlarge := h'.isBest hab hlevels hsorted (hneeded.trans_le hle) hnotional
  have hpos : 0 < min needed (totalQuantity (best :: rest)) :=
    lt_min hneeded (totalQuantity_pos (positive_of_scaled hlevels))
  have hprice : 0 ≤ small.bestPrice.value :=
    Option.some.inj h.bestPrice ▸ (hlevels best List.mem_cons_self).price_pos.le
  have hbest : large.bestPrice = small.bestPrice :=
    Option.some.inj (h'.bestPrice.symm.trans h.bestPrice)
  have haverage : side.sign * small.averagePrice.value ≤ side.sign * large.averagePrice.value := by
    rw [h.averagePrice.value_eq, h'.averagePrice.value_eq, sign_mul_nearest, sign_mul_nearest]
    exact nearest_mono (average_noBetter hstocked hsorted hpos hle)
  -- so the larger one is farther from the best price
  have hdistance : |small.averagePrice.value - small.bestPrice.value| ≤
      |large.averagePrice.value - small.bestPrice.value| := by
    rw [abs_sub_eq_sign hsmall.best_le_average, ← hbest, abs_sub_eq_sign hlarge.best_le_average]
    linarith
  refine ⟨Side.noBetter_of_sign h'.averagePrice.isFinite h.averagePrice.isFinite haverage, ?_, ?_,
    fun hexhausted => ?_⟩
  · rw [le_eq h.slippagePercent.isFinite h'.slippagePercent.isFinite, h.slippagePercent.value_eq,
      h'.slippagePercent.value_eq, hbest, decide_eq_true]
    exact slippage_mono hprice hdistance
  · rw [h.levelsTaken, h'.levelsTaken]
    exact levelsFor_mono hle
  · exact h'.exhausted.2 ((h.exhausted.1 hexhausted).trans_le hle)

end Fill

namespace Book

/-- An order for more gets a fill that is no better, if prices and quantities have few decimals and
the totals are not large. Neither order has to be small enough for the side. -/
theorem fill_noBetter {symbol : String} {depth timestamp : Payload} {book : Book}
    (hbook : ofDepth symbol depth timestamp = .ok book) (side : Side)
    (hne : book.levels side ≠ []) {requested more : Decimal} (hpos : 0 < requested.value)
    (hmore : requested.value ≤ more.value) {a b : ℕ} (hab : a + b ≤ 1000)
    (hlevels : ∀ level ∈ book.levels side, level.HasPlaces a b)
    (hplaces : Decimal.HasPlaces b requested.value) (hplaces' : Decimal.HasPlaces b more.value)
    (hquantity : OrderTicket.totalQuantity (book.levels side) + more.value < 10 ^ (27 - b : ℤ))
    (hnotional : totalNotional (book.levels side) < 10 ^ (27 - (a + b : ℕ) : ℤ)) :
    ∃ small large, book.fill side (some requested) none = .ok small ∧
      book.fill side (some more) none = .ok large ∧ large.NoBetter side small := by
  have hsorted : Fill.Sorted side (book.levels side) :=
    pairwise_levels hbook fun level hlevel => (hlevels level hlevel).price_isFinite
  have hscaled := scaled_levels hbook hlevels
  obtain ⟨small, hsmall, htakes⟩ :=
    fill_takes hbook side hne hpos hab hlevels hplaces (by linarith) hnotional
  obtain ⟨large, hlarge, htakes'⟩ :=
    fill_takes hbook side hne (hpos.trans_le hmore) hab hlevels hplaces' hquantity hnotional
  refine ⟨small, large, hsmall, hlarge, ?_⟩
  obtain ⟨best, rest, hside⟩ := List.exists_cons_of_ne_nil hne
  rw [hside] at hscaled hsorted hnotional htakes htakes'
  exact htakes.noBetter htakes' hab hscaled hsorted hpos hmore hnotional

/-- The better ask holds two units, and both hold five. -/
theorem fill_noBetter_purchase : ∃ book, ofDepth "BTCUSDT" Sample.depth .null = .ok book ∧
    ∃ small large, book.fill .buy (some 2) none = .ok small ∧
      book.fill .buy (some 9) none = .ok large ∧ large.NoBetter .buy small := by
  obtain ⟨book, hbook, hasks⟩ := Sample.exists_book
  have hpos : 0 < Decimal.value 2 := by simp
  have hplaces : Decimal.HasPlaces 0 (Decimal.value 2) := ⟨2, by norm_num⟩
  have hplaces' : Decimal.HasPlaces 0 (Decimal.value 9) := ⟨9, by norm_num⟩
  exact ⟨book, hbook, fill_noBetter hbook .buy (by simp [hasks, Sample.asks]) hpos (by norm_num)
    (by decide) (hasks ▸ Sample.asks_hasPlaces) hplaces hplaces' (by norm_num [hasks, Sample.asks])
    (by norm_num [hasks, Sample.asks, Sample.value_price])⟩

end Book

end OrderTicket
