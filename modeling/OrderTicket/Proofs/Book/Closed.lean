import OrderTicket.Proofs.Book.Exact

/-!
# The end of a walk

When a walk along the levels ends, the fill takes over what it added up, and divides: the average
price is a rounded quotient, and the slippage goes through four more rounded operations. All of them
round to nearest, so the fill is a function of what the walk added up, and a worse average price has
no less slippage.

* `slippage`: the slippage of an average price, with every step rounded.
* `Fill.Closes`: the fill of a walk.
* `Fill.along_closes`: a walk that adds up to something ends in a fill.
* `Fill.Takes`, `Book.fill_takes`: the fill of an order for a quantity.
* `Fill.Agrees`, `Fill.Takes.agrees`: fills that take the same quantity are equal.
-/

namespace OrderTicket

open Decimal

/-- The slippage of an average price from a best one, in percent and with every step rounded. -/
def slippage (best average : ℚ) : ℚ :=
  nearest (nearest (nearest |nearest (average - best)| / best) * 100)

section Slippage

variable {best average average' : ℚ}

/-- The best price has no slippage. -/
@[simp]
theorem slippage_self (best : ℚ) : slippage best best = 0 := by
  simp [slippage]

/-- An average price that is farther from the best one has no less slippage. -/
theorem slippage_mono (hbest : 0 ≤ best) (h : |average - best| ≤ |average' - best|) :
    slippage best average ≤ slippage best average' := by
  refine nearest_mono (mul_le_mul_of_nonneg_right ?_ (by norm_num))
  refine nearest_mono (div_le_div_of_nonneg_right ?_ hbest)
  rw [← nearest_abs, ← nearest_abs]
  exact nearest_mono (nearest_mono h)

theorem slippage_nonneg (hbest : 0 ≤ best) (average : ℚ) : 0 ≤ slippage best average := by
  rw [← slippage_self best]
  exact slippage_mono hbest (by simp)

/-- An average price that is close to the best one has little slippage. -/
theorem slippage_le {m n : ℤ} (hm : tinyExponent ≤ m + n) (hn : tinyExponent ≤ n)
    (hbest : (10 : ℚ) ^ m ≤ best) (h : |average - best| ≤ 10 ^ (m + n)) :
    slippage best average ≤ 10 ^ (n + 2) := by
  have hpos := (ten_zpow_pos m).trans_le hbest
  have hquot : |nearest (average - best)| / best ≤ 10 ^ n := by
    rw [div_le_iff₀ hpos]
    calc |nearest (average - best)| ≤ 10 ^ (m + n) := abs_nearest_le hm h
      _ = 10 ^ n * 10 ^ m := by rw [add_comm, ten_zpow_add]
      _ ≤ 10 ^ n * best := mul_le_mul_of_nonneg_left hbest (ten_zpow_pos n).le
  have hratio := nearest_mono hquot
  rw [nearest_of_representable (representable_zpow hn)] at hratio
  have hpercent : nearest (|nearest (average - best)| / best) * 100 ≤ 10 ^ (n + 2) := by
    rw [ten_zpow_add]
    exact mul_le_mul_of_nonneg_right hratio (by norm_num)
  rw [slippage, nearest_abs, nearest_nearest,
    ← nearest_of_representable (representable_zpow (e := n + 2) (by omega))]
  exact nearest_mono hpercent

end Slippage

namespace Fill

/-- The fill that a walk ends with. -/
structure Closes (best : Decimal) (progress : Progress) (fill : Fill) : Prop where
  /-- The quantity is that of the walk. -/
  quantity : fill.quantity = progress.quantity
  /-- The value is that of the walk. -/
  notional : fill.notional = progress.notional
  /-- The average price is their quotient. -/
  averagePrice : Exactly (nearest (progress.notional.value / progress.quantity.value))
    fill.averagePrice
  /-- The price of the first level. -/
  bestPrice : fill.bestPrice = best
  /-- The last price of the walk. -/
  worstPrice : fill.worstPrice = progress.worstPrice
  /-- The slippage of the average price. -/
  slippagePercent : Exactly (slippage best.value fill.averagePrice.value) fill.slippagePercent
  /-- The number of levels. -/
  levelsTaken : fill.levelsTaken = progress.levelsTaken
  /-- The side ended if something is still needed. -/
  exhausted : fill.exhausted = true ↔ 0 < progress.remaining.value

/-- A fill is what the walk added up, divided. -/
theorem closes_of_along {side : Side} {target : FillTarget} {requested : Decimal} {best : Level}
    {rest : List Level} {progress : Progress} {fill : Fill}
    (h : along side target requested best rest = .ok fill)
    (hwalk : walk target (best :: rest) ⟨requested, 0, 0, best.price, 0⟩ = .ok progress)
    (hremaining : progress.remaining.isFinite = true)
    (hquantity : progress.quantity.isFinite = true)
    (hnotional : progress.notional.isFinite = true) (hbest : best.price.isFinite = true) :
    Closes best.price progress fill := by
  obtain ⟨last, hlast, h⟩ := bind_eq_ok h
  obtain rfl := Except.ok.inj (hlast.symm.trans hwalk)
  obtain ⟨average, haverage, h⟩ := bind_eq_ok h
  obtain ⟨difference, hdifference, h⟩ := bind_eq_ok h
  obtain ⟨distance, hdistance, h⟩ := bind_eq_ok h
  obtain ⟨ratio, hratio, h⟩ := bind_eq_ok h
  obtain ⟨percent, hpercent, h⟩ := bind_eq_ok h
  obtain ⟨exhausted, hexhausted, h⟩ := bind_eq_ok h
  obtain rfl := Except.ok.inj h
  -- each result is the exact one, rounded to nearest
  have haverage := (div_computes hnotional hquantity
    (value_ne_zero_of_div hnotional hquantity haverage)).exactly_nearest haverage
  have hdifference := (sub_computes haverage.isFinite hbest).exactly_nearest hdifference
  have hdistance := (abs_computes hdifference.isFinite).exactly_nearest hdistance
  have hratio := (div_computes hdistance.isFinite hbest
    (value_ne_zero_of_div hdistance.isFinite hbest hratio)).exactly_nearest hratio
  have hpercent := (mul_computes hratio.isFinite rfl).exactly_nearest hpercent
  rw [hratio.value_eq, hdistance.value_eq, hdifference.value_eq, value_ofNat] at hpercent
  refine ⟨rfl, rfl, haverage, rfl, rfl, hpercent, rfl, ?_⟩
  rw [lt_eq rfl hremaining, value_ofNat, Nat.cast_zero] at hexhausted
  obtain rfl := Except.ok.inj hexhausted
  exact decide_eq_true_iff

/-- A quotient by something that is not very small is not very large. -/
theorem abs_div_le {v w : ℚ} {m k : ℤ} (hv : |v| ≤ 10 ^ m) (hw : (10 : ℚ) ^ (-k) ≤ w) :
    |v / w| ≤ 10 ^ (m + k) := by
  have hpos : 0 < w := (ten_zpow_pos _).trans_le hw
  rw [abs_div, abs_of_pos hpos, div_le_iff₀ hpos]
  calc |v| ≤ 10 ^ m := hv
    _ = 10 ^ (m + k) * 10 ^ (-k) := by rw [← ten_zpow_add, add_neg_cancel_right]
    _ ≤ 10 ^ (m + k) * w := mul_le_mul_of_nonneg_left hw (ten_zpow_pos _).le

/-- The difference of two numbers that are not large is not large. -/
theorem abs_sub_le_pow {v w : ℚ} {m k : ℤ} (hv : |v| ≤ 10 ^ m) (hw : |w| ≤ 10 ^ k) (hk : k ≤ m) :
    |v - w| ≤ 10 ^ (m + 1) := by
  have hle : (10 : ℚ) ^ k ≤ 10 ^ m := zpow_le_zpow_right₀ (by norm_num) hk
  have hten : (10 : ℚ) ^ (m + 1) = 10 * 10 ^ m := by rw [ten_zpow_add, zpow_one, mul_comm]
  rw [hten]
  linarith [abs_sub v w, ten_zpow_pos m]

/-- The percentage of a number that is not large is not large. -/
theorem abs_mul_hundred_le {v : ℚ} {m : ℤ} (hv : |v| ≤ 10 ^ m) :
    |v * value 100| ≤ 10 ^ (m + 2) := by
  rw [abs_mul, value_ofNat, ten_zpow_add]
  exact mul_le_mul hv (by norm_num) (abs_nonneg _) (ten_zpow_pos _).le

/-- There is a fill where the quantity and the best price are not very small. -/
theorem along_closes {side : Side} {target : FillTarget} {requested : Decimal} {best : Level}
    {rest : List Level} {progress : Progress}
    (hwalk : walk target (best :: rest) ⟨requested, 0, 0, best.price, 0⟩ = .ok progress)
    (hremaining : progress.remaining.isFinite = true)
    (hquantity : Between (10 ^ (-1027 : ℤ)) (10 ^ 27) progress.quantity)
    (hnotional : Between 0 (10 ^ 27) progress.notional)
    (hbest : Between (10 ^ (-1000 : ℤ)) (10 ^ 27) best.price) :
    Returns (along side target requested best rest) (Closes best.price progress) := by
  have hpos : 0 < progress.quantity.value := (ten_zpow_pos _).trans_le hquantity.low_le
  have hpos' : 0 < best.price.value := (ten_zpow_pos _).trans_le hbest.low_le
  have hle : |progress.notional.value| ≤ 10 ^ (27 : ℤ) :=
    (abs_of_nonneg hnotional.low_le).trans_le hnotional.le_high
  have hle' : |best.price.value| ≤ 10 ^ (27 : ℤ) := (abs_of_pos hpos').trans_le hbest.le_high
  suffices hreturns : Returns (along side target requested best rest) fun _ => True by
    obtain ⟨fill, hfill, -⟩ := hreturns
    exact ⟨fill, hfill, closes_of_along hfill hwalk hremaining hquantity.isFinite
      hnotional.isFinite hbest.isFinite⟩
  refine .bind ⟨progress, hwalk, rfl⟩ fun last hlast => ?_
  subst hlast
  -- each operation needs a bound on the result of the one before
  refine .bind ((div_computes hnotional.isFinite hquantity.isFinite hpos.ne').returns_nearest
    (by decide) (by decide) (abs_div_le hle hquantity.low_le)) fun average ⟨haverage, hle⟩ => ?_
  refine .bind ((sub_computes haverage.isFinite hbest.isFinite).returns_nearest (by decide)
    (by decide) (abs_sub_le_pow hle hle' (by decide))) fun difference ⟨hdifference, hle⟩ => ?_
  refine .bind ((abs_computes hdifference.isFinite).returns_nearest (by decide) (by decide)
    ((abs_abs _).trans_le hle)) fun distance ⟨hdistance, hle⟩ => ?_
  refine .bind ((div_computes hdistance.isFinite hbest.isFinite hpos'.ne').returns_nearest
    (by decide) (by decide) (abs_div_le hle hbest.low_le)) fun ratio ⟨hratio, hle⟩ => ?_
  refine .bind ((mul_computes hratio.isFinite rfl).returns_nearest (by decide) (by decide)
    (abs_mul_hundred_le hle)) fun percent _ => ?_
  exact .bind (lt_returns rfl hremaining) fun exhausted _ => .ok trivial

/-! ## Fills for a quantity -/

/-- The fill of an order that takes a quantity from levels in turn, or all that they have. It is
determined by the quantity and the levels. -/
structure Takes (needed : ℚ) (levels : List Level) (fill : Fill) : Prop where
  /-- The order gets what it needs, or all that there is. -/
  quantity : Exactly (min needed (totalQuantity levels)) fill.quantity
  /-- It pays, or receives, what that is worth. -/
  notional : Exactly (worth levels (inTurn needed levels)) fill.notional
  /-- The average price is the rounded quotient. -/
  averagePrice : Exactly
    (nearest (worth levels (inTurn needed levels) / min needed (totalQuantity levels)))
    fill.averagePrice
  /-- The best price is that of the first level. -/
  bestPrice : levels.head?.map (·.price) = some fill.bestPrice
  /-- The worst price is that of the last level that is needed. -/
  worstPrice : ((levels.take (levelsFor needed levels)).getLast?).map (·.price) =
    some fill.worstPrice
  /-- The slippage is that of the average price. -/
  slippagePercent : Exactly (slippage fill.bestPrice.value fill.averagePrice.value)
    fill.slippagePercent
  /-- The levels that are needed count. -/
  levelsTaken : fill.levelsTaken = levelsFor needed levels
  /-- The side ends before the order has enough if it holds less. -/
  exhausted : fill.exhausted = true ↔ totalQuantity levels < needed

variable {a b : ℕ} {best : Level} {levels rest : List Level} {needed : ℚ} {progress : Progress}
  {requested : Decimal} {fill other : Fill}

/-- Fills that are equal as numbers. They may take from different levels of the same price. -/
structure Agrees (fill other : Fill) : Prop where
  /-- The quantity. -/
  quantity : fill.quantity.equal other.quantity = .ok true
  /-- The values are equal. -/
  notional : fill.notional.equal other.notional = .ok true
  /-- The average price. -/
  averagePrice : fill.averagePrice.equal other.averagePrice = .ok true
  /-- The best price. -/
  bestPrice : fill.bestPrice.equal other.bestPrice = .ok true
  /-- The worst price. -/
  worstPrice : fill.worstPrice.equal other.worstPrice = .ok true
  /-- The slippage. -/
  slippagePercent : fill.slippagePercent.equal other.slippagePercent = .ok true
  /-- Whether the side ended. -/
  exhausted : fill.exhausted = other.exhausted

/-- Fills that take the same quantity from the same levels are equal, whatever was asked for. -/
theorem Takes.agrees (h : fill.Takes needed levels) (h' : other.Takes needed levels)
    (hlevels : ∀ level ∈ levels, level.price.isFinite = true) :
    fill.Agrees other ∧ fill.levelsTaken = other.levelsTaken := by
  have hbest : fill.bestPrice = other.bestPrice :=
    Option.some.inj (h.bestPrice.symm.trans h'.bestPrice)
  have hworst : fill.worstPrice = other.worstPrice :=
    Option.some.inj (h.worstPrice.symm.trans h'.worstPrice)
  have haverage : fill.averagePrice.value = other.averagePrice.value := by
    rw [h.averagePrice.value_eq, h'.averagePrice.value_eq]
  have hslippage := h'.slippagePercent
  rw [← hbest, ← haverage] at hslippage
  -- both prices are those of levels
  obtain ⟨first, hfirst, hfirstPrice⟩ := Option.map_eq_some_iff.1 h.bestPrice
  obtain ⟨last, hlast, hlastPrice⟩ := Option.map_eq_some_iff.1 h.worstPrice
  have hfinite := hlevels first (List.mem_of_mem_head? hfirst)
  have hfinite' := hlevels last (List.mem_of_mem_take (List.mem_of_getLast? hlast))
  rw [hfirstPrice] at hfinite
  rw [hlastPrice] at hfinite'
  refine ⟨⟨h.quantity.equal h'.quantity, h.notional.equal h'.notional,
    h.averagePrice.equal h'.averagePrice, ?_, ?_, h.slippagePercent.equal hslippage, ?_⟩,
    h.levelsTaken.trans h'.levelsTaken.symm⟩
  · exact hbest ▸ Exactly.equal ⟨hfinite, rfl⟩ ⟨hfinite, rfl⟩
  · exact hworst ▸ Exactly.equal ⟨hfinite', rfl⟩ ⟨hfinite', rfl⟩
  · rw [Bool.eq_iff_iff, h.exhausted, h'.exhausted]

/-- The fill of a walk that took a quantity from levels in turn. -/
theorem Closes.takes (h : Closes best.price progress fill) (hneeded : 0 < needed)
    (hwalk : Traversed needed (best :: rest) ⟨requested, 0, 0, best.price, 0⟩ progress)
    (hquantity : Exactly (min needed (totalQuantity (best :: rest))) progress.quantity)
    (hnotional : progress.notional.isFinite = true)
    (hremaining : 0 < progress.remaining.value ↔ totalQuantity (best :: rest) < needed) :
    fill.Takes needed (best :: rest) := by
  obtain ⟨last, hlast, -⟩ := exists_last_levelsFor hneeded (List.cons_ne_nil best rest)
  have hworth : Exactly (worth (best :: rest) (inTurn needed (best :: rest))) progress.notional :=
    ⟨hnotional, by simpa using hwalk.notional⟩
  have haverage := h.averagePrice
  rw [hworth.value_eq, hquantity.value_eq] at haverage
  refine ⟨h.quantity ▸ hquantity, h.notional ▸ hworth, haverage, by rw [h.bestPrice]; rfl, ?_,
    h.bestPrice ▸ h.slippagePercent, ?_, h.exhausted.trans hremaining⟩
  · rw [h.worstPrice, hwalk.worstPrice, hlast]
    rfl
  · rw [h.levelsTaken, hwalk.levelsTaken, zero_add]

/-- Where a walk starts nothing was taken yet. -/
theorem room_start (requested price : Decimal)
    (hquantity : totalQuantity levels < 10 ^ (27 - b : ℤ))
    (hnotional : totalNotional levels < 10 ^ (27 - (a + b : ℕ) : ℤ)) :
    Progress.Room a b levels ⟨requested, 0, 0, price, 0⟩ := by
  have hzero : Decimal.value 0 = 0 := by simp
  refine ⟨⟨rfl, hzero ▸ HasPlaces.zero b, hzero.ge, ?_⟩,
    ⟨rfl, hzero ▸ HasPlaces.zero (a + b), hzero.ge, ?_⟩⟩ <;> rw [hzero] <;> linarith

/-- A walk for a quantity takes that quantity. -/
theorem along_takes (side : Side) (hab : a + b ≤ 1000)
    (hlevels : ∀ level ∈ best :: rest, level.Scaled a b) (hpos : 0 < requested.value)
    (hplaces : Decimal.HasPlaces b requested.value)
    (hrequested : requested.value < 10 ^ (27 - b : ℤ))
    (hquantity : totalQuantity (best :: rest) < 10 ^ (27 - b : ℤ))
    (hnotional : totalNotional (best :: rest) < 10 ^ (27 - (a + b : ℕ) : ℤ)) :
    Returns (along side .quantity requested best rest)
      (Takes requested.value (best :: rest)) := by
  have hroom := room_start requested best.price hquantity hnotional
  have hstart : Progress.Scaled a b (best :: rest) ⟨requested, 0, 0, best.price, 0⟩ :=
    ⟨hroom, isFinite_of_pos hpos, hplaces, hpos.le, hrequested⟩
  obtain ⟨progress, hwalk, hend, hwalked⟩ := walk_exact hab hlevels hstart
  have hsum : Exactly (min requested.value (totalQuantity (best :: rest))) progress.quantity :=
    ⟨hend.quantity.isFinite, by simpa using hwalked.quantity⟩
  -- what is taken is at least a unit of the last decimal
  have hlow : (10 : ℚ) ^ (-1027 : ℤ) ≤ progress.quantity.value := by
    refine le_trans (zpow_le_zpow_right₀ (by norm_num) (by omega))
      (hend.quantity.hasPlaces.le_of_pos ?_)
    rw [hsum.value_eq]
    exact lt_min hpos (totalQuantity_pos (positive_of_scaled hlevels))
  have hbetween := hend.toRoom.quantity_between (by simp)
  refine (along_closes hwalk hend.remaining.isFinite ⟨hsum.isFinite, hlow, hbetween.le_high⟩
    (hend.toRoom.notional_between (by simp))
    (price_bounds hab hlevels hnotional List.mem_cons_self)).mono fun fill hfill => ?_
  refine hfill.takes hpos hwalked.toTraversed hsum hend.notional.isFinite ?_
  rw [hwalked.remaining, sub_pos, min_lt_iff]
  exact or_iff_right (lt_irrefl _)

end Fill

namespace Book

section Sides

variable {symbol : String} {depth timestamp : Payload} {book : Book} {side : Side} {a b : ℕ}

/-- The levels of a book with few decimals have something to offer. -/
theorem scaled_levels (hbook : ofDepth symbol depth timestamp = .ok book)
    (hlevels : ∀ level ∈ book.levels side, level.HasPlaces a b) :
    ∀ level ∈ book.levels side, level.Scaled a b := fun level hlevel => by
  have hplaces := hlevels level hlevel
  obtain ⟨hprice, hstock⟩ :=
    pos_of_mem_levels hbook hlevel hplaces.price_isFinite hplaces.quantity_isFinite
  exact ⟨hplaces, hprice, hstock⟩

/-- The fill of an order that asks for something. -/
theorem fillFor_of_cons {target : FillTarget} {requested : Decimal} {best : Level}
    {rest : List Level} (hpos : 0 < requested.value) (hside : book.levels side = best :: rest) :
    book.fillFor side target requested = liftM (Fill.along side target requested best rest) := by
  have hle : requested.le 0 = .ok false := by
    rw [le_zero_eq (isFinite_of_pos hpos), decide_eq_false (not_le.2 hpos)]
  unfold Book.fillFor
  rw [hle, hside]
  rfl

/-- An order for a quantity takes that quantity, if prices and quantities have few decimals and
neither the quantity nor the totals are large. -/
theorem fill_takes_of_lt (hbook : ofDepth symbol depth timestamp = .ok book) (side : Side)
    (hne : book.levels side ≠ []) {requested : Decimal} (hpos : 0 < requested.value)
    (hab : a + b ≤ 1000) (hlevels : ∀ level ∈ book.levels side, level.HasPlaces a b)
    (hplaces : Decimal.HasPlaces b requested.value)
    (hrequested : requested.value < 10 ^ (27 - b : ℤ))
    (hquantity : OrderTicket.totalQuantity (book.levels side) < 10 ^ (27 - b : ℤ))
    (hnotional : totalNotional (book.levels side) < 10 ^ (27 - (a + b : ℕ) : ℤ)) :
    Returns (book.fill side (some requested) none)
      (Fill.Takes requested.value (book.levels side)) := by
  have hscaled := scaled_levels hbook hlevels
  obtain ⟨best, rest, hside⟩ := List.exists_cons_of_ne_nil hne
  change Returns (book.fillFor side .quantity requested) _
  rw [fillFor_of_cons hpos hside]
  rw [hside] at hscaled hquantity hnotional ⊢
  exact (Fill.along_takes side hab hscaled hpos hplaces hrequested hquantity hnotional).lift

/-- A fill takes what the order needs if the quantity and the totals together are not large. -/
theorem fill_takes (hbook : ofDepth symbol depth timestamp = .ok book) (side : Side)
    (hne : book.levels side ≠ []) {requested : Decimal} (hpos : 0 < requested.value)
    (hab : a + b ≤ 1000) (hlevels : ∀ level ∈ book.levels side, level.HasPlaces a b)
    (hplaces : Decimal.HasPlaces b requested.value)
    (hquantity : OrderTicket.totalQuantity (book.levels side) + requested.value <
      10 ^ (27 - b : ℤ))
    (hnotional : totalNotional (book.levels side) < 10 ^ (27 - (a + b : ℕ) : ℤ)) :
    Returns (book.fill side (some requested) none)
      (Fill.Takes requested.value (book.levels side)) := by
  have htotal := (stocked_of_scaled (scaled_levels hbook hlevels)).totalQuantity_nonneg
  exact fill_takes_of_lt hbook side hne hpos hab hlevels hplaces (by linarith) (by linarith)
    hnotional

end Sides

/-! ## A book with two asks -/

namespace Sample

/-- The depth of a small book, with the worse ask first. -/
def depth : Payload :=
  .object [("bids", .list [.list ["99.5", "2"]]),
    ("asks", .list [.list ["101", "3"], .list ["100.5", "2"]])]

/-- The asks of the small book, with the better one first. -/
def asks : List Level :=
  [⟨.finite false 1005 (-1), 2⟩, ⟨101, 3⟩]

theorem value_price : (Decimal.finite false 1005 (-1)).value = 1005 * 10 ^ (-1 : ℤ) :=
  rfl

/-- The book. -/
def smallBook : Book where
  symbol := Text.upper "BTCUSDT"
  bids := [⟨.finite false 995 (-1), 2⟩].mergeSort (priority .sell)
  asks := [⟨101, 3⟩, ⟨.finite false 1005 (-1), 2⟩].mergeSort (priority .buy)

theorem ofDepth_depth : ofDepth "BTCUSDT" depth .null = .ok smallBook :=
  rfl

theorem exists_book :
    ∃ book, ofDepth "BTCUSDT" depth .null = .ok book ∧ book.levels .buy = asks := by
  refine ⟨smallBook, ofDepth_depth, ?_⟩
  have hsecond : priority .buy ⟨101, 3⟩ ⟨.finite false 1005 (-1), 2⟩ = false := rfl
  simp [smallBook, levels, asks, List.mergeSort, hsecond]

theorem asks_hasPlaces : ∀ level ∈ asks, level.HasPlaces 1 0 := by
  refine List.forall_mem_cons.2 ⟨?_, List.forall_mem_singleton.2 ?_⟩
  · exact ⟨rfl, rfl, ⟨1005, by norm_num [value_price]⟩, ⟨2, by norm_num⟩⟩
  · exact ⟨rfl, rfl, ⟨1010, by norm_num⟩, ⟨3, by norm_num⟩⟩

end Sample

end Book

end OrderTicket
