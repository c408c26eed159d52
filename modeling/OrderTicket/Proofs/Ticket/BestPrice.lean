import OrderTicket.Proofs.Book.SingleLevel
import OrderTicket.Proofs.Ticket.Warnings

/-!
# Tickets for an amount that the best level is worth

A market order for an amount of the quote currency, or for a share of the balance, takes nothing but
the best level if that is worth the amount. The average price is then the price of that level up to
the last digits. If the quantity needs no rounding it is exactly that price, which the grid keeps,
and there is no slippage. Else it may lie a little beside the grid, and the ticket states the next
tick.

* `Ticket.FitsBest`: such orders.
* `Ticket.pays_of_prepare`: what a ticket states of price and slippage.
-/

namespace OrderTicket

open Decimal

/-- The book is only asked for something. -/
theorem Book.pos_of_fillFor {book : Book} {side : Side} {target : FillTarget} {requested : Decimal}
    {fill : Fill} (hfin : requested.isFinite = true)
    (h : book.fillFor side target requested = .ok fill) : 0 < requested.value := by
  obtain ⟨low, hlow, h⟩ := bind_eq_ok h
  cases low with
  | true => cases h
  | false => exact value_pos_of_le_zero_eq_false hfin (liftM_eq_ok hlow)

namespace Ticket

/-- A market order for an amount of the quote currency that the best level is worth, at a price on
the grid and in numbers that the context can hold. -/
structure FitsBest (order : Order) (book : Book) (rules : TradingRules) (risk : RiskSettings)
    (balance : Option Decimal) (amount : Decimal) (best : Level) : Prop where
  /-- It takes the price there is. -/
  type_eq : order.type = .market
  /-- It is not sized in units of the asset. -/
  unit_ne : order.size.unit ≠ .base
  /-- What it spends or wants to receive. -/
  amount_eq : notional order.size (usedLeverage order risk) balance = .ok amount
  /-- The level that it takes from first. -/
  best_eq : (book.levels order.side).head? = some best
  /-- The level is worth the amount. -/
  le_worth : amount.value ≤ best.quantity.value * best.price.value
  /-- The price of the level lies on the grid. -/
  multiple : ∃ k : ℤ, best.price.value = k * rules.tick.value
  amount_inContext : amount.InContext
  price_inContext : best.price.InContext
  quantity_inContext : best.quantity.InContext
  tick_inContext : rules.tick.InContext

/-- The ticket states the best price and no slippage, and no warning says that there is too much. -/
structure PaysBest (risk : RiskSettings) (best : Level) (ticket : Ticket) : Prop where
  /-- The expected price is the price of the level. -/
  estimatedPrice : ticket.estimatedPrice.equal best.price = .ok true
  /-- There is no slippage. -/
  slippagePercent : ticket.slippagePercent.equal 0 = .ok true
  /-- No warning says so, unless the bound is negative. -/
  warnings : risk.maxSlippageBps.lt 0 = .ok false →
    ∀ warning ∈ ticket.warnings, warning.code ≠ .highSlippage

/-- The ticket states the best price or the next tick, and hardly any slippage. -/
structure PaysNearly (side : Side) (tick : Decimal) (risk : RiskSettings) (best : Level)
    (ticket : Ticket) : Prop where
  /-- The expected price is the price of the level, or worse than it by a tick. -/
  estimatedPrice : ticket.estimatedPrice.value = best.price.value ∨
    ticket.estimatedPrice.value = best.price.value + side.sign * tick.value
  /-- The slippage shows in the last digits only. -/
  slippagePercent : ticket.slippagePercent.value ≤ 10 ^ (-23 : ℤ)
  /-- No warning is about it, unless the bound is as small. -/
  warnings : risk.maxSlippageBps.lt (.finite false 1 (-21)) = .ok false →
    ∀ warning ∈ ticket.warnings, warning.code ≠ .highSlippage

section

variable {order : Order} {book : Book} {rules : TradingRules} {risk : RiskSettings}
  {balance markPrice : Option Decimal} {ticket : Ticket} {event : Event} {fill : Fill}
  {amount : Decimal} {best : Level}

/-! ## The bound of the slippage -/

/-- There is not too much slippage if there is no more than some bound that the limit reaches. -/
theorem isOverLimit_ne_true {bound : Decimal} (hbound : bound.isFinite = true)
    (hrep : Representable (bound.value / 100)) (hlimit : risk.maxSlippageBps.lt bound = .ok false)
    (hfill : fill.slippagePercent.isFinite = true)
    (hle : fill.slippagePercent.value ≤ bound.value / 100) : isOverLimit fill risk ≠ .ok true := by
  intro h
  obtain ⟨limit, hdiv, h⟩ := bind_eq_ok h
  generalize risk.maxSlippageBps = bps at *
  cases bps with
  | finite n c e =>
    have hround := (div_computes rfl rfl (by simp)).rounded hdiv
    rw [lt_eq rfl hbound, Except.ok.injEq, decide_eq_false_iff_not, not_lt] at hlimit
    have hge := hround.le_value hrep (by rw [value_ofNat]; push_cast; linarith)
    rw [lt_eq hround.isFinite hfill, decide_eq_false (not_lt.2 (hle.trans hge))] at h
    cases h
  | infinity n =>
    -- a negative infinity would be below the bound
    obtain ⟨m, c, e, rfl⟩ := isFinite_iff.1 hbound
    obtain ⟨m', c', e', hvalue⟩ := isFinite_iff.1 hfill
    rw [hvalue] at h
    cases n with
    | true => cases hlimit
    | false =>
      obtain rfl := Except.ok.inj hdiv
      cases h
  | nan => cases bound <;> cases hlimit

/-! ## The fill of a ticket -/

/-- A ticket that takes its estimates from a fill. -/
structure EstimatedFrom (order : Order) (rules : TradingRules) (risk : RiskSettings) (fill : Fill)
    (ticket : Ticket) : Prop where
  /-- The expected price is the average price, rounded like an order of the other side. -/
  estimatedPrice : rules.price (some order.side.opposite) fill.averagePrice =
    .ok ticket.estimatedPrice
  /-- The slippage is that of the fill. -/
  slippagePercent : ticket.slippagePercent = fill.slippagePercent
  /-- A warning about slippage says that there is too much. -/
  warnings : ∀ warning ∈ ticket.warnings, warning.code = .highSlippage →
    isOverLimit fill risk = .ok true

/-- Whatever takes from the book has a ticket that says what the fill would be. -/
theorem Steps.estimatedFrom (steps : Steps order book rules risk balance markPrice ticket)
    (hfill : steps.terms.fill = some fill) : EstimatedFrom order rules risk fill ticket := by
  have hprice := steps.price_eq
  unfold priceOf at hprice
  rw [hfill] at hprice
  refine ⟨?_, ?_, fun warning hmem hcode => ?_⟩
  · rw [steps.shown.estimatedPrice]
    exact hprice
  · rw [steps.shown.slippagePercent, hfill]
    rfl
  · -- the warning comes from the check of that fill
    have hmem' := hcode ▸ List.mem_map_of_mem (f := fun note : Warning => note.code) hmem
    obtain ⟨fill', hfill', hover⟩ := (slippage_overLimit steps.slippage_eq).1
      (steps.warns_high_iff.1 hmem')
    obtain rfl := Option.some.inj (hfill.symm.trans hfill')
    exact hover

/-- A fill that is not refused is the fill of the book. -/
theorem fillOrReject_eq_ok {side : Side} {target : FillTarget} {requested : Decimal}
    (h : fillOrReject book side target requested = .ok fill) :
    book.fillFor side target requested = .ok fill := by
  unfold fillOrReject at h
  split at h
  · cases h
  · exact h

/-- A market order that is not sized in units of the asset has the fill of the amount that it
spends. -/
theorem Steps.exists_fill (steps : Steps order book rules risk balance markPrice ticket)
    (htype : order.type = .market) (hunit : order.size.unit ≠ .base)
    (hamount : notional order.size (usedLeverage order risk) balance = .ok amount) :
    ∃ fill, book.fillFor order.side .notional amount = .ok fill ∧ steps.terms.fill = some fill := by
  have hraw := steps.raw_eq
  have hfill := steps.fill_eq
  -- without a limit price the quantity came from a fill, and that fill is used again
  obtain ⟨-, hlimit⟩ | ⟨hlimited, -⟩ := limitPrice?_eq_ok steps.limitPrice_eq
  · rw [hlimit, steps.leverage_eq, rawQuantity, if_neg hunit] at hraw
    obtain ⟨spent, hspent, hraw⟩ := bind_eq_ok hraw
    obtain rfl := Except.ok.inj (hamount.symm.trans hspent)
    obtain ⟨fill, hfound, hraw⟩ := bind_eq_ok hraw
    obtain ⟨-, hconversion⟩ := Prod.mk.inj (Except.ok.inj hraw)
    unfold marketFill? at hfill
    rw [htype, ← hconversion] at hfill
    exact ⟨fill, fillOrReject_eq_ok hfound, (Except.ok.inj hfill).symm⟩
  · rw [htype] at hlimited
    cases hlimited

/-- The fill of an amount that the best level is worth. -/
theorem FitsBest.exists_fill {symbol : String} {depth timestamp : Payload}
    (hbook : Book.ofDepth symbol depth timestamp = .ok book)
    (h : FitsBest order book rules risk balance amount best)
    (steps : Steps order book rules risk balance markPrice ticket) :
    Fill.Fits amount best ∧ ∃ fill, EstimatedFrom order rules risk fill ticket ∧
      fill.SpentAt amount.value best.price.value := by
  obtain ⟨fill, hfill, hterm⟩ := steps.exists_fill h.type_eq h.unit_ne h.amount_eq
  have hpos := Book.pos_of_fillFor h.amount_inContext.isFinite hfill
  obtain ⟨rest, hside⟩ := List.head?_eq_some_iff.1 h.best_eq
  obtain ⟨hprice, hstock⟩ := Book.pos_of_mem_levels hbook
    (List.mem_of_mem_head? h.best_eq) h.price_inContext.isFinite h.quantity_inContext.isFinite
  have hfits : Fill.Fits amount best :=
    ⟨⟨hprice, hstock⟩, h.amount_inContext, hpos, h.price_inContext, h.quantity_inContext,
      h.le_worth⟩
  rw [Book.fillFor_of_cons hpos hside] at hfill
  exact ⟨hfits, fill, steps.estimatedFrom hterm, Fill.spentAt_of_along hfits (liftM_eq_ok hfill)⟩

/-! ## Price and slippage -/

/-- The price of the level is a positive number of ticks. -/
theorem FitsBest.exists_ticks (h : FitsBest order book rules risk balance amount best)
    (hpos : 0 < best.price.value) :
    0 < rules.tick.value ∧ ∃ k : ℤ, 0 < k ∧ best.price.value = k * rules.tick.value := by
  have htick := value_pos_of_le_zero_eq_false h.tick_inContext.isFinite rules.tick_pos
  obtain ⟨k, hk⟩ := h.multiple
  rw [hk] at hpos
  exact ⟨htick, k, by exact_mod_cast pos_of_mul_pos_left hpos htick.le, hk⟩

/-- If the quantity needs no rounding, the ticket states the price of the level. -/
theorem FitsBest.paysBest {symbol : String} {depth timestamp : Payload}
    (hbook : Book.ofDepth symbol depth timestamp = .ok book)
    (h : FitsBest order book rules risk balance amount best)
    (steps : Steps order book rules risk balance markPrice ticket)
    (hquantity : Representable (amount.value / best.price.value)) : PaysBest risk best ticket := by
  obtain ⟨hfits, fill, hfrom, hspent⟩ := h.exists_fill hbook steps
  obtain ⟨-, k, hk, hticks⟩ := h.exists_ticks hfits.price_pos
  have haverage := averageAt_eq h.price_inContext.representable hfits.amount_pos.ne' hquantity
  have hmean := hspent.averagePrice
  have hslippage := hspent.slippagePercent
  rw [haverage] at hmean hslippage
  rw [slippage_self] at hslippage
  -- the average is the price of the level, and the grid keeps that
  have hprice := TradingRules.price_of_multiple h.tick_inContext hk
    (hmean.value_eq.trans hticks) hfrom.estimatedPrice
  have hfinite := (TradingRules.price_ok h.tick_inContext hfrom.estimatedPrice).isFinite
  refine ⟨?_, ?_, fun hlimit warning hmem hcode => ?_⟩
  · exact Exactly.equal ⟨hfinite, hprice.trans hmean.value_eq⟩ ⟨h.price_inContext.isFinite, rfl⟩
  · rw [hfrom.slippagePercent]
    exact hslippage.equal ⟨rfl, by simp⟩
  · refine isOverLimit_ne_true rfl (by simpa using representable_zero) hlimit hslippage.isFinite ?_
      (hfrom.warnings warning hmem hcode)
    rw [hslippage.value_eq]
    simp

/-- A market order for an amount that the best level is worth states the price of that level or the
next tick, if the price has not too many ticks. -/
theorem FitsBest.paysNearly {symbol : String} {depth timestamp : Payload}
    (hbook : Book.ofDepth symbol depth timestamp = .ok book)
    (h : FitsBest order book rules risk balance amount best)
    (steps : Steps order book rules risk balance markPrice ticket)
    (hprice : (10 : ℚ) ^ (-1000 : ℤ) ≤ best.price.value)
    (hquantity : (10 : ℚ) ^ (-1000 : ℤ) ≤ amount.value / best.price.value)
    (hticks : best.price.value ≤ 10 ^ 25 * rules.tick.value) :
    PaysNearly order.side rules.tick risk best ticket := by
  obtain ⟨hfits, fill, hfrom, hspent⟩ := h.exists_fill hbook steps
  obtain ⟨htick, k, hk, hmultiple⟩ := h.exists_ticks hfits.price_pos
  have herr := abs_averageAt_sub_le hprice hquantity
  have hmean := hspent.averagePrice.value_eq
  have hslippage := hspent.slippagePercent
  -- the error is far less than half a tick
  have hnear : |averageAt amount.value best.price.value - best.price.value| ≤
      1 / 2 * rules.tick.value := by linarith
  rw [← hmean] at hnear
  obtain ⟨hlow, hhigh⟩ := abs_le.1 hnear
  have hk' : k ≤ 10 ^ (precision - 2) := by
    rw [hmultiple, mul_le_mul_iff_left₀ htick] at hticks
    have hle : (k : ℚ) ≤ (10 ^ (precision - 2) : ℤ) := hticks.trans (by norm_num [precision])
    exact_mod_cast hle
  -- so rounding in the direction of the order goes no farther than to the next tick
  have hstated := TradingRules.price_of_near h.tick_inContext hk hk' (by linarith) (by linarith)
    hfrom.estimatedPrice
  have hsmall := slippage_averageAt_le hprice hquantity
  rw [← hslippage.value_eq] at hsmall
  have hbound : (Decimal.finite false 1 (-21)).value / 100 = 10 ^ (-23 : ℤ) := by
    norm_num [value, magnitude]
  refine ⟨?_, hfrom.slippagePercent ▸ hsmall, fun hlimit warning hmem hcode => ?_⟩
  · rw [hmultiple]
    refine hstated.imp_right fun hnext => hnext.trans ?_
    cases order.side <;> simp [Side.opposite, Side.sign, add_mul]
  · refine isOverLimit_ne_true rfl ?_ hlimit hslippage.isFinite (hbound ▸ hsmall)
      (hfrom.warnings warning hmem hcode)
    rw [hbound]
    exact representable_zpow (by decide)

/-- What a ticket states for an amount that the best level is worth. -/
theorem pays_of_prepare {symbol : String} {depth timestamp : Payload}
    (hbook : Book.ofDepth symbol depth timestamp = .ok book)
    (hfits : FitsBest order book rules risk balance amount best)
    (h : prepare order book rules risk balance markPrice = .ok (.ready ticket, event)) :
    (Representable (amount.value / best.price.value) → PaysBest risk best ticket) ∧
      ((10 : ℚ) ^ (-1000 : ℤ) ≤ best.price.value →
        (10 : ℚ) ^ (-1000 : ℤ) ≤ amount.value / best.price.value →
        best.price.value ≤ 10 ^ 25 * rules.tick.value →
        PaysNearly order.side rules.tick risk best ticket) := by
  obtain ⟨hassemble, -⟩ := prepare_eq_ok h
  obtain ⟨steps⟩ := exists_steps hassemble
  exact ⟨hfits.paysBest hbook steps, hfits.paysNearly hbook steps⟩

end

/-! ## Purchases from a book with one ask -/

namespace Sample

/-- The depth of a book with one level on each side. -/
def narrowDepth : Payload :=
  .object [("bids", .list [.list ["64250.2", "1"]]), ("asks", .list [.list ["64250.3", "1"]])]

/-- The ask of the narrow book. -/
def ask : Level :=
  ⟨.finite false 642503 (-1), 1⟩

/-- The book. -/
def narrowBook : Book where
  symbol := "BTCUSDT"
  bids := [⟨.finite false 642502 (-1), 1⟩]
  asks := [ask]

theorem ofDepth_narrowDepth : Book.ofDepth "BTCUSDT" narrowDepth .null = .ok narrowBook := by
  have hsorted : Book.ofDepth "BTCUSDT" narrowDepth .null = .ok ⟨Text.upper "BTCUSDT",
      [⟨.finite false 642502 (-1), 1⟩].mergeSort (Book.priority .sell),
      [ask].mergeSort (Book.priority .buy), .null⟩ := rfl
  have hupper : Text.upper "BTCUSDT" = "BTCUSDT" := by decide +kernel
  rw [hsorted, hupper, List.mergeSort_singleton, List.mergeSort_singleton]
  rfl

/-- A purchase for an amount of the quote currency. -/
def purchase (amount : Decimal) : Order where
  symbol := "BTCUSDT"
  side := .buy
  size := ⟨.quote, amount⟩

/-- A purchase for an amount in the context, not above the price of the only ask, fits the best
level. -/
theorem purchase_fitsBest {amount : Decimal} (risk : RiskSettings) (hamount : amount.InContext)
    (hle : amount.value ≤ ask.price.value) :
    FitsBest (purchase amount) narrowBook rules risk none amount ask where
  type_eq := rfl
  unit_ne := by simp [purchase]
  amount_eq := rfl
  best_eq := rfl
  le_worth := by simpa [ask] using hle
  multiple := ⟨642503, by
    have htick : rules.tick.value = 1 * 10 ^ (-1 : ℤ) := rfl
    have hprice : ask.price.value = 642503 * 10 ^ (-1 : ℤ) := rfl
    rw [htick, hprice, one_mul]
    norm_cast⟩
  amount_inContext := hamount
  price_inContext := inContext_finite (by decide) (by decide)
  quantity_inContext := inContext_finite (by decide) (by decide)
  tick_inContext := rules_inContext.tick

end Sample

/-- A purchase for the price of one unit is estimated at the best price. -/
theorem pays_sample_purchase : ∃ ticket event,
    prepare (Sample.purchase Sample.ask.price) Sample.narrowBook Sample.rules {} none none =
        .ok (.ready ticket, event) ∧
      PaysBest {} Sample.ask ticket ∧ PaysNearly .buy Sample.rules.tick {} Sample.ask ticket := by
  obtain ⟨ticket, event, hrun, -⟩ := exists_ready (c := fun _ => true)
    (r := prepare (Sample.purchase Sample.ask.price) Sample.narrowBook Sample.rules {} none none)
    (by decide +kernel)
  have htick : Sample.rules.tick.value = 1 * 10 ^ (-1 : ℤ) := rfl
  have hprice : Sample.ask.price.value = 642503 * 10 ^ (-1 : ℤ) := rfl
  have hctx : Sample.ask.price.InContext := inContext_finite (by decide) (by decide)
  have hone : Sample.ask.price.value / Sample.ask.price.value = 1 := by rw [hprice]; norm_num
  have hsmall : (10 : ℚ) ^ (-1000 : ℤ) ≤ 1 := zpow_le_one_of_nonpos₀ (by norm_num) (by norm_num)
  obtain ⟨hbest, hnearly⟩ := pays_of_prepare Sample.ofDepth_narrowDepth
    (Sample.purchase_fitsBest {} hctx le_rfl) hrun
  refine ⟨ticket, event, hrun, hbest ?_, hnearly ?_ ?_ ?_⟩
  · rw [hone]
    exact representable_intCast (m := 1) (by decide)
  · exact hsmall.trans (by rw [hprice]; norm_num)
  · exact hsmall.trans_eq hone.symm
  · rw [hprice, htick]
    norm_num

/-- The quantity for a hundred has more digits than the precision. The average price lies above the
best one by its last digit, the ticket states the next tick, and warns of slippage. -/
theorem not_paysBest_purchase : ∃ ticket event,
    FitsBest (Sample.purchase 100) Sample.narrowBook Sample.rules { maxSlippageBps := 0 } none 100
        Sample.ask ∧
      prepare (Sample.purchase 100) Sample.narrowBook Sample.rules { maxSlippageBps := 0 }
          none none =
        .ok (.ready ticket, event) ∧
      ticket.estimatedPrice = .finite false 642504 (-1) ∧
      ticket.slippagePercent.equal 0 = .ok false ∧
      ∃ warning ∈ ticket.warnings, warning.code = .highSlippage := by
  obtain ⟨ticket, event, hrun, hcheck⟩ := exists_ready
    (c := fun ticket => decide (ticket.estimatedPrice = .finite false 642504 (-1) ∧
      ticket.slippagePercent.equal 0 = .ok false ∧
      ∃ warning ∈ ticket.warnings, warning.code = .highSlippage))
    (r := prepare (Sample.purchase 100) Sample.narrowBook Sample.rules { maxSlippageBps := 0 } none
      none) (by decide +kernel)
  refine ⟨ticket, event, Sample.purchase_fitsBest _ (inContext_finite (by decide) (by decide)) ?_,
    hrun, of_decide_eq_true hcheck⟩
  norm_num [Sample.ask, value, magnitude]

end Ticket

end OrderTicket
