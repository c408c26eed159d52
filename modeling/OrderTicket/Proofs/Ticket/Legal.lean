import OrderTicket.Proofs.Rules.Notional
import OrderTicket.Proofs.Ticket.Steps

/-!
# Tickets are legal

Whatever was asked for, a ticket is an order that the venue would take: its quantity and its prices
lie on the grid of the market, its value within the bounds, its limit price within the band, and its
leverage within the trader's cap.

* `Ticket.Legal`: what a venue asks of an order.
* `Ticket.legal_of_prepare`: every ticket is legal.
-/

namespace OrderTicket

open Decimal

/-- Rules whose steps the context can hold. -/
structure TradingRules.InContext (rules : TradingRules) : Prop where
  /-- The step of quantities. -/
  step : rules.step.InContext
  /-- The step of prices. -/
  tick : rules.tick.InContext
  /-- The step of the quantities of market orders. -/
  marketStep : ∀ s, rules.marketStep = some s → s.InContext

/-- The steps of both kinds of orders can be held if all steps of a market can be. -/
theorem TradingRules.InContext.lot {rules : TradingRules} (h : rules.InContext) (market : Bool) :
    (rules.lot market).step.InContext := by
  cases market with
  | false => exact h.step
  | true =>
    cases hs : rules.marketStep with
    | none => simpa [TradingRules.lot, hs] using h.step
    | some s => simpa [TradingRules.lot, hs] using h.marketStep s hs

namespace Ticket

/-- What the venue and the trader's settings ask of an order. -/
structure Legal (order : Order) (book : Book) (rules : TradingRules) (risk : RiskSettings)
    (markPrice : Option Decimal) (ticket : Ticket) : Prop where
  /-- The quantity lies on the grid of the lot for this type of order. -/
  baseSize : OnGrid (rules.lot (order.type == .market)).step (rules.lot (order.type == .market)).min
    (rules.lot (order.type == .market)).max ticket.baseSize
  /-- The expected price lies on the grid of prices. -/
  estimatedPrice : OnGrid rules.tick rules.minPrice rules.maxPrice ticket.estimatedPrice
  /-- The other prices lie on the grid of prices, where there are any. -/
  prices : ∀ price, ticket.limitPrice = some price ∨ ticket.stopLossPrice = some price ∨
    ticket.takeProfitPrice = some price → OnGrid rules.tick rules.minPrice rules.maxPrice price
  /-- The value is not above the largest one. -/
  quoteSize_le : ∀ most, rules.maxNotional = some most → ticket.quoteSize.le most = .ok true
  /-- The value is not below the least one, unless the order only makes a position smaller. -/
  le_quoteSize : order.reduceOnly = false → rules.minNotional.le ticket.quoteSize = .ok true
  /-- A limit order is expected to fill at its limit price. -/
  limitPrice : order.type = .limit → ticket.limitPrice = some ticket.estimatedPrice
  /-- The price of a limit order lies in the band around the mark price, or around the middle of the
  book. -/
  band : order.type = .limit → ∃ reference low high, IsReference book markPrice reference ∧
    rules.band reference = .ok (low, high) ∧ low.le ticket.estimatedPrice = .ok true ∧
    ticket.estimatedPrice.le high = .ok true
  /-- The leverage is at least one. -/
  one_le_leverage : 1 ≤ ticket.leverage
  /-- The leverage is not above the trader's cap, which counts as at least one. -/
  leverage_le : ticket.leverage ≤ Max.max 1 risk.leverageCap

section

variable {order : Order} {book : Book} {rules : TradingRules} {risk : RiskSettings}
  {balance markPrice : Option Decimal} {ticket : Ticket} {event : Event}

/-- The expected price of a limit order is its limit price; that of a market order is rounded to the
grid. Either was moved to the grid. -/
theorem exists_of_priceOf {terms : Terms} {price : Decimal}
    (hlimit : limitPrice? order rules = .ok terms.limitPrice)
    (hprice : priceOf order rules terms = .ok price) :
    ∃ side raw, rules.price side raw = .ok price := by
  -- without a fill the limit price is the expected one, and it was moved to the grid before
  unfold priceOf at hprice
  split at hprice
  · exact ⟨_, _, hprice⟩
  · rename_i limitPrice hterms
    cases hprice
    rw [hterms] at hlimit
    obtain ⟨-, h⟩ | ⟨-, typed, made, -, hmade, h⟩ := limitPrice?_eq_ok hlimit
    · cases h
    · cases h
      exact ⟨_, _, hmade⟩
  · cases hprice

/-- The trigger of a protection that is asked for is on the price grid. -/
theorem protectivePrice?_onGrid {side : Side} {isStop : Bool} {entry price : Decimal}
    {percent : Option Decimal} (htick : rules.tick.InContext)
    (h : protectivePrice? rules side isStop entry percent = .ok (some price)) :
    OnGrid rules.tick rules.minPrice rules.maxPrice price := by
  obtain ⟨wanted, -, h⟩ := protectivePrice?_eq_ok h
  obtain ⟨_, _, _, _, _, _, h⟩ := protectivePrice_eq_ok h
  exact TradingRules.price_ok htick h

/-- Every ticket is legal, if the context can hold the steps of its market. -/
theorem legal_of_prepare (hrules : rules.InContext)
    (h : prepare order book rules risk balance markPrice = .ok (.ready ticket, event)) :
    Legal order book rules risk markPrice ticket := by
  obtain ⟨hassemble, -⟩ := prepare_eq_ok h
  obtain ⟨steps⟩ := exists_steps hassemble
  obtain ⟨quoteSize, _, _, stop, target, hquote, -, -, hstop, htarget, hticket⟩ :=
    complete_eq_ok steps.complete_eq
  obtain ⟨hnotional, hdistance⟩ := checkBounds_eq_ok steps.bounds_eq
  obtain ⟨notional, hvalue, hleast, hmost⟩ := TradingRules.notionalRejection?_eq_none hnotional
  -- the value that was checked is the value of the ticket
  obtain rfl : notional = quoteSize := Except.ok.inj (hvalue.symm.trans hquote)
  obtain ⟨_, _, hmoved⟩ := exists_of_priceOf steps.limitPrice_eq steps.price_eq
  have hprice := TradingRules.price_ok hrules.tick hmoved
  obtain ⟨hone, hcap⟩ := usedLeverage_bounds order risk
  -- the price of a limit order, which does not take from the book
  have hlimit (hlimited : order.type = .limit) : steps.terms.limitPrice = some steps.price := by
    have hfill := marketFill?_eq_ok steps.fill_eq
    have hterm := limitPrice?_eq_ok steps.limitPrice_eq
    have hmade := steps.price_eq
    rw [hlimited] at hfill hterm
    obtain ⟨-, hfill⟩ | ⟨h, -⟩ := hfill
    · obtain ⟨h, -⟩ | ⟨-, typed, made, -, -, hterm⟩ := hterm
      · cases h
      · rw [priceOf, hfill, hterm] at hmade
        rw [hterm, Except.ok.inj hmade]
    · cases h
  rw [hticket]
  constructor
  case baseSize => exact TradingRules.quantity_ok (hrules.lot _) steps.baseSize_eq
  case estimatedPrice => exact hprice
  -- the limit price was moved to the grid at the start, the triggers when the ticket was made
  case prices =>
    rintro price (hterm | rfl | rfl)
    · obtain ⟨-, h⟩ | ⟨-, typed, made, -, hmade, h⟩ := limitPrice?_eq_ok steps.limitPrice_eq
      · simp [h] at hterm
      · simp only [h, Option.some.injEq] at hterm
        exact hterm ▸ TradingRules.price_ok hrules.tick hmade
    · exact protectivePrice?_onGrid hrules.tick hstop
    · exact protectivePrice?_onGrid hrules.tick htarget
  case quoteSize_le =>
    intro most hmax
    exact le_of_lt_eq_false (hmost most hmax)
  case le_quoteSize =>
    intro hreduce
    exact le_of_lt_eq_false (hleast (by rw [hreduce]; rfl))
  case limitPrice => exact hlimit
  case band =>
    intro hlimited
    rw [hlimit hlimited] at hdistance
    obtain ⟨reference, href, hband⟩ := bandRejections_eq_nil hdistance
    obtain ⟨low, high, hband, hlow, hhigh⟩ := bandRejection?_eq_none hband
    exact ⟨reference, low, high, href, hband, hlow, hhigh⟩
  case one_le_leverage => exact steps.leverage_eq ▸ hone
  case leverage_le => exact steps.leverage_eq ▸ hcap

end

/-! ## A limit order in a small market -/

namespace Sample

/-- A market with steps of a thousandth and of a tenth. -/
def rules : TradingRules where
  symbol := .name "BTCUSDT"
  step := 0.001
  tick := 0.1
  minNotional := 5
  maxNotional := some 1000000
  minQuantity := 0.001
  maxQuantity := some 1000
  step_pos := rfl
  tick_pos := rfl
  marketStep_pos := isPositive_of_none

/-- A book with one level on each side. -/
def book : Book where
  symbol := "BTCUSDT"
  bids := [⟨63999.5, 2⟩]
  asks := [⟨64000.5, 2⟩]

/-- A buy for an amount of the quote currency at a price off the grid. -/
def order : Order where
  symbol := "BTCUSDT"
  side := .buy
  size := ⟨.quote, 250⟩
  leverage := some 50
  type := .limit
  limitPrice := some 63990.07
  stopLoss := some 1.5
  takeProfit := some 3

theorem rules_inContext : rules.InContext where
  step := inContext_finite (by decide) (by decide)
  tick := inContext_finite (by decide) (by decide)
  marketStep := by simp [rules]

end Sample

/-- A limit order for an amount of the quote currency gets a legal ticket. -/
theorem legal_sample_limit : ∃ ticket event,
    prepare Sample.order Sample.book Sample.rules {} none none = .ok (.ready ticket, event) ∧
      Legal Sample.order Sample.book Sample.rules {} none ticket := by
  have hready : (prepare Sample.order Sample.book Sample.rules {} none none).toOption.any
      (fun result => result.1.ok) = true := by decide +kernel
  cases hrun : prepare Sample.order Sample.book Sample.rules {} none none with
  | error failure => simp [hrun, Except.toOption] at hready
  | ok result =>
    obtain ⟨outcome, event⟩ := result
    cases outcome with
    | ready ticket => exact ⟨ticket, event, rfl, legal_of_prepare Sample.rules_inContext hrun⟩
    | refused => simp [hrun, Except.toOption] at hready

end Ticket

end OrderTicket
