import OrderTicket.Rules.Registry
import OrderTicket.Ticket.Parts

/-!
# Preparing tickets

An order, the book and the rules of its market, and the trader's preferences together give a ticket,
or the rejections that stand against the order. Whatever the venue would refuse is a rejection; what
the trader only should know is a warning.

* `Ticket.prepare`: the ticket of an order.
* `Registry.prepare`: the same, with the rules looked up in a registry.
-/

namespace OrderTicket

namespace Ticket

/-- Goes on with a value; a rejection ends the preparation and keeps the warnings so far. -/
def settle {α : Type} (warnings : List Warning) (x : Except Failure α)
    (next : α → Except Failure Outcome) : Except Failure Outcome :=
  match x with
  | .ok value => next value
  | .error (.rejected rejections) => .ok (.refused rejections warnings)
  | .error failure => .error failure

/-- What is settled about the price and the fill of an order when its quantity is known. -/
structure Terms where
  /-- The leverage. -/
  leverage : Int
  /-- The limit price. -/
  limitPrice : Option Decimal
  /-- The quantity before it is moved to the grid. -/
  raw : Decimal
  /-- The fill of a market order. -/
  fill : Option Fill
  /-- Whether its slippage is above the trader's bound. -/
  overLimit : Bool

/-- The expected price: the limit price, or the average price of the fill, rounded against the order
so that the estimate never flatters it. -/
def priceOf (order : Order) (rules : TradingRules) (terms : Terms) :
    Except Failure Decimal :=
  match terms.fill, terms.limitPrice with
  | some fill, _ => rules.price (some order.side.opposite) fill.averagePrice
  | none, some price => .ok price
  | none, none => .error .limitPriceMissing

/-- The checks of an order's value and of its limit price. -/
def checkBounds (order : Order) (book : Book) (rules : TradingRules) (markPrice : Option Decimal)
    (limitPrice : Option Decimal) (baseSize price : Decimal) : Except Failure Unit := do
  let value ← rules.notionalRejection? baseSize price (!order.reduceOnly)
  let distance ← bandRejections order book rules markPrice limitPrice
  match value.toList ++ distance with
  | [] => return ()
  | rejections => .error (.rejected rejections)

/-- The ticket of an order whose quantity and price have passed all checks. -/
def complete (order : Order) (rules : TradingRules) (risk : RiskSettings) (terms : Terms)
    (baseSize price : Decimal) (warnings : List Warning) : Except Failure Ticket := do
  let quoteSize ← liftM (baseSize.mul price)
  let estimatedFees ← liftM (quoteSize.mul risk.feeRate)
  let requiredMargin ← liftM (quoteSize.div (.ofInt terms.leverage))
  let stopLossPrice ← protectivePrice? rules order.side true price order.stopLoss
  let takeProfitPrice ← protectivePrice? rules order.side false price order.takeProfit
  let exhausted := terms.fill.any (·.exhausted)
  return {
    symbol := order.symbol, side := order.side, type := order.type, baseSize, quoteSize
    leverage := terms.leverage, estimatedPrice := price, estimatedFees
    slippageWarning := terms.overLimit || exhausted
    maxSlippageExceeded := exhausted && terms.overLimit
    stopLossPrice, takeProfitPrice, limitPrice := terms.limitPrice, trailing := order.trailing
    reduceOnly := order.reduceOnly
    slippagePercent := (terms.fill.map (·.slippagePercent)).getD 0
    bookExhausted := exhausted, requiredMargin, warnings }

/-- The slippage check of a fill and its warnings; a limit order has neither. -/
def slippage (risk : RiskSettings) (fill : Option Fill) : Except Failure (Bool × List Warning) := do
  match fill with
  | none => return (false, [])
  | some fill =>
    let overLimit ← liftM (isOverLimit fill risk)
    let warnings ← liftM (fillWarnings fill risk overLimit)
    return (overLimit, warnings)

/-- The outcome for an order, a book and rules of the same market. -/
def assemble (order : Order) (book : Book) (rules : TradingRules) (risk : RiskSettings)
    (balance markPrice : Option Decimal) : Except Failure Outcome :=
  let market := order.type == .market
  let leverage := usedLeverage order risk
  settle [] (liftM (leverageWarnings order risk)) fun warnings =>
  settle warnings (limitPrice? order rules) fun limitPrice =>
  settle warnings (priceWarnings order rules limitPrice) fun more =>
  let warnings := warnings ++ more
  settle warnings (rawQuantity order book limitPrice leverage balance) fun (raw, conversion) =>
  -- a fill that the quantity came from is used again, so the book is not walked twice
  settle warnings (marketFill? order book raw conversion) fun fill =>
  settle warnings (slippage risk fill) fun (overLimit, more) =>
  let warnings := warnings ++ more
  let terms : Terms := { leverage, limitPrice, raw, fill, overLimit }
  settle warnings (rules.quantity market raw) fun baseSize =>
  settle warnings (quantityWarnings order (rules.lot market) raw baseSize) fun more =>
  let warnings := warnings ++ more
  settle warnings (priceOf order rules terms) fun price =>
  -- both checks are made before the order is refused, so that all rejections are reported
  settle warnings (checkBounds order book rules markPrice limitPrice baseSize price) fun () =>
  settle warnings (complete order rules risk terms baseSize price warnings) fun ticket =>
  .ok (.ready ticket)

/-- The event of an outcome. -/
def Outcome.event (order : Order) : Outcome → Event
  | ready ticket => .built ticket
  | refused rejections _ => .rejected order.symbol order.side rejections

/-- The outcome for an order, and what happens on the way. All inputs must be about one market. -/
def prepare (order : Order) (book : Book) (rules : TradingRules) (risk : RiskSettings)
    (balance markPrice : Option Decimal) : Except Failure (Outcome × Event) := do
  if book.symbol ≠ order.symbol ∨ rules.symbol.isName order.symbol = false then
    .error (.symbolsDisagree order.symbol book.symbol rules.symbol)
  else
    let outcome ← assemble order book rules risk balance markPrice
    return (outcome, outcome.event order)

end Ticket

namespace Registry

/-- The outcome for an order, with the rules of its market from the current table. A market without
rules is a rejection. -/
def prepare (registry : Registry) (order : Order) (book : Book) (risk : RiskSettings)
    (balance markPrice : Option Decimal) : Except Failure (Ticket.Outcome × Ticket.Event) :=
  match registry.find? order.symbol with
  | some rules => Ticket.prepare order book rules risk balance markPrice
  | none =>
    let rejection : Rejection :=
      ⟨.unknownSymbol, (Failure.unknownSymbol order.symbol).message, none⟩
    .ok (.refused [rejection] [], .unknownSymbol order.symbol)

end Registry

end OrderTicket
