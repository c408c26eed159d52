import OrderTicket.Book.Fill
import OrderTicket.Rules.Normal
import OrderTicket.Settings.Groups
import OrderTicket.Ticket.Basic

/-!
# Parts of a ticket

The steps that turn an order into a ticket, each a function of what was settled before it, and the
warning that each may add: leverage, limit price, quantity, slippage, size, checks, protections.
-/

namespace OrderTicket.Ticket

/-- A warning, if a condition holds. -/
def warnIf (condition : Bool) (code : Warning.Code) (message : String) : List Warning :=
  if condition then [⟨code, message⟩] else []

/-- The leverage that an order asks for, or the trader's standard. -/
def wantedLeverage (order : Order) (risk : RiskSettings) : Int :=
  order.leverage.getD risk.defaultLeverage

/-- The highest leverage of a trader, at least one. -/
def leverageCap (risk : RiskSettings) : Int :=
  Max.max 1 risk.leverageCap

/-- The leverage of an order, within the trader's bounds. -/
def usedLeverage (order : Order) (risk : RiskSettings) : Int :=
  Min.min (Max.max (wantedLeverage order risk) 1) (leverageCap risk)

/-- The warning that the leverage differs from the wanted one. -/
def leverageWarnings (order : Order) (risk : RiskSettings) :
    Except Decimal.Fault (List Warning) := do
  if usedLeverage order risk = wantedLeverage order risk then return []
  let wanted ← Integer.text (wantedLeverage order risk)
  let cap ← Integer.text (leverageCap risk)
  let used ← Integer.text (usedLeverage order risk)
  return [⟨.leverageClamped,
    "Leverage " ++ wanted ++ "x is outside your range 1x-" ++ cap ++ "x; using " ++ used ++ "x"⟩]

/-- The limit price of an order on the grid of the market; a market order has none. -/
def limitPrice? (order : Order) (rules : TradingRules) : Except Failure (Option Decimal) := do
  match order.type with
  | .market => return none
  | .limit =>
    match order.limitPrice with
    | none => .error .limitPriceMissing
    | some typed => return some (← rules.price (some order.side) typed)

/-- The warning that the limit price was moved. -/
def priceWarnings (order : Order) (rules : TradingRules) (limitPrice : Option Decimal) :
    Except Failure (List Warning) := do
  match limitPrice, order.limitPrice with
  | some price, some typed =>
    if ← liftM (price.equal typed) then return []
    else
      let tick ← liftM (Step.shown rules.tick)
      return [⟨.priceAdjusted,
        "Price " ++ typed.text ++ " adjusted to " ++ price.text ++ " to match tick size " ++ tick⟩]
  | _, _ => return []

/-- The fill of an order; an empty book is a rejection. -/
def fillOrReject (book : Book) (side : Side) (target : FillTarget) (requested : Decimal) :
    Except Failure Fill :=
  match book.fillFor side target requested with
  | .error (.emptyBook side symbol) =>
    .error (.rejected [⟨.noLiquidity, (Failure.emptyBook side symbol).message, none⟩])
  | x => x

/-- The balance that a share of it is taken from. -/
def usableBalance (amount : Decimal) (balance : Option Decimal) : Except Failure Decimal := do
  let refuse (message : String) : Except Failure Decimal :=
    .error (.rejected [⟨.balanceRequired, message, none⟩])
  match balance with
  | none => refuse "An available balance is needed to size an order by percentage"
  | some balance =>
    if ← liftM (balance.le 0) then
      refuse ("Available balance is " ++ balance.text ++ "; nothing to size " ++ amount.text ++
        "% from")
    else return balance

/-- The value of an order that is not sized in units of the asset. -/
def notional (size : Size) (leverage : Int) (balance : Option Decimal) :
    Except Failure Decimal := do
  if size.unit = .percent then
    let balance ← usableBalance size.amount balance
    let part ← liftM (balance.mul size.amount)
    let part ← liftM (part.div 100)
    liftM (part.mul (.ofInt leverage))
  else return size.amount

/-- The quantity of an order before it is moved to the grid, and the fill that it came from, if it
came from one. -/
def rawQuantity (order : Order) (book : Book) (limitPrice : Option Decimal) (leverage : Int)
    (balance : Option Decimal) : Except Failure (Decimal × Option Fill) := do
  if order.size.unit = .base then return (order.size.amount, none)
  let notional ← notional order.size leverage balance
  match limitPrice with
  | some price => return (← liftM (notional.div price), none)
  | none =>
    let fill ← fillOrReject book order.side .notional notional
    return (fill.quantity, some fill)

/-- The fill of a market order; a limit order waits and takes nothing from the book. -/
def marketFill? (order : Order) (book : Book) (quantity : Decimal) (conversion : Option Fill) :
    Except Failure (Option Fill) := do
  match order.type with
  | .limit => return none
  | .market =>
    match conversion with
    | some fill => return some fill
    | none => return some (← fillOrReject book order.side .quantity quantity)

/-- Whether the slippage of a fill is above the trader's bound. -/
def isOverLimit (fill : Fill) (risk : RiskSettings) : Except Decimal.Fault Bool := do
  (← risk.maxSlippageBps.div 100).lt fill.slippagePercent

/-- The warnings about slippage and about a book that ends too early. -/
def fillWarnings (fill : Fill) (risk : RiskSettings) (overLimit : Bool) :
    Except Decimal.Fault (List Warning) := do
  let high ←
    if overLimit then do
      let bps ← fill.slippageBps
      pure [⟨.highSlippage, "Estimated slippage " ++ bps.fixed 2 ++ " bps exceeds your limit of " ++
        risk.maxSlippageBps.text ++ " bps"⟩]
    else pure []
  return high ++ warnIf fill.exhausted .partialLiquidity
    ("Visible depth covers only " ++ fill.achieved.text ++ " of " ++ fill.requested.text ++
      "; the order may not fill completely")

/-- The warning that the quantity was cut to the grid. -/
def quantityWarnings (order : Order) (lot : Lot) (raw used : Decimal) :
    Except Failure (List Warning) := do
  if order.size.unit ≠ .base then return []
  if ← liftM (used.equal raw) then return []
  let step ← liftM (Step.shown lot.step)
  return [⟨.quantityAdjusted,
    "Quantity " ++ raw.text ++ " adjusted to " ++ used.text ++ " to match step size " ++ step⟩]

/-- Why the venue would refuse the distance of a limit price from the mark price. -/
def bandRejections (order : Order) (book : Book) (rules : TradingRules) (markPrice : Option Decimal)
    (limitPrice : Option Decimal) : Except Failure (List Rejection) := do
  match limitPrice with
  | none => return []
  | some price =>
    let reference ← match markPrice with
      | some mark => pure (some mark)
      | none => liftM book.midPrice?
    match reference with
    | none =>
      return [⟨.noLiquidity,
        "No mark price for " ++ order.symbol ++ "; cannot check the limit price band", none⟩]
    | some reference => return (← rules.bandRejection? reference price).toList

/-- The words for a protection that cannot be placed. -/
def protectionLabel (isStop : Bool) : String :=
  if isStop then "Stop loss" else "Take profit"

/-- The trigger of a protection, as far from the entry as asked for and rounded like the order that
closes the position. Stops of buys and targets of sells lie below the entry, the others above. -/
def protectivePrice (rules : TradingRules) (side : Side) (isStop : Bool) (entry percent : Decimal) :
    Except Failure Decimal := do
  let factor ← liftM (percent.div 100)
  let factor ← liftM (if isStop = decide (side = .buy) then Decimal.sub 1 factor
    else Decimal.add 1 factor)
  let raw ← liftM (entry.mul factor)
  match rules.price (some side.opposite) raw with
  | .error (.rejected (first :: _)) =>
    .error (.rejected [⟨.invalidProtectivePrice,
      protectionLabel isStop ++ " " ++ percent.text ++ "% gives trigger price " ++ raw.text ++
        ": " ++ first.message, first.nearestValid⟩])
  | x => x

/-- The trigger of a protection, if it is asked for. -/
def protectivePrice? (rules : TradingRules) (side : Side) (isStop : Bool) (entry : Decimal) :
    Option Decimal → Except Failure (Option Decimal)
  | none => .ok none
  | some percent => (protectivePrice rules side isStop entry percent).map some

end OrderTicket.Ticket
