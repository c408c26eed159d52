import OrderTicket.Rules.Basic

/-!
# Numbers that a market takes

Quantities and prices moved onto the grid of a market, and the checks of an order's value and of a
limit price's distance from the mark price. Quantities are never rounded up. Prices are rounded down
for buys and up for sells, so that a limit order is never more aggressive than it was typed. Each
rejection names the nearest value that would be taken.

* `TradingRules.quantity`, `TradingRules.price`: a number on the grid, or a rejection.
* `TradingRules.notionalRejection?`, `TradingRules.bandRejection?`: what is wrong, if anything is.
-/

namespace OrderTicket.TradingRules

/-- Refuses a number. -/
def reject {α : Type} (code : Rejection.Code) (message : String) (nearest : Decimal) :
    Except Failure α :=
  .error (.rejected [⟨code, message, some nearest⟩])

/-- Whether a number is not positive or less than a bound. -/
def fallsShort (x bound : Decimal) : Except Decimal.Fault Bool := do
  if ← x.le 0 then return true else x.lt bound

/-- The largest multiple of a step that is not above a value, written with the step's decimals. -/
def floorWritten (value step : Decimal) : Except Failure Decimal := do
  let x ← liftM (Step.floor value step)
  Step.write x step

/-- The least multiple of a step that is not below a value, written with the step's decimals. -/
def ceilWritten (value step : Decimal) : Except Failure Decimal := do
  let x ← liftM (Step.ceil value step)
  Step.write x step

/-- Refuses a quantity that is too large. -/
def rejectAbove (rules : TradingRules) (lot : Lot) (raw bound : Decimal) :
    Except Failure Decimal := do
  let nearest ← floorWritten bound lot.step
  reject .aboveMaxQuantity
    ("Quantity " ++ raw.text ++ " is above the maximum " ++ bound.text ++ " for " ++
      rules.symbol.shown) nearest

/-- Refuses a quantity that is too small. -/
def rejectBelow (rules : TradingRules) (lot : Lot) (raw rounded : Decimal) :
    Except Failure Decimal := do
  let least ← liftM (Decimal.max lot.min lot.step)
  let nearest ← ceilWritten least lot.step
  let step ← liftM (Step.shown lot.step)
  reject .belowMinQuantity
    ("Quantity " ++ raw.text ++ " rounds to " ++ rounded.text ++ " at step size " ++ step ++
      "; the minimum for " ++ rules.symbol.shown ++ " is " ++ nearest.text) nearest

/-- The quantity of an order: the raw quantity cut to the step, if it lies within the bounds. -/
def quantity (rules : TradingRules) (market : Bool) (raw : Decimal) : Except Failure Decimal := do
  let lot := rules.lot market
  let floored ← liftM (Step.floor raw lot.step)
  match lot.max with
  | some bound =>
    if ← liftM (bound.lt floored) then
      return ← rules.rejectAbove lot raw bound
  | none => pure ()
  let rounded ← Step.write floored lot.step
  if ← liftM (fallsShort rounded lot.min) then rules.rejectBelow lot raw rounded
  else return rounded

/-- Refuses a price that is too low. -/
def rejectLowPrice (rules : TradingRules) (raw : Decimal) : Except Failure Decimal := do
  let least ← liftM (Decimal.max rules.minPrice rules.tick)
  let nearest ← Step.write least rules.tick
  reject .priceOutOfRange
    ("Price " ++ raw.text ++ " is below the minimum " ++ least.text ++ " for " ++
      rules.symbol.shown) nearest

/-- Refuses a price that is too high. -/
def rejectHighPrice (rules : TradingRules) (raw bound : Decimal) : Except Failure Decimal := do
  let nearest ← floorWritten bound rules.tick
  reject .priceOutOfRange
    ("Price " ++ raw.text ++ " is above the maximum " ++ bound.text ++ " for " ++
      rules.symbol.shown) nearest

/-- The price of an order: the raw price moved to the tick, up for sells and down otherwise, if it
lies within the bounds. -/
def price (rules : TradingRules) (side : Option Side) (raw : Decimal) : Except Failure Decimal := do
  let rounded ←
    if side = some .sell then ceilWritten raw rules.tick else floorWritten raw rules.tick
  if ← liftM (fallsShort rounded rules.minPrice) then return ← rules.rejectLowPrice raw
  match rules.maxPrice with
  | some bound =>
    if ← liftM (bound.lt rounded) then rules.rejectHighPrice raw bound else return rounded
  | none => return rounded

/-- A value in messages, with two decimals. -/
def money (x : Decimal) : Except Decimal.Fault String :=
  (x.truncate 2).map (·.text)

/-- Why an order of a value would be refused, if it would. The least value can be waived. -/
def notionalRejection? (rules : TradingRules) (quantity price : Decimal) (checkMin : Bool) :
    Except Failure (Option Rejection) := do
  let notional ← liftM (quantity.mul price)
  if ← liftM (if checkMin then notional.lt rules.minNotional else .ok false) then
    let enough ← liftM (rules.minNotional.div price)
    let enough ← liftM (Step.ceil enough rules.step)
    let nearest ← Step.write (← liftM (Decimal.max enough rules.minQuantity)) rules.step
    let value ← liftM (money notional)
    let bound ← liftM (Step.shown rules.minNotional)
    return some ⟨.belowMinNotional,
      "Order value " ++ value ++ " is below the minimum notional " ++ bound ++ " for " ++
        rules.symbol.shown ++ "; use at least " ++ nearest.text, some nearest⟩
  match rules.maxNotional with
  | none => return none
  | some most =>
    if ← liftM (most.lt notional) then
      let nearest ← floorWritten (← liftM (most.div price)) rules.step
      let value ← liftM (money notional)
      let bound ← liftM (Step.shown most)
      return some ⟨.aboveMaxNotional,
        "Order value " ++ value ++ " is above the maximum notional " ++ bound ++ " for " ++
          rules.symbol.shown ++ "; use at most " ++ nearest.text, some nearest⟩
    else return none

/-- The least and the largest limit price around a mark price. -/
def band (rules : TradingRules) (mark : Decimal) : Except Decimal.Fault (Decimal × Decimal) := do
  let low ← mark.mul (← Decimal.sub 1 rules.bandDown)
  let high ← mark.mul (← Decimal.add 1 rules.bandUp)
  return (low, high)

/-- Whether a number lies between two others. -/
def within (low x high : Decimal) : Except Decimal.Fault Bool := do
  if ← low.le x then x.le high else return false

/-- Why a limit price would be refused for its distance from the mark price, if it would. -/
def bandRejection? (rules : TradingRules) (mark limit : Decimal) :
    Except Failure (Option Rejection) := do
  let (low, high) ← liftM (rules.band mark)
  if ← liftM (within low limit high) then return none
  let below ← liftM (limit.lt low)
  let nearest ← if below then ceilWritten low rules.tick else floorWritten high rules.tick
  return some ⟨.outsidePriceBand,
    "Limit price " ++ limit.text ++ " is too far " ++ (if below then "below" else "above") ++
      " the mark price " ++ mark.text ++ " for " ++ rules.symbol.shown ++
      "; nearest allowed price is " ++ nearest.text, some nearest⟩

end OrderTicket.TradingRules
