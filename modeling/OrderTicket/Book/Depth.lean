import OrderTicket.Book.Basic
import OrderTicket.Rules.Normal

/-!
# Depth of a book

How much could be traded, and how large an order is beside what is on offer.

* `Book.quantityWithin`: the largest quantity that stays within a slippage.
* `Book.depth`: the liquidity of a side and the spread.
* `Book.share`: the part of a side that an order would take.
-/

namespace OrderTicket

/-- The liquidity that an order of one side would take from, and the spread. -/
structure Depth where
  /-- The number of levels. -/
  levels : Nat
  /-- The quantity of all levels. -/
  quantity : Decimal
  /-- The average quantity of a level. -/
  averageQuantity : Decimal
  /-- The distance between bid and ask. -/
  spread : Decimal
  /-- That distance relative to the bid, in hundredths of a percent. -/
  spreadBps : Decimal
deriving DecidableEq, Repr

namespace Book

/-- The worst price that a slippage in hundredths of a percent allows. -/
def priceLimit (side : Side) (best maxSlippageBps : Decimal) : Except Decimal.Fault Decimal := do
  let tolerance ← maxSlippageBps.div 10000
  match side with
  | .buy => best.mul (← Decimal.add 1 tolerance)
  | .sell => best.mul (← Decimal.sub 1 tolerance)

/-- Whether a price is worse than a limit. -/
def isWorse (side : Side) (price limit : Decimal) : Except Decimal.Fault Bool :=
  match side with
  | .buy => limit.lt price
  | .sell => price.lt limit

/-- The quantity of the levels before the first one that is worse than a limit, added to a total. -/
def quantityUpTo (side : Side) (limit : Decimal) : List Level → Decimal →
    Except Decimal.Fault Decimal
  | [], total => .ok total
  | level :: rest, total => do
    if ← isWorse side level.price limit then return total
    else quantityUpTo side limit rest (← total.add level.quantity)

/-- The quantity of all levels whose prices stay within a slippage of the best one; with rules, cut
to the step of market orders. The average price of a fill of that quantity stays within it too. -/
def quantityWithin (book : Book) (side : Side) (maxSlippageBps : Decimal)
    (rules : Option TradingRules) : Except Failure Decimal := do
  match book.levels side with
  | [] => return 0
  | best :: rest =>
    let limit ← liftM (priceLimit side best.price maxSlippageBps)
    let total ← liftM (quantityUpTo side limit (best :: rest) 0)
    match rules with
    | none => return total
    | some rules => TradingRules.floorWritten total (rules.lot true).step

/-- The quantity of all levels of a side. -/
def totalQuantity (book : Book) (side : Side) : Except Decimal.Fault Decimal :=
  Decimal.sum ((book.levels side).map (·.quantity))

/-- The depth of the side that an order would take from. -/
def depth (book : Book) (side : Side) : Except Decimal.Fault Depth := do
  let levels := (book.levels side).length
  let quantity ← book.totalQuantity side
  let averageQuantity ← if levels = 0 then pure 0 else quantity.div (.ofInt levels)
  match book.bestBid?, book.bestAsk? with
  | some bid, some ask =>
    let spread ← ask.sub bid
    let spreadBps ← (← spread.div bid).mul 10000
    return { levels, quantity, averageQuantity, spread, spreadBps }
  | _, _ => return { levels, quantity, averageQuantity, spread := 0, spreadBps := 0 }

/-- The part of a side that an order of a quantity would take, in percent. An empty side counts as
fully taken. -/
def share (book : Book) (side : Side) (quantity : Decimal) : Except Decimal.Fault Decimal := do
  let total ← book.totalQuantity side
  if ← total.equal 0 then return 100
  else (← quantity.div total).mul 100

end Book

end OrderTicket
