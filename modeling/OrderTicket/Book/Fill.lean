import OrderTicket.Book.Basic

/-!
# Fills

What an order would get if it took from the book now. The order walks the levels from the best price
on and takes from each what it still needs, until it has enough or the side ends.

* `Book.fill`: the fill of an order for a quantity or for a notional.
* `Fill.slippageBps`: how far the average price is from the best one.
-/

namespace OrderTicket

/-- What an order asks for: a quantity of the asset, or an amount of the quote currency. -/
inductive FillTarget where
  | quantity
  | notional
deriving DecidableEq, Repr

/-- The name of a fill target. -/
def FillTarget.name : FillTarget → String
  | quantity => "quantity"
  | notional => "notional"

/-- The outcome of walking the book. -/
structure Fill where
  /-- The direction of the order. -/
  side : Side
  /-- What the order asks for. -/
  target : FillTarget
  /-- How much it asks for. -/
  requested : Decimal
  /-- The quantity it gets. -/
  quantity : Decimal
  /-- What it pays or receives. -/
  notional : Decimal
  /-- The average price. -/
  averagePrice : Decimal
  /-- The price of the first level. -/
  bestPrice : Decimal
  /-- The price of the last level that was taken from. -/
  worstPrice : Decimal
  /-- How far the average price is from the best one, in percent. -/
  slippagePercent : Decimal
  /-- How many levels were taken from. -/
  levelsTaken : Nat
  /-- Whether the side ended before the order had enough. -/
  exhausted : Bool
deriving DecidableEq, Repr

namespace Fill

/-- The slippage in hundredths of a percent. -/
def slippageBps (fill : Fill) : Except Decimal.Fault Decimal :=
  fill.slippagePercent.mul 100

/-- What the order gets of what it asks for. -/
def achieved (fill : Fill) : Decimal :=
  match fill.target with
  | .quantity => fill.quantity
  | .notional => fill.notional

/-- Where a walk stands. -/
structure Progress where
  /-- What is still needed. -/
  remaining : Decimal
  /-- The quantity taken. -/
  quantity : Decimal
  /-- Its value. -/
  notional : Decimal
  /-- The price of the level taken from last. -/
  worstPrice : Decimal
  /-- The number of levels taken from. -/
  levelsTaken : Nat
deriving DecidableEq, Repr

/-- What is taken from a level: quantity, its value, and what is still needed afterwards. A notional
that a level can serve is spent to the last digit there, so that the rounding of the quantity leaves
nothing over. -/
def take (target : FillTarget) (remaining : Decimal) (level : Level) :
    Except Decimal.Fault (Decimal × Decimal × Decimal) := do
  match target with
  | .quantity =>
    let taken ← Decimal.min remaining level.quantity
    let spent ← taken.mul level.price
    return (taken, spent, ← remaining.sub taken)
  | .notional =>
    let affordable ← remaining.div level.price
    if ← affordable.le level.quantity then return (affordable, remaining, 0)
    else
      let spent ← level.quantity.mul level.price
      return (level.quantity, spent, ← remaining.sub spent)

/-- A walk that takes from one more level. -/
def Progress.advance (target : FillTarget) (progress : Progress) (level : Level) :
    Except Decimal.Fault Progress := do
  let (taken, spent, remaining) ← take target progress.remaining level
  return {
    remaining
    quantity := ← progress.quantity.add taken
    notional := ← progress.notional.add spent
    worstPrice := level.price
    levelsTaken := progress.levelsTaken + 1 }

/-- Walks levels until nothing is needed any more or no level is left. -/
def walk (target : FillTarget) : List Level → Progress → Except Decimal.Fault Progress
  | [], progress => .ok progress
  | level :: rest, progress => do
    if ← progress.remaining.le 0 then return progress
    else walk target rest (← progress.advance target level)

/-- The fill that a walk along the levels from `best` on comes to. -/
def along (side : Side) (target : FillTarget) (requested : Decimal) (best : Level)
    (rest : List Level) : Except Decimal.Fault Fill := do
  let progress ← walk target (best :: rest) ⟨requested, 0, 0, best.price, 0⟩
  let averagePrice ← progress.notional.div progress.quantity
  -- on both sides of the book the slippage counts as positive
  let distance ← (← averagePrice.sub best.price).abs
  let slippagePercent ← (← distance.div best.price).mul 100
  let exhausted ← Decimal.lt 0 progress.remaining
  return {
    side, target, requested, averagePrice, slippagePercent, exhausted
    quantity := progress.quantity
    notional := progress.notional
    bestPrice := best.price
    worstPrice := progress.worstPrice
    levelsTaken := progress.levelsTaken }

end Fill

namespace Book

/-- The fill of an order for a quantity or for a notional. -/
def fillFor (book : Book) (side : Side) (target : FillTarget) (requested : Decimal) :
    Except Failure Fill := do
  if ← liftM (requested.le 0) then .error (.fillNotPositive requested)
  match book.levels side with
  | [] => .error (.emptyBook side book.symbol)
  | best :: rest => liftM (Fill.along side target requested best rest)

/-- The fill of an order for exactly one of a quantity and a notional. -/
def fill (book : Book) (side : Side) (quantity notional : Option Decimal) : Except Failure Fill :=
  match quantity, notional with
  | some requested, none => book.fillFor side .quantity requested
  | none, some requested => book.fillFor side .notional requested
  | _, _ => .error .fillTargets

end Book

end OrderTicket
