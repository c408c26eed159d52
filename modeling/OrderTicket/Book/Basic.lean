import OrderTicket.Decimal.Arithmetic
import OrderTicket.Payload.Access
import OrderTicket.Text.LetterCase

/-!
# Order books

The resting orders of a market at one moment, summed up by price. Each side is kept with its best
price first: the highest bid, the lowest ask. Levels of the same price stay in the order of arrival,
and levels without quantity are left out.

* `Book.ofDepth`: the book of raw depth data.
* `Book.levels`: the side of the book that an order takes from.
* `Book.bestBid?`, `Book.bestAsk?`, `Book.midPrice?`: the prices at the touch.
-/

namespace OrderTicket

/-- The quantity that rests at a price. -/
structure Level where
  /-- The price. -/
  price : Decimal
  /-- The quantity. -/
  quantity : Decimal
deriving DecidableEq, Repr, Inhabited

/-- The resting orders of a market. -/
structure Book where
  /-- The market. -/
  symbol : String
  /-- What buyers offer, the highest price first. -/
  bids : List Level
  /-- What sellers offer, the lowest price first. -/
  asks : List Level
  /-- When the book was taken, as the venue tells it. -/
  timestamp : Payload := .null
deriving Repr

namespace Book

/-- The level of a depth entry, `none` for one without quantity. -/
def level? (symbol : String) (entry : Payload) : Except Failure (Option Level) := do
  let price ← liftM (← entry.item 0).number
  let quantity ← liftM (← entry.item 1).number
  if ← liftM (price.le 0) then .error (.badLevel symbol entry)
  if ← liftM (quantity.lt 0) then .error (.badLevel symbol entry)
  return if ← liftM (quantity.equal 0) then none else some ⟨price, quantity⟩

/-- The levels of one side of raw depth data. A side that is missing has none. -/
def readSide (symbol : String) (side : Option Payload) : Except Failure (List Level) := do
  match side with
  | none => return []
  | some entries => return (← (← entries.items).mapM (level? symbol)).filterMap id

/-- Whether a price is at most another one. -/
def priceLe (a b : Level) : Bool :=
  Decimal.order? a.price b.price != some .gt

/-- The book of raw depth data. A given timestamp goes before that of the data. -/
def ofDepth (symbol : String) (depth timestamp : Payload) : Except Failure Book := do
  let timestamp ← match timestamp with
    | .null => do pure ((← depth.field? "timestamp").getD .null)
    | x => pure x
  let bids ← readSide symbol (← depth.field? "bids")
  let asks ← readSide symbol (← depth.field? "asks")
  return {
    symbol := Text.upper symbol
    bids := bids.mergeSort fun a b => priceLe b a
    asks := asks.mergeSort priceLe
    timestamp }

/-- The side of the book that an order takes from: buys take what sellers offer. -/
def levels (book : Book) : Side → List Level
  | .buy => book.asks
  | .sell => book.bids

/-- The highest bid. -/
def bestBid? (book : Book) : Option Decimal :=
  book.bids.head?.map (·.price)

/-- The lowest ask. -/
def bestAsk? (book : Book) : Option Decimal :=
  book.asks.head?.map (·.price)

/-- The price halfway between bid and ask, or that of the only side there is. -/
def midPrice? (book : Book) : Except Decimal.Fault (Option Decimal) := do
  match book.bestBid?, book.bestAsk? with
  | some bid, some ask => return some (← (← bid.add ask).div 2)
  | some bid, none => return some bid
  | none, ask => return ask

end Book

end OrderTicket
