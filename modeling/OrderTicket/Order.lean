import OrderTicket.Decimal.Printer
import OrderTicket.Integer

/-!
# Orders

What a trader asks for: a side, a symbol, a size in one of three units, and optional terms. An order
can be written as a command (`Order.command`), from which the command reader gets it back.
-/

namespace OrderTicket

/-- The direction of an order. -/
inductive Side where
  | buy
  | sell
deriving DecidableEq, Repr, Inhabited

/-- The side that closes a position. -/
def Side.opposite : Side → Side
  | buy => sell
  | sell => buy

@[simp]
theorem Side.opposite_opposite (side : Side) : side.opposite.opposite = side := by
  cases side <;> rfl

/-- The name of a side. -/
def Side.name : Side → String
  | buy => "buy"
  | sell => "sell"

/-- Whether an order takes the best price at once or waits at a price of its own. -/
inductive OrderType where
  | market
  | limit
deriving DecidableEq, Repr, Inhabited

/-- The name of an order type. -/
def OrderType.name : OrderType → String
  | market => "market"
  | limit => "limit"

/-- What a size counts: units of the asset, of the quote currency, or percent of the balance. -/
inductive SizeUnit where
  | base
  | quote
  | percent
deriving DecidableEq, Repr, Inhabited

/-- The name of a size unit. -/
def SizeUnit.name : SizeUnit → String
  | base => "base"
  | quote => "quote"
  | percent => "percent"

/-- The mark of a unit behind an amount. -/
def SizeUnit.suffix : SizeUnit → String
  | base => ""
  | quote => "u"
  | percent => "%"

/-- An amount with its unit. -/
structure Size where
  /-- What the amount counts. -/
  unit : SizeUnit
  /-- How much. -/
  amount : Decimal
deriving DecidableEq, Repr, Inhabited

/-- A size as a word of a command. -/
def Size.render (size : Size) : String :=
  size.amount.canonical ++ size.unit.suffix

/-- What a trader asks for. -/
structure Order where
  /-- The market. -/
  symbol : String
  /-- The direction. -/
  side : Side
  /-- How much. -/
  size : Size
  /-- The wanted leverage. -/
  leverage : Option Int := none
  /-- Market or limit. -/
  type : OrderType := .market
  /-- The price of a limit order. -/
  limitPrice : Option Decimal := none
  /-- The distance of the stop loss from the entry, in percent. -/
  stopLoss : Option Decimal := none
  /-- The distance of the profit target from the entry, in percent. -/
  takeProfit : Option Decimal := none
  /-- The distance that a trailing stop keeps, in percent. -/
  trailing : Option Decimal := none
  /-- Whether the order may only make a position smaller. -/
  reduceOnly : Bool := false
deriving DecidableEq, Repr, Inhabited

namespace Order

/-- A term of a command, if it has a value. -/
def term {α : Type} (value : Option α) (write : α → String) : List String :=
  (value.map write).toList

/-- A percentage term of a command. -/
def percentTerm (keyword : String) (value : Option Decimal) : List String :=
  term value fun x => keyword ++ x.canonical ++ "%"

/-- The leverage term of a command. -/
def leverageTerm (leverage : Option Int) : Except Decimal.Fault (List String) :=
  match leverage with
  | none => .ok []
  | some x => (Integer.text x).map fun number => ["x" ++ number]

/-- The words that a command shares whether it is written from an order or from a selection. -/
def commonTerms (side : Side) (symbol : String) (size : Size) (leverage : Option Int)
    (stopLoss takeProfit trailing : Option Decimal) (reduceOnly : Bool) :
    Except Decimal.Fault (List String) := do
  let leverage ← leverageTerm leverage
  return ["/" ++ side.name, symbol, size.render] ++ leverage ++
    percentTerm "sl" stopLoss ++ percentTerm "tp" takeProfit ++ percentTerm "trail" trailing ++
    (if reduceOnly then ["reduce"] else [])

/-- The limit term of an order's command; a limit order without a price has none. -/
def limitTerm (order : Order) : List String :=
  match order.type, order.limitPrice with
  | .limit, some price => ["limit " ++ price.canonical]
  | _, _ => []

/-- An order as a command. -/
def command (order : Order) : Except Decimal.Fault String := do
  let terms ← commonTerms order.side order.symbol order.size order.leverage order.stopLoss
    order.takeProfit order.trailing order.reduceOnly
  return " ".intercalate (terms ++ order.limitTerm)

/-- Whether two optional numbers are both absent or have the same value. -/
def sameNumber : Option Decimal → Option Decimal → Except Decimal.Fault Bool
  | none, none => .ok true
  | some a, some b => a.equal b
  | _, _ => .ok false

/-- Whether two orders agree in every term, numbers by value. Terms are compared in turn and the
first difference decides. -/
def same (a b : Order) : Except Decimal.Fault Bool := do
  unless a.symbol == b.symbol && a.side == b.side && a.size.unit == b.size.unit do return false
  unless ← a.size.amount.equal b.size.amount do return false
  unless a.leverage == b.leverage && a.type == b.type do return false
  unless ← sameNumber a.limitPrice b.limitPrice do return false
  unless ← sameNumber a.stopLoss b.stopLoss do return false
  unless ← sameNumber a.takeProfit b.takeProfit do return false
  unless ← sameNumber a.trailing b.trailing do return false
  return a.reduceOnly == b.reduceOnly

end Order

end OrderTicket
