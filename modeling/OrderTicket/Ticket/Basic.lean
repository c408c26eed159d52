import OrderTicket.Log
import OrderTicket.Order

/-!
# Tickets

A ticket is an order as the venue would take it, with what it is expected to cost, ready to be
confirmed by the trader. `Ticket.Outcome` is a ticket or the rejections that stand against it.
-/

namespace OrderTicket

/-- An order as the venue would take it. -/
structure Ticket where
  /-- The market. -/
  symbol : String
  /-- The direction. -/
  side : Side
  /-- Market or limit. -/
  type : OrderType
  /-- The quantity, on the grid of the market. -/
  baseSize : Decimal
  /-- The value of the quantity at the estimated price. -/
  quoteSize : Decimal
  /-- The leverage. -/
  leverage : Int
  /-- The expected price, on the grid of the market. -/
  estimatedPrice : Decimal
  /-- The expected fees. -/
  estimatedFees : Decimal
  /-- Whether the slippage is too high or the book too thin. -/
  slippageWarning : Bool
  /-- Whether the slippage is too high and the book too thin. -/
  maxSlippageExceeded : Bool
  /-- The trigger of the stop loss. -/
  stopLossPrice : Option Decimal
  /-- The trigger of the profit target. -/
  takeProfitPrice : Option Decimal
  /-- The limit price, on the grid of the market. -/
  limitPrice : Option Decimal
  /-- The distance that a trailing stop keeps, in percent. -/
  trailing : Option Decimal
  /-- Whether the order may only make a position smaller. -/
  reduceOnly : Bool
  /-- How far the expected average price is from the best one, in percent. -/
  slippagePercent : Decimal
  /-- Whether the book ends before the order has enough. -/
  bookExhausted : Bool
  /-- The margin that the order binds. -/
  requiredMargin : Decimal
  /-- What the trader should know before confirming. -/
  warnings : List Warning
deriving DecidableEq, Repr

namespace Ticket

/-- A ticket, or why there is none. Warnings that were due before a rejection are kept. -/
inductive Outcome where
  | ready (ticket : Ticket)
  | refused (rejections : List Rejection) (warnings : List Warning)
deriving DecidableEq, Repr

namespace Outcome

/-- The ticket, if there is one. -/
def ticket? : Outcome → Option Ticket
  | ready ticket => some ticket
  | refused .. => none

/-- What stands against the order. -/
def rejections : Outcome → List Rejection
  | ready _ => []
  | refused rejections _ => rejections

/-- What the trader should know. -/
def warnings : Outcome → List Warning
  | ready ticket => ticket.warnings
  | refused _ warnings => warnings

/-- Whether the order can be placed. -/
def ok (outcome : Outcome) : Bool :=
  outcome.ticket?.isSome && outcome.rejections.isEmpty

@[simp]
theorem ok_ready (ticket : Ticket) : (ready ticket).ok = true :=
  rfl

@[simp]
theorem ok_refused (rejections : List Rejection) (warnings : List Warning) :
    (refused rejections warnings).ok = false :=
  rfl

/-- What stands against the order, in words. -/
def errors (outcome : Outcome) : List String :=
  outcome.rejections.map (·.message)

end Outcome

/-- What happens while tickets are prepared. -/
inductive Event where
  | built (ticket : Ticket)
  | rejected (symbol : String) (side : Side) (rejections : List Rejection)
  | unknownSymbol (symbol : String)
deriving DecidableEq, Repr

/-- The log record of an event. -/
def Event.record : Event → Log.Record
  | built ticket =>
    { level := .debug
      event := "preview_built"
      fields := [("symbol", .text ticket.symbol), ("side", .text ticket.side.name),
        ("base_size", .text ticket.baseSize.text),
        ("estimated_price", .text ticket.estimatedPrice.text),
        ("slippage_pct", .text ticket.slippagePercent.text),
        ("warnings", .int ticket.warnings.length)] }
  | rejected symbol side rejections =>
    { level := .info
      event := "preview_rejected"
      fields := [("symbol", .text symbol), ("side", .text side.name),
        ("codes", .list (rejections.map fun r => .text r.code.name)),
        ("reason", .text ((rejections.head?.map (·.message)).getD ""))] }
  | unknownSymbol symbol =>
    { level := .info, event := "preview_unknown_symbol", fields := [("symbol", .text symbol)] }

end Ticket

end OrderTicket
