import OrderTicket.Command.Reading

/-!
# Selections

An order put together with buttons arrives as a form. The form is checked, written as a command, and
read like a typed one, so both ways of ordering obey the same rules. What checks the form is a
parameter; `Selection.check` is the checker that runs.

* `Selection.check`: the selection that a form gives, field by field.
* `Selection.command`: a selection as a command.
* `Selection.reading`: the reading of that command.
* `Selection.readForm`: the reading of a form, whatever checks it.
-/

namespace OrderTicket

open Form

/-- The fields of an order chosen with buttons. -/
structure Selection where
  /-- The direction. -/
  action : Side
  /-- The symbol, one word. -/
  symbol : String
  /-- The amount. -/
  size : Decimal
  /-- What the amount counts. -/
  sizeUnit : SizeUnit := .quote
  /-- The wanted leverage. -/
  leverage : Option Int := none
  /-- Market or limit. -/
  type : OrderType := .market
  /-- The price of a limit order. -/
  limitPrice : Option Decimal := none
  /-- The distance of the stop loss, in percent. -/
  stopLoss : Option Decimal := none
  /-- The distance of the profit target, in percent. -/
  takeProfit : Option Decimal := none
  /-- The distance of the trailing stop, in percent. -/
  trailing : Option Decimal := none
  /-- Whether the order may only make a position smaller. -/
  reduceOnly : Bool := false
deriving DecidableEq, Repr

namespace Selection

/-- The names of the fields. -/
def fieldNames : List String :=
  ["action", "symbol", "size", "size_unit", "leverage", "order_type", "limit_price",
    "stop_loss_pct", "take_profit_pct", "trailing_pct", "reduce_only"]

/-- A side, in any case. -/
def sideField : Payload → Except Complaint Side
  | .text s => choice [("buy", .buy), ("sell", .sell)] (.text (Text.lower s))
  | x => choice [("buy", .buy), ("sell", .sell)] x

/-- A symbol: one word, perhaps with blanks around it. -/
def symbolField (x : Payload) : Except Complaint String := do
  let symbol := Text.trim (← text x)
  if symbol.isEmpty || symbol.toList.any Text.isBlank then
    .error (.custom "symbol must be a single word")
  else return symbol

/-- The selection that the fields of a form give. -/
def check (fields : List (String × Payload)) : Checked Selection :=
  let field := Payload.lookup? fields
  (((((((((((Checked.ok mk).ap
    (required "action" sideField (field "action"))).ap
    (required "symbol" symbolField (field "symbol"))).ap
    (required "size" decimal (field "size"))).ap
    (withDefault "size_unit"
      (choice [("base", .base), ("quote", .quote), ("percent", .percent)]) .quote
      (field "size_unit"))).ap
    (withDefault "leverage" (optional integer) none (field "leverage"))).ap
    (withDefault "order_type" (choice [("market", .market), ("limit", .limit)]) .market
      (field "order_type"))).ap
    (withDefault "limit_price" (optional decimal) none (field "limit_price"))).ap
    (withDefault "stop_loss_pct" (optional decimal) none (field "stop_loss_pct"))).ap
    (withDefault "take_profit_pct" (optional decimal) none (field "take_profit_pct"))).ap
    (withDefault "trailing_pct" (optional decimal) none (field "trailing_pct"))).ap
    (withDefault "reduce_only" boolean false (field "reduce_only"))
    |>.also (unexpected fieldNames fields)

/-- The limit terms of a selection's command; a limit order without a price has the keyword only. -/
def limitTerms (selection : Selection) : List String :=
  match selection.type with
  | .market => []
  | .limit => "limit" :: (selection.limitPrice.map Decimal.canonical).toList

/-- A selection as a command. -/
def command (selection : Selection) : Except Decimal.Fault String := do
  let terms ← Order.commonTerms selection.action selection.symbol
    ⟨selection.sizeUnit, selection.size⟩ selection.leverage selection.stopLoss selection.takeProfit
    selection.trailing selection.reduceOnly
  return " ".intercalate (terms ++ selection.limitTerms)

/-- The reading of a selection's command. -/
def reading (settings : CommandSettings) (selection : Selection) :
    Except Decimal.Fault Command.Reading := do
  Command.read settings (← selection.command)

/-- A problem of a form in words. One that has no place is about the payload as a whole. -/
def problemMessage (problem : Problem) : String :=
  (if problem.place.isEmpty then "payload" else problem.place) ++ ": " ++ problem.text

/-- The reading of a form: its problems, or the reading of the selection that it gives. -/
def readForm (checker : Checker Selection) (settings : CommandSettings)
    (fields : List (String × Payload)) : Except Decimal.Fault Command.Reading :=
  match checker fields with
  | .ok selection => selection.reading settings
  | .error problems =>
    .ok { errors := problems.map problemMessage, suggestions := [Command.usage] }

end Selection

end OrderTicket
