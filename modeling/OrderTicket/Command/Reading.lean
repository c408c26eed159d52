import OrderTicket.Command.Draft

/-!
# Reading commands

A typed command such as `/sell ETHUSDT 0.25 x3 reduce` becomes an order, or all that is wrong with
it. Suggestions come with both: how to write what failed, or which terms could be added.

* `Command.read`: the reading of a text.
* `Reading.ok`: whether the reading has an order.
-/

namespace OrderTicket.Command

/-- The outcome of reading a command. -/
structure Reading where
  /-- The order, if nothing is wrong. -/
  order : Option Order := none
  /-- What is wrong, in words. -/
  errors : List String := []
  /-- Suggestions to the trader. -/
  suggestions : List String := []
deriving DecidableEq, Repr

namespace Reading

/-- Whether the reading has an order. -/
def ok (reading : Reading) : Bool :=
  reading.order.isSome && reading.errors.isEmpty

/-- The reading of a command that is not understood. -/
def refused (problems : List Problem) : Reading where
  errors := problems.map (·.message)
  suggestions := Problem.suggestions problems

/-- Terms that an order could have in addition. -/
def hints (order : Order) : List String :=
  (if order.leverage.isNone && !order.reduceOnly then ["Consider adding leverage (e.g., x5)"]
   else []) ++
    (if order.stopLoss.isNone && order.takeProfit.isNone && !order.reduceOnly then
      ["Consider adding risk management (sl1% tp3%)"]
     else [])

/-- The reading of a finished draft. -/
def ofDraft (draft : Draft) : Reading :=
  match draft.order? with
  | some order => { order := some order, suggestions := hints order }
  | none => refused draft.problems

end Reading

/-- The action that a word asks for: its lower case without a slash in front and without anything
from an at sign on. -/
def action (word : String) : String :=
  let cs := (Text.lower word).toList
  let cs := match cs with
    | '/' :: rest => rest
    | _ => cs
  .ofList (cs.takeWhile (· != '@'))

/-- The side that an action names. -/
def sideOf? (word : String) : Option Side :=
  let action := action word
  if action == "buy" then some .buy else if action == "sell" then some .sell else none

/-- The reading of a text. It fails only if a number is too large even to be rounded, or the highest
leverage has too many digits to be written into a problem. -/
def read (settings : CommandSettings) (text : String) : Except Decimal.Fault Reading := do
  match Text.words text with
  | [] => return .refused [.empty]
  | word :: words =>
    match sideOf? word with
    | none => return .refused [.unknownAction word]
    | some side =>
      let draft ← (Clause.readAll words).foldlM (Draft.apply settings) { side }
      return .ofDraft (← draft.finished settings)

end OrderTicket.Command
