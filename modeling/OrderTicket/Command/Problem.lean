import OrderTicket.Command.Clause
import OrderTicket.Decimal.Printer

/-!
# Problems of a command

What can be wrong with a command, in the words that the trader sees, and which problems come with a
suggestion of how to write it instead.
-/

namespace OrderTicket.Command

/-- The suggestion that stands behind all others. -/
def usage : String := "Try: /buy BTCUSDT 100u x5 sl1% tp3%"

/-- Commands that show the grammar. -/
def examples : List String := [
  "/buy BTCUSDT 100u x5 sl1% tp3%",
  "/sell ETHUSDT 0.25 x3 reduce",
  "/buy SOLUSDT mkt 250u tp2%",
  "/sell ADAUSDT 1000u x2 sl2% tp5% limit 0.65",
  "/buy LINKUSDT 50u x10 trail1%",
  "buy 0.1 ETH 10x sl1% tp3%",
  "/buy BTC 25%"]

/-- What is wrong with a command. -/
inductive Problem where
  | empty
  | unknownAction (word : String)
  | givenTwice (what : String)
  | sizeGivenTwice (number : String)
  | leverageMissing
  | protectionMissing (kind : Protection)
  | protectionInvalid (kind : Protection) (word : String)
  | notFinite (word : String)
  | unrecognized (word : String)
  | unknownSymbol (word : String)
  | twoSymbols (first second : String)
  | notNumber (what number : String)
  | tooLarge (what number : String)
  | notPositive (what number : String)
  | sizeNotPositive (number : String)
  | shareTooHigh (number : String)
  | leverageFractional (number : String)
  | leverageOutside (number cap : String)
  | protectionTooHigh (kind : Protection) (number : String)
  | symbolMissing
  | sizeMissing
  | marketAndLimit
  | limitWithoutPrice
  | shareReduceOnly
  | shareWithLeverage
  | targetTooHigh (value : Decimal)
deriving DecidableEq, Repr

namespace Problem

/-- A problem in words. -/
def message : Problem → String
  | empty => "Empty command"
  | unknownAction word => "Unknown action '" ++ word ++ "': commands start with buy or sell"
  | givenTwice what => what ++ " given twice"
  | sizeGivenTwice number => "Size given twice ('" ++ number ++ "')"
  | leverageMissing => "Leverage keyword needs a value"
  | protectionMissing kind =>
    kind.label ++ " needs a percentage, e.g. " ++ kind.keyword ++ "1%"
  | protectionInvalid kind word =>
    "Invalid " ++ kind.label.toLower ++ " '" ++ word ++ "'"
  | notFinite word => "Size '" ++ word ++ "' must be a finite number"
  | unrecognized word => "Unrecognized token '" ++ word ++ "'"
  | unknownSymbol word => "Unrecognized symbol '" ++ word ++ "'"
  | twoSymbols first second => "Two symbols given: " ++ first ++ " and " ++ second
  | notNumber what number => what ++ " '" ++ number ++ "' is not a valid number"
  | tooLarge what number => what ++ " " ++ number ++ " is too large"
  | notPositive what number => what ++ " must be positive, got " ++ number
  | sizeNotPositive number => "Size must be positive, got " ++ number
  | shareTooHigh number => "Balance percentage must be at most 100%, got " ++ number ++ "%"
  | leverageFractional number => "Leverage must be a whole number, got " ++ number
  | leverageOutside number cap =>
    "Leverage " ++ number ++ "x is outside the allowed range 1x-" ++ cap ++ "x"
  | protectionTooHigh kind number =>
    kind.label ++ " must be below 100%, got " ++ number ++ "%"
  | symbolMissing => "Could not identify trading symbol"
  | sizeMissing => "Could not identify order size"
  | marketAndLimit => "An order cannot be both market and limit"
  | limitWithoutPrice => "Limit orders need a price"
  | shareReduceOnly => "Reduce-only orders cannot be sized by balance percentage"
  | shareWithLeverage => "Balance percentage cannot be combined with leverage in spot mode"
  | targetTooHigh value =>
    "Take profit must be below 100% for sells, got " ++ value.text ++ "%"

/-- How to write a size. -/
def sizeSuggestion : String := "Specify size like: 100u (quote), 0.25 (base) or 25% (balance)"

/-- How to write a symbol. -/
def symbolSuggestion : String := "Include a valid symbol like BTCUSDT or ETH"

/-- How to write the command instead. -/
def suggestion? : Problem → Option String
  | leverageMissing => some "Write leverage as x5 or 5x"
  | protectionInvalid kind _ =>
    some ("Write " ++ kind.label.toLower ++ " as " ++ kind.keyword ++ "1%")
  | unknownSymbol _ => some symbolSuggestion
  | symbolMissing => some symbolSuggestion
  | sizeNotPositive _ => some sizeSuggestion
  | sizeMissing => some sizeSuggestion
  | leverageOutside _ cap => some ("Use leverage between x1 and x" ++ cap)
  | limitWithoutPrice => some "Add the price, e.g. limit 64000"
  | shareReduceOnly => some "Size reduce-only orders in base or quote units"
  | _ => none

/-- The suggestions for several problems, each once, and the usage behind them. -/
def suggestions (problems : List Problem) : List String :=
  (problems.filterMap suggestion? ++ [usage]).foldl
    (fun known s => if known.contains s then known else known ++ [s]) []

end Problem

end OrderTicket.Command
