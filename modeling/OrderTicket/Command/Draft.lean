import OrderTicket.Command.Problem
import OrderTicket.Decimal.Quantum
import OrderTicket.Decimal.Reader
import OrderTicket.Settings.Groups

/-!
# Drafts of an order

A draft collects what the clauses of a command say, and all problems found on the way. It becomes an
order if it is complete and no problem was found.

* `Command.resolveSymbol?`: the market that a symbol word names.
* `Draft.apply`: a draft with one more clause.
* `Draft.finished`: a draft with the problems that only the whole command can have.
-/

namespace OrderTicket.Command

/-- The known quote assets in upper case. -/
def quoteAssets (settings : CommandSettings) : List String :=
  (settings.quoteAsset :: settings.knownQuoteAssets).map Text.upper

/-- Whether a word ends in a quote asset and has something in front of it. -/
def endsIn (word quote : String) : Bool :=
  quote.toList.isSuffixOf word.toList && quote.length < word.length

/-- The longest of some quote assets that a word ends in. Their order does not matter, since two of
the same length that a word ends in are equal. -/
def longestQuote? (word : String) (quotes : List String) : Option String :=
  quotes.foldl (fun best quote =>
    if endsIn word quote && best.all (·.length < quote.length) then some quote else best) none

/-- The part of a word in front of its quote asset. A quote asset without letters leaves none. -/
def baseOf (word quote : String) : String :=
  if quote.isEmpty then "" else .ofList (word.toList.take (word.length - quote.length))

/-- The market that a symbol word names: the word itself if it ends in a known quote asset, else the
word with the standard quote asset behind it. The base must have two to ten characters. -/
def resolveSymbol? (settings : CommandSettings) (word : String) : Option String :=
  let (base, symbol) :=
    match longestQuote? word (quoteAssets settings) with
    | some quote => (baseOf word quote, word)
    | none => (word, word ++ Text.upper settings.quoteAsset)
  if 2 ≤ base.length ∧ base.length ≤ 10 then some symbol else none

/-- What a command has said so far. -/
structure Draft where
  /-- The direction. -/
  side : Side
  /-- The market. -/
  symbol : Option String := none
  /-- The size. -/
  size : Option Size := none
  /-- The leverage. -/
  leverage : Option Int := none
  /-- Whether the command says that it is a market order. -/
  market : Bool := false
  /-- Whether the command says that it is a limit order. -/
  limit : Bool := false
  /-- The limit price. -/
  limitPrice : Option Decimal := none
  /-- The distance of the stop loss, in percent. -/
  stopLoss : Option Decimal := none
  /-- The distance of the profit target, in percent. -/
  takeProfit : Option Decimal := none
  /-- The distance of the trailing stop, in percent. -/
  trailing : Option Decimal := none
  /-- Whether the order may only make a position smaller. -/
  reduceOnly : Bool := false
  /-- The problems found, in order. -/
  problems : List Problem := []
deriving DecidableEq, Repr

namespace Draft

/-- A draft with one more problem. -/
def fail (draft : Draft) (problem : Problem) : Draft :=
  { draft with problems := draft.problems ++ [problem] }

/-- A draft with one more problem if a condition holds. -/
def failIf (draft : Draft) (condition : Bool) (problem : Problem) : Draft :=
  if condition then draft.fail problem else draft

/-- The least magnitude that is too large for a typed number. -/
def numberLimit : Decimal := .finite false 1 15

/-- The value of a typed number, or what is wrong with it. -/
def numberOf (what number : String) : Except Decimal.Fault (Except Problem Decimal) := do
  match Decimal.ofText? number with
  | none => return .error (.notNumber what number)
  | some value =>
    if ← numberLimit.le (← value.abs) then return .error (.tooLarge what number)
    else return .ok value

/-- A draft with a symbol. -/
def setSymbol (settings : CommandSettings) (draft : Draft) (word : String) : Draft :=
  match resolveSymbol? settings word with
  | none => draft.fail (.unknownSymbol word)
  | some symbol =>
    match draft.symbol with
    | some earlier =>
      if earlier == symbol then draft else draft.fail (.twoSymbols earlier symbol)
    | none => { draft with symbol := some symbol }

/-- A draft with a size. -/
def setSize (draft : Draft) (number : String) (unit : SizeUnit) : Except Decimal.Fault Draft := do
  if draft.size.isSome then return draft.fail (.sizeGivenTwice number)
  match ← numberOf "Size" number with
  | .error problem => return draft.fail problem
  | .ok amount =>
    if ← amount.le 0 then return draft.fail (.sizeNotPositive number)
    else if unit == .percent && (← Decimal.lt 100 amount) then
      return draft.fail (.shareTooHigh number)
    else return { draft with size := some ⟨unit, amount⟩ }

/-- A draft with a leverage. -/
def setLeverage (settings : CommandSettings) (draft : Draft) (number : String) :
    Except Decimal.Fault Draft := do
  if draft.leverage.isSome then return draft.fail (.givenTwice "Leverage")
  match ← numberOf "Leverage" number with
  | .error problem => return draft.fail problem
  | .ok value =>
    if !(← value.equal (← value.toIntegral .halfEven)) then
      return draft.fail (.leverageFractional number)
    else if (← Decimal.le 1 value) && (← value.le (.ofInt settings.maxLeverage)) then
      return { draft with leverage := some value.toInt }
    else return draft.fail (.leverageOutside number (← Integer.text settings.maxLeverage))

/-- A draft with a limit price. -/
def setLimitPrice (draft : Draft) (number : String) : Except Decimal.Fault Draft := do
  match ← numberOf "Limit price" number with
  | .error problem => return draft.fail problem
  | .ok value =>
    if ← value.le 0 then return draft.fail (.notPositive "Limit price" number)
    else return { draft with limitPrice := some value }

/-- The distance of a protection. -/
def protection (draft : Draft) : Protection → Option Decimal
  | .stopLoss => draft.stopLoss
  | .takeProfit => draft.takeProfit
  | .trailing => draft.trailing

/-- A draft with the distance of a protection. -/
def withProtection (draft : Draft) (value : Decimal) : Protection → Draft
  | .stopLoss => { draft with stopLoss := some value }
  | .takeProfit => { draft with takeProfit := some value }
  | .trailing => { draft with trailing := some value }

/-- A draft with a protection. A stop must lie less than the whole price away. -/
def setProtection (draft : Draft) (kind : Protection) (number : String) :
    Except Decimal.Fault Draft := do
  if (draft.protection kind).isSome then return draft.fail (.givenTwice kind.label)
  match ← numberOf kind.label number with
  | .error problem => return draft.fail problem
  | .ok value =>
    if ← value.le 0 then return draft.fail (.notPositive kind.label (number ++ "%"))
    else if kind != .takeProfit && (← Decimal.le 100 value) then
      return draft.fail (.protectionTooHigh kind number)
    else return draft.withProtection value kind

/-- A draft with one more clause. -/
def apply (settings : CommandSettings) (draft : Draft) : Clause → Except Decimal.Fault Draft
  | .reduce =>
    .ok { draft.failIf draft.reduceOnly (.givenTwice "Reduce-only") with reduceOnly := true }
  | .market => .ok { draft.failIf draft.market (.givenTwice "Market") with market := true }
  | .limit price =>
    let draft := { draft.failIf draft.limit (.givenTwice "Limit") with limit := true }
    match price with
    | some number => draft.setLimitPrice number
    | none => .ok draft
  | .atPrice number =>
    setLimitPrice
      { draft.failIf draft.limitPrice.isSome (.givenTwice "Limit price") with limit := true } number
  | .leverage number => setLeverage settings draft number
  | .leverageMissing => .ok (draft.fail .leverageMissing)
  | .protection kind number => draft.setProtection kind number
  | .protectionMissing kind => .ok (draft.fail (.protectionMissing kind))
  | .protectionInvalid kind word => .ok (draft.fail (.protectionInvalid kind word))
  | .size number unit => draft.setSize number unit
  | .notFinite word => .ok (draft.fail (.notFinite word))
  | .symbol word => .ok (setSymbol settings draft word)
  | .unrecognized word => .ok (draft.fail (.unrecognized word))

/-- Whether the size is a share of the balance. -/
def isShare (draft : Draft) : Bool :=
  draft.size.any (·.unit == .percent)

/-- Whether a profit target lies the whole price away from the entry of a sale. -/
def targetTooHigh? (draft : Draft) : Except Decimal.Fault (Option Decimal) := do
  match draft.side, draft.takeProfit with
  | .sell, some value => return if ← Decimal.le 100 value then some value else none
  | _, _ => return none

/-- A draft with the problems that only the whole command can have. -/
def finished (settings : CommandSettings) (draft : Draft) : Except Decimal.Fault Draft := do
  let contradicts := draft.market && draft.limit
  let draft := draft.failIf draft.symbol.isNone .symbolMissing
  let draft := draft.failIf draft.size.isNone .sizeMissing
  let draft := draft.failIf contradicts .marketAndLimit
  let draft := draft.failIf (!contradicts && draft.limit && draft.limitPrice.isNone)
    .limitWithoutPrice
  let draft := draft.failIf (draft.isShare && draft.reduceOnly) .shareReduceOnly
  let draft :=
    draft.failIf (draft.isShare && draft.leverage.isSome && settings.market == .spot)
      .shareWithLeverage
  match ← draft.targetTooHigh? with
  | some value => return draft.fail (.targetTooHigh value)
  | none => return draft

/-- The order of a draft, if no problem was found. -/
def order? (draft : Draft) : Option Order :=
  match draft.problems, draft.symbol, draft.size with
  | [], some symbol, some size =>
    some {
      symbol, side := draft.side, size, leverage := draft.leverage
      type := if draft.limit then .limit else .market
      limitPrice := draft.limitPrice, stopLoss := draft.stopLoss, takeProfit := draft.takeProfit
      trailing := draft.trailing, reduceOnly := draft.reduceOnly }
  | _, _, _ => none

end Draft

end OrderTicket.Command
