import OrderTicket.Payload.Access
import OrderTicket.Rules.Basic

/-!
# Rules from market metadata

Venues publish trading rules in two forms: lists of named filters (`ofFilters`), and limits and
precisions in a unified form (`ofUnified`). Numbers that are missing count as zero, and a largest
value of zero means that there is none.
-/

namespace OrderTicket.TradingRules

/-- A published number; one that is missing is zero. -/
def amount : Option Payload → Except Failure Decimal
  | none => .ok 0
  | some .null => .ok 0
  | some x => liftM x.number

/-- A published bound; zero or less means that there is none. -/
def bound? (x : Option Payload) : Except Failure (Option Decimal) := do
  let x ← amount x
  return if ← liftM (Decimal.lt 0 x) then some x else none

/-- The filters of a market by type; of two of one type the last counts. -/
def filtersByType (filters : List Payload) : Except Failure (List (Payload × Payload)) :=
  filters.mapM fun filter => do
    let type ← filter.field "filterType"
    if type.isAtom then return (type, filter) else .error .unusable

/-- The filter of a type. -/
def filter? (filters : List (Payload × Payload)) (type : String) : Option Payload :=
  (filters.reverse.find? fun entry => (Payload.text type).sameAtom entry.1).map (·.2)

/-- The bounds of an order's value. The filter with both bounds goes before the older one. -/
def notionalBounds (filters : List (Payload × Payload)) :
    Except Failure (Decimal × Option Decimal) := do
  let older ← match filter? filters "MIN_NOTIONAL" with
    | none => pure 0
    | some filter =>
      let notional ← filter.field? "notional"
      let minNotional ← filter.field? "minNotional"
      amount (notional.or minNotional)
  match filter? filters "NOTIONAL" with
  | none => return (older, none)
  | some filter =>
    let least ← amount (← filter.field? "minNotional")
    let most ← bound? (← filter.field? "maxNotional")
    return (least, most)

/-- How far a limit price may lie below and above the mark price. -/
def bands (filters : List (Payload × Payload)) (defaultBand : Decimal) :
    Except Failure (Decimal × Decimal) := do
  match filter? filters "PERCENT_PRICE" with
  | none => return (defaultBand, defaultBand)
  | some filter =>
    let up ← amount (some (← filter.field "multiplierUp"))
    let up ← liftM (up.sub 1)
    let down ← amount (some (← filter.field "multiplierDown"))
    let down ← liftM (Decimal.sub 1 down)
    return (down, up)

/-- The lot rules of market orders: step, least and largest quantity. -/
def marketLot (filters : List (Payload × Payload)) :
    Except Failure (Option Decimal × Option Decimal × Option Decimal) := do
  match filter? filters "MARKET_LOT_SIZE" with
  | none => return (none, none, none)
  | some filter =>
    let step ← bound? (← filter.field? "stepSize")
    let least ← amount (← filter.field? "minQty")
    let most ← bound? (← filter.field? "maxQty")
    return (step, some least, most)

/-- The rules of a market that publishes filters. -/
def ofFilters (info : Payload) (defaultBand : Decimal) : Except Failure TradingRules := do
  let symbol := MarketId.ofPayload (← info.field "symbol")
  let filters ← filtersByType (← ((← info.field? "filters").getD (.list [])).items)
  match filter? filters "PRICE_FILTER", filter? filters "LOT_SIZE" with
  | some priceFilter, some lotFilter =>
    let (minNotional, maxNotional) ← notionalBounds filters
    let (bandDown, bandUp) ← bands filters defaultBand
    let (marketStep, marketMinQuantity, marketMaxQuantity) ← marketLot filters
    let step ← amount (some (← lotFilter.field "stepSize"))
    let tick ← amount (some (← priceFilter.field "tickSize"))
    let minQuantity ← amount (← lotFilter.field? "minQty")
    let maxQuantity ← bound? (← lotFilter.field? "maxQty")
    let minPrice ← amount (← priceFilter.field? "minPrice")
    let maxPrice ← bound? (← priceFilter.field? "maxPrice")
    RuleFields.check {
      symbol, step, tick, minNotional, maxNotional, bandDown, bandUp, minQuantity, maxQuantity
      minPrice, maxPrice, marketStep, marketMinQuantity, marketMaxQuantity }
  | _, _ => .error (.noLotRules symbol)

/-- A record inside a record; one that is missing or empty counts as empty. -/
def inner (x : Payload) (name : String) : Except Failure Payload := do
  match ← x.field? name with
  | some value => return if value.isGiven then value else .object []
  | none => return .object []

/-- The rules of a market in unified form. Its precisions are steps. -/
def ofUnified (market : Payload) (defaultBand : Decimal) : Except Failure TradingRules := do
  let limits := (← market.field? "limits").getD (.object [])
  let precision := (← market.field? "precision").getD (.object [])
  let amountLimits ← inner limits "amount"
  let priceLimits ← inner limits "price"
  let costLimits ← inner limits "cost"
  let symbol := MarketId.ofPayload (← market.field "id")
  let step ← amount (← precision.field? "amount")
  let tick ← amount (← precision.field? "price")
  let minNotional ← amount (← costLimits.field? "min")
  let maxNotional ← bound? (← costLimits.field? "max")
  let minQuantity ← amount (← amountLimits.field? "min")
  let maxQuantity ← bound? (← amountLimits.field? "max")
  let minPrice ← amount (← priceLimits.field? "min")
  let maxPrice ← bound? (← priceLimits.field? "max")
  RuleFields.check {
    symbol, step, tick, minNotional, maxNotional, bandDown := defaultBand, bandUp := defaultBand
    minQuantity, maxQuantity, minPrice, maxPrice }

end OrderTicket.TradingRules
