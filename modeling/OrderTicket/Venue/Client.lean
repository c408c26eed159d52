import OrderTicket.Book.Basic
import OrderTicket.Rules.Metadata
import OrderTicket.Rules.Registry
import OrderTicket.Settings.Groups
import OrderTicket.Venue.Requests

/-!
# Clients of a venue

A client asks a venue for its markets and turns what it answers into trading rules, books and
prices. It remembers the markets of the last answer, and which unified symbol belongs to which
identifier. A market whose metadata lacks something, or has numbers in it that cannot be used, costs
only itself: it is skipped, and the log says why. A value of the wrong kind, such as a list or null
where fields are expected, fails the whole reading.

* `Client.connect`: asks for the markets.
* `Client.tradingRules`: the rules of all active markets.
* `Client.refresh`: the same from fresh markets, put into a registry.
* `Client.book`, `Client.markPrice`: the book and the mark price of a market.
-/

namespace OrderTicket

namespace Client

/-- What happens while a client works. -/
inductive Event where
  | connecting (venue : String)
  | connected (venue : String) (markets : Nat)
  | closing (venue : String)
  | skipped (symbol reason : String)
  | duplicate (symbol : String) (id : MarketId)
  | loaded (count : Nat)
  | fetched (book : Book)
  | registry (event : Registry.Event)
deriving Repr

/-- A price in the log, null if there is none. -/
def priceField (price : Option Decimal) : Payload :=
  match price with
  | some price => .text price.text
  | none => .null

/-- The log record of an event. -/
def Event.record : Event → Log.Record
  | connecting venue =>
    { level := .info, event := "connecting_to_exchange", fields := [("exchange", .text venue)] }
  | connected venue markets =>
    { level := .info
      event := "exchange_connected"
      fields := [("exchange", .text venue), ("market_count", .int markets)] }
  | closing venue =>
    { level := .info, event := "closing_exchange_connection",
      fields := [("exchange", .text venue)] }
  | skipped symbol reason =>
    { level := .warning
      event := "filter_set_skipped"
      fields := [("symbol", .text symbol), ("error", .text reason)] }
  | duplicate symbol id =>
    { level := .warning
      event := "filter_set_duplicate_id"
      fields := [("symbol", .text symbol), ("id", id.toPayload)] }
  | loaded count =>
    { level := .info, event := "filter_sets_loaded", fields := [("count", .int count)] }
  | fetched book =>
    { level := .debug
      event := "snapshot_fetched"
      fields := [("symbol", .text book.symbol), ("bids", .int book.bids.length),
        ("asks", .int book.asks.length), ("best_bid", priceField book.bestBid?),
        ("best_ask", priceField book.bestAsk?)] }
  | registry event => event.record

/-- What a client remembers, and what it has asked and noted. -/
structure State where
  /-- The markets of the last answer, as received. -/
  markets : Payload := .object []
  /-- The unified symbols of market identifiers, the latest first. -/
  unified : List (String × String) := []
  /-- The requests made, in order. -/
  requests : List Request := []
  /-- The events noted, in order. -/
  events : List Event := []
deriving Repr, Inhabited

end Client

/-- A client: the venue that it asks and the settings that it was made with. -/
structure Client where
  /-- The settings. -/
  settings : VenueSettings
  /-- The venue. -/
  venue : Venue
deriving Repr

namespace Client

/-- Work that asks a venue and notes events. What was asked and noted before a failure is kept. -/
abbrev Work (α : Type) : Type :=
  ExceptT Failure (StateM State) α

/-- Notes an event. -/
def note (event : Event) : Work Unit :=
  modify fun state => { state with events := state.events ++ [event] }

/-- A result that needs no venue. -/
def lift {α : Type} (x : Except Failure α) : Work α :=
  ExceptT.mk (pure x)

/-- Asks the venue. -/
def ask (client : Client) (request : Request) : Work Payload := do
  modify fun state => { state with requests := state.requests ++ [request] }
  lift (client.venue.answer request)

/-- The identifier of a market, if it has one that a symbol can be looked up by. -/
def identifier? (market : Payload) : Except Failure (Option String) := do
  if ← market.has "id" then
    match ← market.field "id" with
    | .text s => return some s
    | x => if x.isAtom then return none else .error .unusable
  else return none

/-- The unified symbols of all identifiers, the latest first. -/
def unifiedSymbols (markets : List (String × Payload)) : Except Failure (List (String × String)) :=
  markets.foldlM (fun known (symbol, market) => do
    match ← identifier? market with
    | some id => return (id, symbol) :: known
    | none => return known) []

/-- Asks for the markets and remembers them. -/
def connect (client : Client) : Work Unit := do
  note (.connecting client.settings.venue)
  let markets ← client.ask .markets
  modify fun state => { state with markets }
  let entries ← lift markets.entries
  let unified ← lift (unifiedSymbols entries)
  modify fun state => { state with unified }
  note (.connected client.settings.venue entries.length)

/-- Asks for the markets unless some are known. -/
def ensureMarkets (client : Client) : Work Unit := do
  unless (← get).markets.isGiven do client.connect

/-- Takes leave of the venue. -/
def close (client : Client) : Work Unit := do
  note (.closing client.settings.venue)
  discard (client.ask .close)

/-- Whether a failure lies in what a market says of itself. Data of the wrong kind is not
excused. -/
def isUnusableMetadata : Failure → Bool
  | .arithmetic _ => true
  | .missingField _ => true
  | .missingEntry _ => true
  | .stepNotPositive .. => true
  | .noLotRules _ => true
  | .noDecimalPlaces _ => true
  | _ => false

/-- The rules of a market. Filters that the venue passes through go before the unified form. -/
def rulesOf (market info : Payload) (defaultBand : Decimal) : Except Failure TradingRules := do
  let filters ← info.field? "filters"
  if filters.any Payload.isGiven then TradingRules.ofFilters info defaultBand
  else TradingRules.ofUnified market defaultBand

/-- What becomes of a market: its rules, nothing, or the note that it was left out. -/
inductive Reading where
  | inactive
  | rules (rules : TradingRules)
  | left (event : Event)

/-- Reads one market, beside the rules that were read before it. -/
def readMarket (defaultBand : Decimal) (known : List TradingRules) (symbol : String)
    (market : Payload) : Except Failure Reading := do
  if let some (.bool false) := ← market.field? "active" then return .inactive
  let info := match (← market.field? "info") with
    | some info => if info.isGiven then info else .object []
    | none => .object []
  match rulesOf market info defaultBand with
  | .error failure =>
    if isUnusableMetadata failure then return .left (.skipped symbol failure.message)
    else .error failure
  | .ok rules =>
    if !rules.symbol.toPayload.isAtom then .error .unusable
    else if known.any (·.symbol.same rules.symbol) then
      return .left (.duplicate symbol rules.symbol)
    else return .rules rules

/-- Reads markets in turn; `known` holds the rules so far. -/
def readMarkets (defaultBand : Decimal) : List TradingRules → List (String × Payload) →
    Work (List TradingRules)
  | known, [] => pure known
  | known, (symbol, market) :: rest => do
    match ← lift (readMarket defaultBand known symbol market) with
    | .inactive => readMarkets defaultBand known rest
    | .rules rules => readMarkets defaultBand (known ++ [rules]) rest
    | .left event =>
      note event
      readMarkets defaultBand known rest

/-- The rules of all markets that are not inactive and can be used. -/
def tradingRules (client : Client) : Work (List TradingRules) := do
  client.ensureMarkets
  let entries ← lift (← get).markets.entries
  let rules ← readMarkets client.settings.defaultPriceBand [] entries
  note (.loaded rules.length)
  return rules

/-- Asks for the markets anew and puts their rules into a registry. -/
def refresh (client : Client) (registry : Registry) : Work (Nat × Registry) := do
  modify fun state => { state with markets := .object [] }
  let rules ← client.tradingRules
  let (outcome, registry) := registry.reload rules
  let (version, event) ← lift outcome
  note (.registry event)
  return (version, registry)

/-- The unified symbol of an identifier; one that is not known stands for itself. -/
def unifiedOf (state : State) (id : String) : String :=
  ((state.unified.find? (·.1 == id)).map (·.2)).getD id

/-- The book of a market, with the given number of levels or the standard one. -/
def book (client : Client) (symbol : String) (limit : Option Int) : Work Book := do
  client.ensureMarkets
  let symbol := Text.upper symbol
  let limit := match limit with
    | some limit => if limit = 0 then client.settings.depthLimit else limit
    | none => client.settings.depthLimit
  let depth ← client.ask (.book (unifiedOf (← get) symbol) limit)
  let book ← lift (Book.ofDepth symbol depth .null)
  note (.fetched { book with symbol })
  return book

/-- The price that a ticker gives: the mark price, else the last price. -/
def tickerPrice (ticker : Payload) : Except Failure (Option Decimal) := do
  let mark := (← ticker.field? "markPrice").getD .null
  let value ← if mark.isGiven then pure mark else do pure ((← ticker.field? "last").getD .null)
  match value with
  | .null => return none
  | value => return some (← liftM value.number)

/-- The mark price of a market. -/
def markPrice (client : Client) (symbol : String) : Work (Option Decimal) := do
  client.ensureMarkets
  let unified := unifiedOf (← get) (Text.upper symbol)
  lift (tickerPrice (← client.ask (.ticker unified)))

end Client

end OrderTicket
