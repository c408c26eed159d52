import OrderTicket.Settings.Source

/-!
# Groups of settings

The settings of the command grammar, of a trader's risk preferences and of the venue, and the
application settings that hold the three. Each group has standard values, names its fields, and
reports all problems of what it is given in the order of its fields.
-/

namespace OrderTicket

open Form Settings

/-- Which kind of market commands are for. -/
inductive MarketKind where
  | futures
  | spot
deriving DecidableEq, Repr, Inhabited

/-- The name of a kind of market. -/
def MarketKind.name : MarketKind → String
  | futures => "futures"
  | spot => "spot"

/-- The settings of the command grammar. -/
structure CommandSettings where
  /-- The quote asset that is appended to a bare base asset. -/
  quoteAsset : String := "USDT"
  /-- The quote assets that a symbol may end in. -/
  knownQuoteAssets : List String := ["USDT", "BUSD", "USDC", "USD"]
  /-- The highest leverage that may be asked for. -/
  maxLeverage : Int := 125
  /-- The kind of market; on a spot market a share of the balance takes no leverage. -/
  market : MarketKind := .futures
deriving DecidableEq, Repr, Inhabited

/-- A trader's risk preferences. -/
structure RiskSettings where
  /-- The leverage of orders that ask for none. -/
  defaultLeverage : Int := 3
  /-- The highest leverage that is used. -/
  leverageCap : Int := 20
  /-- The slippage above which a warning is due, in hundredths of a percent. -/
  maxSlippageBps : Decimal := 50
  /-- The fee of a fill as a fraction of its value. -/
  feeRate : Decimal := 0.0004
  /-- Sizes to choose from. -/
  sizePresets : List Decimal := [50, 100, 250]
  /-- Profit targets to choose from. -/
  takeProfitPresets : List Decimal := [2, 4, 8]
  /-- Stop losses to choose from. -/
  stopLossPresets : List Decimal := [1, 2]
deriving DecidableEq, Repr, Inhabited

/-- How to reach a venue, and what to assume of its markets. -/
structure VenueSettings where
  /-- The venue. -/
  venue : String := "binanceusdm"
  /-- The key of an account. -/
  apiKey : String := ""
  /-- The secret of an account. -/
  apiSecret : String := ""
  /-- How long to wait for an answer, in milliseconds. -/
  timeout : Int := 10000
  /-- How many levels of depth to ask for. -/
  depthLimit : Int := 50
  /-- The price band of markets that publish none, as a fraction. -/
  defaultPriceBand : Decimal := 0.05
deriving DecidableEq, Repr, Inhabited

/-- All settings of the application. -/
structure AppSettings where
  /-- The least level of events that are logged. -/
  logLevel : String := "INFO"
  /-- The command grammar. -/
  command : CommandSettings := {}
  /-- The risk preferences. -/
  risk : RiskSettings := {}
  /-- The venue. -/
  venue : VenueSettings := {}
deriving DecidableEq, Repr, Inhabited

namespace CommandSettings

/-- The standard settings. -/
def standard : CommandSettings := {}

/-- The names of the fields. -/
def fieldNames : List String := ["quote_asset", "known_quote_assets", "max_leverage", "market"]

/-- What the names of the variables start with. -/
def family : String := "PARSER_"

/-- The settings that a source gives. -/
def check (source : Source) : Except Failure (Checked CommandSettings) := do
  let known ← source.list? "known_quote_assets"
  return ((((Checked.ok mk).ap
    (withDefault "quote_asset" text standard.quoteAsset (source.plain? "quote_asset"))).ap
    (listWithDefault "known_quote_assets" text standard.knownQuoteAssets known)).ap
    (withDefault "max_leverage" integer standard.maxLeverage (source.plain? "max_leverage"))).ap
    (withDefault "market" (choice [("futures", .futures), ("spot", .spot)]) standard.market
      (source.plain? "market")) |>.also (unexpected fieldNames source.values)

/-- The settings that values and an environment give. -/
def read (values : List (String × Payload)) (environment : Environment) :
    Except Failure CommandSettings := do
  settle (← check ⟨values, environment, family⟩)

end CommandSettings

namespace RiskSettings

/-- The standard settings. -/
def standard : RiskSettings := {}

/-- The names of the fields. -/
def fieldNames : List String :=
  ["default_leverage", "leverage_cap", "max_slippage_bps", "fee_rate", "size_presets", "tp_presets",
    "sl_presets"]

/-- What the names of the variables start with. -/
def family : String := "RISK_"

/-- The settings that a source gives. -/
def check (source : Source) : Except Failure (Checked RiskSettings) := do
  let sizes ← source.list? "size_presets"
  let targets ← source.list? "tp_presets"
  let stops ← source.list? "sl_presets"
  return (((((((Checked.ok mk).ap
    (withDefault "default_leverage" integer standard.defaultLeverage
      (source.plain? "default_leverage"))).ap
    (withDefault "leverage_cap" integer standard.leverageCap (source.plain? "leverage_cap"))).ap
    (withDefault "max_slippage_bps" decimal standard.maxSlippageBps
      (source.plain? "max_slippage_bps"))).ap
    (withDefault "fee_rate" decimal standard.feeRate (source.plain? "fee_rate"))).ap
    (listWithDefault "size_presets" decimal standard.sizePresets sizes)).ap
    (listWithDefault "tp_presets" decimal standard.takeProfitPresets targets)).ap
    (listWithDefault "sl_presets" decimal standard.stopLossPresets stops)
    |>.also (unexpected fieldNames source.values)

/-- The settings that values and an environment give. -/
def read (values : List (String × Payload)) (environment : Environment) :
    Except Failure RiskSettings := do
  settle (← check ⟨values, environment, family⟩)

end RiskSettings

namespace VenueSettings

/-- The standard settings. -/
def standard : VenueSettings := {}

/-- The names of the fields. -/
def fieldNames : List String :=
  ["exchange_id", "api_key", "api_secret", "timeout_ms", "depth_limit", "default_price_band"]

/-- What the names of the variables start with. -/
def family : String := "EXCHANGE_"

/-- The settings that a source gives. -/
def check (source : Source) : Except Failure (Checked VenueSettings) :=
  return ((((((Checked.ok mk).ap
    (withDefault "exchange_id" text standard.venue (source.plain? "exchange_id"))).ap
    (withDefault "api_key" text standard.apiKey (source.plain? "api_key"))).ap
    (withDefault "api_secret" text standard.apiSecret (source.plain? "api_secret"))).ap
    (withDefault "timeout_ms" integer standard.timeout (source.plain? "timeout_ms"))).ap
    (withDefault "depth_limit" integer standard.depthLimit (source.plain? "depth_limit"))).ap
    (withDefault "default_price_band" decimal standard.defaultPriceBand
      (source.plain? "default_price_band")) |>.also (unexpected fieldNames source.values)

/-- The settings that values and an environment give. -/
def read (values : List (String × Payload)) (environment : Environment) :
    Except Failure VenueSettings := do
  settle (← check ⟨values, environment, family⟩)

/-- What a client of the venue is set up with. The account is left out if it has no key. -/
def clientOptions (settings : VenueSettings) : List (String × Payload) :=
  [("enableRateLimit", .bool true), ("timeout", .int settings.timeout)] ++
    if settings.apiKey.isEmpty then []
    else [("apiKey", .text settings.apiKey), ("secret", .text settings.apiSecret)]

end VenueSettings

namespace AppSettings

/-- The standard settings. -/
def standard : AppSettings := {}

/-- The names of the fields. -/
def fieldNames : List String := ["log_level", "parser", "risk", "exchange"]

/-- A group inside the application settings. A group that is not given is the standard one, whatever
the environment holds; the variables of a group are looked at only if some of it is given. -/
def inner {α : Type} (source : Source) (name family label : String) (settings : List String)
    (standard : α) (check : Source → Except Failure (Checked α)) : Except Failure (Checked α) := do
  match ← source.group? name settings with
  | none => return .ok standard
  | some (.object values) => return (← check ⟨values, source.environment, family⟩).within name
  | some _ => return .bad [⟨[name], (Complaint.notRecord label).message⟩]

/-- The settings that a source gives. -/
def check (source : Source) : Except Failure (Checked AppSettings) := do
  let command ← inner source "parser" CommandSettings.family "ParserSettings"
    CommandSettings.fieldNames CommandSettings.standard CommandSettings.check
  let risk ← inner source "risk" RiskSettings.family "RiskSettings" RiskSettings.fieldNames
    RiskSettings.standard RiskSettings.check
  let venue ← inner source "exchange" VenueSettings.family "ExchangeSettings"
    VenueSettings.fieldNames VenueSettings.standard VenueSettings.check
  return ((((Checked.ok mk).ap
    (withDefault "log_level" text standard.logLevel (source.plain? "log_level"))).ap command).ap
    risk).ap venue |>.also (unexpected fieldNames source.values)

/-- The settings that values and an environment give. -/
def read (values : List (String × Payload)) (environment : Environment) :
    Except Failure AppSettings := do
  settle (← check ⟨values, environment, ""⟩)

end AppSettings

end OrderTicket
