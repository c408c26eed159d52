import OrderTicket.Decimal.Basic

/-!
# Rejections and warnings

A rejection says that the venue would refuse an order, why, and, where one can be computed, the
nearest value that it would take. A warning goes with an order that can be placed.
-/

namespace OrderTicket

/-- Which rule an order breaks. -/
inductive Rejection.Code where
  | unknownSymbol
  | belowMinQuantity
  | aboveMaxQuantity
  | belowMinNotional
  | aboveMaxNotional
  | priceOutOfRange
  | outsidePriceBand
  | noLiquidity
  | balanceRequired
  | invalidProtectivePrice
deriving DecidableEq, Repr

/-- The name of a broken rule. -/
def Rejection.Code.name : Rejection.Code → String
  | unknownSymbol => "unknown_symbol"
  | belowMinQuantity => "below_min_quantity"
  | aboveMaxQuantity => "above_max_quantity"
  | belowMinNotional => "below_min_notional"
  | aboveMaxNotional => "above_max_notional"
  | priceOutOfRange => "price_out_of_range"
  | outsidePriceBand => "outside_price_band"
  | noLiquidity => "no_liquidity"
  | balanceRequired => "balance_required"
  | invalidProtectivePrice => "invalid_protective_price"

/-- Why a venue would refuse an order. -/
structure Rejection where
  /-- The broken rule. -/
  code : Rejection.Code
  /-- What to tell the trader. -/
  message : String
  /-- The nearest value that keeps the rule. -/
  nearestValid : Option Decimal := none
deriving DecidableEq, Repr

/-- What a trader should know about an order before placing it. -/
inductive Warning.Code where
  | highSlippage
  | partialLiquidity
  | leverageClamped
  | quantityAdjusted
  | priceAdjusted
deriving DecidableEq, Repr

/-- The name of a warning. -/
def Warning.Code.name : Warning.Code → String
  | highSlippage => "high_slippage"
  | partialLiquidity => "partial_liquidity"
  | leverageClamped => "leverage_clamped"
  | quantityAdjusted => "quantity_adjusted"
  | priceAdjusted => "price_adjusted"

/-- A note that goes with an order. -/
structure Warning where
  /-- What it is about. -/
  code : Warning.Code
  /-- What to tell the trader. -/
  message : String
deriving DecidableEq, Repr

end OrderTicket
