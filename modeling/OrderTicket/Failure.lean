import OrderTicket.Form.Problem
import OrderTicket.MarketId
import OrderTicket.Order
import OrderTicket.Rejection

/-!
# Failures

What can stop a computation, by cause, and the words for each cause.
-/

namespace OrderTicket

/-- Why a computation has no result. -/
inductive Failure where
  /-- An operation on numbers failed. -/
  | arithmetic (fault : Decimal.Fault)
  /-- A record has no field of this name. -/
  | missingField (name : String)
  /-- A record was asked for an entry by its position. -/
  | missingEntry (position : Nat)
  /-- A list or text ends before the entry that was asked for. -/
  | tooShort
  /-- A field was asked of something that is no record. -/
  | notRecord
  /-- A value cannot be used in the way that was asked for. -/
  | unusable
  /-- A step or tick that is not positive. -/
  | stepNotPositive (symbol : MarketId) (what : String) (value : Decimal)
  /-- Market metadata without the filters for price and lot size. -/
  | noLotRules (symbol : MarketId)
  /-- An infinity or a NaN where a step was expected; it is known by a letter. -/
  | noDecimalPlaces (letter : String)
  /-- A depth level with a price that is not positive or a negative quantity. -/
  | badLevel (symbol : String) (level : Payload)
  /-- A fill was asked for by quantity and notional, or by neither. -/
  | fillTargets
  /-- A fill of nothing or less was asked for. -/
  | fillNotPositive (requested : Decimal)
  /-- The side of the book that an order would walk has no levels. -/
  | emptyBook (side : Side) (symbol : String)
  /-- A symbol without trading rules. -/
  | unknownSymbol (symbol : String)
  /-- The venue would refuse the order. -/
  | rejected (rejections : List Rejection)
  /-- Order, book and rules are not about the same market. -/
  | symbolsDisagree (order book : String) (rules : MarketId)
  /-- A limit order without a limit price. -/
  | limitPriceMissing
  /-- A symbol that is listed twice. -/
  | duplicateSymbol (symbol : MarketId)
  /-- The venue did not answer a request. -/
  | requestFailed (request : String)
  /-- The venue does not know what a request asks for. -/
  | requestUnknown (request symbol : String)
  /-- A form with problems. -/
  | badForm (problems : List Form.Problem)
  /-- A setting that should be JSON and is not. -/
  | unreadableSetting (name : String)
  /-- A text that is no log level. -/
  | unknownLevel (text : String)
deriving Repr, Inhabited

namespace Failure

/-- A fault is a failure. -/
instance : MonadLift (Except Decimal.Fault) (Except Failure) where
  monadLift x := x.mapError arithmetic

@[simp] theorem liftM_eq {α : Type} (x : Except Decimal.Fault α) :
    (liftM x : Except Failure α) = x.mapError arithmetic :=
  rfl

/-- A fault in words. -/
def faultMessage : Decimal.Fault → String
  | .conversionSyntax => "[<class 'decimal.ConversionSyntax'>]"
  | .invalidOperation => "[<class 'decimal.InvalidOperation'>]"
  | .divisionUndefined => "[<class 'decimal.DivisionUndefined'>]"
  | .divisionImpossible => "[<class 'decimal.DivisionImpossible'>]"
  | .divisionByZero => "[<class 'decimal.DivisionByZero'>]"
  | .overflow => "[<class 'decimal.Overflow'>]"
  | .integerTooLong =>
    "Exceeds the limit (" ++ toString Integer.textLimit ++ " digits) for integer string " ++
      "conversion; use sys.set_int_max_str_digits() to increase the limit"

/-- A message with the text of something in it. Where that has no text, the reason why is the
message. -/
def showing (text : Except Decimal.Fault String) (message : String → String) : String :=
  match text with
  | .ok text => message text
  | .error fault => faultMessage fault

/-- A failure in words. -/
def message : Failure → String
  | arithmetic fault => faultMessage fault
  | missingField name => Text.quoted name
  | missingEntry position => toString position
  | tooShort => "index out of range"
  | notRecord => "not a record"
  | unusable => "unusable value"
  | stepNotPositive symbol what value =>
    showing symbol.toPayload.shown (· ++ ": " ++ what ++ " must be positive, got " ++ value.text)
  | noLotRules symbol =>
    showing symbol.toPayload.shown (· ++ ": exchange metadata has no PRICE_FILTER/LOT_SIZE")
  | noDecimalPlaces letter => "invalid literal for int() with base 10: " ++ Text.quoted letter
  | badLevel symbol level => showing level.quoted (symbol ++ ": invalid depth level " ++ ·)
  | fillTargets => "Provide exactly one of quantity or notional"
  | fillNotPositive requested => "Fill target must be positive, got " ++ requested.text
  | emptyBook side symbol =>
    "No liquidity on the " ++ (match side with | .buy => "ask" | .sell => "bid") ++ " side of " ++
      symbol
  | unknownSymbol symbol =>
    "Symbol " ++ symbol ++ " is not supported or its filters are not loaded"
  | rejected rejections => "; ".intercalate (rejections.map (·.message))
  | symbolsDisagree order book rules =>
    showing rules.toPayload.shown fun rules =>
      "Inputs disagree on symbol: intent=" ++ order ++ " snapshot=" ++ book ++ " filters=" ++ rules
  | limitPriceMissing => "Limit intent without a limit price"
  | duplicateSymbol symbol =>
    showing symbol.toPayload.shown ("Duplicate filter set for symbol " ++ ·)
  | requestFailed request => request ++ " failed"
  | requestUnknown request symbol => request ++ " has no " ++ symbol
  | badForm problems => "; ".intercalate (problems.map (·.message))
  | unreadableSetting name => "error parsing value for field \"" ++ name ++ "\""
  | unknownLevel text => "Unknown level: " ++ Text.quoted text

end Failure

end OrderTicket
