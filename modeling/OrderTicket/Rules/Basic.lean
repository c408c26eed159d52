import OrderTicket.Rules.Step

/-!
# Trading rules

The numeric rules of one market: steps of quantity and price, their least and largest values, the
bounds of an order's value, and how far a limit price may lie from the mark price. Market orders may
have lot rules of their own.

* `RuleFields`: the rules as a venue publishes them.
* `TradingRules`: rules whose steps are positive.
* `TradingRules.lot`: the lot rules of limit or of market orders.
-/

namespace OrderTicket

/-- The rules of a market as published. A band of `0.05` lets a limit price lie five percent away
from the mark price. -/
structure RuleFields where
  /-- The market. -/
  symbol : MarketId
  /-- The step of quantities. -/
  step : Decimal
  /-- The step of prices. -/
  tick : Decimal
  /-- The least value of an order. -/
  minNotional : Decimal := 0
  /-- The largest value of an order. -/
  maxNotional : Option Decimal := none
  /-- How far a limit price may lie below the mark price, as a fraction. -/
  bandDown : Decimal := 0.05
  /-- How far a limit price may lie above the mark price, as a fraction. -/
  bandUp : Decimal := 0.05
  /-- The least quantity. -/
  minQuantity : Decimal := 0
  /-- The largest quantity. -/
  maxQuantity : Option Decimal := none
  /-- The least price. -/
  minPrice : Decimal := 0
  /-- The largest price. -/
  maxPrice : Option Decimal := none
  /-- The step of the quantities of market orders, if it differs. -/
  marketStep : Option Decimal := none
  /-- The least quantity of market orders, if it differs. -/
  marketMinQuantity : Option Decimal := none
  /-- The largest quantity of market orders, if it differs. -/
  marketMaxQuantity : Option Decimal := none
deriving Repr

/-- Whether a number is greater than zero. -/
def Decimal.IsPositive (x : Decimal) : Prop :=
  x.le 0 = .ok false

/-- Rules that an order can be held against: all steps are positive. -/
structure TradingRules extends RuleFields where
  /-- Quantities have a positive step. -/
  step_pos : step.IsPositive
  /-- Prices have a positive step. -/
  tick_pos : tick.IsPositive
  /-- A step of their own for market orders is positive. -/
  marketStep_pos : ∀ s, marketStep = some s → s.IsPositive

namespace RuleFields

/-- A step that is positive, or why it is not. -/
def positive (symbol : MarketId) (what : String) (x : Decimal) :
    Except Failure (PLift x.IsPositive) :=
  match h : x.le 0 with
  | .ok false => .ok ⟨h⟩
  | .ok true => .error (.stepNotPositive symbol what x)
  | .error fault => .error (.arithmetic fault)

/-- A step that is positive if it is given. -/
def positiveIfGiven (symbol : MarketId) (what : String) (x : Option Decimal) :
    Except Failure (PLift (∀ s, x = some s → s.IsPositive)) :=
  match x with
  | none => .ok ⟨fun _ h => nomatch h⟩
  | some s => (positive symbol what s).map fun ⟨h⟩ => ⟨fun _ e => Option.some.inj e ▸ h⟩

/-- The rules with these fields, if all steps are positive. -/
def check (fields : RuleFields) : Except Failure TradingRules := do
  let ⟨step_pos⟩ ← positive fields.symbol "step size" fields.step
  let ⟨tick_pos⟩ ← positive fields.symbol "tick size" fields.tick
  let ⟨marketStep_pos⟩ ← positiveIfGiven fields.symbol "market step size" fields.marketStep
  return { fields with step_pos, tick_pos, marketStep_pos }

/-- Checking rules changes none of them. -/
theorem toRuleFields_of_check {fields : RuleFields} {rules : TradingRules}
    (h : fields.check = .ok rules) : rules.toRuleFields = fields := by
  unfold check at h
  cases hstep : positive fields.symbol "step size" fields.step with
  | error failure => simp [hstep, bind, Except.bind] at h
  | ok step =>
    cases htick : positive fields.symbol "tick size" fields.tick with
    | error failure => simp [hstep, htick, bind, Except.bind] at h
    | ok tick =>
      cases hmarket : positiveIfGiven fields.symbol "market step size" fields.marketStep with
      | error failure => simp [hstep, htick, hmarket, bind, Except.bind] at h
      | ok market =>
        simp only [hstep, htick, hmarket, bind, Except.bind, pure, Except.pure,
          Except.ok.injEq] at h
        rw [← h]

end RuleFields

/-- The quantities that an order may have: the positive multiples of a step within bounds. -/
structure Lot where
  /-- The step. -/
  step : Decimal
  /-- The least quantity. -/
  min : Decimal
  /-- The largest quantity. -/
  max : Option Decimal
deriving DecidableEq, Repr

/-- The lot rules of limit orders, or of market orders, which fall back to those of limit orders
field by field. -/
def TradingRules.lot (rules : TradingRules) (market : Bool) : Lot :=
  if market then
    { step := rules.marketStep.getD rules.step
      min := rules.marketMinQuantity.getD rules.minQuantity
      max := rules.marketMaxQuantity.or rules.maxQuantity }
  else
    { step := rules.step, min := rules.minQuantity, max := rules.maxQuantity }

end OrderTicket
