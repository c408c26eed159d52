import OrderTicket.Decimal.Quantum
import OrderTicket.Failure

/-!
# Steps

A venue takes quantities and prices only on a grid: the multiples of a step.

* `Step.floor`, `Step.ceil`: the neighbour of a value on the grid.
* `Step.places`: how many decimals the grid has.
* `Step.write`: a value with exactly as many decimals as the grid.
-/

namespace OrderTicket.Step

/-- The multiple of a step next to a value, toward zero. -/
def floor (value step : Decimal) : Except Decimal.Fault Decimal := do
  (← value.divTrunc step).mul step

/-- The multiple of a step next to a value, upward. -/
def ceil (value step : Decimal) : Except Decimal.Fault Decimal := do
  (← (← value.div step).toIntegral .ceiling).mul step

/-- The number of decimals of a step, trailing zeros apart. -/
def places (step : Decimal) : Except Failure Nat := do
  match ← liftM (step.normalize) with
  | .finite _ _ e => return (-e).toNat
  | .infinity _ => .error (.noDecimalPlaces "F")
  | .nan .. => .error (.noDecimalPlaces "n")

/-- A value cut to exactly as many decimals as the step has. -/
def write (value step : Decimal) : Except Failure Decimal := do
  let places ← places step
  value.truncate places

/-- A step in a message. -/
def shown (step : Decimal) : Except Decimal.Fault String :=
  step.normalize.map (·.plain)

end OrderTicket.Step
