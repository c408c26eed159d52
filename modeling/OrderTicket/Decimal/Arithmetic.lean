import OrderTicket.Decimal.Rounding

/-!
# Decimal arithmetic

Sum, difference, product, quotient and integer quotient. Each is the exact result rounded once.
-/

namespace OrderTicket.Decimal

/-- An operand far below the last digit of the other one can only say on which side of a rounding
boundary the sum lies, so a single unit (or zero) in its place gives the same rounded sum. -/
def nudge (bigCoefficient : Nat) (bigExponent : Int) (coefficient : Nat) (exponent : Int) :
    Nat × Int :=
  let limit := bigExponent - 1 +
    (if precision < Digits.count bigCoefficient then 0
     else (Digits.count bigCoefficient : Int) - precision - 1)
  if bigCoefficient ≠ 0 ∧ adjusted coefficient exponent < limit then
    (if coefficient = 0 then 0 else 1, limit)
  else (coefficient, exponent)

/-- The sum of `a * 10 ^ exponent` and `b * 10 ^ exponent`. An exact zero is positive unless both
operands are negative. -/
def addAligned (n₁ : Bool) (a : Nat) (n₂ : Bool) (b : Nat) (exponent : Int) :
    Except Fault Decimal :=
  if n₁ = n₂ then finish n₁ (a + b) exponent
  else if a = b then finish false 0 exponent
  else if b < a then finish n₁ (a - b) exponent
  else finish n₂ (b - a) exponent

/-- The sum of two finite numbers. -/
def addFinite (n₁ : Bool) (c₁ : Nat) (e₁ : Int) (n₂ : Bool) (c₂ : Nat) (e₂ : Int) :
    Except Fault Decimal :=
  if e₁ = e₂ then addAligned n₁ c₁ n₂ c₂ e₁
  else if e₂ < e₁ then
    let (c₂, e₂) := nudge c₁ e₁ c₂ e₂
    addAligned n₁ (widen c₁ (e₁ - e₂)) n₂ c₂ e₂
  else
    let (c₁, e₁) := nudge c₂ e₂ c₁ e₁
    addAligned n₁ c₁ n₂ (widen c₂ (e₂ - e₁)) e₁

/-- The sum of two numbers. -/
def add : Decimal → Decimal → Except Fault Decimal
  | finite n₁ c₁ e₁, finite n₂ c₂ e₂ => addFinite n₁ c₁ e₁ n₂ c₂ e₂
  | infinity n₁, infinity n₂ => if n₁ = n₂ then .ok (infinity n₁) else .error .invalidOperation
  | infinity n, finite .. => .ok (infinity n)
  | finite .., infinity n => .ok (infinity n)
  | a, b => propagate a b

/-- The difference of two numbers. -/
def sub (a : Decimal) : Decimal → Except Fault Decimal
  | nan n s p => propagate a (nan n s p)
  | b => add a b.flip

/-- The product of two numbers. -/
def mul : Decimal → Decimal → Except Fault Decimal
  | finite n₁ c₁ e₁, finite n₂ c₂ e₂ => finish (n₁ != n₂) (c₁ * c₂) (e₁ + e₂)
  | infinity n₁, infinity n₂ => .ok (infinity (n₁ != n₂))
  | infinity n₁, finite n₂ c _ =>
    if c = 0 then .error .invalidOperation else .ok (infinity (n₁ != n₂))
  | finite n₁ c _, infinity n₂ =>
    if c = 0 then .error .invalidOperation else .ok (infinity (n₁ != n₂))
  | a, b => propagate a b

/-- The fault of a finite number divided by zero. -/
def zeroDivisor (coefficient : Nat) : Fault :=
  if coefficient = 0 then .divisionUndefined else .divisionByZero

/-- The quotient of two finite numbers with a divisor other than zero. One digit more than the
precision is computed; if the division leaves a remainder, a last digit 0 or 5 is raised by one, so
that rounding sees that it is not exact. An exact quotient has the exponent nearest to the
difference of the exponents. -/
def divFinite (negative : Bool) (c₁ : Nat) (e₁ : Int) (c₂ : Nat) (e₂ : Int) :
    Except Fault Decimal :=
  if c₁ = 0 then finish negative 0 (e₁ - e₂)
  else
    -- moves the point so far that the quotient has a digit more than the precision
    let shift : Int := (Digits.count c₂ : Int) - Digits.count c₁ + precision + 1
    let dividend := widen c₁ shift
    let divisor := widen c₂ (-shift)
    let quotient := dividend / divisor
    let exponent := e₁ - e₂ - shift
    if dividend % divisor = 0 then
      let (coefficient, exponent) := Digits.strip shift.toNat quotient exponent
      finish negative coefficient exponent
    else
      finish negative (if quotient % 5 = 0 then quotient + 1 else quotient) exponent

/-- The quotient of two numbers. -/
def div : Decimal → Decimal → Except Fault Decimal
  | finite n₁ c₁ e₁, finite n₂ c₂ e₂ =>
    if c₂ = 0 then .error (zeroDivisor c₁) else divFinite (n₁ != n₂) c₁ e₁ c₂ e₂
  | infinity _, infinity _ => .error .invalidOperation
  | infinity n₁, finite n₂ _ _ => .ok (infinity (n₁ != n₂))
  | finite n₁ _ _, infinity n₂ => .ok (finite (n₁ != n₂) 0 tinyExponent)
  | a, b => propagate a b

/-- The integer quotient of two finite numbers, toward zero, with a divisor other than zero. It must
not have more digits than the precision. -/
def divTruncFinite (negative : Bool) (c₁ : Nat) (e₁ : Int) (c₂ : Nat) (e₂ : Int) :
    Except Fault Decimal :=
  let gap := adjusted c₁ e₁ - adjusted c₂ e₂
  if c₁ = 0 ∨ gap < 0 then .ok (finite negative 0 0)
  else if (precision : Int) < gap then .error .divisionImpossible
  else
    let quotient := widen c₁ (e₁ - e₂) / widen c₂ (e₂ - e₁)
    if precision < Digits.count quotient then .error .divisionImpossible
    else .ok (finite negative quotient 0)

/-- The integer quotient of two numbers, toward zero. -/
def divTrunc : Decimal → Decimal → Except Fault Decimal
  | finite n₁ c₁ e₁, finite n₂ c₂ e₂ =>
    if c₂ = 0 then .error (zeroDivisor c₁) else divTruncFinite (n₁ != n₂) c₁ e₁ c₂ e₂
  | infinity _, infinity _ => .error .invalidOperation
  | infinity n₁, finite n₂ _ _ => .ok (infinity (n₁ != n₂))
  | finite n₁ _ _, infinity n₂ => .ok (finite (n₁ != n₂) 0 0)
  | a, b => propagate a b

/-- The absolute value, rounded to the precision like every result. -/
def abs : Decimal → Except Fault Decimal
  | finite _ c e => finish false c e
  | infinity _ => .ok (infinity false)
  | nan n s p => propagate (nan n s p) (nan n s p)

/-- The sum of a list of numbers, from the left, starting at zero. -/
def sum (xs : List Decimal) : Except Fault Decimal :=
  xs.foldlM add 0

end OrderTicket.Decimal
