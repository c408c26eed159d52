import OrderTicket.Decimal.Arithmetic

/-!
# The exponent of a number

Operations that choose the exponent of their result: rounding to an integer, removing trailing
zeros, and writing a number with a given count of decimal places.
-/

namespace OrderTicket.Decimal

/-- The nearest integer in the direction of `mode`. The precision sets no bound here. -/
def toIntegral (mode : Rounding) : Decimal → Except Fault Decimal
  | finite n c e =>
    if 0 ≤ e then .ok (finite n c e)
    else .ok (finite n (shiftRight mode n c (-e).toNat) 0)
  | infinity n => .ok (infinity n)
  | nan n s p => propagate (nan n s p) (nan n s p)

/-- The integer part of a finite number. -/
def toInt : Decimal → Int
  | finite n c e =>
    let magnitude := shiftRight .down n (widen c e) (-e).toNat
    if n then -magnitude else magnitude
  | _ => 0

/-- The rounded number without trailing zeros; every zero becomes `0`. -/
def normalize : Decimal → Except Fault Decimal
  | finite n c e => do
    match ← finish n c e with
    | finite n c e =>
      if c = 0 then .ok (finite n 0 0)
      else
        let (c, e) := Digits.strip (maxExponent - e).toNat c e
        .ok (finite n c e)
    | x => .ok x
  | infinity n => .ok (infinity n)
  | nan n s p => propagate (nan n s p) (nan n s p)

/-- The number cut to exactly `places` decimals. The result must fit into the precision. -/
def truncate (places : Nat) : Decimal → Except Fault Decimal
  | finite n c e =>
    let exponent : Int := -(places : Int)
    if exponent < tinyExponent then .error .invalidOperation
    else if c = 0 then finish n 0 exponent
    else if (precision : Int) < (Digits.count c : Int) + (e - exponent) then
      .error .invalidOperation
    else
      finish n (shiftRight .down n (widen c (e - exponent)) (exponent - e).toNat) exponent
  | infinity _ => .error .invalidOperation
  | nan n s p => propagate (nan n s p) (nan n s p)

end OrderTicket.Decimal
