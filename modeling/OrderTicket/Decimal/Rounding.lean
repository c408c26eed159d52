import OrderTicket.Decimal.Basic

/-!
# Rounding to the working precision

Every arithmetic result is rounded to `precision` significant digits, a half going to the even
neighbour, and kept within the exponents of the context. Below the least exponent digits are lost
gradually; above the largest one the result is a fault.

* `Decimal.shiftRight`: a coefficient divided by a power of ten and rounded
  (`Decimal.shiftRight_eq`).
* `Decimal.finish`: an exact result rounded to what the context can hold, unchanged if it fits
  (`Decimal.finish_of_fits`).
-/

namespace OrderTicket.Decimal

-- Powers are those of core, also where a library brings in powers in monoids.
attribute [local instance (2000)] instPowNat

/-- The number of significant digits of a result. -/
def precision : Nat := 28

/-- The largest exponent of a leading digit. -/
def maxExponent : Int := 999999

/-- The least exponent of a leading digit at full precision. -/
def minExponent : Int := -999999

/-- The least exponent of a last digit. -/
def tinyExponent : Int := minExponent - (precision - 1)

/-- How a coefficient that loses digits is rounded. -/
inductive Rounding where
  /-- To the nearer neighbour, a half to the even one. -/
  | halfEven
  /-- Toward zero. -/
  | down
  /-- Toward positive infinity. -/
  | ceiling
deriving DecidableEq, Repr

/-- Whether a quotient with a remainder is moved away from zero; `half` compares twice the remainder
with the divisor. -/
def Rounding.raises (mode : Rounding) (negative : Bool) (quotient remainder : Nat)
    (half : Ordering) : Bool :=
  match mode with
  | .halfEven => half == .gt || (half == .eq && quotient % 2 == 1)
  | .down => false
  | .ceiling => remainder != 0 && !negative

/-- `coefficient / 10 ^ places`, rounded. A shift by more places than there are digits leaves less
than a tenth, so the power need not be formed. -/
def shiftRight (mode : Rounding) (negative : Bool) (coefficient places : Nat) : Nat :=
  if Digits.count coefficient < places then
    if mode.raises negative 0 coefficient .lt then 1 else 0
  else
    let unit := 10 ^ places
    let quotient := coefficient / unit
    let remainder := coefficient % unit
    if mode.raises negative quotient remainder (compare (2 * remainder) unit) then quotient + 1
    else quotient

/-- The shortcut changes nothing: the quotient is raised by one if the rounding asks for it. -/
theorem shiftRight_eq (mode : Rounding) (negative : Bool) (coefficient places : Nat) :
    shiftRight mode negative coefficient places =
      coefficient / 10 ^ places +
        if mode.raises negative (coefficient / 10 ^ places) (coefficient % 10 ^ places)
          (compare (2 * (coefficient % 10 ^ places)) (10 ^ places)) then 1 else 0 := by
  unfold shiftRight
  split
  · rename_i h
    have hlt : coefficient < 10 ^ (places - 1) :=
      Nat.lt_of_lt_of_le (Digits.lt_pow_count coefficient)
        (Nat.pow_le_pow_right (by decide) (by omega))
    have hpow : 10 ^ places = 10 * 10 ^ (places - 1) := by
      rw [← Nat.pow_succ']
      congr
      omega
    have hhalf : compare (2 * coefficient) (10 ^ places) = .lt := by
      rw [Nat.compare_eq_lt]
      omega
    have hsmall : coefficient < 10 ^ places := by omega
    rw [Nat.div_eq_of_lt hsmall, Nat.mod_eq_of_lt hsmall, hhalf, Nat.zero_add]
  · simp only
    split <;> rfl

/-- Rounds an exact result to the context. -/
def finish (negative : Bool) (coefficient : Nat) (exponent : Int) : Except Fault Decimal :=
  if coefficient = 0 then
    .ok (finite negative 0 (Max.max tinyExponent (Min.min maxExponent exponent)))
  else if maxExponent < adjusted coefficient exponent then
    .error .overflow
  else
    let excess := Max.max ((Digits.count coefficient : Int) - precision) (tinyExponent - exponent)
    if excess ≤ 0 then
      .ok (finite negative coefficient exponent)
    else
      let rounded := shiftRight .halfEven negative coefficient excess.toNat
      let exponent := exponent + excess
      if rounded = 10 ^ precision then
        if maxExponent < exponent + precision then .error .overflow
        else .ok (finite negative (10 ^ (precision - 1)) (exponent + 1))
      else
        .ok (finite negative rounded exponent)

/-- A result that the context can hold is not changed. -/
theorem finish_of_fits {negative : Bool} {coefficient : Nat} {exponent : Int}
    (hdigits : Digits.count coefficient ≤ precision) (hlow : tinyExponent ≤ exponent)
    (hhigh : adjusted coefficient exponent ≤ maxExponent) :
    finish negative coefficient exponent = .ok (finite negative coefficient exponent) := by
  unfold finish
  split
  · rename_i hzero
    subst hzero
    have hexp : exponent ≤ maxExponent := by
      simp only [adjusted, Digits.count_zero] at hhigh
      omega
    rw [Int.min_eq_right hexp, Int.max_eq_right hlow]
  · rw [if_neg (by omega), if_pos (by omega)]

/-- The result of an operation on a NaN: a signaling one is a fault, else the first NaN goes
through, its payload cut to the precision. -/
def propagate : Decimal → Decimal → Except Fault Decimal
  | nan _ true _, _ => .error .invalidOperation
  | _, nan _ true _ => .error .invalidOperation
  | nan n false p, _ => .ok (nan n false (p % 10 ^ precision))
  | _, nan n false p => .ok (nan n false (p % 10 ^ precision))
  | _, _ => .error .invalidOperation

end OrderTicket.Decimal
