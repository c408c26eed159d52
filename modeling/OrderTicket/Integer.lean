import OrderTicket.Decimal.Basic

/-!
# Integers in texts

Integers are computed with at any size, but only those with at most `4300` digits are written as
texts or read from them.

* `Integer.textLimit`: the most digits of an integer in a text.
* `Integer.text`: an integer as text.
-/

namespace OrderTicket.Integer

/-- The most digits of an integer that is written or read. -/
def textLimit : Nat := 4300

/-- An integer as text. One with too many digits is not written. -/
def text (i : Int) : Except Decimal.Fault String :=
  if textLimit < Digits.count i.natAbs then .error .integerTooLong else .ok (toString i)

end OrderTicket.Integer
