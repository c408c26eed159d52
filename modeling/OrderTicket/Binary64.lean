import OrderTicket.Decimal.Digits

/-!
# Binary floating point numbers

The numbers of the IEEE 754 format binary64, by value. Market data arrives in this format from
venues that do not send decimal text.

* `Binary64.ofDecimal`: the number nearest to a decimal value.
* `Binary64.shortest`: the fewest decimal digits that read back as the number.
* `Binary64.text`: those digits, positional for magnitudes from `1e-4` below `1e16`, with an
  exponent elsewhere.
-/

namespace OrderTicket

/-- A binary64 number: `(-1) ^ negative * significand * 2 ^ exponent`, an infinity, or a NaN. -/
inductive Binary64 where
  | finite (negative : Bool) (significand : Nat) (exponent : Int)
  | infinity (negative : Bool)
  | nan
deriving DecidableEq, Repr, Inhabited

namespace Binary64

-- Powers are those of core, also where a library brings in powers in monoids.
attribute [local instance (2000)] instPowNat

/-- The least exponent of a last binary digit. -/
def leastExponent : Int := -1074

/-- The least significand that is too large for the format. -/
def significandLimit : Nat := 1 <<< 53

/-- The quotient rounded to the nearest integer, a half to the even neighbour. -/
def roundQuotient (dividend divisor : Nat) : Nat :=
  let quotient := dividend / divisor
  let twice := 2 * (dividend % divisor)
  if divisor < twice ∨ (twice = divisor ∧ quotient % 2 = 1) then quotient + 1 else quotient

/-- The number nearest to `dividend / divisor`, for a divisor other than zero. -/
def ofQuotient (negative : Bool) (dividend divisor : Nat) : Binary64 :=
  if dividend = 0 then finite negative 0 leastExponent
  else
    let scale (exponent : Int) : Nat × Nat :=
      (dividend <<< (-exponent).toNat, divisor <<< exponent.toNat)
    let low := Max.max ((dividend.log2 : Int) - divisor.log2 - 53) leastExponent
    let (a, b) := scale low
    let exponent := if significandLimit * b ≤ a then low + 1 else low
    let (a, b) := scale exponent
    let significand := roundQuotient a b
    if 1 <<< 1024 ≤ significand <<< exponent.toNat ∧ 0 ≤ exponent then infinity negative
    else if significand = significandLimit then
      finite negative (significandLimit / 2) (exponent + 1)
    else finite negative significand exponent

/-- The number nearest to `coefficient * 10 ^ exponent`. Values beyond the format are told by the
exponent of their leading digit. -/
def ofDecimal (negative : Bool) (coefficient : Nat) (exponent : Int) : Binary64 :=
  let leading := exponent + Digits.count coefficient
  if coefficient = 0 ∨ leading < -400 then finite negative 0 leastExponent
  else if 400 < leading then infinity negative
  else ofQuotient negative (coefficient * 10 ^ exponent.toNat) (10 ^ (-exponent).toNat)

/-- The absolute value as a quotient. -/
def magnitude (significand : Nat) (exponent : Int) : Nat × Nat :=
  (significand <<< exponent.toNat, 1 <<< (-exponent).toNat)

/-- The exponent of the leading decimal digit of a positive quotient: the largest `k` with
`10 ^ k * divisor ≤ dividend`. -/
def leadingExponent (dividend divisor : Nat) : Int :=
  if divisor ≤ dividend then (Digits.count (dividend / divisor) : Int) - 1
  else
    let k := Digits.count (divisor / dividend)
    if divisor ≤ dividend * 10 ^ (k - 1) then -((k : Int) - 1) else -(k : Int)

/-- The multiple of `10 ^ place` below a quotient. -/
def gridFloor (dividend divisor : Nat) (place : Int) : Nat :=
  (dividend * 10 ^ (-place).toNat) / (divisor * 10 ^ place.toNat)

/-- Whether `upper`, one grid step above `lower`, is nearer to a quotient; a tie goes to the even
one. -/
def upperNearer (dividend divisor : Nat) (place : Int) (lower : Nat) : Bool :=
  let twice := 2 * (dividend * 10 ^ (-place).toNat)
  let middle := (2 * lower + 1) * (divisor * 10 ^ place.toNat)
  middle < twice || (twice == middle && lower % 2 == 1)

/-- The neighbour of a positive number on the grid of multiples of `10 ^ place` that reads back as
the number, if one does; of two, the nearer. -/
def onGrid? (significand : Nat) (exponent : Int) (place : Int) : Option Nat :=
  let (dividend, divisor) := magnitude significand exponent
  let lower := gridFloor dividend divisor place
  let readsBack (digits : Nat) : Bool :=
    ofDecimal false digits place == ofQuotient false dividend divisor
  match readsBack lower, readsBack (lower + 1) with
  | true, true => some (if upperNearer dividend divisor place lower then lower + 1 else lower)
  | true, false => some lower
  | false, true => some (lower + 1)
  | false, false => none

/-- Tries ever finer grids; `tries` bounds how many. -/
def shortestFrom (significand : Nat) (exponent : Int) : Nat → Int → Nat × Int
  | 0, place =>
    (gridFloor (magnitude significand exponent).1 (magnitude significand exponent).2 place, place)
  | tries + 1, place =>
    match onGrid? significand exponent place with
    | some digits => Digits.strip 400 digits place
    | none => shortestFrom significand exponent tries (place - 1)

/-- Coefficient and exponent of the shortest decimal that reads back as a positive number. -/
def shortest (significand : Nat) (exponent : Int) : Nat × Int :=
  let (dividend, divisor) := magnitude significand exponent
  shortestFrom significand exponent 17 (leadingExponent dividend divisor)

/-- An exponent with its sign and at least two digits. -/
def exponentText (exponent : Int) : List Char :=
  let digits := Digits.text exponent.natAbs
  (if exponent < 0 then '-' else '+') :: (List.replicate (2 - digits.length) '0' ++ digits)

/-- The text of a positive decimal `digits * 10 ^ place` whose last digit is not zero. -/
def layout (digits : List Char) (place : Int) : List Char :=
  let point := place + digits.length
  if -4 < point ∧ point ≤ 16 then
    if point ≤ 0 then
      ['0', '.'] ++ List.replicate (-point).toNat '0' ++ digits
    else if 0 ≤ place then
      digits ++ List.replicate place.toNat '0' ++ ['.', '0']
    else
      digits.take point.toNat ++ '.' :: digits.drop point.toNat
  else
    let fraction := digits.drop 1
    digits.take 1 ++ (if fraction.isEmpty then [] else '.' :: fraction) ++
      'e' :: exponentText (point - 1)

/-- The text of a number: the shortest digits that read back. -/
def text : Binary64 → String
  | finite n s e =>
    let sign := if n then ['-'] else []
    if s = 0 then .ofList (sign ++ "0.0".toList)
    else
      let (digits, place) := shortest s e
      .ofList (sign ++ layout (Digits.text digits) place)
  | infinity n => if n then "-inf" else "inf"
  | nan => "nan"

/-- Whether a number is zero. -/
def isZero : Binary64 → Bool
  | finite _ s _ => s == 0
  | _ => false

/-- The integer that a number equals, if it does. -/
def toInt? : Binary64 → Option Int
  | finite n s e =>
    let (dividend, divisor) := magnitude s e
    if dividend % divisor = 0 then
      some (if n then -((dividend / divisor : Nat) : Int) else ((dividend / divisor : Nat) : Int))
    else none
  | _ => none

end Binary64

end OrderTicket
