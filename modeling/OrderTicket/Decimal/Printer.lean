import OrderTicket.Decimal.Rounding

/-!
# Decimal text

Two ways of writing a number. `Decimal.text` is exact down to the exponent and falls back to
scientific notation; `Decimal.plain` never uses an exponent, and `Decimal.fixed` has a given count
of decimals. `Decimal.canonical` is the plain text without superfluous zeros.
-/

namespace OrderTicket.Decimal

/-- The sign of a number that is written. -/
def signText (negative : Bool) : List Char :=
  if negative then ['-'] else []

/-- Infinities and NaNs. -/
def specialText : Decimal → List Char
  | infinity n => signText n ++ "Infinity".toList
  | nan n s p =>
    signText n ++ (if s then "sNaN" else "NaN").toList ++ (if p = 0 then [] else Digits.text p)
  | finite .. => []

/-- Digits with a point so that `places` of them are decimals, padded with zeros in front. -/
def pointed (digits : List Char) (places : Nat) : List Char :=
  if places = 0 then digits
  else
    let padded := List.replicate (places + 1 - digits.length) '0' ++ digits
    padded.take (padded.length - places) ++ '.' :: padded.drop (padded.length - places)

/-- An exponent with its sign. -/
def exponentText (exponent : Int) : List Char :=
  'E' :: (if exponent < 0 then '-' else '+') :: Digits.text exponent.natAbs

/-- Digits and exponent of a finite number: without an exponent if it has no zeros to the right of
its digits and at most five between point and digits, else with one digit before the point. -/
def finiteText (c : Nat) (e : Int) : List Char :=
  let digits := Digits.text c
  let leading := e + digits.length
  if e ≤ 0 ∧ -6 < leading then pointed digits (-e).toNat
  else pointed digits (digits.length - 1) ++ exponentText (leading - 1)

/-- The exact text of a number. -/
def text : Decimal → String
  | finite n c e => .ofList (signText n ++ finiteText c e)
  | x => .ofList x.specialText

/-- Digits of a finite number without an exponent; a zero keeps its decimals only. -/
def finitePlain (c : Nat) (e : Int) : List Char :=
  if 0 ≤ e then
    if c = 0 then ['0'] else Digits.text c ++ List.replicate e.toNat '0'
  else
    pointed (Digits.text c) (-e).toNat

/-- The text of a number without an exponent. -/
def plain : Decimal → String
  | finite n c e => .ofList (signText n ++ finitePlain c e)
  | x => .ofList x.specialText

/-- The text of a number with exactly `places` decimals, a half going to the even neighbour. -/
def fixed (places : Nat) : Decimal → String
  | finite n c e =>
    let shift : Int := e + places
    let rounded :=
      if 0 ≤ shift then widen c shift
      else shiftRight .halfEven n c (-shift).toNat
    .ofList (signText n ++ pointed (Digits.text rounded) places)
  | x => .ofList x.specialText

/-- Removes zeros at the end of the decimals, and the point if no decimal is left. -/
def dropDecimalZeros (cs : List Char) : List Char :=
  if cs.contains '.' then
    ((cs.reverse.dropWhile (· == '0')).dropWhile (· == '.')).reverse
  else cs

/-- The text of a number without an exponent and without superfluous zeros. -/
def canonical (x : Decimal) : String :=
  .ofList (dropDecimalZeros x.plain.toList)

end OrderTicket.Decimal
