import OrderTicket.Decimal.Digits

/-!
# Decimal numbers

Numbers of General Decimal Arithmetic. A finite number keeps its exponent: `1.50` and `1.5` have the
same value and are different numbers. There are two infinities, and NaNs, which are quiet or
signaling and may carry a payload.

* `Decimal.order?`: the exact order of values, undefined for a NaN. It rests on
  `Decimal.compareMagnitude_eq`.
* `Decimal.lt`, `Decimal.le`, `Decimal.equal`: comparisons; asking a NaN for its place is a fault.
-/

namespace OrderTicket

/-- A decimal number: `(-1) ^ negative * coefficient * 10 ^ exponent`, an infinity, or a NaN. -/
inductive Decimal where
  | finite (negative : Bool) (coefficient : Nat) (exponent : Int)
  | infinity (negative : Bool)
  | nan (negative signaling : Bool) (payload : Nat)
deriving DecidableEq, Repr, Inhabited

namespace Decimal

-- Powers are those of core, also where a library brings in powers in monoids.
attribute [local instance (2000)] instPowNat

/-- What can go wrong in an operation on numbers. -/
inductive Fault where
  /-- A text that is no number. -/
  | conversionSyntax
  /-- An operation without a result, such as placing a NaN in the order. -/
  | invalidOperation
  /-- Zero divided by zero. -/
  | divisionUndefined
  /-- An integer quotient with more digits than the precision. -/
  | divisionImpossible
  /-- Something else divided by zero. -/
  | divisionByZero
  /-- A result beyond the largest exponent. -/
  | overflow
  /-- An integer with more digits than are written as text. -/
  | integerTooLong
deriving DecidableEq, Repr, Inhabited

instance instOfNat (n : Nat) : OfNat Decimal n := ⟨finite false n 0⟩

/-- A literal with decimals keeps the exponent it is written with. -/
instance instOfScientific : OfScientific Decimal where
  ofScientific mantissa small places :=
    finite false mantissa (if small then -(places : Int) else (places : Int))

/-- The number without decimals that equals an integer. -/
def ofInt (i : Int) : Decimal :=
  finite (i < 0) i.natAbs 0

/-- The exponent of the most significant digit. -/
def adjusted (coefficient : Nat) (exponent : Int) : Int :=
  exponent + Digits.count coefficient - 1

/-- Whether a number is neither infinite nor a NaN. -/
def isFinite : Decimal → Bool
  | finite .. => true
  | _ => false

/-- The number with the other sign, not rounded. -/
def flip : Decimal → Decimal
  | finite n c e => finite (!n) c e
  | infinity n => infinity (!n)
  | nan n s p => nan (!n) s p

/-- A coefficient written with `places` more digits; as it is, if `places` is negative. -/
def widen (coefficient : Nat) (places : Int) : Nat :=
  if coefficient = 0 then 0 else coefficient * 10 ^ places.toNat

theorem widen_eq (coefficient : Nat) (places : Int) :
    widen coefficient places = coefficient * 10 ^ places.toNat := by
  unfold widen
  split
  · rename_i h
    rw [h, Nat.zero_mul]
  · rfl

/-- The order of `c₁ * 10 ^ e₁` and `c₂ * 10 ^ e₂`. Numbers of different magnitude are told apart by
their leading digits' exponents, so no large power is formed. -/
def compareMagnitude (c₁ : Nat) (e₁ : Int) (c₂ : Nat) (e₂ : Int) : Ordering :=
  if c₁ = 0 ∨ c₂ = 0 then compare c₁ c₂
  else
    (compare (adjusted c₁ e₁) (adjusted c₂ e₂)).then
      (compare (widen c₁ (e₁ - e₂)) (widen c₂ (e₂ - e₁)))

theorem lt_of_adjusted_lt {c₁ c₂ : Nat} {e₁ e₂ : Int} (hc : c₂ ≠ 0)
    (h : adjusted c₁ e₁ < adjusted c₂ e₂) :
    widen c₁ (e₁ - e₂) < widen c₂ (e₂ - e₁) := by
  rw [widen_eq, widen_eq]
  have hpos := Digits.count_pos c₂
  have hle : Digits.count c₁ + (e₁ - e₂).toNat ≤ Digits.count c₂ - 1 + (e₂ - e₁).toNat := by
    simp only [adjusted] at h
    omega
  calc c₁ * 10 ^ (e₁ - e₂).toNat
      < 10 ^ Digits.count c₁ * 10 ^ (e₁ - e₂).toNat :=
        Nat.mul_lt_mul_of_pos_right (Digits.lt_pow_count c₁) (Nat.pow_pos (by decide))
    _ = 10 ^ (Digits.count c₁ + (e₁ - e₂).toNat) := (Nat.pow_add ..).symm
    _ ≤ 10 ^ (Digits.count c₂ - 1 + (e₂ - e₁).toNat) := Nat.pow_le_pow_right (by decide) hle
    _ = 10 ^ (Digits.count c₂ - 1) * 10 ^ (e₂ - e₁).toNat := Nat.pow_add ..
    _ ≤ c₂ * 10 ^ (e₂ - e₁).toNat :=
        Nat.mul_le_mul_right _ (Digits.pow_le_of_lt_count (by omega) hc)

/-- Comparing leading digits first changes nothing: magnitudes are in the order of their
coefficients at a common exponent. -/
theorem compareMagnitude_eq (c₁ : Nat) (e₁ : Int) (c₂ : Nat) (e₂ : Int) :
    compareMagnitude c₁ e₁ c₂ e₂ =
      compare (widen c₁ (e₁ - e₂)) (widen c₂ (e₂ - e₁)) := by
  have hzero (places : Int) : widen 0 places = 0 := by simp [widen]
  have hpos {c : Nat} (hc : c ≠ 0) (places : Int) : 0 < widen c places := by
    rw [widen_eq]
    exact Nat.mul_pos (Nat.pos_of_ne_zero hc) (Nat.pow_pos (by decide))
  -- a coefficient of zero has no leading digit, so it is treated apart
  by_cases h₁ : c₁ = 0
  · subst h₁
    by_cases h₂ : c₂ = 0
    · simp [compareMagnitude, h₂, hzero]
    · rw [compareMagnitude, if_pos (.inl rfl), hzero, Nat.compare_eq_lt.2 (hpos h₂ _),
        Nat.compare_eq_lt.2 (Nat.pos_of_ne_zero h₂)]
  by_cases h₂ : c₂ = 0
  · subst h₂
    rw [compareMagnitude, if_pos (.inr rfl), hzero, Nat.compare_eq_gt.2 (hpos h₁ _),
      Nat.compare_eq_gt.2 (Nat.pos_of_ne_zero h₁)]
  rw [compareMagnitude, if_neg (by simp [h₁, h₂])]
  -- a lower leading digit decides; with the same one the widened coefficients are compared
  rcases Int.lt_trichotomy (adjusted c₁ e₁) (adjusted c₂ e₂) with hlt | heq | hgt
  · rw [Std.compare_eq_lt.2 hlt, Nat.compare_eq_lt.2 (lt_of_adjusted_lt h₂ hlt)]
    rfl
  · rw [Std.compare_eq_iff_eq.2 heq]
    rfl
  · rw [Std.compare_eq_gt.2 hgt, Nat.compare_eq_gt.2 (lt_of_adjusted_lt h₁ hgt)]
    rfl

/-- The sign of a finite number: `-1`, `0` or `1`. -/
def signum (negative : Bool) (coefficient : Nat) : Int :=
  if coefficient = 0 then 0 else if negative then -1 else 1

/-- The order of two finite numbers by value. -/
def compareFinite (n₁ : Bool) (c₁ : Nat) (e₁ : Int) (n₂ : Bool) (c₂ : Nat) (e₂ : Int) : Ordering :=
  (compare (signum n₁ c₁) (signum n₂ c₂)).then
    (if n₁ then compareMagnitude c₂ e₂ c₁ e₁ else compareMagnitude c₁ e₁ c₂ e₂)

/-- The exact order of two numbers by value; a NaN has no place in it. -/
def order? : Decimal → Decimal → Option Ordering
  | finite n₁ c₁ e₁, finite n₂ c₂ e₂ => some (compareFinite n₁ c₁ e₁ n₂ c₂ e₂)
  | infinity n₁, infinity n₂ => some (compare n₂ n₁)
  | infinity n, finite .. => some (if n then .lt else .gt)
  | finite .., infinity n => some (if n then .gt else .lt)
  | _, _ => none

/-- The order of two numbers, a fault if one of them is a NaN. -/
def order (a b : Decimal) : Except Fault Ordering :=
  match order? a b with
  | some o => .ok o
  | none => .error .invalidOperation

/-- Whether `a` is less than `b`. -/
def lt (a b : Decimal) : Except Fault Bool :=
  (order a b).map (· == .lt)

/-- Whether `a` is at most `b`. -/
def le (a b : Decimal) : Except Fault Bool :=
  (order a b).map (· != .gt)

/-- Whether two numbers have the same value. A quiet NaN equals nothing; asking a signaling one is a
fault. -/
def equal : Decimal → Decimal → Except Fault Bool
  | nan _ true _, _ => .error .invalidOperation
  | _, nan _ true _ => .error .invalidOperation
  | a, b => .ok (order? a b == some .eq)

/-- The lesser of two numbers, the first if they have the same value. -/
def min (a b : Decimal) : Except Fault Decimal :=
  (lt b a).map fun less => if less then b else a

/-- The greater of two numbers, the first if they have the same value. -/
def max (a b : Decimal) : Except Fault Decimal :=
  (lt a b).map fun less => if less then b else a

end Decimal

end OrderTicket
