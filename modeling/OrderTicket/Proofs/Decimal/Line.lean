import Mathlib.Order.WithBot
import OrderTicket.Proofs.Decimal.Order

/-!
# The line of numbers

All numbers but the NaNs lie on one line: the rational numbers in the order of their values, with an
infinity at either end. Comparisons go by the places on it.

* `Decimal.IsNumber`: numbers that have a place.
* `Decimal.place`: that place.
* `Decimal.order?_eq`, `Decimal.le_eq_place`, `Decimal.lt_eq_place`, `Decimal.equal_eq_place`:
  numbers compare as their places do.
-/

namespace OrderTicket.Decimal

/-- A number that is not a NaN. -/
def IsNumber : Decimal → Prop
  | nan .. => False
  | _ => True

/-- The place of a number on the line; that of a NaN counts as zero. -/
def place : Decimal → WithBot (WithTop ℚ)
  | finite negative c e => (((finite negative c e).value : WithTop ℚ) : WithBot (WithTop ℚ))
  | infinity true => ⊥
  | infinity false => ((⊤ : WithTop ℚ) : WithBot (WithTop ℚ))
  | nan .. => 0

variable {x y : Decimal}

theorem isNumber_of_isFinite (h : x.isFinite = true) : x.IsNumber := by
  obtain ⟨n, c, e, rfl⟩ := isFinite_iff.1 h
  trivial

/-- The place of a finite number on the line is its value. -/
theorem place_of_isFinite (h : x.isFinite = true) :
    x.place = ((x.value : WithTop ℚ) : WithBot (WithTop ℚ)) := by
  obtain ⟨n, c, e, rfl⟩ := isFinite_iff.1 h
  rfl

@[simp]
theorem place_zero : place 0 = 0 := by
  rw [place_of_isFinite rfl, value_ofNat]
  rfl

theorem compare_coe (v w : ℚ) :
    compare ((v : WithTop ℚ) : WithBot (WithTop ℚ)) ((w : WithTop ℚ) : WithBot (WithTop ℚ)) =
      compare v w := by
  rcases lt_trichotomy v w with h | h | h
  · rw [compare_lt_iff_lt.2 h, compare_lt_iff_lt.2 (WithBot.coe_lt_coe.2 (WithTop.coe_lt_coe.2 h))]
  · rw [h, compare_eq_iff_eq.2 rfl, compare_eq_iff_eq.2 rfl]
  · rw [compare_gt_iff_gt.2 h, compare_gt_iff_gt.2 (WithBot.coe_lt_coe.2 (WithTop.coe_lt_coe.2 h))]

/-- Numbers are in the order of their places. -/
theorem order?_eq (hx : x.IsNumber) (hy : y.IsNumber) :
    order? x y = some (compare x.place y.place) := by
  have htop (v : ℚ) : ((v : WithTop ℚ) : WithBot (WithTop ℚ)) < ((⊤ : WithTop ℚ) : WithBot _) :=
    WithBot.coe_lt_coe.2 (WithTop.coe_lt_top v)
  -- an infinity stands at its end of the line, and values stand in between
  cases x with
  | nan => exact hx.elim
  | finite n c e =>
    cases y with
    | nan => exact hy.elim
    | finite n' c' e' => rw [order?, compareFinite_eq_compare, place, place, compare_coe]
    | infinity n' =>
      cases n' with
      | true => exact congrArg some (compare_gt_iff_gt.2 (WithBot.bot_lt_coe _)).symm
      | false => exact congrArg some (compare_lt_iff_lt.2 (htop _)).symm
  | infinity n =>
    cases y with
    | nan => exact hy.elim
    | finite n' c' e' =>
      cases n with
      | true => exact congrArg some (compare_lt_iff_lt.2 (WithBot.bot_lt_coe _)).symm
      | false => exact congrArg some (compare_gt_iff_gt.2 (htop _)).symm
    | infinity n' =>
      cases n <;> cases n'
      · exact congrArg some (compare_eq_iff_eq.2 rfl).symm
      · exact congrArg some (compare_gt_iff_gt.2 (WithBot.bot_lt_coe _)).symm
      · exact congrArg some (compare_lt_iff_lt.2 (WithBot.bot_lt_coe _)).symm
      · exact congrArg some (compare_eq_iff_eq.2 rfl).symm

/-- A number is at most another if its place is at most that of the other. -/
theorem le_eq_place (hx : x.IsNumber) (hy : y.IsNumber) :
    x.le y = .ok (decide (x.place ≤ y.place)) := by
  rw [Decimal.le, order, order?_eq hx hy, Except.map]
  congr 1
  rw [Bool.eq_iff_iff]
  simp [compare_gt_iff_gt]

theorem lt_eq_place (hx : x.IsNumber) (hy : y.IsNumber) :
    x.lt y = .ok (decide (x.place < y.place)) := by
  rw [Decimal.lt, order, order?_eq hx hy, Except.map]
  congr 1
  rw [Bool.eq_iff_iff]
  simp [compare_lt_iff_lt]

/-- Two numbers are equal if they have the same place. -/
theorem equal_eq_place (hx : x.IsNumber) (hy : y.IsNumber) :
    x.equal y = .ok (decide (x.place = y.place)) := by
  have hequal : x.equal y = .ok (order? x y == some .eq) := by
    unfold Decimal.equal
    split
    · exact hx.elim
    · exact hy.elim
    · rfl
  rw [hequal, order?_eq hx hy]
  congr 1
  rw [Bool.eq_iff_iff]
  simp

end OrderTicket.Decimal
