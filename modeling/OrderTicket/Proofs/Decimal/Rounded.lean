import Mathlib.Algebra.Order.Field.Power
import Mathlib.Algebra.Order.Ring.Rat
import Mathlib.Tactic.FieldSimp
import Mathlib.Tactic.Linarith
import Mathlib.Tactic.Positivity
import Mathlib.Tactic.Ring
import OrderTicket.Proofs.Decimal.Order

/-!
# Rounded values

What rounding does to a value, said without digits. A value is representable if it has at most
`precision` significant digits and none of them lies below the last exponent of the context. A
number is a rounding of a value if it is representable and no representable value lies between the
two; a representable value is therefore its only rounding. This much is enough to carry bounds
through an operation, to see that a result is exact, and to see that it cannot be.

* `Decimal.Representable`, `Decimal.Rounded`: the two notions.
* `Decimal.Rounded.eq_of_representable`: a representable value is not changed by rounding.
* `Decimal.finish_rounded`, `Decimal.exists_finish`: what `Decimal.finish` returns, and that it
  returns something unless the value is too large.
* `Decimal.Computes`: the specification that the arithmetic operations share.
-/

namespace OrderTicket.Decimal

/-! ## Representable values -/

/-- At most `precision` digits, the last of them not below the least exponent of the context. Large
values are not excluded: beyond the largest exponent there is no result that could be rounded. -/
def Representable (v : ℚ) : Prop :=
  ∃ m e : ℤ, |m| < 10 ^ precision ∧ tinyExponent ≤ e ∧ v = m * 10 ^ e

theorem ten_zpow_pos (e : ℤ) : (0 : ℚ) < 10 ^ e :=
  zpow_pos (by norm_num) e

theorem ten_zpow_add (a b : ℤ) : (10 : ℚ) ^ (a + b) = 10 ^ a * 10 ^ b :=
  zpow_add₀ (by norm_num) a b

/-- A power of ten that is a multiple of a smaller one. -/
theorem ten_zpow_eq_mul {low e : ℤ} (h : low ≤ e) :
    (10 : ℚ) ^ e = ((10 ^ (e - low).toNat : ℤ) : ℚ) * 10 ^ low := by
  rw [Int.cast_pow, Int.cast_ofNat, ← zpow_natCast, ← ten_zpow_add]
  congr 1
  omega

theorem Representable.neg {v : ℚ} (h : Representable v) : Representable (-v) := by
  obtain ⟨m, e, hm, he, rfl⟩ := h
  exact ⟨-m, e, by rwa [abs_neg], he, by push_cast; ring⟩

/-- A coefficient of at most `10 ^ precision`, and not only of `precision` digits, is representable:
the power itself has one digit. -/
theorem representable_of_le {m e : ℤ} (hm : |m| ≤ 10 ^ precision) (he : tinyExponent ≤ e) :
    Representable (m * 10 ^ e) := by
  -- the power itself is written with one digit and a larger exponent
  rcases hm.lt_or_eq with hlt | heq
  · exact ⟨m, e, hlt, he, rfl⟩
  · have hten : (10 : ℚ) ^ (e + 1) = 10 * 10 ^ e := by rw [ten_zpow_add, zpow_one, mul_comm]
    have hpow : (10 : ℤ) ^ precision = 10 ^ (precision - 1) * 10 := pow_succ 10 (precision - 1)
    have hsmall : |(10 : ℤ) ^ (precision - 1)| < 10 ^ precision := by decide
    have hpos : Representable (((10 ^ precision : ℤ) : ℚ) * 10 ^ e) :=
      ⟨10 ^ (precision - 1), e + 1, hsmall, by omega, by rw [hten, hpow]; push_cast; ring⟩
    rcases abs_eq (by positivity) |>.1 heq with rfl | rfl
    · exact hpos
    · rw [Int.cast_neg, neg_mul]
      exact hpos.neg

/-- Integers up to the power of ten of the precision are representable. -/
theorem representable_intCast {m : ℤ} (hm : |m| ≤ 10 ^ precision) : Representable m := by
  have h := representable_of_le hm (show tinyExponent ≤ 0 by decide)
  rwa [zpow_zero, mul_one] at h

theorem representable_zero : Representable 0 :=
  ⟨0, 0, by decide, by decide, by simp⟩

/-- A power of ten that is not below the context is representable. -/
theorem representable_zpow {e : ℤ} (he : tinyExponent ≤ e) : Representable (10 ^ e) := by
  have h := representable_of_le (m := 1) (by decide) he
  rwa [Int.cast_one, one_mul] at h

/-- A representable value that is large beside a unit, or any if the unit is below the context, is a
multiple of the unit. -/
theorem Representable.eq_mul_unit {a : ℚ} {unit : ℤ} (ha : Representable a)
    (h : (10 : ℚ) ^ ((precision : ℤ) - 1 + unit) ≤ |a| ∨ unit ≤ tinyExponent) :
    ∃ k : ℤ, a = k * 10 ^ unit := by
  obtain ⟨m, e, hm, he, rfl⟩ := ha
  have hunit : unit ≤ e := by
    rcases h with h | h
    · -- fewer than `precision` digits above `unit` would remain
      by_contra hlt
      have hmag : |(m : ℚ) * 10 ^ e| < 10 ^ ((precision : ℤ) + e) := by
        rw [abs_mul, abs_of_pos (ten_zpow_pos e), ten_zpow_add]
        refine mul_lt_mul_of_pos_right ?_ (ten_zpow_pos e)
        rw [zpow_natCast]
        exact_mod_cast hm
      have hle : (10 : ℚ) ^ ((precision : ℤ) + e) ≤ 10 ^ ((precision : ℤ) - 1 + unit) :=
        zpow_le_zpow_right₀ (by norm_num) (by omega)
      exact absurd (hmag.trans_le hle) (not_lt.2 h)
    · exact h.trans he
  exact ⟨m * 10 ^ (e - unit).toNat, by rw [ten_zpow_eq_mul hunit]; push_cast; ring⟩

/-- Between neighbouring multiples of a unit nothing is representable, if they have `precision`
digits or the unit is below the context. -/
theorem Representable.succ_le {a : ℚ} {k : ℕ} {unit : ℤ} (ha : Representable a)
    (h : 10 ^ (precision - 1) ≤ k ∨ unit ≤ tinyExponent) (hlt : k * 10 ^ unit < a) :
    (k + 1) * 10 ^ unit ≤ a := by
  have hpos : 0 < a := lt_of_le_of_lt (by have := ten_zpow_pos unit; positivity) hlt
  have hlarge : (10 : ℚ) ^ ((precision : ℤ) - 1 + unit) ≤ |a| ∨ unit ≤ tinyExponent := by
    refine h.imp_left fun hk => ?_
    rw [abs_of_pos hpos, ten_zpow_add]
    refine le_trans ?_ hlt.le
    refine mul_le_mul_of_nonneg_right ?_ (ten_zpow_pos unit).le
    have hcast : ((10 ^ (precision - 1) : ℕ) : ℚ) ≤ k := by exact_mod_cast hk
    refine le_trans (le_of_eq ?_) hcast
    rw [Nat.cast_pow, Nat.cast_ofNat, ← zpow_natCast]
    congr 1
  -- the value is a multiple of the unit itself, so it reaches the next one
  obtain ⟨j, rfl⟩ := ha.eq_mul_unit hlarge
  refine mul_le_mul_of_nonneg_right ?_ (ten_zpow_pos unit).le
  have hkj : (k : ℚ) < j := lt_of_mul_lt_mul_right hlt (ten_zpow_pos unit).le
  have hint : (k : ℤ) < j := by exact_mod_cast hkj
  exact_mod_cast Int.add_one_le_of_lt hint

/-! ## Roundings -/

/-- `r` is a rounding of `v`: a representable number with no representable value between the two. -/
structure Rounded (v : ℚ) (r : Decimal) : Prop where
  /-- The number is finite. -/
  isFinite : r.isFinite = true
  /-- It is representable. -/
  representable : Representable r.value
  /-- Nothing representable lies above the number and up to the value. -/
  le_value : ∀ {a : ℚ}, Representable a → a ≤ v → a ≤ r.value
  /-- Nothing representable lies from the value on and below the number. -/
  value_le : ∀ {a : ℚ}, Representable a → v ≤ a → r.value ≤ a

namespace Rounded

variable {v w : ℚ} {r : Decimal}

/-- A representable number is a rounding of its own value. -/
theorem self (hfin : r.isFinite = true) (hr : Representable r.value) : Rounded r.value r :=
  ⟨hfin, hr, fun _ hle => hle, fun _ hle => hle⟩

/-- A representable number is rounded to itself only. -/
theorem eq_of_representable (h : Rounded v r) (hv : Representable v) : r.value = v :=
  le_antisymm (h.value_le hv le_rfl) (h.le_value hv le_rfl)

/-- A number is rounded to any finite number of the same value. -/
theorem of_value_eq {r' : Decimal} (h : Rounded v r) (hfin : r'.isFinite = true)
    (heq : r'.value = r.value) : Rounded v r' where
  isFinite := hfin
  representable := heq ▸ h.representable
  le_value ha hle := heq ▸ h.le_value ha hle
  value_le ha hle := heq ▸ h.value_le ha hle

theorem flip (h : Rounded v r) : Rounded (-v) r.flip where
  isFinite := by
    have := h.isFinite
    cases r <;> simp_all [Decimal.flip, Decimal.isFinite]
  representable := by rw [value_flip]; exact h.representable.neg
  le_value ha hle := by
    rw [value_flip]
    exact le_neg_of_le_neg (h.value_le ha.neg (le_neg_of_le_neg hle))
  value_le ha hle := by
    rw [value_flip]
    exact neg_le_of_neg_le (h.le_value ha.neg (neg_le_of_neg_le hle))

/-- The multiples of a unit next to a value are its roundings, if they have `precision` digits or
the unit is the last one of the context; a multiple itself must not be moved. -/
theorem of_neighbour {k : ℕ} {u : ℤ} (hfin : r.isFinite = true)
    (hrep : Representable r.value) (hk : 10 ^ (precision - 1) ≤ k ∨ u ≤ tinyExponent)
    (hlow : k * 10 ^ u ≤ v) (hhigh : v < (k + 1) * 10 ^ u)
    (hr : r.value = k * 10 ^ u ∨ k * 10 ^ u < v ∧ r.value = (k + 1) * 10 ^ u) :
    Rounded v r where
  isFinite := hfin
  representable := hrep
  le_value ha hle := by
    by_contra hlt
    have hbelow : k * 10 ^ u ≤ r.value := by
      rcases hr with h | ⟨-, h⟩
      · exact h.ge
      · rw [h, add_mul, one_mul]
        linarith [ten_zpow_pos u]
    have := ha.succ_le hk (hbelow.trans_lt (not_le.1 hlt))
    linarith
  value_le ha hle := by
    rcases hr with h | ⟨habove, h⟩
    · exact h.le.trans (hlow.trans hle)
    · exact h.le.trans (ha.succ_le hk (habove.trans_le hle))

end Rounded

/-! ## Values that cannot be told apart -/

/-- A value at which rounding changes: a representable one, or one halfway between neighbours. -/
def BreakPoint (v : ℚ) : Prop :=
  ∃ m e : ℤ, |m| ≤ 2 * 10 ^ precision ∧ tinyExponent ≤ e ∧ 2 * v = m * 10 ^ e

/-- A representable number is a break point. -/
theorem Representable.breakPoint {v : ℚ} (h : Representable v) : BreakPoint v := by
  obtain ⟨m, e, hm, he, rfl⟩ := h
  refine ⟨2 * m, e, ?_, he, by push_cast; ring⟩
  rw [abs_mul, abs_of_pos (by norm_num : (0 : ℤ) < 2)]
  exact Int.mul_le_mul_of_nonneg_left hm.le (by norm_num)

theorem BreakPoint.neg {v : ℚ} (h : BreakPoint v) : BreakPoint (-v) := by
  obtain ⟨m, e, hm, he, hv⟩ := h
  exact ⟨-m, e, by rwa [abs_neg], he, by rw [mul_neg, hv]; push_cast; ring⟩

/-- Beyond all digits of the precision the halves of a unit are multiples of five of the next
one. -/
theorem BreakPoint.succ_le {a : ℚ} {k : ℕ} {unit : ℤ} (ha : BreakPoint a)
    (hk : 10 ^ precision ≤ 5 * k) (hlt : 5 * k * 10 ^ unit < a) :
    5 * (k + 1) * 10 ^ unit ≤ a := by
  obtain ⟨m, e, hm, -, ha⟩ := ha
  have hpos := ten_zpow_pos unit
  have hlarge : (10 : ℚ) ^ precision ≤ 5 * k := by exact_mod_cast hk
  have hten : (10 : ℚ) ^ (unit + 1) = 10 * 10 ^ unit := by rw [ten_zpow_add, zpow_one, mul_comm]
  -- a break point of this size is a multiple of half a larger unit
  have hunit : unit + 1 ≤ e := by
    by_contra hle
    have hm' : (m : ℚ) ≤ 2 * 10 ^ precision := by exact_mod_cast (abs_le.1 hm).2
    have hpow : (10 : ℚ) ^ e ≤ 10 ^ unit := zpow_le_zpow_right₀ (by norm_num) (by omega)
    have hle' : (m : ℚ) * 10 ^ e ≤ 2 * 10 ^ precision * 10 ^ unit :=
      mul_le_mul hm' hpow (ten_zpow_pos e).le (by positivity)
    have hge := mul_le_mul_of_nonneg_right hlarge hpos.le
    linarith
  rw [ten_zpow_eq_mul hunit, ← mul_assoc, ← Int.cast_mul, hten] at ha
  generalize m * 10 ^ (e - (unit + 1)).toNat = j at ha
  have hkj : (k : ℚ) * 10 ^ unit < j * 10 ^ unit := by linarith
  have hint : (k : ℤ) < j := by exact_mod_cast lt_of_mul_lt_mul_right hkj hpos.le
  have hsucc : (k : ℚ) + 1 ≤ j := by exact_mod_cast Int.add_one_le_of_lt hint
  have hmul := mul_le_mul_of_nonneg_right hsucc hpos.le
  linarith

/-- No break point, and so no rounding, tells the two values apart. -/
def SameSide (v w : ℚ) : Prop :=
  ∀ a, BreakPoint a → (a ≤ v ↔ a ≤ w) ∧ (v ≤ a ↔ w ≤ a)

namespace SameSide

variable {v w : ℚ}

theorem refl (v : ℚ) : SameSide v v :=
  fun _ _ => ⟨Iff.rfl, Iff.rfl⟩

theorem trans {u : ℚ} (h : SameSide u v) (h' : SameSide v w) : SameSide u w :=
  fun a ha => ⟨(h a ha).1.trans (h' a ha).1, (h a ha).2.trans (h' a ha).2⟩

theorem neg (h : SameSide v w) : SameSide (-v) (-w) := fun a ha => by
  obtain ⟨hle, hge⟩ := h (-a) ha.neg
  exact ⟨by simpa only [le_neg] using hge, by simpa only [neg_le] using hle⟩

theorem of_neg (h : SameSide (-v) (-w)) : SameSide v w := by
  simpa only [neg_neg] using h.neg

/-- Values between the same two neighbouring multiples of five units, if these have more digits than
the precision. -/
theorem of_between {k : ℕ} {u : ℤ} (hk : 10 ^ precision ≤ 5 * k)
    (hv : 5 * k * 10 ^ u < v ∧ v < 5 * (k + 1) * 10 ^ u)
    (hw : 5 * k * 10 ^ u < w ∧ w < 5 * (k + 1) * 10 ^ u) : SameSide v w := by
  -- a break point above the lower multiple is at least the upper one
  have hstep {a : ℚ} (ha : BreakPoint a) (hlt : 5 * k * 10 ^ u < a) :
      5 * (k + 1) * 10 ^ u ≤ a := ha.succ_le hk hlt
  refine fun a ha => ⟨⟨fun hle => ?_, fun hle => ?_⟩, fun hle => ?_, fun hle => ?_⟩
  · by_contra hlt
    linarith [hstep ha (hw.1.trans (not_le.1 hlt)), hv.2]
  · by_contra hlt
    linarith [hstep ha (hv.1.trans (not_le.1 hlt)), hw.2]
  · linarith [hstep ha (hv.1.trans_le hle), hw.2]
  · linarith [hstep ha (hw.1.trans_le hle), hv.2]

/-- Numbers that no break point separates are rounded to the same results. -/
theorem rounded {r : Decimal} (h : SameSide v w) (hr : Rounded v r) : Rounded w r where
  isFinite := hr.isFinite
  representable := hr.representable
  le_value ha hle := hr.le_value ha ((h _ ha.breakPoint).1.2 hle)
  value_le ha hle := hr.value_le ha ((h _ ha.breakPoint).2.2 hle)

end SameSide

/-! ## What `finish` returns -/

/-- A coefficient with its sign. -/
def signed (negative : Bool) (coefficient : ℕ) : ℤ :=
  if negative then -coefficient else coefficient

/-- The value of a finite number, with the sign at its coefficient. -/
theorem value_eq_signed (n : Bool) (c : ℕ) (e : ℤ) :
    (finite n c e).value = signed n c * 10 ^ e := by
  cases n <;> simp [value, magnitude, signed]

/-- The magnitude of a finite number is its coefficient times its power of ten. -/
theorem abs_value_finite (n : Bool) (c : ℕ) (e : ℤ) : |(finite n c e).value| = c * 10 ^ e := by
  have h := magnitude_nonneg c e
  cases n <;> simp only [value, Bool.false_eq_true, if_true, if_false, abs_neg, abs_of_nonneg h] <;>
    rfl

/-- A magnitude lies below the power of ten after its leading digit. -/
theorem magnitude_lt (c : ℕ) (e : ℤ) : (c : ℚ) * 10 ^ e < 10 ^ (adjusted c e + 1) := by
  have hc : (c : ℚ) < 10 ^ ((Digits.count c : ℕ) : ℤ) := by
    rw [zpow_natCast]
    exact_mod_cast Digits.lt_pow_count c
  have hexp : adjusted c e + 1 = (Digits.count c : ℤ) + e := by
    rw [adjusted]
    ring
  rw [hexp, ten_zpow_add]
  exact mul_lt_mul_of_pos_right hc (ten_zpow_pos e)

/-- A magnitude other than zero reaches the power of ten of its leading digit. -/
theorem le_magnitude {c : ℕ} (hc : c ≠ 0) (e : ℤ) : (10 : ℚ) ^ adjusted c e ≤ c * 10 ^ e := by
  have hpos := Digits.count_pos c
  have hle : (10 : ℚ) ^ ((Digits.count c - 1 : ℕ) : ℤ) ≤ c := by
    rw [zpow_natCast]
    exact_mod_cast (Digits.count_spec c).2.1 hc
  have hexp : adjusted c e = ((Digits.count c - 1 : ℕ) : ℤ) + e := by
    rw [adjusted]
    omega
  rw [hexp, ten_zpow_add]
  exact mul_le_mul_of_nonneg_right hle (ten_zpow_pos e).le

/-- Rounding to nearest treats both signs alike. What remains of some digits is the quotient, or one
more if the division leaves a remainder. -/
theorem shiftRight_halfEven (n : Bool) (c places : ℕ) :
    shiftRight .halfEven n c places = c / 10 ^ places ∨
      c % 10 ^ places ≠ 0 ∧ shiftRight .halfEven n c places = c / 10 ^ places + 1 := by
  rw [shiftRight_eq]
  split_ifs with h
  · refine .inr ⟨fun hzero => ?_, rfl⟩
    have hcmp : compare (2 * 0) (10 ^ places) = .lt := by
      rw [Nat.compare_eq_lt]
      positivity
    rw [hzero, hcmp] at h
    simp [Rounding.raises] at h
  · exact .inl rfl

/-- What becomes of a coefficient other than zero: it fits, or as many digits are dropped as are too
many or lie below the context. A carry into a new digit moves to the exponent and keeps the
value. -/
theorem finish_cases {n : Bool} {c : ℕ} {e : ℤ} {r : Decimal} (hc : c ≠ 0)
    (h : finish n c e = .ok r) :
    (Digits.count c ≤ precision ∧ tinyExponent ≤ e ∧ r = finite n c e) ∨
      ∃ dropped : ℕ, (Digits.count c = precision + dropped ∨ e + dropped = tinyExponent) ∧
        Digits.count c ≤ precision + dropped ∧ tinyExponent ≤ e + dropped ∧
        ∃ c' e', r = finite n c' e' ∧
          (c' : ℚ) * 10 ^ e' = shiftRight .halfEven n c dropped * 10 ^ (e + dropped) := by
  simp only [finish, if_neg hc] at h
  -- the excess is the larger of two counts: digits beyond the precision, digits below the context
  have hmax := max_choice ((Digits.count c : ℤ) - precision) (tinyExponent - e)
  have hleft := le_max_left ((Digits.count c : ℤ) - precision) (tinyExponent - e)
  have hright := le_max_right ((Digits.count c : ℤ) - precision) (tinyExponent - e)
  generalize Max.max ((Digits.count c : ℤ) - precision) (tinyExponent - e) = excess at *
  split_ifs at h with hover hfits hcarry hcarryOver
  · obtain rfl := Except.ok.inj h
    exact .inl ⟨by omega, by omega, rfl⟩
  all_goals
    obtain rfl := Except.ok.inj h
    refine .inr ⟨excess.toNat, by omega, by omega, by omega, _, _, rfl, ?_⟩
    rw [Int.toNat_of_nonneg (by omega)]
  -- the carry: `10 ^ precision` is written with a digit less
  have hpow : (10 : ℕ) ^ precision = 10 ^ (precision - 1) * 10 := pow_succ 10 (precision - 1)
  rw [hcarry, hpow, ten_zpow_add _ 1, zpow_one]
  push_cast
  ring

/-- The quotient has all digits of the precision if these are what is kept. -/
theorem pow_le_div {c dropped : ℕ} (hc : c ≠ 0) (h : Digits.count c = precision + dropped) :
    10 ^ (precision - 1) ≤ c / 10 ^ dropped := by
  have hp : precision = 28 := rfl
  rw [Nat.le_div_iff_mul_le (by positivity), ← pow_add]
  exact Digits.pow_le_of_lt_count (by omega) hc

/-- Dropping digits leaves a neighbouring multiple of the last unit that is kept. -/
theorem rounded_of_dropped {c dropped c' : ℕ} {e e' : ℤ} (n : Bool) (hc : c ≠ 0)
    (hcase : Digits.count c = precision + dropped ∨ e + dropped = tinyExponent)
    (hcount : Digits.count c ≤ precision + dropped) (htiny : tinyExponent ≤ e + dropped)
    (heq : (c' : ℚ) * 10 ^ e' = shiftRight .halfEven n c dropped * 10 ^ (e + dropped)) :
    Rounded (c * 10 ^ e) (finite false c' e') := by
  have hval : (finite false c' e').value =
      (shiftRight .halfEven n c dropped : ℕ) * 10 ^ (e + dropped) := by
    rw [← heq]
    simp [value, magnitude]
  have hunit : (10 : ℚ) ^ (e + dropped) = 10 ^ dropped * 10 ^ e := by
    rw [ten_zpow_add, zpow_natCast, mul_comm]
  have hpos := ten_zpow_pos e
  have hdiv : c / 10 ^ dropped < 10 ^ precision := by
    rw [Nat.div_lt_iff_lt_mul (by positivity), ← pow_add]
    exact (Digits.count_le_iff (Nat.add_pos_left (by decide) _)).1 hcount
  have hrep : Representable ((shiftRight .halfEven n c dropped : ℕ) * 10 ^ (e + dropped)) := by
    refine representable_of_le (m := (shiftRight .halfEven n c dropped : ℕ)) ?_ htiny
    rw [Nat.abs_cast]
    -- rounding up may carry to the power of ten, which is representable as well
    rcases shiftRight_halfEven n c dropped with h | ⟨-, h⟩ <;> rw [h] <;> exact_mod_cast by omega
  have hlow : ((c / 10 ^ dropped : ℕ) : ℚ) * 10 ^ dropped ≤ c := by
    exact_mod_cast Nat.div_mul_le_self c (10 ^ dropped)
  have hhigh : (c : ℚ) < ((c / 10 ^ dropped : ℕ) + 1) * 10 ^ dropped := by
    exact_mod_cast Nat.lt_mul_of_div_lt (Nat.lt_succ_self _) (by positivity)
  refine Rounded.of_neighbour (k := c / 10 ^ dropped) (u := e + dropped) rfl (by rwa [hval])
    (hcase.imp (pow_le_div hc) le_of_eq) ?_ ?_ ?_
  · rw [hunit, ← mul_assoc]
    exact mul_le_mul_of_nonneg_right hlow hpos.le
  · rw [hunit, ← mul_assoc]
    exact mul_lt_mul_of_pos_right hhigh hpos
  · rcases shiftRight_halfEven n c dropped with h | ⟨hrem, h⟩
    · exact .inl (by rw [hval, h])
    · refine .inr ⟨?_, by rw [hval, h]; push_cast; rfl⟩
      rw [hunit, ← mul_assoc]
      refine mul_lt_mul_of_pos_right ?_ hpos
      refine lt_of_le_of_ne hlow fun heq => hrem ?_
      have hexact : c / 10 ^ dropped * 10 ^ dropped = c := by exact_mod_cast heq
      rw [← hexact, Nat.mul_mod_left]

/-- Whatever `finish` returns is a rounding of the exact result. -/
theorem finish_rounded {n : Bool} {c : ℕ} {e : ℤ} {r : Decimal} (h : finish n c e = .ok r) :
    Rounded (finite n c e).value r := by
  have hfits {v : ℚ} {c' : ℕ} {e' : ℤ} (hrep : Representable v)
      (hval : (finite n c' e').value = v) : Rounded v (finite n c' e') :=
    hval ▸ .self rfl (hval ▸ hrep)
  -- zero is finished with an exponent that the context has
  by_cases hc : c = 0
  · subst hc
    simp only [finish, if_true] at h
    obtain rfl := Except.ok.inj h
    have hzero : ∀ e', (finite n 0 e').value = 0 := fun e' => by simp [value, magnitude]
    rw [hzero]
    exact hfits representable_zero (hzero _)
  rcases finish_cases hc h with ⟨hcount, htiny, rfl⟩ | ⟨d, hcase, hcount, htiny, c', e', rfl, heq⟩
  · refine hfits ⟨signed n c, e, ?_, htiny, value_eq_signed n c e⟩ rfl
    have hlt : (c : ℤ) < 10 ^ precision := by
      exact_mod_cast (Digits.count_le_iff (by decide : 0 < precision)).1 hcount
    cases n <;> simpa [signed] using hlt
  · have hpos := rounded_of_dropped n hc hcase hcount htiny heq
    cases n with
    | false => simpa [value, magnitude] using hpos
    | true => simpa [value, magnitude, Decimal.flip] using hpos.flip

/-- A result below the largest power of ten of the context can be finished. -/
theorem exists_finish {n : Bool} {c : ℕ} {e : ℤ}
    (h : |(finite n c e).value| < 10 ^ maxExponent) : ∃ r, finish n c e = .ok r := by
  have hp : precision = 28 := rfl
  have hm : maxExponent = 999999 := rfl
  have ht : tinyExponent = -1000026 := rfl
  by_cases hc : c = 0
  · exact ⟨_, by rw [finish, if_pos hc]⟩
  -- the leading digit stands below the largest exponent
  have hadj : adjusted c e < maxExponent := by
    rw [abs_value_finite] at h
    exact (zpow_lt_zpow_iff_right₀ (by norm_num)).1 ((le_magnitude hc e).trans_lt h)
  have hlead : adjusted c e = e + Digits.count c - 1 := rfl
  have hmax := max_choice ((Digits.count c : ℤ) - precision) (tinyExponent - e)
  simp only [finish, if_neg hc, if_neg (not_lt.2 hadj.le)]
  split_ifs with hfits hcarry hover
  · exact ⟨_, rfl⟩
  · -- the carry stays within the exponents
    exfalso
    omega
  · exact ⟨_, rfl⟩
  · exact ⟨_, rfl⟩

/-! ## The specification of an operation -/

/-- An operation whose exact result is `v`, or cannot be told apart from `v`, and is rounded
once. -/
def Computes (x : Except Fault Decimal) (v : ℚ) : Prop :=
  ∃ n c e, x = finish n c e ∧ SameSide (finite n c e).value v

namespace Computes

variable {x : Except Fault Decimal} {v : ℚ}

/-- A result that is rounded from a number computes its value. -/
theorem of_eq {n : Bool} {c : ℕ} {e : ℤ} (hx : x = finish n c e) (hv : (finite n c e).value = v) :
    Computes x v :=
  ⟨n, c, e, hx, hv ▸ SameSide.refl _⟩

/-- Signs do not matter to what is computed. -/
theorem of_magnitude {n : Bool} {c : ℕ} {e : ℤ} {m : ℚ} (hx : x = finish n c e)
    (h : SameSide (c * 10 ^ e) m) : Computes x (if n then -m else m) := by
  refine ⟨n, c, e, hx, ?_⟩
  cases n with
  | false => exact h
  | true => exact h.neg

/-- What computes a number also computes one that no break point separates from it. -/
theorem trans {w : ℚ} (h : Computes x v) (hside : SameSide v w) : Computes x w := by
  obtain ⟨n, c, e, hx, hv⟩ := h
  exact ⟨n, c, e, hx, hv.trans hside⟩

/-- What a computation of a number returns is a rounding of that number. -/
theorem rounded {r : Decimal} (h : Computes x v) (hr : x = .ok r) : Rounded v r := by
  obtain ⟨n, c, e, rfl, hside⟩ := h
  exact hside.rounded (finish_rounded hr)

/-- A computation returns something unless its exact result is beyond the largest power of ten. -/
theorem exists_ok (h : Computes x v) (hv : |v| < 10 ^ maxExponent) :
    ∃ r, x = .ok r ∧ Rounded v r := by
  obtain ⟨n, c, e, hx, hside⟩ := id h
  -- no break point is crossed, and the power of ten is one
  have hrep : BreakPoint (10 ^ maxExponent) := (representable_zpow (by decide)).breakPoint
  obtain ⟨hlow, hhigh⟩ := abs_lt.1 hv
  have hlt : (finite n c e).value < 10 ^ maxExponent :=
    not_le.1 fun hle => absurd ((hside _ hrep).1.1 hle) (not_le.2 hhigh)
  have hgt : -10 ^ maxExponent < (finite n c e).value :=
    not_le.1 fun hle => absurd ((hside _ hrep.neg).2.1 hle) (not_le.2 hlow)
  obtain ⟨r, hr⟩ := exists_finish (abs_lt.2 ⟨hgt, hlt⟩)
  exact ⟨r, hx.trans hr, h.rounded (hx.trans hr)⟩

end Computes

end OrderTicket.Decimal
