import Mathlib.Data.Rat.Floor
import OrderTicket.Decimal.Quantum
import OrderTicket.Proofs.Decimal.Operations

/-!
# Integer quotients and chosen exponents

The operations that choose the exponent of their result are exact where they return something. An
integer quotient and a number cut to some decimals must fit into the precision; a number rounded to
an integer need not.

* `Decimal.towardZero`: the integer part of a value.
* `Decimal.divTrunc_ok`, `Decimal.exists_divTrunc`: integer quotients.
* `Decimal.toIntegral_ceiling`: the least integer above a number.
* `Decimal.toIntegral_halfEven`: the nearest integer equals the number only if that is an integer.
* `Decimal.truncate_ok`, `Decimal.exists_truncate`: numbers cut to a count of decimals.
* `Decimal.normalize_ok`, `Decimal.exists_normalize`: numbers without trailing zeros.
-/

namespace OrderTicket.Decimal

/-- The integer part of a value, toward zero. -/
def towardZero (v : ℚ) : ℤ :=
  if 0 ≤ v then ⌊v⌋ else ⌈v⌉

theorem towardZero_intCast (k : ℤ) : towardZero k = k := by
  simp [towardZero]

theorem towardZero_neg (v : ℚ) : towardZero (-v) = -towardZero v := by
  rcases lt_trichotomy v 0 with h | rfl | h
  · rw [towardZero, towardZero, if_pos (by linarith), if_neg (by linarith), Int.floor_neg]
  · simp [towardZero]
  · rw [towardZero, towardZero, if_neg (by linarith), if_pos h.le, Int.ceil_neg]

/-- The quotient of natural numbers without remainder is the exact one cut toward zero. -/
theorem towardZero_natDiv (a b : ℕ) : towardZero ((a : ℚ) / b) = (a / b : ℕ) := by
  rw [towardZero, if_pos (by positivity), Rat.floor_natCast_div_natCast, Int.natCast_div]

theorem towardZero_nonneg {v : ℚ} (h : 0 ≤ v) : 0 ≤ towardZero v := by
  rw [towardZero, if_pos h]
  exact Int.floor_nonneg.2 h

/-- What is not negative is cut to no more than itself. -/
theorem towardZero_le {v : ℚ} (h : 0 ≤ v) : (towardZero v : ℚ) ≤ v := by
  rw [towardZero, if_pos h]
  exact Int.floor_le v

/-- A signed quotient of natural numbers, cut to an integer. -/
theorem towardZero_signed (n : Bool) (a b : ℕ) :
    towardZero (if n then -((a : ℚ) / b) else (a : ℚ) / b) = signed n (a / b) := by
  cases n with
  | false => exact towardZero_natDiv a b
  | true => simp only [if_true, signed, towardZero_neg, towardZero_natDiv]

/-! ## Integer quotients -/

theorem abs_ite_neg (n : Bool) (v : ℚ) : |if n then -v else v| = |v| := by
  cases n <;> simp

/-- The quotient of two finite numbers as one of natural numbers with a sign. -/
theorem value_div_value (n₁ : Bool) (c₁ : ℕ) (e₁ : ℤ) (n₂ : Bool) (c₂ : ℕ) (e₂ : ℤ) :
    (finite n₁ c₁ e₁).value / (finite n₂ c₂ e₂).value =
      if n₁ != n₂ then -((widen c₁ (e₁ - e₂) : ℚ) / widen c₂ (e₂ - e₁))
      else (widen c₁ (e₁ - e₂) : ℚ) / widen c₂ (e₂ - e₁) := by
  have h := div_widen c₁ e₁ c₂ e₂ (e₁ - e₂)
  rw [sub_self, zpow_zero, mul_one, neg_sub] at h
  rw [h]
  cases n₁ <;> cases n₂ <;> simp [value, magnitude, neg_div, div_neg]

/-- What `divTruncFinite` returns, where it returns something. -/
theorem divTruncFinite_ok {n : Bool} {c₁ c₂ : ℕ} {e₁ e₂ : ℤ} {r : Decimal} (hc₂ : c₂ ≠ 0)
    (h : divTruncFinite n c₁ e₁ c₂ e₂ = .ok r) :
    widen c₁ (e₁ - e₂) / widen c₂ (e₂ - e₁) < 10 ^ precision ∧
      r = finite n (widen c₁ (e₁ - e₂) / widen c₂ (e₂ - e₁)) 0 := by
  simp only [divTruncFinite] at h
  split_ifs at h with hsmall hgap hdigits
  · obtain rfl := Except.ok.inj h
    -- the dividend is zero or its leading digit stands below that of the divisor
    have hzero : widen c₁ (e₁ - e₂) / widen c₂ (e₂ - e₁) = 0 := by
      rcases hsmall with rfl | hlt
      · simp [widen]
      · exact Nat.div_eq_of_lt (lt_of_adjusted_lt hc₂ (by omega))
    rw [hzero]
    exact ⟨by positivity, rfl⟩
  · obtain rfl := Except.ok.inj h
    exact ⟨(Digits.count_le_iff (by decide)).1 (not_lt.1 hdigits), rfl⟩

theorem widen_pos {c : ℕ} (hc : c ≠ 0) (places : ℤ) : 0 < widen c places := by
  rw [widen_eq]
  exact Nat.mul_pos (Nat.pos_of_ne_zero hc) (by positivity)

/-- An integer quotient is the integer part of the exact one, which has no more digits than the
precision. -/
theorem divTrunc_ok {x y r : Decimal} (hx : x.isFinite = true) (hy : y.isFinite = true)
    (hy₀ : y.value ≠ 0) (h : x.divTrunc y = .ok r) :
    |x.value / y.value| < 10 ^ precision ∧ r.isFinite = true ∧
      r.value = towardZero (x.value / y.value) := by
  obtain ⟨n₁, c₁, e₁, rfl⟩ := isFinite_iff.1 hx
  obtain ⟨n₂, c₂, e₂, rfl⟩ := isFinite_iff.1 hy
  have hc₂ := coefficient_ne_zero hy₀
  simp only [divTrunc, if_neg hc₂] at h
  obtain ⟨hlt, rfl⟩ := divTruncFinite_ok hc₂ h
  have hpos : (0 : ℚ) < widen c₂ (e₂ - e₁) := by exact_mod_cast widen_pos hc₂ _
  rw [value_div_value]
  refine ⟨?_, rfl, ?_⟩
  · rw [abs_ite_neg, abs_of_nonneg (by positivity), div_lt_iff₀ hpos]
    exact_mod_cast (Nat.div_lt_iff_lt_mul (widen_pos hc₂ _)).1 hlt
  · rw [value_eq_signed, zpow_zero, mul_one, towardZero_signed]

/-- There is an integer quotient if the exact one has no more digits than the precision. -/
theorem exists_divTrunc {x y : Decimal} (hx : x.isFinite = true) (hy : y.isFinite = true)
    (hy₀ : y.value ≠ 0) (h : |x.value / y.value| < 10 ^ precision) :
    ∃ r, x.divTrunc y = .ok r := by
  obtain ⟨n₁, c₁, e₁, rfl⟩ := isFinite_iff.1 hx
  obtain ⟨n₂, c₂, e₂, rfl⟩ := isFinite_iff.1 hy
  have hc₂ := coefficient_ne_zero hy₀
  simp only [divTrunc, divTruncFinite, if_neg hc₂]
  split_ifs with hsmall hgap hdigits
  · exact ⟨_, rfl⟩
  · -- the leading digits are too far apart
    exfalso
    obtain ⟨hc₁, -⟩ := not_or.1 hsmall
    have hpos : (0 : ℚ) < c₂ * 10 ^ e₂ :=
      (ten_zpow_pos _).trans_le (le_magnitude hc₂ e₂)
    rw [abs_div, abs_value_finite, abs_value_finite, div_lt_iff₀ hpos] at h
    have hle : (10 : ℚ) ^ precision * 10 ^ (adjusted c₂ e₂ + 1) ≤ 10 ^ adjusted c₁ e₁ := by
      rw [← zpow_natCast, ← ten_zpow_add]
      exact zpow_le_zpow_right₀ (by norm_num) (by omega)
    have hlt : (10 : ℚ) ^ precision * (c₂ * 10 ^ e₂) ≤
        10 ^ precision * 10 ^ (adjusted c₂ e₂ + 1) :=
      mul_le_mul_of_nonneg_left (magnitude_lt c₂ e₂).le (by positivity)
    linarith [le_magnitude hc₁ e₁]
  · -- the quotient has too many digits
    exfalso
    have hpos : (0 : ℚ) < widen c₂ (e₂ - e₁) := by exact_mod_cast widen_pos hc₂ _
    rw [value_div_value, abs_ite_neg, abs_of_nonneg (by positivity), div_lt_iff₀ hpos] at h
    refine absurd ((Digits.count_le_iff (by decide)).2 ?_) (not_le.2 hdigits)
    exact (Nat.div_lt_iff_lt_mul (widen_pos hc₂ _)).2 (by exact_mod_cast h)
  · exact ⟨_, rfl⟩

/-! ## Integers -/

/-- A coefficient that loses its decimals upward. -/
theorem shiftRight_ceiling (n : Bool) (c places : ℕ) :
    signed n (shiftRight .ceiling n c places) = ⌈(signed n c : ℚ) / 10 ^ places⌉ := by
  rw [shiftRight_eq]
  cases n with
  | true =>
    have hraise : Rounding.ceiling.raises true (c / 10 ^ places) (c % 10 ^ places)
        (compare (2 * (c % 10 ^ places)) (10 ^ places)) = false := by simp [Rounding.raises]
    rw [if_neg (by rw [hraise]; decide), Nat.add_zero]
    have hfloor := Rat.floor_natCast_div_natCast c (10 ^ places)
    push_cast at hfloor
    simp only [signed, if_true, Int.cast_neg, Int.cast_natCast, neg_div, Int.ceil_neg, hfloor]
    push_cast
    rfl
  | false =>
    have hraise : Rounding.ceiling.raises false (c / 10 ^ places) (c % 10 ^ places)
        (compare (2 * (c % 10 ^ places)) (10 ^ places)) = (c % 10 ^ places != 0) := by
      simp [Rounding.raises]
    have hunit : (10 : ℚ) ^ places = (10 ^ places : ℕ) := by push_cast; rfl
    have hupos : 0 < 10 ^ places := by positivity
    rw [hraise, hunit]
    simp only [signed, Bool.false_eq_true, if_false, Int.cast_natCast]
    generalize 10 ^ places = unit at hupos ⊢
    have hcast : (0 : ℚ) < unit := by exact_mod_cast hupos
    have hdiv : (c : ℚ) = (c / unit : ℕ) * unit + (c % unit : ℕ) := by
      exact_mod_cast (Nat.div_add_mod' c unit).symm
    have hmod : ((c % unit : ℕ) : ℚ) < unit := by exact_mod_cast Nat.mod_lt c hupos
    generalize c / unit = quotient at *
    generalize c % unit = remainder at *
    symm
    -- the ceiling is the quotient, or one more if there is a remainder
    rw [Int.ceil_eq_iff, lt_div_iff₀ hcast, div_le_iff₀ hcast]
    by_cases hrem : remainder = 0
    · subst hrem
      simp only [bne_self_eq_false, Bool.false_eq_true, if_false, Nat.add_zero, Int.cast_natCast]
      rw [Nat.cast_zero] at hdiv
      constructor <;> nlinarith
    · have hrem' : (0 : ℚ) < remainder := by exact_mod_cast Nat.pos_of_ne_zero hrem
      simp only [bne_iff_ne, ne_eq, hrem, not_false_eq_true, if_true]
      push_cast
      constructor <;> nlinarith

/-- A number without decimals is an integer. -/
theorem value_eq_intCast (n : Bool) (c : ℕ) {e : ℤ} (he : 0 ≤ e) :
    (finite n c e).value = ((signed n c * 10 ^ e.toNat : ℤ) : ℚ) := by
  rw [value_eq_signed]
  push_cast
  rw [← zpow_natCast, Int.toNat_of_nonneg he]

/-- A negative power of ten is the inverse of a natural power. -/
theorem ten_zpow_eq_inv {e : ℤ} (he : ¬ 0 ≤ e) : (10 : ℚ) ^ e = (10 ^ (-e).toNat)⁻¹ := by
  rw [← zpow_natCast, ← zpow_neg]
  congr 1
  omega

/-- Rounding upward to an integer has no bound on the number of digits. -/
theorem toIntegral_ceiling {x : Decimal} (hx : x.isFinite = true) :
    ∃ r, x.toIntegral .ceiling = .ok r ∧ r.isFinite = true ∧ r.value = ⌈x.value⌉ := by
  obtain ⟨n, c, e, rfl⟩ := isFinite_iff.1 hx
  simp only [toIntegral]
  split_ifs with he
  · -- an integer already
    refine ⟨_, rfl, rfl, ?_⟩
    rw [value_eq_intCast n c he, Int.ceil_intCast]
  · -- the decimals are cut off upward
    refine ⟨_, rfl, rfl, ?_⟩
    rw [value_eq_signed, zpow_zero, mul_one, shiftRight_ceiling, value_eq_signed,
      ten_zpow_eq_inv he, div_eq_mul_inv]

/-- Rounding to the nearest integer leaves exactly the integers as they are. -/
theorem toIntegral_halfEven {x : Decimal} (hx : x.isFinite = true) :
    ∃ r, x.toIntegral .halfEven = .ok r ∧ r.isFinite = true ∧
      (x.value = r.value ↔ ∃ k : ℤ, x.value = k) := by
  obtain ⟨n, c, e, rfl⟩ := isFinite_iff.1 hx
  simp only [toIntegral]
  split_ifs with he
  · -- an integer already
    exact ⟨_, rfl, rfl, fun _ => ⟨_, value_eq_intCast n c he⟩, fun _ => rfl⟩
  · have hvalue (c : ℕ) : (finite n c 0).value = signed n c := by
      rw [value_eq_signed, zpow_zero, mul_one]
    refine ⟨_, rfl, rfl, fun h => ⟨_, h.trans (hvalue _)⟩, ?_⟩
    rintro ⟨k, hk⟩
    -- an integer has no digits behind the point, so none are lost
    have hunit := ten_zpow_eq_inv he
    have hcoefficient : signed n c = k * 10 ^ (-e).toNat := by
      rw [value_eq_signed, hunit, mul_inv_eq_iff_eq_mul₀ (by positivity)] at hk
      exact_mod_cast hk
    have hdvd : 10 ^ (-e).toNat ∣ c := by
      have habs : (signed n c).natAbs = c := by cases n <;> simp [signed]
      rw [← habs, hcoefficient, Int.natAbs_mul, Int.natAbs_pow]
      exact Nat.dvd_mul_left ..
    have hshift : shiftRight .halfEven n c (-e).toNat = c / 10 ^ (-e).toNat := by
      rcases shiftRight_halfEven n c (-e).toNat with hshift | ⟨hrest, -⟩
      · exact hshift
      · exact absurd (Nat.mod_eq_zero_of_dvd hdvd) hrest
    obtain ⟨q, rfl⟩ := hdvd
    rw [hvalue, hshift, Nat.mul_div_cancel_left _ (by positivity), value_eq_signed, hunit]
    have hsigned : (signed n (10 ^ (-e).toNat * q) : ℚ) = signed n q * 10 ^ (-e).toNat := by
      cases n <;> simp [signed, mul_comm]
    rw [hsigned, mul_inv_cancel_right₀ (by positivity)]

/-! ## A count of decimals -/

/-- To shift a coefficient downward is to divide it without remainder. -/
theorem shiftRight_down (n : Bool) (c places : ℕ) :
    shiftRight .down n c places = c / 10 ^ places := by
  rw [shiftRight_eq, if_neg (by simp [Rounding.raises]), Nat.add_zero]

/-- The digits of a number with a count of decimals, when they fit into the precision. -/
theorem truncate_finite {n : Bool} {c places : ℕ} {e : ℤ} (hplaces : (places : ℤ) ≤ -tinyExponent)
    (hdigits : c = 0 ∨ (Digits.count c : ℤ) + (e + places) ≤ precision) :
    (finite n c e).truncate places =
      .ok (finite n (widen c (e + places) / 10 ^ (-places - e).toNat) (-places)) := by
  have hp : precision = 28 := rfl
  have ht : tinyExponent = -1000026 := rfl
  have hm : maxExponent = 999999 := rfl
  simp only [truncate]
  rw [if_neg (by omega)]
  by_cases hc : c = 0
  · subst hc
    rw [if_pos rfl]
    have hfit : finish n 0 (-places) = .ok (finite n 0 (-places)) :=
      finish_of_fits (by decide) (by omega) (by rw [adjusted, Digits.count_zero]; omega)
    simpa [widen] using hfit
  · have hcount := hdigits.resolve_left hc
    rw [if_neg hc, if_neg (by omega), shiftRight_down, sub_neg_eq_add]
    have hlt : widen c (e + places) / 10 ^ (-places - e).toNat < 10 ^ precision := by
      rw [Nat.div_lt_iff_lt_mul (by positivity), widen_eq, ← pow_add]
      calc c * 10 ^ (e + places).toNat
          < 10 ^ Digits.count c * 10 ^ (e + places).toNat :=
            Nat.mul_lt_mul_of_pos_right (Digits.lt_pow_count c) (by positivity)
        _ = 10 ^ (Digits.count c + (e + places).toNat) := (pow_add ..).symm
        _ ≤ 10 ^ (precision + (-places - e).toNat) :=
            Nat.pow_le_pow_right (by norm_num) (by omega)
    -- so few digits are left that nothing is rounded
    have hfew := (Digits.count_le_iff (by decide)).2 hlt
    exact finish_of_fits hfew (by omega) (by rw [adjusted]; omega)

/-- A number is cut to decimals only if it has no more digits with them than the precision. -/
theorem truncate_ok {x r : Decimal} {places : ℕ} (hx : x.isFinite = true)
    (h : x.truncate places = .ok r) :
    (places : ℤ) ≤ -tinyExponent ∧ |x.value| < 10 ^ ((precision : ℤ) - places) ∧
      ∃ n k, r = finite n k (-places) ∧ signed n k = towardZero (x.value * 10 ^ places) := by
  obtain ⟨n, c, e, rfl⟩ := isFinite_iff.1 hx
  have hplaces : (places : ℤ) ≤ -tinyExponent := by
    by_contra hlt
    rw [truncate, if_pos (by omega)] at h
    cases h
  -- the two ways of failing say which decimals and digits are allowed
  have hdigits : c = 0 ∨ (Digits.count c : ℤ) + (e + places) ≤ precision := by
    by_contra hnot
    obtain ⟨hc, hlt⟩ := not_or.1 hnot
    rw [truncate, if_neg (by omega), if_neg hc, if_pos (by omega)] at h
    cases h
  rw [truncate_finite hplaces hdigits] at h
  obtain rfl := Except.ok.inj h
  refine ⟨hplaces, ?_, n, _, rfl, ?_⟩
  · rw [abs_value_finite]
    rcases hdigits with rfl | hcount
    · rw [Nat.cast_zero, zero_mul]
      exact ten_zpow_pos _
    · refine (magnitude_lt c e).trans_le (zpow_le_zpow_right₀ (by norm_num) ?_)
      rw [adjusted]
      omega
  -- cutting to decimals is the integer quotient by a unit of the last one
  · have hunit : (10 : ℚ) ^ places = ((finite false 1 (-places)).value)⁻¹ := by
      simp [value, magnitude]
    have hone : widen 1 (-places - e) = 10 ^ (-places - e).toNat := by rw [widen_eq, Nat.one_mul]
    rw [hunit, ← div_eq_mul_inv, value_div_value, hone, Bool.bne_false, towardZero_signed,
      sub_neg_eq_add]

/-- A number can be cut to so many decimals if it has few enough digits in front of the point. -/
theorem exists_truncate {x : Decimal} {places : ℕ} (hx : x.isFinite = true)
    (hplaces : (places : ℤ) ≤ -tinyExponent)
    (h : |x.value| < 10 ^ ((precision : ℤ) - places)) : ∃ r, x.truncate places = .ok r := by
  obtain ⟨n, c, e, rfl⟩ := isFinite_iff.1 hx
  refine ⟨_, truncate_finite hplaces ?_⟩
  by_cases hc : c = 0
  · exact .inl hc
  · rw [abs_value_finite] at h
    have hlt := (zpow_lt_zpow_iff_right₀ (by norm_num)).1 ((le_magnitude hc e).trans_lt h)
    rw [adjusted] at hlt
    exact .inr (by omega)

/-! ## No trailing zeros -/

/-- Zeros are moved until a digit other than zero or the limit is reached. -/
theorem strip_done (limit coefficient : ℕ) (exponent : ℤ) :
    (Digits.strip limit coefficient exponent).1 % 10 ≠ 0 ∨
      (Digits.strip limit coefficient exponent).2 = exponent + limit := by
  -- on the limit, since each zero that is moved uses up one of it
  induction limit generalizing coefficient exponent with
  | zero => exact .inr (by simp [Digits.strip])
  | succ limit ih =>
    rw [Digits.strip]
    split_ifs with hzero
    · refine (ih (coefficient / 10) (exponent + 1)).imp_right fun h => ?_
      rw [h]
      push_cast
      ring
    · exact .inl hzero

/-- What `finish` returns keeps the sign, and has no digit below the context. -/
theorem tinyExponent_le_of_finish {n : Bool} {c : ℕ} {e : ℤ} {r : Decimal}
    (h : finish n c e = .ok r) : ∃ c' e', r = finite n c' e' ∧ tinyExponent ≤ e' := by
  simp only [finish] at h
  split_ifs at h with hzero hover hfits hcarry hcarryOver <;> obtain rfl := Except.ok.inj h <;>
    exact ⟨_, _, rfl, by omega⟩

/-- A number without trailing zeros is a rounding; its last digit is not zero, unless the exponent
is not negative. -/
theorem normalize_ok {x r : Decimal} (hx : x.isFinite = true) (h : x.normalize = .ok r) :
    Rounded x.value r ∧
      ∃ n c e, r = finite n c e ∧ tinyExponent ≤ e ∧ (0 ≤ e ∨ c % 10 ≠ 0) := by
  obtain ⟨n, c, e, rfl⟩ := isFinite_iff.1 hx
  cases hfin : finish n c e with
  | error fault => simp [normalize, hfin, bind, Except.bind] at h
  | ok y =>
    obtain ⟨c', e', rfl, htiny⟩ := tinyExponent_le_of_finish hfin
    have hround := finish_rounded hfin
    simp only [normalize, hfin, bind, Except.bind] at h
    by_cases hc : c' = 0
    · subst hc
      rw [if_pos rfl] at h
      obtain rfl := Except.ok.inj h
      exact ⟨hround.of_value_eq rfl (by simp [value, magnitude]), n, 0, 0, rfl, by decide,
        .inl le_rfl⟩
    · rw [if_neg hc] at h
      obtain rfl := Except.ok.inj h
      -- zeros that are moved to the exponent leave the value as it is
      obtain ⟨zeros, -, hexp, hval⟩ := Digits.strip_spec (maxExponent - e').toNat c' e'
      have hdone := strip_done (maxExponent - e').toNat c' e'
      have hmax : 0 ≤ maxExponent := by decide
      generalize Digits.strip (maxExponent - e').toNat c' e' = stripped at *
      refine ⟨hround.of_value_eq rfl ?_, n, _, _, rfl, by omega, ?_⟩
      · rw [value_eq_signed, value_eq_signed, hexp, ten_zpow_add, zpow_natCast, ← hval]
        cases n <;> simp only [signed, Bool.false_eq_true, if_false, if_true] <;> push_cast <;> ring
      · rcases hdone with h | h
        · exact .inr h
        · exact .inl (by omega)

/-- Trailing zeros can be stripped off whatever can be rounded. -/
theorem exists_normalize_of_finish {n : Bool} {c : ℕ} {e : ℤ} {r : Decimal}
    (h : finish n c e = .ok r) : ∃ y, (finite n c e).normalize = .ok y := by
  obtain ⟨c', e', rfl, -⟩ := tinyExponent_le_of_finish h
  simp only [normalize, h, bind, Except.bind]
  split_ifs
  · exact ⟨_, rfl⟩
  · exact ⟨_, rfl⟩

/-- A number that the context can hold can be freed of the zeros at its end. -/
theorem exists_normalize {x : Decimal} (hx : x.isFinite = true) (h : |x.value| < 10 ^ maxExponent) :
    ∃ r, x.normalize = .ok r := by
  obtain ⟨n, c, e, rfl⟩ := isFinite_iff.1 hx
  obtain ⟨r, hr⟩ := exists_finish h
  exact exists_normalize_of_finish hr

end OrderTicket.Decimal
