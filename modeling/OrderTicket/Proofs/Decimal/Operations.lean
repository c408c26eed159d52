import Mathlib.Data.Nat.Cast.Field
import OrderTicket.Proofs.Decimal.Nearest

/-!
# Arithmetic rounds once

Sum, difference, product, quotient and absolute value of finite numbers are roundings of the exact
result. Two of them do not form the exact result: a sum replaces an operand far below the last digit
by a single unit, and a quotient stands for its infinitely many digits with a last digit that is
neither 0 nor 5. In both cases no representable value tells the stand-in from the exact result.

* `Decimal.add_computes`, `Decimal.sub_computes`, `Decimal.mul_computes`, `Decimal.div_computes`,
  `Decimal.abs_computes`: the operations on finite numbers.
-/

namespace OrderTicket.Decimal

/-- A coefficient that is widened to a lower exponent stands for the same number. -/
theorem widen_mul_zpow {low e : ℤ} (c : ℕ) (h : low ≤ e) :
    (widen c (e - low) : ℚ) * 10 ^ low = c * 10 ^ e := by
  rw [widen_eq, ten_zpow_eq_mul h]
  push_cast
  ring

/-! ## Sums -/

/-- Two coefficients over one exponent are added with their signs, and the sum is rounded. -/
theorem addAligned_computes (n₁ : Bool) (a : ℕ) (n₂ : Bool) (b : ℕ) (e : ℤ) :
    Computes (addAligned n₁ a n₂ b e) ((signed n₁ a + signed n₂ b) * 10 ^ e) := by
  unfold addAligned
  split_ifs with hsign heq hlt
  · subst hsign
    refine .of_eq rfl ?_
    rw [value_eq_signed]
    cases n₁ <;> simp only [signed, if_true, Bool.false_eq_true, if_false] <;> push_cast <;> ring
  · subst heq
    refine .of_eq rfl ?_
    rw [value_eq_signed]
    cases n₁ <;> cases n₂ <;> simp_all [signed]
  · refine .of_eq rfl ?_
    rw [value_eq_signed]
    cases n₁ <;> cases n₂ <;> simp_all [signed, Nat.cast_sub hlt.le] <;> ring_nf <;> simp
  · have hle : a ≤ b := not_lt.1 hlt
    refine .of_eq rfl ?_
    rw [value_eq_signed]
    cases n₁ <;> cases n₂ <;> simp_all [signed, Nat.cast_sub hle] <;> ring_nf <;> simp

/-- A sum is not told apart from one in which the smaller operand is another number of the same sign
up to a unit, if the larger one has a digit more than the precision above it. -/
theorem sameSide_add {k : ℕ} {unit : ℤ} {s t : ℚ} (n : Bool) (hk : 10 ^ precision ≤ k)
    (hs : |s| ≤ 10 ^ unit) (ht : |t| ≤ 10 ^ unit) (hsign : 0 < s ∧ 0 < t ∨ s < 0 ∧ t < 0) :
    SameSide (signed n k * 10 ^ (unit + 1) + s) (signed n k * 10 ^ (unit + 1) + t) := by
  have hu := ten_zpow_pos unit
  have hten : (10 : ℚ) ^ (unit + 1) = 10 * 10 ^ unit := by rw [ten_zpow_add, zpow_one, mul_comm]
  -- the case of a positive large operand; the other one is its mirror image
  have hpos {s t : ℚ} (hs : |s| ≤ 10 ^ unit) (ht : |t| ≤ 10 ^ unit)
      (hsign : 0 < s ∧ 0 < t ∨ s < 0 ∧ t < 0) :
      SameSide (k * 10 ^ (unit + 1) + s) (k * 10 ^ (unit + 1) + t) := by
    rw [abs_le] at hs ht
    rw [hten]
    -- both sums lie above the large operand or both below it, within five units
    rcases hsign with ⟨hs0, ht0⟩ | ⟨hs0, ht0⟩
    · refine .of_between (k := 2 * k) (u := unit) (by omega) ?_ ?_ <;> push_cast <;>
        constructor <;> linarith
    · have hone : 1 ≤ k := (Nat.one_le_pow _ _ (by norm_num)).trans hk
      have hfive : 10 ^ precision ≤ 5 * (2 * k - 1) := by omega
      have hcast : ((2 * k - 1 : ℕ) : ℚ) = 2 * k - 1 := by
        rw [Nat.cast_sub (by omega)]
        push_cast
        rfl
      refine .of_between (k := 2 * k - 1) (u := unit) hfive ?_ ?_ <;> rw [hcast] <;>
        constructor <;> linarith
  cases n with
  | false => simpa [signed] using hpos hs ht hsign
  | true =>
    have hneg := hpos (s := -s) (t := -t) (by rwa [abs_neg]) (by rwa [abs_neg]) (by
      simpa [or_comm] using hsign)
    refine SameSide.of_neg ?_
    simp only [signed, if_true]
    convert hneg using 1 <;> push_cast <;> ring

/-- A number that is widened to a lower exponent keeps its value. -/
theorem signed_widen_mul {n : Bool} {c : ℕ} {low e : ℤ} (h : low ≤ e) :
    (signed n (widen c (e - low)) : ℚ) * 10 ^ low = (finite n c e).value := by
  have hw := widen_mul_zpow c h
  cases n <;> simp [signed, value, magnitude, hw]

theorem signed_pos_or_neg (n : Bool) {x : ℚ} (hx : 0 < x) {c : ℕ} (hc : c ≠ 0) (e : ℤ) :
    0 < (signed n c : ℚ) * 10 ^ e ∧ 0 < (signed n 1 : ℚ) * x ∨
      (signed n c : ℚ) * 10 ^ e < 0 ∧ (signed n 1 : ℚ) * x < 0 := by
  have hpos : 0 < (c : ℚ) * 10 ^ e :=
    mul_pos (by exact_mod_cast Nat.pos_of_ne_zero hc) (ten_zpow_pos e)
  cases n <;> simp [signed, hx, hpos]

/-- A single unit is not told apart from the small operand that it stands for. -/
theorem unit_sameSide (n₁ : Bool) (c₁ : ℕ) {e₁ : ℤ} (n₂ : Bool) (c₂ : ℕ) {e₂ limit : ℤ}
    (hle : limit + 1 ≤ e₁) (hbig : 10 ^ precision ≤ widen c₁ (e₁ - (limit + 1)))
    (hsmall : adjusted c₂ e₂ < limit) :
    SameSide
      ((signed n₁ (widen c₁ (e₁ - limit)) + signed n₂ (if c₂ = 0 then 0 else 1)) * 10 ^ limit)
      ((finite n₁ c₁ e₁).value + (finite n₂ c₂ e₂).value) := by
  rw [add_mul, signed_widen_mul (by omega), ← signed_widen_mul hle, value_eq_signed]
  by_cases hc : c₂ = 0
  · subst hc
    have hzero : signed n₂ 0 = 0 := by cases n₂ <;> rfl
    rw [if_pos rfl, hzero, Int.cast_zero, zero_mul, zero_mul]
    exact SameSide.refl _
  rw [if_neg hc]
  have habs (c : ℕ) (e : ℤ) : |(signed n₂ c : ℚ) * 10 ^ e| = c * 10 ^ e := by
    rw [← value_eq_signed, abs_value_finite]
  refine sameSide_add n₁ hbig ?_ ?_ ?_
  · rw [habs, Nat.cast_one, one_mul]
  · rw [habs]
    exact (magnitude_lt c₂ e₂).le.trans (zpow_le_zpow_right₀ (by norm_num) (by omega))
  · have h := signed_pos_or_neg n₂ (ten_zpow_pos limit) hc e₂
    tauto

/-- A nudge is not told apart from the number that it replaces. -/
theorem nudge_sameSide (n₁ : Bool) (c₁ : ℕ) {e₁ : ℤ} (n₂ : Bool) (c₂ : ℕ) {e₂ : ℤ} (hlt : e₂ < e₁) :
    SameSide
      ((signed n₁ (widen c₁ (e₁ - (nudge c₁ e₁ c₂ e₂).2)) + signed n₂ (nudge c₁ e₁ c₂ e₂).1) *
        10 ^ (nudge c₁ e₁ c₂ e₂).2)
      ((finite n₁ c₁ e₁).value + (finite n₂ c₂ e₂).value) := by
  have hp : precision = 28 := rfl
  have hcount := Digits.count_pos c₁
  simp only [nudge]
  generalize hlimit : e₁ - 1 + (if precision < Digits.count c₁ then (0 : ℤ)
    else (Digits.count c₁ : ℤ) - precision - 1) = limit
  -- the small operand is replaced, or it is kept as it is
  by_cases hsmall : c₁ ≠ 0 ∧ adjusted c₂ e₂ < limit
  · simp only [if_pos hsmall]
    refine unit_sameSide n₁ c₁ n₂ c₂ (by split_ifs at hlimit <;> omega) ?_ hsmall.2
    -- with the unit, the large operand has more digits than the precision
    rw [widen_eq]
    refine le_trans ?_ (Nat.mul_le_mul_right _ ((Digits.count_spec c₁).2.1 hsmall.1))
    rw [← pow_add]
    exact Nat.pow_le_pow_right (by norm_num) (by split_ifs at hlimit <;> omega)
  · simp only [if_neg hsmall]
    rw [add_mul, signed_widen_mul hlt.le, ← value_eq_signed]
    exact SameSide.refl _

/-- A sum of finite numbers is a rounding of the exact sum. -/
theorem addFinite_computes (n₁ : Bool) (c₁ : ℕ) (e₁ : ℤ) (n₂ : Bool) (c₂ : ℕ) (e₂ : ℤ) :
    Computes (addFinite n₁ c₁ e₁ n₂ c₂ e₂)
      ((finite n₁ c₁ e₁).value + (finite n₂ c₂ e₂).value) := by
  unfold addFinite
  split_ifs with heq hlt
  · subst heq
    rw [value_eq_signed, value_eq_signed, ← add_mul]
    exact addAligned_computes n₁ c₁ n₂ c₂ e₁
  · exact (addAligned_computes ..).trans (nudge_sameSide n₁ c₁ n₂ c₂ hlt)
  · -- the larger exponent is that of the second operand, so the two change places
    have hlt' : e₁ < e₂ := by omega
    have hside := nudge_sameSide n₂ c₂ n₁ c₁ hlt'
    rw [add_comm (finite n₁ c₁ e₁).value]
    rw [add_comm (signed n₂ _ : ℚ)] at hside
    exact (addAligned_computes ..).trans hside

/-- The sum of two finite numbers is computed. -/
theorem add_computes {x y : Decimal} (hx : x.isFinite = true) (hy : y.isFinite = true) :
    Computes (x.add y) (x.value + y.value) := by
  obtain ⟨n₁, c₁, e₁, rfl⟩ := isFinite_iff.1 hx
  obtain ⟨n₂, c₂, e₂, rfl⟩ := isFinite_iff.1 hy
  exact addFinite_computes ..

theorem isFinite_flip (x : Decimal) : x.flip.isFinite = x.isFinite := by
  cases x <;> rfl

theorem sub_computes {x y : Decimal} (hx : x.isFinite = true) (hy : y.isFinite = true) :
    Computes (x.sub y) (x.value - y.value) := by
  have hsub : x.sub y = x.add y.flip := by
    obtain ⟨n, c, e, rfl⟩ := isFinite_iff.1 hy
    rfl
  rw [hsub, sub_eq_add_neg, ← value_flip]
  exact add_computes hx (by rwa [isFinite_flip])

/-! ## Products and absolute values -/

theorem mul_computes {x y : Decimal} (hx : x.isFinite = true) (hy : y.isFinite = true) :
    Computes (x.mul y) (x.value * y.value) := by
  obtain ⟨n₁, c₁, e₁, rfl⟩ := isFinite_iff.1 hx
  obtain ⟨n₂, c₂, e₂, rfl⟩ := isFinite_iff.1 hy
  refine .of_eq rfl ?_
  rw [value_eq_signed, value_eq_signed, value_eq_signed, ten_zpow_add]
  cases n₁ <;> cases n₂ <;> simp [signed] <;> ring

theorem abs_computes {x : Decimal} (hx : x.isFinite = true) : Computes x.abs |x.value| := by
  obtain ⟨n, c, e, rfl⟩ := isFinite_iff.1 hx
  refine .of_eq rfl ?_
  rw [abs_value_finite, value_eq_signed]
  simp [signed]

/-- Absolute values of numbers of the same value have the same value. -/
theorem abs_value_congr {x y a b : Decimal} (hx : x.isFinite = true) (hy : y.isFinite = true)
    (h : x.value = y.value) (ha : x.abs = .ok a) (hb : y.abs = .ok b) : a.value = b.value := by
  rw [(abs_computes hx).value_eq ha, (abs_computes hy).value_eq hb, h]

/-! ## Quotients -/

/-- Moving a quotient's digits to the left of the point: the shift goes into one of the two
numbers. -/
theorem div_widen (c₁ : ℕ) (e₁ : ℤ) (c₂ : ℕ) (e₂ shift : ℤ) :
    (widen c₁ shift / widen c₂ (-shift) : ℚ) * 10 ^ (e₁ - e₂ - shift) =
      (c₁ * 10 ^ e₁) / (c₂ * 10 ^ e₂) := by
  have hshift : (10 : ℚ) ^ shift = 10 ^ shift.toNat / 10 ^ (-shift).toNat := by
    rw [← zpow_natCast, ← zpow_natCast, ← zpow_sub₀ (by norm_num)]
    congr 1
    omega
  rw [widen_eq, widen_eq, zpow_sub₀ (by norm_num), zpow_sub₀ (by norm_num), hshift]
  push_cast
  have h1 : (10 : ℚ) ^ shift.toNat ≠ 0 := by positivity
  have h2 : (10 : ℚ) ^ (-shift).toNat ≠ 0 := by positivity
  field_simp

/-- The shifted quotient has more digits than the precision. -/
theorem pow_mul_widen_le {c₁ c₂ : ℕ} (hc₁ : c₁ ≠ 0) {shift : ℤ}
    (hshift : shift = (Digits.count c₂ : ℤ) - Digits.count c₁ + precision + 1) :
    10 ^ precision * widen c₂ (-shift) ≤ widen c₁ shift := by
  have hcount := Digits.count_pos c₁
  rw [widen_eq, widen_eq]
  calc 10 ^ precision * (c₂ * 10 ^ (-shift).toNat)
      ≤ 10 ^ precision * (10 ^ Digits.count c₂ * 10 ^ (-shift).toNat) :=
        Nat.mul_le_mul_left _ (Nat.mul_le_mul_right _ (Digits.lt_pow_count c₂).le)
    _ = 10 ^ (precision + (Digits.count c₂ + (-shift).toNat)) := by rw [pow_add, pow_add]
    _ ≤ 10 ^ (Digits.count c₁ - 1 + shift.toNat) :=
        Nat.pow_le_pow_right (by norm_num) (by omega)
    _ = 10 ^ (Digits.count c₁ - 1) * 10 ^ shift.toNat := pow_add ..
    _ ≤ c₁ * 10 ^ shift.toNat := Nat.mul_le_mul_right _ ((Digits.count_spec c₁).2.1 hc₁)

/-- A quotient that is not exact is not told apart from its digits with a last digit that is neither
0 nor 5: that digit is beyond the precision. -/
theorem sticky_sameSide {dividend divisor : ℕ} (e : ℤ) (hpos : 0 < divisor)
    (hlarge : 10 ^ precision * divisor ≤ dividend) (hrem : dividend % divisor ≠ 0) :
    SameSide
      (((if dividend / divisor % 5 = 0 then dividend / divisor + 1
        else dividend / divisor : ℕ) : ℚ) * 10 ^ e)
      (dividend / divisor * 10 ^ e) := by
  have hq : 10 ^ precision ≤ dividend / divisor := (Nat.le_div_iff_mul_le hpos).2 hlarge
  have hdiv : (0 : ℚ) < divisor := by exact_mod_cast hpos
  have hlow : ((dividend / divisor : ℕ) : ℚ) < dividend / divisor := by
    rw [lt_div_iff₀ hdiv]
    have hmod := Nat.div_add_mod' dividend divisor
    exact_mod_cast show dividend / divisor * divisor < dividend by omega
  have hhigh : (dividend / divisor : ℚ) < (dividend / divisor : ℕ) + 1 := by
    rw [div_lt_iff₀ hdiv]
    exact_mod_cast Nat.lt_mul_of_div_lt (Nat.lt_succ_self _) hpos
  have hu := ten_zpow_pos e
  generalize dividend / divisor = q at *
  -- up to a multiple of five the quotient still has more digits than the precision
  have hk : 10 ^ precision ≤ 5 * (q / 5) := by
    have hfive : (10 : ℕ) ^ precision = 5 * (2 * 10 ^ (precision - 1)) := by
      rw [← mul_assoc]
      exact pow_succ' 10 (precision - 1)
    have hdvd : 2 * 10 ^ (precision - 1) ≤ q / 5 := by
      rw [Nat.le_div_iff_mul_le (by norm_num)]
      omega
    omega
  have hfloor : 5 * ((q / 5 : ℕ) : ℚ) ≤ q := by exact_mod_cast Nat.mul_div_le q 5
  have hceil : (q : ℚ) + 1 ≤ 5 * ((q / 5 : ℕ) + 1) := by
    exact_mod_cast show q + 1 ≤ 5 * (q / 5 + 1) by omega
  -- the last digit is neither 0 nor 5, so it lies strictly between two multiples of five
  have hsticky : 5 * (q / 5) < (if q % 5 = 0 then q + 1 else q) ∧
      (if q % 5 = 0 then q + 1 else q) < 5 * (q / 5 + 1) := by
    split_ifs <;> omega
  have hsticky₁ : 5 * ((q / 5 : ℕ) : ℚ) < (if q % 5 = 0 then q + 1 else q : ℕ) := by
    exact_mod_cast hsticky.1
  have hsticky₂ : ((if q % 5 = 0 then q + 1 else q : ℕ) : ℚ) < 5 * ((q / 5 : ℕ) + 1) := by
    exact_mod_cast hsticky.2
  refine .of_between (k := q / 5) (u := e) hk ?_ ?_
  · exact ⟨mul_lt_mul_of_pos_right hsticky₁ hu, mul_lt_mul_of_pos_right hsticky₂ hu⟩
  · exact ⟨mul_lt_mul_of_pos_right (hfloor.trans_lt hlow) hu,
      mul_lt_mul_of_pos_right (hhigh.trans_le hceil) hu⟩

/-- A quotient of finite numbers is a rounding of the exact quotient. -/
theorem divFinite_computes (n : Bool) (c₁ : ℕ) (e₁ : ℤ) {c₂ : ℕ} (e₂ : ℤ) (hc₂ : c₂ ≠ 0) :
    Computes (divFinite n c₁ e₁ c₂ e₂)
      (if n then -((c₁ * 10 ^ e₁ : ℚ) / (c₂ * 10 ^ e₂))
        else (c₁ * 10 ^ e₁ : ℚ) / (c₂ * 10 ^ e₂)) := by
  unfold divFinite
  by_cases hc₁ : c₁ = 0
  · subst hc₁
    rw [if_pos rfl]
    refine .of_magnitude rfl ?_
    simp only [Nat.cast_zero, zero_mul, zero_div]
    exact SameSide.refl _
  rw [if_neg hc₁]
  generalize hshift : (Digits.count c₂ : ℤ) - Digits.count c₁ + precision + 1 = shift
  simp only
  have hlarge := pow_mul_widen_le hc₁ hshift.symm
  have hpos : 0 < widen c₂ (-shift) := by
    rw [widen_eq]
    exact Nat.mul_pos (Nat.pos_of_ne_zero hc₂) (by positivity)
  rw [← div_widen c₁ e₁ c₂ e₂ shift]
  by_cases hexact : widen c₁ shift % widen c₂ (-shift) = 0
  · rw [if_pos hexact]
    -- zeros that are moved to the exponent leave the value as it is
    obtain ⟨zeros, -, hexp, hval⟩ := Digits.strip_spec shift.toNat
      (widen c₁ shift / widen c₂ (-shift)) (e₁ - e₂ - shift)
    have hq : (widen c₁ shift : ℚ) / widen c₂ (-shift) =
        (widen c₁ shift / widen c₂ (-shift) : ℕ) :=
      (Nat.cast_div (Nat.dvd_of_mod_eq_zero hexact) (by exact_mod_cast hpos.ne')).symm
    refine .of_magnitude rfl ?_
    generalize Digits.strip shift.toNat (widen c₁ shift / widen c₂ (-shift)) (e₁ - e₂ - shift) =
      stripped at *
    rw [hq, ← hval, hexp, ten_zpow_add, zpow_natCast]
    push_cast
    convert SameSide.refl _ using 1
    ring
  · rw [if_neg hexact]
    exact .of_magnitude rfl (sticky_sameSide _ hpos hlarge hexact)

theorem coefficient_ne_zero {n : Bool} {c : ℕ} {e : ℤ} (h : (finite n c e).value ≠ 0) : c ≠ 0 := by
  rintro rfl
  simp [value, magnitude] at h

/-- The quotient of two finite numbers is computed if the divisor is not zero. -/
theorem div_computes {x y : Decimal} (hx : x.isFinite = true) (hy : y.isFinite = true)
    (hy₀ : y.value ≠ 0) : Computes (x.div y) (x.value / y.value) := by
  obtain ⟨n₁, c₁, e₁, rfl⟩ := isFinite_iff.1 hx
  obtain ⟨n₂, c₂, e₂, rfl⟩ := isFinite_iff.1 hy
  have hc₂ := coefficient_ne_zero hy₀
  have h := divFinite_computes (n₁ != n₂) c₁ e₁ e₂ hc₂
  simp only [div, if_neg hc₂]
  convert h using 1
  cases n₁ <;> cases n₂ <;> simp [value, magnitude, neg_div, div_neg]

/-- There is no quotient by zero. -/
theorem value_ne_zero_of_div {x y r : Decimal} (hx : x.isFinite = true) (hy : y.isFinite = true)
    (h : x.div y = .ok r) : y.value ≠ 0 := by
  obtain ⟨n₁, c₁, e₁, rfl⟩ := isFinite_iff.1 hx
  obtain ⟨n₂, c₂, e₂, rfl⟩ := isFinite_iff.1 hy
  intro hzero
  have hc : c₂ = 0 := by
    have habs := abs_value_finite n₂ c₂ e₂
    rw [hzero, abs_zero] at habs
    exact magnitude_eq_zero_iff.1 habs.symm
  rw [div, if_pos hc] at h
  cases h

end OrderTicket.Decimal
