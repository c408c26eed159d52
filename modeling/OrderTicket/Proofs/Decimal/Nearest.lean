import Mathlib.Data.Int.Log
import Mathlib.Data.Rat.Floor
import OrderTicket.Proofs.Decimal.Rounded

/-!
# Rounding to nearest

The context rounds every result to the nearest number of its last place, a half going to the even
neighbour. So what an operation returns is a function of its exact result alone, however the
operands are written, and that function is monotone.

* `nearestInt`: the nearest integer, with `nearestInt_eq` and `nearestInt_mono`.
* `lastPlace`, `nearest`: the exponent of the last digit that is kept, and the rounded value.
* `nearest_mono`, `nearest_of_representable`: larger values are not rounded to smaller ones, and a
  representable value is kept.
* `finish_nearest`, `Computes.value_eq`: what `Decimal.finish` and the operations return.
-/

namespace OrderTicket.Decimal

/-! ## Integers -/

/-- The nearest integer; a half goes to the even neighbour. -/
def nearestInt (x : ℚ) : ℤ :=
  if 2 * x < 2 * ⌊x⌋ + 1 ∨ 2 * x = 2 * ⌊x⌋ + 1 ∧ Even ⌊x⌋ then ⌊x⌋ else ⌊x⌋ + 1

section NearestInt

variable {x y : ℚ} {k : ℤ}

/-- The nearest integer is at most a half away, and even where it is a half away. -/
theorem nearestInt_spec (x : ℚ) :
    (2 * nearestInt x - 1 ≤ 2 * x ∧ 2 * x ≤ 2 * nearestInt x + 1) ∧
      (2 * x = 2 * nearestInt x - 1 ∨ 2 * x = 2 * nearestInt x + 1 → Even (nearestInt x)) := by
  have hlow := Int.floor_le x
  have hhigh := Int.lt_floor_add_one x
  unfold nearestInt
  split_ifs with h
  · refine ⟨⟨by linarith, h.elim le_of_lt fun h => h.1.le⟩, ?_⟩
    rintro (heq | heq)
    · linarith
    · exact (h.resolve_left heq.ge.not_gt).2
  · rw [not_or, not_lt, not_and] at h
    push_cast
    refine ⟨⟨by linarith [h.1], by linarith⟩, ?_⟩
    rintro (heq | heq)
    · exact Int.even_add_one.2 (h.2 (by linarith))
    · linarith

/-- An integer that is no farther from a value than a half is the nearest one, if it is even in case
of a half. -/
theorem nearestInt_eq (hlow : 2 * k - 1 ≤ 2 * x) (hhigh : 2 * x ≤ 2 * k + 1)
    (heven : 2 * x = 2 * k - 1 ∨ 2 * x = 2 * k + 1 → Even k) : nearestInt x = k := by
  obtain ⟨⟨hlow', hhigh'⟩, heven'⟩ := nearestInt_spec x
  generalize nearestInt x = l at *
  -- two such integers are neighbours of one half, and both would have to be even
  rcases lt_trichotomy l k with hlt | heq | hlt
  · have hsucc : (l : ℚ) + 1 ≤ k := by exact_mod_cast Int.add_one_le_of_lt hlt
    have hk : Even k := heven (.inl (by linarith))
    have hl : Even l := heven' (.inr (by linarith))
    have hkl : k = l + 1 := by
      have : (k : ℚ) ≤ l + 1 := by linarith
      exact le_antisymm (by exact_mod_cast this) (Int.add_one_le_of_lt hlt)
    exact absurd hl (Int.even_add_one.1 (hkl ▸ hk))
  · exact heq
  · have hsucc : (k : ℚ) + 1 ≤ l := by exact_mod_cast Int.add_one_le_of_lt hlt
    have hk : Even k := heven (.inr (by linarith))
    have hl : Even l := heven' (.inl (by linarith))
    have hlk : l = k + 1 := by
      have : (l : ℚ) ≤ k + 1 := by linarith
      exact le_antisymm (by exact_mod_cast this) (Int.add_one_le_of_lt hlt)
    exact absurd hk (Int.even_add_one.1 (hlk ▸ hl))

@[simp]
theorem nearestInt_intCast (k : ℤ) : nearestInt k = k :=
  nearestInt_eq (by linarith) (by linarith) (by rintro (h | h) <;> linarith)

theorem nearestInt_neg (x : ℚ) : nearestInt (-x) = -nearestInt x := by
  obtain ⟨⟨hlow, hhigh⟩, heven⟩ := nearestInt_spec x
  refine nearestInt_eq ?_ ?_ fun h => ?_
  · push_cast
    linarith
  · push_cast
    linarith
  · rw [even_neg]
    push_cast at h
    exact heven (h.symm.imp (fun h => by linarith) fun h => by linarith)

/-- To round to an integer keeps the order. -/
theorem nearestInt_mono (h : x ≤ y) : nearestInt x ≤ nearestInt y := by
  by_contra hlt
  obtain ⟨⟨hlow, -⟩, heven⟩ := nearestInt_spec x
  obtain ⟨⟨-, hhigh⟩, heven'⟩ := nearestInt_spec y
  generalize nearestInt x = l at *
  generalize nearestInt y = k at *
  -- both values would be the half between two neighbours that are both even
  have hsucc : (k : ℚ) + 1 ≤ l := by exact_mod_cast Int.add_one_le_of_lt (not_le.1 hlt)
  have hl : Even l := heven (.inl (by linarith))
  have hk : Even k := heven' (.inr (by linarith))
  have hlk : l = k + 1 := by
    have : (l : ℚ) ≤ k + 1 := by linarith
    exact le_antisymm (by exact_mod_cast this) (Int.add_one_le_of_lt (not_le.1 hlt))
  exact absurd hk (Int.even_add_one.1 (hlk ▸ hl))

/-- An integer bound is kept. -/
theorem le_nearestInt (h : k ≤ x) : k ≤ nearestInt x := by
  simpa using nearestInt_mono h

/-- What is at most an integer is not rounded above it. -/
theorem nearestInt_le (h : x ≤ k) : nearestInt x ≤ k := by
  simpa using nearestInt_mono h

end NearestInt

/-! ## The last place -/

/-- The exponent of the last digit that is kept of a value: that of the last of all digits of the
precision, or the least one of the context. -/
def lastPlace (v : ℚ) : ℤ :=
  Max.max (Int.log 10 |v| + 1 - precision) tinyExponent

section LastPlace

variable {v w : ℚ} {u : ℤ}

/-- No last place lies below the least one of the context. -/
theorem tinyExponent_le_lastPlace (v : ℚ) : tinyExponent ≤ lastPlace v :=
  le_max_right _ _

theorem lastPlace_neg (v : ℚ) : lastPlace (-v) = lastPlace v := by
  rw [lastPlace, abs_neg, lastPlace]

/-- A value has no digits beyond the precision in front of its last place. -/
theorem abs_lt_lastPlace (v : ℚ) : |v| < 10 ^ ((precision : ℤ) + lastPlace v) := by
  have hle : Int.log 10 |v| + 1 ≤ (precision : ℤ) + lastPlace v := by
    have := le_max_left (Int.log 10 |v| + 1 - precision) tinyExponent
    rw [lastPlace]
    omega
  refine (Int.lt_zpow_succ_log_self (b := 10) (by norm_num) |v|).trans_le ?_
  exact_mod_cast zpow_le_zpow_right₀ (by norm_num : (1 : ℚ) ≤ 10) hle

/-- In units of the last place a number is less than the power of ten of the precision. -/
theorem abs_div_lastPlace_lt (v : ℚ) : |v / 10 ^ lastPlace v| < 10 ^ precision := by
  have hpos := ten_zpow_pos (lastPlace v)
  have hlt := abs_lt_lastPlace v
  rw [ten_zpow_add, zpow_natCast] at hlt
  rwa [abs_div, abs_of_pos hpos, div_lt_iff₀ hpos]

/-- A number other than zero has all digits of the precision, or its last place is the least one of
the context. -/
theorem lastPlace_cases (hv : v ≠ 0) :
    (10 : ℚ) ^ ((precision : ℤ) - 1 + lastPlace v) ≤ |v| ∨ lastPlace v = tinyExponent := by
  rcases max_choice (Int.log 10 |v| + 1 - precision) tinyExponent with h | h
  · left
    have hexp : (precision : ℤ) - 1 + lastPlace v = Int.log 10 |v| := by
      rw [lastPlace, h]
      ring
    rw [hexp]
    exact_mod_cast Int.zpow_log_le_self (b := 10) (by norm_num) (abs_pos.2 hv)
  · exact .inr h

/-- The last place is the one that leaves no more digits than the precision, and leaves all of them
or is the least one of the context. -/
theorem lastPlace_eq (hlt : |v| < 10 ^ ((precision : ℤ) + u))
    (hcase : (10 : ℚ) ^ ((precision : ℤ) - 1 + u) ≤ |v| ∧ tinyExponent ≤ u ∨
      v ≠ 0 ∧ u = tinyExponent) : lastPlace v = u := by
  have hlt' := abs_lt_lastPlace v
  have htiny := tinyExponent_le_lastPlace v
  have hne : v ≠ 0 := by
    rcases hcase with ⟨hle, -⟩ | ⟨hne, -⟩
    · exact abs_pos.1 ((ten_zpow_pos _).trans_le hle)
    · exact hne
  -- each of the two exponents is at most the other one
  have hle {u u' : ℤ} (hlow : (10 : ℚ) ^ ((precision : ℤ) - 1 + u) ≤ |v|)
      (hhigh : |v| < 10 ^ ((precision : ℤ) + u')) : u ≤ u' := by
    have := (zpow_lt_zpow_iff_right₀ (by norm_num : (1 : ℚ) < 10)).1 (hlow.trans_lt hhigh)
    omega
  refine le_antisymm ?_ ?_
  · rcases lastPlace_cases hne with h | h
    · exact hle h hlt
    · rcases hcase with ⟨-, hu⟩ | ⟨-, hu⟩
      · exact h.trans_le hu
      · exact (h.trans hu.symm).le
  · rcases hcase with ⟨h, -⟩ | ⟨-, h⟩
    · exact hle h hlt'
    · exact h.trans_le htiny

/-- Not far above a representable value there is another one. -/
theorem Representable.exists_next (hw : Representable w)
    (hlow : (10 : ℚ) ^ ((precision : ℤ) - 1 + tinyExponent) ≤ w) :
    ∃ u, Representable u ∧ w < u ∧ u ≤ w + w / 10 ^ (precision - 1) := by
  have hpos : 0 < w := (ten_zpow_pos _).trans_le hlow
  have hunit := ten_zpow_pos (lastPlace w)
  have hplace : (10 : ℚ) ^ ((precision : ℤ) - 1 + lastPlace w) ≤ w := by
    rcases lastPlace_cases hpos.ne' with h | h
    · rwa [abs_of_pos hpos] at h
    · rwa [h]
  -- the next multiple of the last place
  obtain ⟨k, hk⟩ := hw.eq_mul_unit (.inl (by rwa [abs_of_pos hpos]))
  have hdiv := abs_lt.1 (abs_div_lastPlace_lt w)
  rw [(div_eq_iff hunit.ne').2 hk] at hdiv
  have hlow' : -10 ^ precision < k := by exact_mod_cast hdiv.1
  have hhigh : k < 10 ^ precision := by exact_mod_cast hdiv.2
  have hnext : Representable ((k + 1 : ℤ) * 10 ^ lastPlace w) :=
    representable_of_le (abs_le.2 ⟨by omega, by omega⟩) (tinyExponent_le_lastPlace w)
  have hsucc : ((k + 1 : ℤ) : ℚ) * 10 ^ lastPlace w = w + 10 ^ lastPlace w := by
    rw [Int.cast_add, Int.cast_one, add_mul, one_mul, ← hk]
  have hstep : (10 : ℚ) ^ lastPlace w ≤ w / 10 ^ (precision - 1) := by
    rw [le_div_iff₀ (by positivity), mul_comm]
    refine le_trans (le_of_eq ?_) hplace
    rw [ten_zpow_add]
    rfl
  rw [hsucc] at hnext
  exact ⟨_, hnext, lt_add_of_pos_right w hunit, add_le_add_right hstep w⟩

/-- A representable value is not what a value is rounded to that exceeds it by more than its last
digit can tell. -/
theorem Rounded.lt_value {r : Decimal} (h : Rounded v r) (hw : Representable w)
    (hlow : (10 : ℚ) ^ ((precision : ℤ) - 1 + tinyExponent) ≤ w)
    (hlt : w + w / 10 ^ (precision - 1) ≤ v) : w < r.value := by
  obtain ⟨u, hu, hwu, hle⟩ := hw.exists_next hlow
  exact hwu.trans_le (h.le_value hu (hle.trans hlt))

end LastPlace

/-! ## Values -/

/-- A value rounded to its last place. -/
def nearest (v : ℚ) : ℚ :=
  nearestInt (v / 10 ^ lastPlace v) * 10 ^ lastPlace v

section Nearest

variable {v w : ℚ}

theorem nearest_neg (v : ℚ) : nearest (-v) = -nearest v := by
  rw [nearest, lastPlace_neg, neg_div, nearestInt_neg, Int.cast_neg, neg_mul, nearest]

/-- A representable value is kept. -/
theorem nearest_of_representable (h : Representable v) : nearest v = v := by
  rcases eq_or_ne v 0 with rfl | hne
  · rw [nearest, zero_div, ← Int.cast_zero, nearestInt_intCast, Int.cast_zero, zero_mul]
  · obtain ⟨k, hk⟩ := h.eq_mul_unit ((lastPlace_cases hne).imp_right le_of_eq)
    have hpos := ten_zpow_pos (lastPlace v)
    rw [nearest, (div_eq_iff hpos.ne').2 hk, nearestInt_intCast, ← hk]

/-- What is rounded is representable. -/
theorem representable_nearest (v : ℚ) : Representable (nearest v) := by
  have hlt := abs_lt.1 (abs_div_lastPlace_lt v)
  refine representable_of_le (abs_le.2 ⟨le_nearestInt ?_, nearestInt_le ?_⟩)
    (tinyExponent_le_lastPlace v) <;> push_cast
  · exact hlt.1.le
  · exact hlt.2.le

/-- What is rounded already is not changed by rounding. -/
@[simp]
theorem nearest_nearest (v : ℚ) : nearest (nearest v) = nearest v :=
  nearest_of_representable (representable_nearest v)

@[simp]
theorem nearest_zero : nearest 0 = 0 :=
  nearest_of_representable representable_zero

theorem nearest_nonneg (h : 0 ≤ v) : 0 ≤ nearest v := by
  have hpos := ten_zpow_pos (lastPlace v)
  have hint : 0 ≤ nearestInt (v / 10 ^ lastPlace v) :=
    le_nearestInt (by simpa using div_nonneg h hpos.le)
  exact mul_nonneg (by exact_mod_cast hint) hpos.le

/-- Of two values with different last places the larger one lies beyond a power of ten that both
roundings keep to. -/
theorem nearest_le_of_lastPlace_lt (hw : 0 < w) (hlt : lastPlace v < lastPlace w) :
    nearest v ≤ nearest w := by
  have hp : precision = 28 := rfl
  have hposv := ten_zpow_pos (lastPlace v)
  have hposw := ten_zpow_pos (lastPlace w)
  have htiny := tinyExponent_le_lastPlace v
  have hlow := (lastPlace_cases hw.ne').resolve_right (by omega)
  rw [abs_of_pos hw] at hlow
  have hvpow : v ≤ 10 ^ ((precision : ℤ) - 1 + lastPlace w) := by
    refine (le_abs_self v).trans ((abs_lt_lastPlace v).le.trans ?_)
    exact zpow_le_zpow_right₀ (by norm_num) (by omega)
  -- the power is a multiple of both units
  have hleft : nearest v ≤ 10 ^ ((precision : ℤ) - 1 + lastPlace w) := by
    have hunit : lastPlace v ≤ (precision : ℤ) - 1 + lastPlace w := by omega
    rw [ten_zpow_eq_mul hunit] at hvpow ⊢
    refine mul_le_mul_of_nonneg_right ?_ hposv.le
    exact_mod_cast nearestInt_le ((div_le_iff₀ hposv).2 hvpow)
  have hright : 10 ^ ((precision : ℤ) - 1 + lastPlace w) ≤ nearest w := by
    have hunit : lastPlace w ≤ (precision : ℤ) - 1 + lastPlace w := by omega
    rw [ten_zpow_eq_mul hunit] at hlow ⊢
    refine mul_le_mul_of_nonneg_right ?_ hposw.le
    exact_mod_cast le_nearestInt ((le_div_iff₀ hposw).2 hlow)
  exact hleft.trans hright

/-- Larger values have no earlier last place. -/
theorem lastPlace_mono (hv : v ≠ 0) (h : |v| ≤ |w|) : lastPlace v ≤ lastPlace w := by
  refine max_le_max ?_ le_rfl
  have := Int.log_mono_right (b := 10) (abs_pos.2 hv) h
  omega

/-- To round keeps the order of numbers that are not negative. -/
theorem nearest_mono_of_nonneg (hv : 0 ≤ v) (h : v ≤ w) : nearest v ≤ nearest w := by
  rcases hv.eq_or_lt with rfl | hpos
  · rw [nearest_zero]
    exact nearest_nonneg h
  have hle : lastPlace v ≤ lastPlace w := by
    refine lastPlace_mono hpos.ne' ?_
    rwa [abs_of_pos hpos, abs_of_pos (hpos.trans_le h)]
  rcases hle.lt_or_eq with hlt | heq
  · exact nearest_le_of_lastPlace_lt (hpos.trans_le h) hlt
  · have hunit := ten_zpow_pos (lastPlace w)
    rw [nearest, nearest, heq]
    refine mul_le_mul_of_nonneg_right ?_ hunit.le
    exact_mod_cast nearestInt_mono (div_le_div_of_nonneg_right h hunit.le)

/-- Larger values are not rounded to smaller ones. -/
theorem nearest_mono (h : v ≤ w) : nearest v ≤ nearest w := by
  rcases le_total 0 v with hv | hv
  · exact nearest_mono_of_nonneg hv h
  rcases le_total 0 w with hw | hw
  · -- zero lies between the two
    have hleft := nearest_nonneg (neg_nonneg.2 hv)
    rw [nearest_neg] at hleft
    linarith [nearest_nonneg hw]
  · have hneg := nearest_mono_of_nonneg (neg_nonneg.2 hw) (neg_le_neg h)
    rwa [nearest_neg, nearest_neg, neg_le_neg_iff] at hneg

/-- A value that exceeds a representable one by more than its last digit can tell is rounded to
more. -/
theorem lt_nearest (hw : Representable w)
    (hlow : (10 : ℚ) ^ ((precision : ℤ) - 1 + tinyExponent) ≤ w)
    (hlt : w + w / 10 ^ (precision - 1) ≤ v) : w < nearest v := by
  obtain ⟨u, hu, hwu, hle⟩ := hw.exists_next hlow
  have hmono := nearest_mono (hle.trans hlt)
  rw [nearest_of_representable hu] at hmono
  exact hwu.trans_le hmono

/-- To round commutes with the absolute value. -/
theorem nearest_abs (v : ℚ) : nearest |v| = |nearest v| := by
  rcases abs_cases v with ⟨h, hv⟩ | ⟨h, hv⟩
  · rw [h, abs_of_nonneg (nearest_nonneg hv)]
  · have hneg := nearest_nonneg (neg_nonneg.2 hv.le)
    rw [nearest_neg] at hneg
    rw [h, nearest_neg, abs_of_nonpos (by linarith)]

/-- Rounding does not carry a value across a power of ten. -/
theorem abs_nearest_le {n : ℤ} (hn : tinyExponent ≤ n) (h : |v| ≤ 10 ^ n) :
    |nearest v| ≤ 10 ^ n := by
  rw [← nearest_abs, ← nearest_of_representable (representable_zpow hn)]
  exact nearest_mono h

/-- The error is at most half a unit of the last place. -/
theorem abs_nearest_sub_le (h : (10 : ℚ) ^ ((precision : ℤ) - 1 + tinyExponent) ≤ |v|) :
    |nearest v - v| ≤ |v| / (2 * 10 ^ (precision - 1)) := by
  have hunit := ten_zpow_pos (lastPlace v)
  have hne : v ≠ 0 := abs_pos.1 ((ten_zpow_pos _).trans_le h)
  have hplace : (10 : ℚ) ^ ((precision : ℤ) - 1 + lastPlace v) ≤ |v| := by
    rcases lastPlace_cases hne with h' | h'
    · exact h'
    · rwa [h']
  -- in units of the last place the error is at most a half
  obtain ⟨⟨hlow, hhigh⟩, -⟩ := nearestInt_spec (v / 10 ^ lastPlace v)
  have hint : |nearestInt (v / 10 ^ lastPlace v) - v / 10 ^ lastPlace v| ≤ 1 / 2 := by
    rw [abs_le]
    constructor <;> linarith
  have hdiff : nearest v - v =
      (nearestInt (v / 10 ^ lastPlace v) - v / 10 ^ lastPlace v) * 10 ^ lastPlace v := by
    rw [sub_mul, div_mul_cancel₀ _ hunit.ne', nearest]
  rw [hdiff, abs_mul, abs_of_pos hunit, le_div_iff₀ (by positivity)]
  rw [ten_zpow_add, show ((precision : ℤ) - 1) = ((precision - 1 : ℕ) : ℤ) from rfl, zpow_natCast]
    at hplace
  calc |nearestInt (v / 10 ^ lastPlace v) - v / 10 ^ lastPlace v| * 10 ^ lastPlace v *
        (2 * 10 ^ (precision - 1))
      ≤ 1 / 2 * 10 ^ lastPlace v * (2 * 10 ^ (precision - 1)) := by gcongr
    _ = 10 ^ (precision - 1) * 10 ^ lastPlace v := by ring
    _ ≤ |v| := hplace

/-- Numbers that are not very small are rounded with a small relative error. -/
theorem abs_nearest_sub_le_of_le (h : (10 : ℚ) ^ (-2000 : ℤ) ≤ v) :
    |nearest v - v| ≤ v / (2 * 10 ^ 27) := by
  have hpos := (ten_zpow_pos _).trans_le h
  have hle : (10 : ℚ) ^ ((precision : ℤ) - 1 + tinyExponent) ≤ |v| := by
    rw [abs_of_pos hpos]
    exact (zpow_le_zpow_right₀ (by norm_num) (by decide)).trans h
  have herr := abs_nearest_sub_le hle
  rwa [abs_of_pos hpos] at herr

end Nearest

/-! ## What operations return -/

/-- A shifted coefficient is the nearest integer to the quotient. -/
theorem shiftRight_eq_nearestInt (n : Bool) (c places : ℕ) :
    (shiftRight .halfEven n c places : ℤ) = nearestInt (c / 10 ^ places) := by
  have hpow : 0 < 10 ^ places := by positivity
  have hten : (0 : ℚ) < 10 ^ places := by positivity
  have hmod := Nat.div_add_mod c (10 ^ places)
  have hlt := Nat.mod_lt c hpow
  rw [shiftRight_eq]
  generalize c / 10 ^ places = q at *
  generalize c % 10 ^ places = rem at *
  -- twice the quotient, compared by what remains
  have hquot : 2 * ((c : ℚ) / 10 ^ places) = 2 * q + 2 * rem / 10 ^ places := by
    have hcast : (c : ℚ) = 10 ^ places * q + rem := by exact_mod_cast hmod.symm
    rw [hcast]
    field_simp
  have hremlt : (rem : ℚ) / 10 ^ places < 1 := by
    rw [div_lt_one hten]
    exact_mod_cast hlt
  have hrem : (0 : ℚ) ≤ rem / 10 ^ places := by positivity
  rw [mul_div_assoc] at hquot
  symm
  rcases lt_trichotomy (2 * rem) (10 ^ places) with h | h | h
  · have hhalf : 2 * ((rem : ℚ) / 10 ^ places) < 1 := by
      rw [← mul_div_assoc, div_lt_one hten]
      exact_mod_cast h
    have hkept : Rounding.raises .halfEven n q rem .lt = false := rfl
    rw [Nat.compare_eq_lt.2 h, hkept, if_neg Bool.false_ne_true, Nat.add_zero]
    refine nearestInt_eq ?_ ?_ ?_ <;> rw [Int.cast_natCast]
    · linarith
    · linarith
    · rintro (h | h) <;> linarith
  · have hhalf : 2 * ((rem : ℚ) / 10 ^ places) = 1 := by
      rw [← mul_div_assoc, div_eq_one_iff_eq hten.ne']
      exact_mod_cast h
    have hraised : Rounding.raises .halfEven n q rem .eq = (q % 2 == 1) := rfl
    rw [Nat.compare_eq_eq.2 h, hraised]
    -- a half is raised from an odd number
    rcases Nat.mod_two_eq_zero_or_one q with hq | hq
    · rw [hq, if_neg (by decide), Nat.add_zero]
      refine nearestInt_eq ?_ ?_ fun _ => ?_
      · rw [Int.cast_natCast]
        linarith
      · rw [Int.cast_natCast]
        linarith
      · exact (Int.even_coe_nat q).2 (Nat.even_iff.2 hq)
    · rw [hq, if_pos (by decide)]
      refine nearestInt_eq ?_ ?_ fun _ => ?_
      · push_cast
        linarith
      · push_cast
        linarith
      · exact (Int.even_coe_nat (q + 1)).2 (Nat.even_add_one.2 (Nat.not_even_iff.2 hq))
  · have hhalf : 1 < 2 * ((rem : ℚ) / 10 ^ places) := by
      rw [← mul_div_assoc, one_lt_div hten]
      exact_mod_cast h
    have hraised : Rounding.raises .halfEven n q rem .gt = true := rfl
    rw [Nat.compare_eq_gt.2 h, hraised, if_pos rfl]
    refine nearestInt_eq ?_ ?_ ?_ <;> push_cast
    · linarith
    · linarith
    · rintro (h | h) <;> linarith

/-- Whatever `finish` returns is the exact result rounded to nearest. -/
theorem finish_nearest {n : Bool} {c : ℕ} {e : ℤ} {r : Decimal} (h : finish n c e = .ok r) :
    r.value = nearest (finite n c e).value := by
  have hp : precision = 28 := rfl
  by_cases hfits : Representable (finite n c e).value
  · rw [nearest_of_representable hfits, (finish_rounded h).eq_of_representable hfits]
  have hne : (finite n c e).value ≠ 0 := fun hzero => hfits (hzero ▸ representable_zero)
  have hc : c ≠ 0 := by
    rintro rfl
    simp [value, magnitude] at hne
  have hround := finish_rounded h
  rcases finish_cases hc h with ⟨hcount, htiny, rfl⟩ | ⟨d, hcase, hcount, htiny, c', e', rfl, heq⟩
  · exact absurd hround.representable hfits
  -- the digits that are kept end at the last place
  have hplace : lastPlace (finite n c e).value = e + d := by
    refine lastPlace_eq ?_ ?_ <;> rw [abs_value_finite]
    · refine (magnitude_lt c e).trans_le (zpow_le_zpow_right₀ (by norm_num) ?_)
      rw [adjusted]
      omega
    · refine hcase.imp (fun hcase => ⟨?_, htiny⟩) fun hcase => ⟨hne, hcase⟩
      refine le_trans (zpow_le_zpow_right₀ (by norm_num) ?_) (le_magnitude hc e)
      rw [adjusted]
      omega
  have hquot : (c : ℚ) * 10 ^ e / 10 ^ (e + d) = c / 10 ^ d := by
    rw [ten_zpow_add, zpow_natCast]
    field_simp
  have hvalue : (c' : ℚ) * 10 ^ e' = nearest (c * 10 ^ e) := by
    have hplace' : lastPlace (c * 10 ^ e) = e + d := by
      rw [← hplace, value_eq_signed]
      cases n <;> simp [signed, lastPlace, abs_mul]
    rw [nearest, hplace', hquot, ← shiftRight_eq_nearestInt n, heq]
    rfl
  cases n with
  | false => simpa [value, magnitude] using hvalue
  | true => simpa [value, magnitude, nearest_neg] using hvalue

section SameSide

variable {v w : ℚ}

theorem SameSide.eq_zero (h : SameSide v w) (hv : v = 0) : w = 0 := by
  obtain ⟨hle, hge⟩ := h 0 representable_zero.breakPoint
  exact le_antisymm (hge.1 hv.le) (hle.1 hv.ge)

theorem SameSide.symm (h : SameSide v w) : SameSide w v :=
  fun a ha => ⟨(h a ha).1.symm, (h a ha).2.symm⟩

/-- Numbers that no break point separates have their magnitudes on the same side of each break
point. -/
theorem SameSide.abs_lt_iff {a : ℚ} (h : SameSide v w) (ha : BreakPoint a) :
    |v| < a ↔ |w| < a := by
  rw [abs_lt, abs_lt, ← not_le, ← not_le, ← not_le, ← not_le, (h a ha).1, (h (-a) ha.neg).2]

/-- Numbers that no break point separates have the same last place. -/
theorem SameSide.lastPlace_eq (h : SameSide v w) (hv : v ≠ 0) : lastPlace v = lastPlace w := by
  have hp : precision = 28 := rfl
  have htiny := tinyExponent_le_lastPlace w
  have hpow {e : ℤ} (he : tinyExponent ≤ e) : BreakPoint (10 ^ e) :=
    (representable_zpow he).breakPoint
  refine Decimal.lastPlace_eq ((h.abs_lt_iff (hpow (by omega))).2 (abs_lt_lastPlace w)) ?_
  refine (lastPlace_cases fun hw => hv (h.symm.eq_zero hw)).imp (fun hle => ⟨?_, htiny⟩)
    fun heq => ⟨hv, heq⟩
  exact not_lt.1 fun hlt => absurd ((h.abs_lt_iff (hpow (by omega))).1 hlt) (not_lt.2 hle)

/-- Values that no break point tells apart are rounded alike. -/
theorem SameSide.nearest_eq (h : SameSide v w) : nearest v = nearest w := by
  by_cases hv : v = 0
  · rw [hv, h.eq_zero hv]
  have hpos := ten_zpow_pos (lastPlace w)
  have hplace := h.lastPlace_eq hv
  -- halves of the last place are break points
  have hhalf {m : ℤ} (hm : |m| ≤ 2 * 10 ^ precision) :
      (m ≤ 2 * (v / 10 ^ lastPlace w) ↔ m ≤ 2 * (w / 10 ^ lastPlace w)) ∧
        (2 * (v / 10 ^ lastPlace w) ≤ m ↔ 2 * (w / 10 ^ lastPlace w) ≤ m) := by
    have hbreak := h (m / 2 * 10 ^ lastPlace w)
      ⟨m, lastPlace w, hm, tinyExponent_le_lastPlace w, by ring⟩
    rw [← le_div_iff₀ hpos, ← le_div_iff₀ hpos, ← div_le_iff₀ hpos, ← div_le_iff₀ hpos] at hbreak
    rwa [div_le_iff₀' two_pos, div_le_iff₀' two_pos, le_div_iff₀' two_pos, le_div_iff₀' two_pos]
      at hbreak
  have hlt := abs_lt.1 (abs_div_lastPlace_lt w)
  rw [nearest, nearest, hplace]
  generalize v / 10 ^ lastPlace w = x at *
  generalize w / 10 ^ lastPlace w = y at *
  -- so both quotients have the same integer part, and lie on the same side of the half above it
  have hlow : -10 ^ precision ≤ ⌊y⌋ := Int.le_floor.2 (by push_cast; exact hlt.1.le)
  have hhigh : ⌊y⌋ < 10 ^ precision := Int.floor_lt.2 (by push_cast; exact hlt.2)
  have hfloor := Int.floor_le y
  have hfloor' := Int.lt_floor_add_one y
  have hx : ⌊x⌋ = ⌊y⌋ := by
    have hleft := (hhalf (m := 2 * ⌊y⌋) (by rw [abs_le]; constructor <;> linarith)).1.2
    have hright := (hhalf (m := 2 * (⌊y⌋ + 1)) (by rw [abs_le]; constructor <;> linarith)).1
    push_cast at hleft hright
    refine Int.floor_eq_iff.2 ⟨by linarith [hleft (by linarith)], ?_⟩
    by_contra hle
    linarith [hright.1 (by linarith)]
  have hmid := hhalf (m := 2 * ⌊y⌋ + 1) (by rw [abs_le]; constructor <;> linarith)
  push_cast at hmid
  have hltmid : 2 * x < 2 * ⌊y⌋ + 1 ↔ 2 * y < 2 * ⌊y⌋ + 1 := by
    rw [← not_le, ← not_le, hmid.1]
  have heqmid : 2 * x = 2 * ⌊y⌋ + 1 ↔ 2 * y = 2 * ⌊y⌋ + 1 := by
    rw [le_antisymm_iff, le_antisymm_iff, hmid.1, hmid.2]
  simp only [nearestInt, hx, hltmid, heqmid]

end SameSide

/-- What an operation returns is its exact result rounded to nearest. -/
theorem Computes.value_eq {x : Except Fault Decimal} {v : ℚ} {r : Decimal} (h : Computes x v)
    (hr : x = .ok r) : r.value = nearest v := by
  obtain ⟨n, c, e, rfl, hside⟩ := h
  rw [finish_nearest hr, hside.nearest_eq]

end OrderTicket.Decimal
