import OrderTicket.Proofs.Decimal.Bounds

/-!
# Exact results

Operations whose exact result has few decimals and is not large return it as it is: it has no more
digits than the precision, so there is nothing to round.

* `HasPlaces`: values with a given number of decimals.
* `Exactly`: numbers that hold a value.
* `Computes.returns_exactly`, `Computes.exactly`: an operation whose result needs no rounding
  returns exactly that.
* `Computes.returns_nearest`: an operation whose result may have to be rounded.
-/

namespace OrderTicket.Decimal

/-- A multiple of a power of ten: a value with at most `places` decimals. -/
def HasPlaces (places : ℕ) (v : ℚ) : Prop :=
  ∃ k : ℤ, v = k * 10 ^ (-places : ℤ)

namespace HasPlaces

variable {places other : ℕ} {v w : ℚ}

theorem zero (places : ℕ) : HasPlaces places 0 :=
  ⟨0, by simp⟩

theorem add (hv : HasPlaces places v) (hw : HasPlaces places w) : HasPlaces places (v + w) := by
  obtain ⟨k, rfl⟩ := hv
  obtain ⟨l, rfl⟩ := hw
  exact ⟨k + l, by rw [Int.cast_add, add_mul]⟩

theorem sub (hv : HasPlaces places v) (hw : HasPlaces places w) : HasPlaces places (v - w) := by
  obtain ⟨k, rfl⟩ := hv
  obtain ⟨l, rfl⟩ := hw
  exact ⟨k - l, by rw [Int.cast_sub, sub_mul]⟩

/-- A product has the decimals of both factors. -/
theorem mul (hv : HasPlaces places v) (hw : HasPlaces other w) :
    HasPlaces (places + other) (v * w) := by
  obtain ⟨k, rfl⟩ := hv
  obtain ⟨l, rfl⟩ := hw
  refine ⟨k * l, ?_⟩
  rw [Nat.cast_add, neg_add, ten_zpow_add, Int.cast_mul, mul_mul_mul_comm]

theorem min (hv : HasPlaces places v) (hw : HasPlaces places w) :
    HasPlaces places (Min.min v w) := by
  rcases min_choice v w with h | h <;> rw [h]
  · exact hv
  · exact hw

/-- A positive value is at least a unit of its last decimal. -/
theorem le_of_pos (hv : HasPlaces places v) (hpos : 0 < v) : (10 : ℚ) ^ (-places : ℤ) ≤ v := by
  obtain ⟨k, rfl⟩ := hv
  have hunit := ten_zpow_pos (-places : ℤ)
  have hk : (0 : ℚ) < k := pos_of_mul_pos_left hpos hunit.le
  have hone : (1 : ℚ) ≤ k := by exact_mod_cast Int.add_one_le_of_lt (Int.cast_pos.1 hk)
  exact le_mul_of_one_le_left hunit.le hone

/-- A value with few decimals fits into the precision if it is not large. -/
theorem representable (hv : HasPlaces places v) (hplaces : places ≤ 1000)
    (hlt : |v| < 10 ^ (27 - places : ℤ)) : Representable v := by
  obtain ⟨k, rfl⟩ := hv
  have ht : tinyExponent = -1000026 := rfl
  refine ⟨k, -places, ?_, by omega, rfl⟩
  have hunit := ten_zpow_pos (-places : ℤ)
  rw [abs_mul, abs_of_pos hunit, sub_eq_add_neg, ten_zpow_add, mul_lt_mul_iff_left₀ hunit] at hlt
  have hk : |k| < 10 ^ 27 := by exact_mod_cast hlt
  exact hk.trans (by decide)

end HasPlaces

/-- A number with a value other than zero is finite. -/
theorem isFinite_of_pos {x : Decimal} (h : 0 < x.value) : x.isFinite = true := by
  cases x with
  | finite => rfl
  | infinity => simp [value] at h
  | nan => simp [value] at h

/-- A value that is not large for its decimals is not beyond the largest number. -/
theorem lt_maxExponent_of_places {v : ℚ} {places : ℕ} (hlt : v < 10 ^ (27 - places : ℤ)) :
    v < 10 ^ maxExponent :=
  hlt.trans_le (zpow_le_zpow_right₀ (by norm_num) (by
    have hm : maxExponent = 999999 := rfl
    omega))

/-- A finite number of the given value. -/
structure Exactly (v : ℚ) (x : Decimal) : Prop where
  /-- The number is finite. -/
  isFinite : x.isFinite = true
  /-- It has the value. -/
  value_eq : x.value = v

/-- Finite numbers of the same value are equal. -/
theorem Exactly.equal {v : ℚ} {x y : Decimal} (hx : Exactly v x) (hy : Exactly v y) :
    x.equal y = .ok true := by
  rw [equal_eq hx.isFinite hy.isFinite, hx.value_eq, hy.value_eq, decide_eq_true rfl]

/-- An operation whose exact result is representable returns it. -/
theorem Computes.returns_exactly {x : Except Fault Decimal} {v : ℚ} (h : Computes x v)
    (hv : Representable v) (hlt : |v| < 10 ^ maxExponent) : Returns x (Exactly v) := by
  obtain ⟨r, hr, hround⟩ := h.exists_ok hlt
  exact ⟨r, hr, hround.isFinite, hround.eq_of_representable hv⟩

/-- An operation returns its exact result if that has few decimals and is not large. -/
theorem Computes.exactly {x : Except Fault Decimal} {v : ℚ} (places : ℕ) (h : Computes x v)
    (hv : HasPlaces places v) (hplaces : places ≤ 1000) (hlt : |v| < 10 ^ (27 - places : ℤ)) :
    Returns x (Exactly v) :=
  h.returns_exactly (hv.representable hplaces hlt) (lt_maxExponent_of_places hlt)

/-- Whatever an operation returns is its exact result, rounded to nearest. -/
theorem Computes.exactly_nearest {x : Except Fault Decimal} {v : ℚ} {r : Decimal}
    (h : Computes x v) (hr : x = .ok r) : Exactly (Decimal.nearest v) r :=
  ⟨(h.rounded hr).isFinite, h.value_eq hr⟩

/-- An operation whose exact result is far from the largest number returns that, rounded to
nearest. -/
theorem Computes.returns_nearest {x : Except Fault Decimal} {v : ℚ} {n : ℤ} (h : Computes x v)
    (hn : 0 ≤ n) (hn' : n < maxExponent) (hle : |v| ≤ 10 ^ n) :
    Returns x fun r => Exactly (nearest v) r ∧ |r.value| ≤ 10 ^ n := by
  obtain ⟨r, hr, -⟩ := h.exists_ok (hle.trans_lt (zpow_lt_zpow_right₀ (by norm_num) hn'))
  have hexact := h.exactly_nearest hr
  exact ⟨r, hr, hexact, hexact.value_eq ▸ abs_nearest_le (le_trans (by decide) hn) hle⟩

end OrderTicket.Decimal
