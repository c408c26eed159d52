import OrderTicket.Decimal.Value
import OrderTicket.Proofs.Run

/-!
# The order of numbers

Comparisons of numbers of which some may be infinite. A NaN has no place in the order, so a
comparison that returned something was not about one.

* `Decimal.lt_eq`, `Decimal.le_eq`, `Decimal.equal_eq`: finite numbers compare as their values do.
* `Decimal.min_eq`, `Decimal.max_eq`: the lesser and the greater of two finite numbers.
* `Decimal.le_of_lt_eq_false`: what is not less is at least as great, also among infinities.
-/

namespace OrderTicket.Decimal

/-- A finite number is one with a sign, a coefficient and an exponent. -/
theorem isFinite_iff {x : Decimal} : x.isFinite = true ↔ ∃ n c e, x = finite n c e := by
  cases x <;> simp [isFinite]

/-- The value of a literal without decimals. -/
@[simp]
theorem value_ofNat (k : ℕ) : (no_index (OfNat.ofNat k) : Decimal).value = k := by
  change (finite false k 0).value = k
  simp [value, magnitude]

/-! ## Finite numbers -/

section Finite

variable {x y : Decimal}

/-- Whether a finite number is less than another is decided by the values. -/
theorem lt_eq (hx : x.isFinite = true) (hy : y.isFinite = true) :
    x.lt y = .ok (decide (x.value < y.value)) := by
  obtain ⟨n, c, e, rfl⟩ := isFinite_iff.1 hx
  obtain ⟨n', c', e', rfl⟩ := isFinite_iff.1 hy
  exact lt_finite ..

theorem le_eq (hx : x.isFinite = true) (hy : y.isFinite = true) :
    x.le y = .ok (decide (x.value ≤ y.value)) := by
  obtain ⟨n, c, e, rfl⟩ := isFinite_iff.1 hx
  obtain ⟨n', c', e', rfl⟩ := isFinite_iff.1 hy
  exact le_finite ..

theorem equal_eq (hx : x.isFinite = true) (hy : y.isFinite = true) :
    x.equal y = .ok (decide (x.value = y.value)) := by
  obtain ⟨n, c, e, rfl⟩ := isFinite_iff.1 hx
  obtain ⟨n', c', e', rfl⟩ := isFinite_iff.1 hy
  exact equal_finite ..

/-- Finite numbers have a lesser one. -/
theorem min_eq (hx : x.isFinite = true) (hy : y.isFinite = true) :
    ∃ r, Decimal.min x y = .ok r ∧ (r = x ∨ r = y) ∧ r.value = Min.min x.value y.value := by
  rw [Decimal.min, lt_eq hy hx, Except.map]
  by_cases h : y.value < x.value
  · exact ⟨y, by rw [decide_eq_true h]; rfl, .inr rfl, (min_eq_right h.le).symm⟩
  · exact ⟨x, by rw [decide_eq_false h]; rfl, .inl rfl, (min_eq_left (not_lt.1 h)).symm⟩

/-- Finite numbers have a greater one. -/
theorem max_eq (hx : x.isFinite = true) (hy : y.isFinite = true) :
    ∃ r, Decimal.max x y = .ok r ∧ (r = x ∨ r = y) ∧ r.value = Max.max x.value y.value := by
  rw [Decimal.max, lt_eq hx hy, Except.map]
  by_cases h : x.value < y.value
  · exact ⟨y, by rw [decide_eq_true h]; rfl, .inr rfl, (max_eq_right h.le).symm⟩
  · exact ⟨x, by rw [decide_eq_false h]; rfl, .inl rfl, (max_eq_left (not_lt.1 h)).symm⟩

/-- The greater of two finite numbers is one of them. -/
theorem max_ok {r : Decimal} (hx : x.isFinite = true) (hy : y.isFinite = true)
    (h : Decimal.max x y = .ok r) :
    r.isFinite = true ∧ (r = x ∨ r = y) ∧ r.value = Max.max x.value y.value := by
  obtain ⟨r', hr', hmem, hvalue⟩ := max_eq hx hy
  obtain rfl := Except.ok.inj (h.symm.trans hr')
  refine ⟨?_, hmem, hvalue⟩
  rcases hmem with rfl | rfl
  · exact hx
  · exact hy

theorem le_zero_eq (hx : x.isFinite = true) : x.le 0 = .ok (decide (x.value ≤ 0)) := by
  rw [le_eq hx rfl, value_ofNat, Nat.cast_zero]

/-- A finite number that is not at most zero is positive. -/
theorem value_pos_of_le_zero_eq_false (hx : x.isFinite = true) (h : x.le 0 = .ok false) :
    0 < x.value := by
  rw [le_zero_eq hx] at h
  simpa using Except.ok.inj h

end Finite

/-! ## All numbers -/

theorem swap_compare (a b : ℚ) : (compare a b).swap = compare b a := by
  rcases lt_trichotomy a b with h | h | h
  · rw [compare_lt_iff_lt.2 h, compare_gt_iff_gt.2 h]
    rfl
  · rw [h, compare_eq_iff_eq.2 rfl]
    rfl
  · rw [compare_gt_iff_gt.2 h, compare_lt_iff_lt.2 h]
    rfl

/-- To compare two numbers the other way round turns the answer around, if there is one. -/
theorem order?_swap (x y : Decimal) : (order? x y).map Ordering.swap = order? y x := by
  cases x with
  | finite n c e =>
    cases y with
    | finite n' c' e' => simp only [order?, Option.map_some, compareFinite_eq_compare, swap_compare]
    | infinity n' => cases n' <;> rfl
    | nan => rfl
  | infinity n =>
    cases y with
    | finite n' c' e' => cases n <;> rfl
    | infinity n' => cases n <;> cases n' <;> rfl
    | nan => rfl
  | nan => cases y <;> rfl

/-- What is not less is at least as great. -/
theorem le_of_lt_eq_false {x y : Decimal} (h : x.lt y = .ok false) : y.le x = .ok true := by
  have hswap := order?_swap x y
  rw [lt, order] at h
  rw [le, order]
  cases hxy : order? x y with
  | none => simp [hxy, Except.map] at h
  | some o =>
    rw [hxy] at h hswap
    rw [← hswap]
    -- of the three places in the order only the first one is excluded
    cases o
    · cases h
    · rfl
    · rfl

/-- A bound that a finite number does not exceed is not exceeded by a lesser one, also if the bound
is infinite. -/
theorem lt_eq_false_of_le {bound x y : Decimal} (hx : x.isFinite = true) (hy : y.isFinite = true)
    (hle : x.value ≤ y.value) (h : bound.lt y = .ok false) : bound.lt x = .ok false := by
  obtain ⟨n, c, e, rfl⟩ := isFinite_iff.1 hx
  obtain ⟨n', c', e', rfl⟩ := isFinite_iff.1 hy
  cases bound with
  | finite =>
    rw [lt_finite, Except.ok.injEq, decide_eq_false_iff_not, not_lt] at h ⊢
    exact hle.trans h
  | infinity => exact h
  | nan => cases h

/-- If a number is not less than a bound, then neither is a greater one. -/
theorem lt_eq_false_of_ge {bound x y : Decimal} (hx : x.isFinite = true) (hy : y.isFinite = true)
    (hle : y.value ≤ x.value) (h : y.lt bound = .ok false) : x.lt bound = .ok false := by
  obtain ⟨n, c, e, rfl⟩ := isFinite_iff.1 hx
  obtain ⟨n', c', e', rfl⟩ := isFinite_iff.1 hy
  cases bound with
  | finite =>
    rw [lt_finite, Except.ok.injEq, decide_eq_false_iff_not, not_lt] at h ⊢
    exact h.trans hle
  | infinity => exact h
  | nan => cases h

/-- Finite numbers of the same value have the same place in the order. -/
theorem le_congr {x x' : Decimal} (hx : x.isFinite = true) (hx' : x'.isFinite = true)
    (h : x.value = x'.value) (y : Decimal) : x.le y = x'.le y := by
  obtain ⟨n, c, e, rfl⟩ := isFinite_iff.1 hx
  obtain ⟨n', c', e', rfl⟩ := isFinite_iff.1 hx'
  cases y with
  | finite => rw [le_finite, le_finite, h]
  | infinity => rfl
  | nan => rfl

end OrderTicket.Decimal
