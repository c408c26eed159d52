import Mathlib.Algebra.Order.Floor.Semifield
import OrderTicket.Proofs.Decimal.Exact
import OrderTicket.Proofs.Decimal.Overflow
import OrderTicket.Proofs.Decimal.Quantum

/-!
# Operations on equal numbers

Numbers of the same value may differ in their exponents, and then so do the results of operations
on them. But they do not differ in value, and an operation that fails on one of the numbers fails
on the other, too, in the same way.

* `Alike`: computations that return related results, or fail in the same way.
* `Decimal.Equals`, `Decimal.Same`: finite numbers of the same value, and all numbers that
  operations do not tell apart.
* `Decimal.Computes.alike`: operations with the same exact result.
* `Decimal.mul_alike`, `Decimal.divTrunc_eq_of_pos`: products with any number, and integer
  quotients.
-/

namespace OrderTicket

/-- Computations that return related results, or fail in the same way. -/
inductive Alike {ε α β : Type} (R : α → β → Prop) : Except ε α → Except ε β → Prop where
  | ok {a : α} {b : β} (h : R a b) : Alike R (.ok a) (.ok b)
  | error (failure : ε) : Alike R (.error failure) (.error failure)

namespace Alike

variable {ε α β α' β' : Type} {R : α → β → Prop} {S : α' → β' → Prop} {x : Except ε α}
  {y : Except ε β}

theorem refl {R : α → α → Prop} (h : ∀ a, R a a) : Alike R x x := by
  cases x with
  | ok a => exact ok (h a)
  | error failure => exact error failure

/-- A second step that does not tell the results of the first one apart. -/
theorem bind {next : α → Except ε α'} {next' : β → Except ε β'} (h : Alike R x y)
    (hnext : ∀ a b, R a b → Alike S (next a) (next' b)) : Alike S (x >>= next) (y >>= next') := by
  cases h with
  | ok h => exact hnext _ _ h
  | error failure => exact error failure

/-- The faults of decimal operations as failures. -/
theorem lift {x : Except Decimal.Fault α} {y : Except Decimal.Fault β} (h : Alike R x y) :
    Alike R (liftM x : Except Failure α) (liftM y : Except Failure β) := by
  cases h with
  | ok h => exact ok h
  | error fault => exact error (Failure.arithmetic fault)

theorem mono {R' : α → β → Prop} (h : Alike R x y) (himp : ∀ a b, R a b → R' a b) :
    Alike R' x y := by
  cases h with
  | ok h => exact ok (himp _ _ h)
  | error failure => exact error failure

/-- A first step that both have in common. -/
theorem bind_left {x : Except ε α} {next : α → Except ε α'} {next' : α → Except ε β'}
    (hnext : ∀ a, Alike S (next a) (next' a)) : Alike S (x >>= next) (x >>= next') := by
  cases x with
  | ok a => exact hnext a
  | error failure => exact error failure

end Alike

namespace Decimal

/-- Finite numbers of the same value. -/
structure Equals (x y : Decimal) : Prop where
  /-- The first one is finite. -/
  isFinite_left : x.isFinite = true
  /-- The second one is finite. -/
  isFinite_right : y.isFinite = true
  /-- The two numbers have the same value. -/
  value_eq : x.value = y.value

/-- Numbers that operations do not tell apart: infinities and NaNs are so only if they are the
same. -/
def Same (x y : Decimal) : Prop :=
  x = y ∨ Equals x y

variable {x y a b : Decimal} {v : ℚ}

/-- Numbers that are equal in this sense are equal to the comparison of numbers. -/
theorem Equals.equal (h : Equals x y) : x.equal y = .ok true := by
  rw [equal_eq h.isFinite_left h.isFinite_right, h.value_eq, decide_eq_true rfl]

/-- Two finite numbers of the same value are equal. -/
theorem Exactly.equals (hx : Exactly v x) (hy : Exactly v y) : Equals x y :=
  ⟨hx.isFinite, hy.isFinite, hx.value_eq.trans hy.value_eq.symm⟩

/-! ## Rounding -/

/-- Operations with the same exact result return equal numbers, or fail in the same way. -/
theorem Computes.alike {result result' : Except Fault Decimal} (h : Computes result v)
    (h' : Computes result' v) : Alike Equals result result' := by
  cases hr : result with
  | error fault =>
    have hlarge := h.eq_error_iff.1 hr
    rw [h'.eq_error_iff.2 hlarge]
    exact .error fault
  | ok r =>
    cases hr' : result' with
    | error fault =>
      rw [h.eq_error_iff.2 (h'.eq_error_iff.1 hr')] at hr
      cases hr
    | ok r' => exact .ok ((h.exactly_nearest hr).equals (h'.exactly_nearest hr'))

/-! ## Products and integer quotients -/

/-- Numbers of the same value have the same sign, unless they are zero. -/
theorem sign_eq_of_value_eq {n n' : Bool} {c c' : ℕ} {e e' : ℤ} (hc : c ≠ 0)
    (h : (finite n c e).value = (finite n' c' e').value) : c' ≠ 0 ∧ n' = n := by
  have hpos : 0 < magnitude c e :=
    lt_of_le_of_ne (magnitude_nonneg c e) fun hzero => hc (magnitude_eq_zero_iff.1 hzero.symm)
  have hnonneg := magnitude_nonneg c' e'
  have hne : c' ≠ 0 := by
    rintro rfl
    have hzero : magnitude 0 e' = 0 := magnitude_eq_zero_iff.2 rfl
    cases n <;> cases n' <;> simp [value, hzero, hpos.ne'] at h
  refine ⟨hne, ?_⟩
  cases n <;> cases n' <;> simp only [value] at h ⊢ <;> simp at h ⊢ <;> linarith

/-- Equal numbers have the same products with any number. -/
theorem mul_alike (h : Equals x y) (factor : Decimal) :
    Alike Same (x.mul factor) (y.mul factor) := by
  obtain ⟨hx, hy, hvalue⟩ := h
  cases factor with
  | finite n c e =>
    have hproduct := mul_computes hx (y := finite n c e) rfl
    rw [hvalue] at hproduct
    exact (hproduct.alike (mul_computes hy rfl)).mono fun _ _ => .inr
  | infinity n =>
    -- times an infinity only the sign counts, and whether the number is zero
    obtain ⟨n₁, c₁, e₁, rfl⟩ := isFinite_iff.1 hx
    obtain ⟨n₂, c₂, e₂, rfl⟩ := isFinite_iff.1 hy
    simp only [mul]
    by_cases hc : c₁ = 0
    · have hc' : c₂ = 0 := by_contra fun hne => (sign_eq_of_value_eq hne hvalue.symm).1 hc
      rw [if_pos hc, if_pos hc']
      exact .error _
    · obtain ⟨hc', rfl⟩ := sign_eq_of_value_eq hc hvalue
      rw [if_neg hc, if_neg hc']
      exact .ok (.inl rfl)
  | nan n s p =>
    obtain ⟨_, _, _, rfl⟩ := isFinite_iff.1 hx
    obtain ⟨_, _, _, rfl⟩ := isFinite_iff.1 hy
    cases s with
    | true => exact .error _
    | false => exact .ok (.inl rfl)

/-- A number of positive value is finite, without sign and with a coefficient. -/
theorem exists_of_pos (h : 0 < x.value) : ∃ c e, c ≠ 0 ∧ x = finite false c e := by
  obtain ⟨n, c, e, rfl⟩ := isFinite_iff.1 (isFinite_of_pos h)
  cases n with
  | true => exact absurd h (not_lt.2 (neg_nonpos.2 (magnitude_nonneg c e)))
  | false => exact ⟨c, e, coefficient_ne_zero h.ne', rfl⟩

/-- The integer quotient of positive numbers, where it has no more digits than the precision. -/
theorem divTrunc_eq_of_pos (hx : 0 < x.value) (hy : 0 < y.value) :
    x.divTrunc y = if x.value / y.value < 10 ^ precision then
      .ok (finite false ⌊x.value / y.value⌋₊ 0) else .error .divisionImpossible := by
  have habs := abs_of_pos (div_pos hx hy)
  have hxfin := isFinite_of_pos hx
  have hyfin := isFinite_of_pos hy
  obtain ⟨c₁, e₁, -, rfl⟩ := exists_of_pos hx
  obtain ⟨c₂, e₂, hc₂, rfl⟩ := exists_of_pos hy
  cases hr : (finite false c₁ e₁).divTrunc (finite false c₂ e₂) with
  | ok r =>
    have hlt := (divTrunc_ok hxfin hyfin hy.ne' hr).1
    rw [habs] at hlt
    rw [if_pos hlt]
    simp only [divTrunc, if_neg hc₂] at hr
    obtain ⟨-, rfl⟩ := divTruncFinite_ok hc₂ hr
    rw [value_div_value, bne_self_eq_false, if_neg Bool.false_ne_true, Nat.floor_div_eq_div]
  | error fault =>
    -- a small quotient would have been returned
    have hge : ¬ (finite false c₁ e₁).value / (finite false c₂ e₂).value < 10 ^ precision := by
      intro hlt
      obtain ⟨r, hr'⟩ := exists_divTrunc hxfin hyfin hy.ne' (habs.trans_lt hlt)
      rw [hr] at hr'
      cases hr'
    rw [if_neg hge]
    simp only [divTrunc, divTruncFinite, if_neg hc₂] at hr
    split_ifs at hr <;> exact hr.symm

end Decimal

end OrderTicket
