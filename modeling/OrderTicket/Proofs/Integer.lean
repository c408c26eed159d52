import Mathlib.Algebra.Order.Group.Int
import Mathlib.Tactic.NormNum
import OrderTicket.Proofs.Run

/-!
# Which integers have a text

An integer is written exactly if it is short, that is, below the first power of ten with too many
digits. All numbers that occur in commands are far below it; only settings can reach it.

* `Integer.IsShort`: the integers that are written.
* `Integer.text_of_isShort`, `Integer.text_eq_error_iff`: they have a text, and the others have
  none.
-/

namespace OrderTicket.Integer

open Decimal

variable {i : ℤ} {fault : Fault}

/-- The integer has no more digits than are written. -/
def IsShort (i : ℤ) : Prop :=
  |i| < 10 ^ textLimit

/-- An integer has few enough digits if they are counted so. -/
theorem isShort_iff : IsShort i ↔ Digits.count i.natAbs ≤ textLimit := by
  have hcast : |i| < 10 ^ textLimit ↔ i.natAbs < 10 ^ textLimit := by
    rw [Int.abs_eq_natAbs, ← Nat.cast_ofNat, ← Nat.cast_pow, Nat.cast_lt]
  exact hcast.trans (Digits.count_le_iff (by decide)).symm

/-- An integer below a small power of ten is short. -/
theorem isShort_of_lt {k : ℕ} (hk : k ≤ textLimit) (h : |i| < 10 ^ k) : IsShort i :=
  h.trans_le (pow_le_pow_right₀ (by norm_num) hk)

/-- A short integer has a text. -/
theorem text_of_isShort (h : IsShort i) : text i = .ok (toString i) := by
  rw [text, if_neg (not_lt.2 (isShort_iff.1 h))]

/-- An integer that is not short has none, which is the only reason for not having one. -/
theorem text_eq_error_iff : text i = .error fault ↔ fault = .integerTooLong ∧ ¬ IsShort i := by
  rw [isShort_iff, not_le, text]
  split
  · simp [*, eq_comm]
  · simp [*]

/-- An integer with a text has few enough digits, and the text is its decimal one. -/
theorem text_eq_ok {s : String} (h : text i = .ok s) : IsShort i ∧ s = toString i := by
  by_cases hshort : IsShort i
  · rw [text_of_isShort hshort] at h
    exact ⟨hshort, (Except.ok.inj h).symm⟩
  · rw [text_eq_error_iff.2 ⟨rfl, hshort⟩] at h
    cases h

/-- A large power of ten is not written. -/
theorem not_isShort_pow {k : ℕ} (hk : textLimit ≤ k) : ¬ IsShort (10 ^ k) := by
  rw [IsShort, abs_of_nonneg (by positivity), not_lt]
  exact pow_le_pow_right₀ (by norm_num) hk

end OrderTicket.Integer
