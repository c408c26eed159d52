/-!
# Decimal digits of natural numbers

Numbers with very many digits occur (a price may be typed with a million zeros), so counting,
reading and writing digits go by halves and not digit by digit.

* `Digits.count n`: how many digits `n` has; zero has one (`Digits.count_le_iff`).
* `Digits.value ds`: the number with the digits `ds`, most significant first. Going by halves does
  not change it (`Digits.value_eq`).
* `Digits.text n`: the digits of `n` as characters. Going by halves does not change them
  (`Digits.text_eq`).
* `Digits.strip`: a coefficient without (some of) its trailing zeros.
-/

namespace OrderTicket.Digits

-- Powers are those of core, also where a library brings in powers in monoids.
attribute [local instance (2000)] instPowNat

/-! ## How many digits -/

/-- The least `k` from the given start for which `n` has at most `k` digits. -/
def countFrom (n : Nat) : Nat → Nat → Nat
  | 0, k => k
  | fuel + 1, k => if n < 10 ^ k then k else countFrom n fuel (k + 1)

/-- The number of digits of `n`. The start is never too high, since `10 ^ 59 ≤ 2 ^ 196`, and few
steps remain from there. -/
def count (n : Nat) : Nat :=
  countFrom n (n.log2 + 1) (n.log2 * 59 / 196 + 1)

theorem count_zero : count 0 = 1 := by
  decide +kernel

/-- A search that starts low enough and has enough fuel ends at the number of digits. -/
theorem countFrom_spec (n fuel k : Nat) (hfuel : n < 10 ^ (k + fuel)) (hk : 0 < k)
    (hlow : n ≠ 0 → 10 ^ (k - 1) ≤ n) :
    n < 10 ^ countFrom n fuel k ∧ (n ≠ 0 → 10 ^ (countFrom n fuel k - 1) ≤ n) ∧
      0 < countFrom n fuel k := by
  induction fuel generalizing k with
  | zero => exact ⟨hfuel, hlow, hk⟩
  | succ fuel ih =>
    unfold countFrom
    split
    · exact ⟨‹_›, hlow, hk⟩
    · rename_i hn
      refine ih (k + 1) ?_ (by omega) fun _ => ?_
      · rwa [Nat.add_right_comm]
      · simpa using hn

/-- The start of the search is not too high. -/
theorem pow_start_le {n : Nat} (h : n ≠ 0) : 10 ^ (n.log2 * 59 / 196) ≤ n := by
  have hlog : 2 ^ n.log2 ≤ n := Nat.log2_self_le h
  have hstart : 196 * (n.log2 * 59 / 196) ≤ n.log2 * 59 := Nat.mul_div_le _ _
  generalize n.log2 * 59 / 196 = k at *
  have hpow : (10 ^ k) ^ 59 ≤ (2 ^ n.log2) ^ 59 := by
    calc (10 ^ k) ^ 59 = (10 ^ 59) ^ k := by rw [← Nat.pow_mul, ← Nat.pow_mul, Nat.mul_comm]
      _ ≤ (2 ^ 196) ^ k := Nat.pow_le_pow_left (by decide) k
      _ = 2 ^ (196 * k) := by rw [Nat.pow_mul]
      _ ≤ 2 ^ (n.log2 * 59) := Nat.pow_le_pow_right (by decide) hstart
      _ = (2 ^ n.log2) ^ 59 := by rw [Nat.pow_mul]
  exact Nat.le_trans ((Nat.pow_le_pow_iff_left (by decide)).1 hpow) hlog

theorem count_spec (n : Nat) :
    n < 10 ^ count n ∧ (n ≠ 0 → 10 ^ (count n - 1) ≤ n) ∧ 0 < count n := by
  refine countFrom_spec n _ _ ?_ (by omega) pow_start_le
  calc n < 2 ^ (n.log2 + 1) := Nat.lt_log2_self
    _ ≤ 10 ^ (n.log2 + 1) := Nat.pow_le_pow_left (by decide) _
    _ ≤ 10 ^ (n.log2 * 59 / 196 + 1 + (n.log2 + 1)) := Nat.pow_le_pow_right (by decide) (by omega)

theorem count_pos (n : Nat) : 0 < count n :=
  (count_spec n).2.2

theorem lt_pow_count (n : Nat) : n < 10 ^ count n :=
  (count_spec n).1

theorem pow_le_of_lt_count {n k : Nat} (h : k < count n) (hn : n ≠ 0) : 10 ^ k ≤ n :=
  Nat.le_trans (Nat.pow_le_pow_right (by decide) (by omega)) ((count_spec n).2.1 hn)

/-- A number has at most `k` digits exactly if it is less than `10 ^ k`. -/
theorem count_le_iff {n k : Nat} (hk : 0 < k) : count n ≤ k ↔ n < 10 ^ k := by
  constructor
  · intro h
    exact Nat.lt_of_lt_of_le (lt_pow_count n) (Nat.pow_le_pow_right (by decide) h)
  · intro h
    refine Nat.le_of_not_lt fun hlt => ?_
    have hn : n ≠ 0 := by
      rintro rfl
      rw [count_zero] at hlt
      omega
    exact absurd (pow_le_of_lt_count hlt hn) (Nat.not_le_of_lt h)

/-! ## From digits to numbers -/

/-- The value of a short list of digits, most significant first. -/
def shortValue (ds : List Nat) : Nat :=
  ds.foldl (fun acc d => 10 * acc + d) 0

/-- The value of a list of digits by halving it, at most `depth` times. -/
def valueHalving : Nat → List Nat → Nat
  | 0, ds => shortValue ds
  | depth + 1, ds =>
    if ds.length ≤ 256 then shortValue ds
    else
      let low := ds.length / 2
      let high := ds.length - low
      valueHalving depth (ds.take high) * 10 ^ low + valueHalving depth (ds.drop high)

/-- The number with the given digits, most significant first. -/
def value (ds : List Nat) : Nat :=
  valueHalving 40 ds

theorem foldl_digits (ds : List Nat) (start : Nat) :
    ds.foldl (fun acc d => 10 * acc + d) start = start * 10 ^ ds.length + shortValue ds := by
  induction ds generalizing start with
  | nil => simp [shortValue]
  | cons d ds ih =>
    simp only [shortValue, List.foldl_cons, List.length_cons, Nat.pow_succ]
    rw [ih, ih (10 * 0 + d)]
    grind

theorem shortValue_append (high low : List Nat) :
    shortValue (high ++ low) = shortValue high * 10 ^ low.length + shortValue low := by
  rw [shortValue, List.foldl_append, foldl_digits]
  rfl

theorem valueHalving_eq (depth : Nat) (ds : List Nat) : valueHalving depth ds = shortValue ds := by
  induction depth generalizing ds with
  | zero => rfl
  | succ depth ih =>
    simp only [valueHalving, ih]
    split
    · rfl
    · have hlow : (ds.drop (ds.length - ds.length / 2)).length = ds.length / 2 := by
        rw [List.length_drop]
        omega
      have hsplit := shortValue_append (ds.take (ds.length - ds.length / 2))
        (ds.drop (ds.length - ds.length / 2))
      rw [List.take_append_drop, hlow] at hsplit
      exact hsplit.symm

/-- Going by halves does not change the value of digits. -/
theorem value_eq (ds : List Nat) : value ds = shortValue ds :=
  valueHalving_eq 40 ds

/-! ## From numbers to digits -/

/-- The last `width` digits of `n`, in front of `tail`. -/
def shortText : Nat → Nat → List Char → List Char
  | 0, _, tail => tail
  | width + 1, n, tail => shortText width (n / 10) (Nat.digitChar (n % 10) :: tail)

/-- The last `width` digits of `n` in front of `tail`, by halving the width at most `depth`
times. -/
def textHalving : Nat → Nat → Nat → List Char → List Char
  | 0, width, n, tail => shortText width n tail
  | depth + 1, width, n, tail =>
    if width ≤ 256 then shortText width n tail
    else
      let low := width / 2
      let unit := 10 ^ low
      textHalving depth (width - low) (n / unit) (textHalving depth low (n % unit) tail)

/-- The digits of `n` as characters. -/
def text (n : Nat) : List Char :=
  textHalving 40 (count n) n []

theorem shortText_append (width n : Nat) (tail : List Char) :
    shortText width n tail = shortText width n [] ++ tail := by
  induction width generalizing n tail with
  | zero => rfl
  | succ width ih =>
    rw [shortText, shortText, ih, ih (n / 10) [_], List.append_assoc]
    rfl

theorem shortText_succ (width n : Nat) :
    shortText (width + 1) n [] = shortText width (n / 10) [] ++ [Nat.digitChar (n % 10)] := by
  rw [shortText, shortText_append]

theorem shortText_add (high low n : Nat) (tail : List Char) :
    shortText (high + low) n tail = shortText high (n / 10 ^ low) (shortText low n tail) := by
  induction low generalizing n tail with
  | zero => simp [shortText]
  | succ low ih =>
    rw [← Nat.add_assoc, shortText, shortText, ih, Nat.div_div_eq_div_mul, Nat.pow_succ,
      Nat.mul_comm 10]

theorem shortText_mod (width n : Nat) (tail : List Char) :
    shortText width (n % 10 ^ width) tail = shortText width n tail := by
  induction width generalizing n tail with
  | zero => rfl
  | succ width ih =>
    have hdigit : n % 10 ^ (width + 1) % 10 = n % 10 :=
      Nat.mod_mod_of_dvd n ⟨10 ^ width, by rw [Nat.pow_succ, Nat.mul_comm]⟩
    have hrest : n % 10 ^ (width + 1) / 10 = n / 10 % 10 ^ width := by
      rw [Nat.pow_succ, Nat.mul_comm, Nat.mod_mul_right_div_self]
    rw [shortText, shortText, hdigit, hrest, ih]

theorem textHalving_eq (depth width n : Nat) (tail : List Char) :
    textHalving depth width n tail = shortText width n tail := by
  induction depth generalizing width n tail with
  | zero => rfl
  | succ depth ih =>
    simp only [textHalving, ih]
    split
    · rfl
    · rw [shortText_mod, ← shortText_add]
      congr 1
      omega

/-- Going by halves does not change the digits of a number. -/
theorem text_eq (n : Nat) : text n = shortText (count n) n [] :=
  textHalving_eq 40 (count n) n []

theorem length_shortText (width n : Nat) (tail : List Char) :
    (shortText width n tail).length = width + tail.length := by
  induction width generalizing n tail with
  | zero => simp [shortText]
  | succ width ih =>
    rw [shortText, ih, List.length_cons]
    omega

/-- As many characters are written as a number has digits. -/
theorem length_text (n : Nat) : (text n).length = count n := by
  rw [text_eq, length_shortText]
  rfl

/-! ## Trailing zeros -/

/-- Moves at most `limit` trailing zeros of a coefficient into its exponent. -/
def strip : Nat → Nat → Int → Nat × Int
  | 0, coefficient, exponent => (coefficient, exponent)
  | limit + 1, coefficient, exponent =>
    if coefficient % 10 = 0 then strip limit (coefficient / 10) (exponent + 1)
    else (coefficient, exponent)

/-- Moving zeros into the exponent leaves the value as it is, and moves no more than allowed. -/
theorem strip_spec (limit coefficient : Nat) (exponent : Int) :
    ∃ zeros : Nat, zeros ≤ limit ∧
      (strip limit coefficient exponent).2 = exponent + zeros ∧
      (strip limit coefficient exponent).1 * 10 ^ zeros = coefficient := by
  induction limit generalizing coefficient exponent with
  | zero => exact ⟨0, by simp [strip]⟩
  | succ limit ih =>
    unfold strip
    split
    · rename_i hzero
      obtain ⟨zeros, hle, hexp, hval⟩ := ih (coefficient / 10) (exponent + 1)
      refine ⟨zeros + 1, by omega, by omega, ?_⟩
      rw [Nat.pow_succ, ← Nat.mul_assoc, hval]
      omega
    · exact ⟨0, by simp⟩

end OrderTicket.Digits
