import OrderTicket.Proofs.Command.Rendered
import OrderTicket.Proofs.Decimal.Alike

/-!
# One text for each number

A number is written without an exponent and without superfluous zeros. This module shows that the
text is a number of the command grammar, that it is read as a number of exactly the same value, and
that numbers of the same value other than zero have the same text. For the last of these, a zero at
the end of the coefficient may be moved to the exponent without changing the text
(`canonical_mul_ten`), and of two numbers of the same value one becomes the other that way.

* `canonical_eq_of_value_eq`: numbers of the same value have the same text.
* `getLast?_dropDecimalZeros`: what a text without superfluous zeros does not end in.
* `exists_ofText?_canonical`: the number that is read from the text of a number that is held.
  Numbers that were read are (`held_of_ofText`), and so are results (`held_of_finish`).
* `PlainNumber`, `canonical_exact`: numbers without an exponent and without superfluous zeros, and
  that every number is written as one of its value.
-/

namespace OrderTicket

/-! ## Zeros at the end of digits -/

/-- A zero at the end is one more digit. -/
theorem Digits.count_mul_ten {n : ℕ} (hn : n ≠ 0) : count (n * 10) = count n + 1 := by
  apply le_antisymm
  · rw [count_le_iff (Nat.succ_pos _), pow_succ]
    exact Nat.mul_lt_mul_of_pos_right (lt_pow_count n) (by norm_num)
  · by_contra hlt
    have hbound : n * 10 < 10 ^ count n := (count_le_iff (count_pos n)).1 (by omega)
    obtain ⟨k, hk⟩ : ∃ k, count n = k + 1 := ⟨count n - 1, by have := count_pos n; omega⟩
    have hlow : 10 ^ k ≤ n := pow_le_of_lt_count (by omega) hn
    rw [hk, pow_succ] at hbound
    omega

/-- Ten times a number has a zero behind its digits. -/
theorem Digits.text_mul_ten {n : ℕ} (hn : n ≠ 0) : text (n * 10) = text n ++ ['0'] := by
  rw [text_eq, text_eq, count_mul_ten hn, shortText_succ, Nat.mul_div_cancel n (by norm_num),
    Nat.mul_mod_left]
  rfl

namespace Decimal

variable {cs digits : List Char}

theorem point_not_mem (h : ∀ c ∈ cs, c.isDigit = true) : '.' ∉ cs :=
  fun hmem => absurd (h '.' hmem) (by decide)

theorem isDigit_text (c : ℕ) : ∀ d ∈ Digits.text c, d.isDigit = true :=
  fun _ hd => Digits.isDigit_of_mem_text hd

/-- A zero behind the decimals is dropped. -/
theorem dropDecimalZeros_append_zero (h : '.' ∈ cs) :
    dropDecimalZeros (cs ++ ['0']) = dropDecimalZeros cs := by
  rw [dropDecimalZeros, dropDecimalZeros, if_pos (by simp [h]), if_pos (by simpa using h)]
  simp

/-- Without decimals there is nothing to drop. -/
theorem dropDecimalZeros_of_not_mem (h : '.' ∉ cs) : dropDecimalZeros cs = cs := by
  rw [dropDecimalZeros, if_neg (by simpa using h)]

/-- Digits that are pointed have a point, if there are places behind it. -/
theorem point_mem_pointed {places : ℕ} (h : places ≠ 0) : '.' ∈ pointed digits places := by
  simp [pointed, h]

/-- A zero behind the digits is one more decimal. -/
theorem pointed_append_zero {places : ℕ} (h : places ≠ 0) :
    pointed (digits ++ ['0']) (places + 1) = pointed digits places ++ ['0'] := by
  -- the padding in front is the same, so the point stays where it is
  have hlength : places + 1 + 1 - (digits ++ ['0']).length = places + 1 - digits.length := by
    rw [List.length_append, List.length_singleton]
    omega
  rw [pointed, pointed, if_neg h, if_neg (Nat.succ_ne_zero _), hlength, ← List.append_assoc]
  simp only
  generalize hpadded : List.replicate (places + 1 - digits.length) '0' ++ digits = padded
  have hle : padded.length - places ≤ padded.length := Nat.sub_le _ _
  rw [List.length_append, List.length_singleton, Nat.add_sub_add_right,
    List.take_append_of_le_length hle, List.drop_append_of_le_length hle, List.append_assoc,
    List.cons_append]

/-- A point with a single zero behind it is dropped with the zero. -/
theorem dropDecimalZeros_pointed_one (hne : digits ≠ [])
    (hdigits : ∀ c ∈ digits, c.isDigit = true) :
    dropDecimalZeros (pointed (digits ++ ['0']) 1) = digits := by
  have hpointed : pointed (digits ++ ['0']) 1 = digits ++ ['.'] ++ ['0'] := by
    have hpos := List.length_pos_iff.2 hne
    have hpadding : 1 + 1 - (digits ++ ['0']).length = 0 := by
      rw [List.length_append, List.length_singleton]
      omega
    rw [pointed, if_neg Nat.one_ne_zero, hpadding, List.replicate_zero, List.nil_append]
    simp only
    rw [List.length_append, List.length_singleton, Nat.add_sub_cancel, List.take_left,
      List.drop_left, List.append_assoc, List.singleton_append]
  obtain ⟨front, last, rfl⟩ : ∃ front last, digits = front ++ [last] :=
    ⟨digits.dropLast, digits.getLast hne, (List.dropLast_append_getLast hne).symm⟩
  have hlast : last ≠ '.' := by
    rintro rfl
    exact point_not_mem hdigits (by simp)
  rw [hpointed, dropDecimalZeros_append_zero (by simp), dropDecimalZeros, if_pos (by simp)]
  simp [hlast]

theorem text_digits_ne_nil (c : ℕ) : Digits.text c ≠ [] := by
  rw [← List.length_pos_iff, Digits.length_text]
  exact Digits.count_pos c

/-- A zero may be moved from the coefficient to the exponent. -/
theorem dropDecimalZeros_finitePlain {c : ℕ} (hc : c ≠ 0) (e : ℤ) :
    dropDecimalZeros (finitePlain (c * 10) e) = dropDecimalZeros (finitePlain c (e + 1)) := by
  have hten : c * 10 ≠ 0 := by omega
  rcases lt_trichotomy e (-1) with hlow | rfl | hhigh
  · -- both have a point, and one of them a decimal more
    obtain ⟨places, hplaces, hne⟩ : ∃ places : ℕ, (-(e + 1)).toNat = places ∧ places ≠ 0 :=
      ⟨_, rfl, by omega⟩
    have hmore : (-e).toNat = places + 1 := by omega
    rw [finitePlain, finitePlain, if_neg (by omega), if_neg (by omega), hplaces, hmore,
      Digits.text_mul_ten hc, pointed_append_zero hne,
      dropDecimalZeros_append_zero (point_mem_pointed hne)]
  · -- only the first one has a point, in front of the zero
    have hpoint := point_not_mem (isDigit_text c)
    rw [finitePlain, finitePlain, if_neg (show ¬(0 : ℤ) ≤ -1 by norm_num),
      if_pos (show (0 : ℤ) ≤ -1 + 1 by norm_num), if_neg hc, Digits.text_mul_ten hc]
    simpa [dropDecimalZeros_of_not_mem hpoint] using
      dropDecimalZeros_pointed_one (text_digits_ne_nil c) (isDigit_text c)
  · -- neither has a point
    have hmore : (e + 1).toNat = e.toNat + 1 := by omega
    rw [finitePlain, finitePlain, if_pos (show 0 ≤ e by omega), if_pos (show 0 ≤ e + 1 by omega),
      if_neg hc, if_neg hten, Digits.text_mul_ten hc, hmore, List.replicate_succ, List.append_assoc,
      List.singleton_append]

/-- A zero may be moved from the coefficient to the exponent without changing the text. -/
theorem canonical_mul_ten (n : Bool) {c : ℕ} (hc : c ≠ 0) (e : ℤ) :
    (finite n (c * 10) e).canonical = (finite n c (e + 1)).canonical := by
  rw [canonical, canonical, plain, plain, String.toList_ofList, String.toList_ofList,
    dropDecimalZeros_sign, dropDecimalZeros_sign, dropDecimalZeros_finitePlain hc]

/-- Zeros at the end of a coefficient do not change the canonical text. -/
theorem canonical_mul_pow (n : Bool) {c : ℕ} (hc : c ≠ 0) (e : ℤ) (zeros : ℕ) :
    (finite n (c * 10 ^ zeros) e).canonical = (finite n c (e + zeros)).canonical := by
  -- one zero after the other, so the exponent changes along the way
  induction zeros generalizing e with
  | zero => simp
  | succ zeros ih =>
    have hne : c * 10 ^ zeros ≠ 0 := by positivity
    have hexp : e + 1 + (zeros : ℤ) = e + (zeros + 1 : ℕ) := by omega
    rw [pow_succ, ← mul_assoc, canonical_mul_ten n hne, ih, hexp]

/-- Numbers of the same value have the same magnitude. -/
theorem magnitude_eq_of_value_eq {n₁ n₂ : Bool} {c₁ c₂ : ℕ} {e₁ e₂ : ℤ}
    (h : (finite n₁ c₁ e₁).value = (finite n₂ c₂ e₂).value) :
    magnitude c₁ e₁ = magnitude c₂ e₂ := by
  have habs := congrArg (fun v : ℚ => |v|) h
  simpa only [abs_value_finite, magnitude] using habs

/-- Of two coefficients for one magnitude the one with the lower exponent has more zeros. -/
theorem eq_mul_pow_of_magnitude_eq {c₁ c₂ : ℕ} {e₁ e₂ : ℤ} (hle : e₁ ≤ e₂)
    (h : magnitude c₁ e₁ = magnitude c₂ e₂) : c₁ = c₂ * 10 ^ (e₂ - e₁).toNat := by
  have hunit : (10 : ℚ) ^ e₁ ≠ 0 := zpow_ne_zero e₁ (by norm_num)
  rw [magnitude_eq_mul hle, magnitude] at h
  exact_mod_cast mul_right_cancel₀ hunit h

/-- Numbers of the same sign and magnitude have the same canonical text. -/
theorem canonical_eq_of_magnitude_eq (n : Bool) {c₁ c₂ : ℕ} {e₁ e₂ : ℤ} (hc : c₂ ≠ 0)
    (hle : e₁ ≤ e₂) (h : magnitude c₁ e₁ = magnitude c₂ e₂) :
    (finite n c₁ e₁).canonical = (finite n c₂ e₂).canonical := by
  have hexp : e₁ + (e₂ - e₁).toNat = e₂ := by omega
  rw [eq_mul_pow_of_magnitude_eq hle h, canonical_mul_pow n hc, hexp]

/-- Numbers of the same value other than zero have the same text. -/
theorem canonical_eq_of_value_eq {x y : Decimal} (h : Equals x y) (hne : x.value ≠ 0) :
    x.canonical = y.canonical := by
  obtain ⟨n, c₁, e₁, rfl⟩ := isFinite_iff.1 h.isFinite_left
  obtain ⟨n', c₂, e₂, rfl⟩ := isFinite_iff.1 h.isFinite_right
  have hc₁ : c₁ ≠ 0 := by
    rintro rfl
    exact hne (by simp [value, magnitude])
  obtain ⟨hc₂, rfl⟩ := sign_eq_of_value_eq hc₁ h.value_eq
  have hmagnitude := magnitude_eq_of_value_eq h.value_eq
  rcases le_total e₁ e₂ with hle | hle
  · exact canonical_eq_of_magnitude_eq _ hc₂ hle hmagnitude
  · exact (canonical_eq_of_magnitude_eq _ hc₁ hle hmagnitude.symm).symm

/-! ## The end of the text -/

/-- A text does not begin with a character that was dropped from its front. -/
theorem head?_dropWhile_ne (c : Char) (cs : List Char) :
    (cs.dropWhile (· == c)).head? ≠ some c := by
  intro hhead
  have hnot := List.head?_dropWhile_not (· == c) cs
  simp [hhead] at hnot

/-- A text with at most one point does not end in it when the zeros have been dropped, and if the
point is still there then the text does not end in a zero. -/
theorem getLast?_dropDecimalZeros (h : cs.count '.' ≤ 1) :
    (dropDecimalZeros cs).getLast? ≠ some '.' ∧
      ('.' ∈ dropDecimalZeros cs → (dropDecimalZeros cs).getLast? ≠ some '0') := by
  by_cases hpoint : '.' ∈ cs
  · rw [dropDecimalZeros, if_pos (by simpa using hpoint), List.getLast?_reverse, List.mem_reverse]
    refine ⟨head?_dropWhile_ne _ _, ?_⟩
    generalize hzeros : cs.reverse.dropWhile (· == '0') = kept
    have hhead : kept.head? ≠ some '0' := hzeros ▸ head?_dropWhile_ne _ _
    have hcount : kept.count '.' ≤ 1 := by
      rw [← hzeros]
      exact ((List.dropWhile_sublist _).count_le _).trans (by rwa [List.count_reverse])
    cases kept with
    | nil => simp
    | cons c kept =>
      by_cases hc : c = '.'
      · -- the only point was at the end
        subst hc
        have hnone : '.' ∉ kept := by
          rw [List.count_cons_self] at hcount
          exact List.count_eq_zero.1 (by omega)
        rw [List.dropWhile_cons_of_pos (by simp)]
        exact fun hmem => absurd ((List.dropWhile_sublist _).subset hmem) hnone
      · rw [List.dropWhile_cons_of_neg (by simpa using hc)]
        exact fun _ => hhead
  · rw [dropDecimalZeros_of_not_mem hpoint]
    exact ⟨fun hlast => hpoint (List.mem_of_getLast? hlast), fun hmem => absurd hmem hpoint⟩

theorem count_point_eq_zero (h : ∀ c ∈ cs, c.isDigit = true) : cs.count '.' = 0 :=
  List.count_eq_zero.2 (point_not_mem h)

/-- A number is written with one point at most. -/
theorem count_point_plain_le (n : Bool) (c : ℕ) (e : ℤ) :
    (signText n ++ finitePlain c e).count '.' ≤ 1 := by
  have hdigits := isDigit_text c
  have hzeros (zeros : ℕ) : ∀ d ∈ List.replicate zeros '0', d.isDigit = true := by
    intro d hd
    rw [List.eq_of_mem_replicate hd]
    rfl
  have hsign : (signText n).count '.' = 0 := by cases n <;> rfl
  rw [List.count_append, hsign, Nat.zero_add, finitePlain]
  split
  · split
    · decide
    · rw [count_point_eq_zero (List.forall_mem_append.2 ⟨hdigits, hzeros _⟩)]
      exact Nat.zero_le 1
  -- one point is put between digits and padding zeros
  · rw [pointed]
    split
    · rw [count_point_eq_zero hdigits]
      exact Nat.zero_le 1
    · simp only
      have hpadded := List.forall_mem_append.2
        ⟨hzeros ((-e).toNat + 1 - (Digits.text c).length), hdigits⟩
      rw [List.count_append, List.count_cons_self,
        count_point_eq_zero fun d hd => hpadded d (List.mem_of_mem_take hd),
        count_point_eq_zero fun d hd => hpadded d (List.mem_of_mem_drop hd)]

/-! ## Reading the text again -/

/-- A number can be held whose digits and exponent are within the limits. -/
theorem held_finite {n : Bool} {c : ℕ} {e : ℤ} (hlow : -(2 * exponentLimit - 1) ≤ e)
    (hhigh : Digits.count c + e ≤ exponentLimit) : Held (finite n c e) := by
  have hcount := Digits.count_pos c
  refine ⟨n, c, e, ?_⟩
  rw [checked, if_neg]
  rw [adjusted]
  split <;> omega

/-- Cutting off digits leaves one digit more at most than are left without rounding. -/
theorem count_shiftRight_le {n : Bool} {c places digits : ℕ}
    (h : Digits.count c ≤ digits + places) :
    Digits.count (shiftRight .halfEven n c places) ≤ digits + 1 := by
  have hquotient : c / 10 ^ places < 10 ^ digits := by
    rw [Nat.div_lt_iff_lt_mul (by positivity), ← pow_add]
    exact (Digits.lt_pow_count c).trans_le (Nat.pow_le_pow_right (by norm_num) h)
  have hpos : 0 < 10 ^ digits := by positivity
  rw [Digits.count_le_iff (Nat.succ_pos _), shiftRight_eq, pow_succ]
  split <;> omega

/-- A result that was rounded to the context is held, just as what was read is. -/
theorem held_of_finish {n : Bool} {c : ℕ} {e : ℤ} {x : Decimal} (h : finish n c e = .ok x) :
    Held x := by
  have hprecision : precision = 28 := rfl
  have htiny : tinyExponent = -1000026 := rfl
  have hmax : maxExponent = 999999 := rfl
  have hlimit : exponentLimit = 999999999999999999 := rfl
  have hone : Digits.count 0 = 1 := Digits.count_zero
  have hten : Digits.count (10 ^ (precision - 1)) ≤ precision :=
    (Digits.count_le_iff (by decide)).2 (by decide)
  unfold finish at h
  split at h
  · cases h
    exact held_finite (by omega) (by omega)
  · rename_i hc
    simp only at h
    split at h
    · cases h
    · rename_i hhigh
      rw [adjusted] at hhigh
      have hleft := le_max_left ((Digits.count c : ℤ) - precision) (tinyExponent - e)
      have hright := le_max_right ((Digits.count c : ℤ) - precision) (tinyExponent - e)
      have hchoice := max_choice ((Digits.count c : ℤ) - precision) (tinyExponent - e)
      generalize Max.max ((Digits.count c : ℤ) - precision) (tinyExponent - e) = excess at *
      have hkept := @count_shiftRight_le n c excess.toNat precision (by omega)
      -- what is kept has one digit more than the precision at most
      split_ifs at h
      all_goals
        cases h
        exact held_finite (by omega) (by omega)

/-- The leading digits of equal magnitudes stand at the same place. -/
theorem adjusted_le_of_magnitude_eq {c₁ c₂ : ℕ} {e₁ e₂ : ℤ} (hc : c₁ ≠ 0)
    (h : magnitude c₁ e₁ = magnitude c₂ e₂) : c₂ ≠ 0 ∧ adjusted c₁ e₁ ≤ adjusted c₂ e₂ := by
  have hne : c₂ ≠ 0 := fun hzero =>
    hc (magnitude_eq_zero_iff.1 (h.trans (magnitude_eq_zero_iff.2 hzero)))
  have hlt : (10 : ℚ) ^ adjusted c₁ e₁ < 10 ^ (adjusted c₂ e₂ + 1) := calc
    (10 : ℚ) ^ adjusted c₁ e₁ ≤ magnitude c₁ e₁ := le_magnitude hc e₁
    _ = magnitude c₂ e₂ := h
    _ < 10 ^ (adjusted c₂ e₂ + 1) := magnitude_lt c₂ e₂
  have hplaces := (zpow_lt_zpow_iff_right₀ (by norm_num : (1 : ℚ) < 10)).1 hlt
  exact ⟨hne, by omega⟩

/-- The text of a number that is held is read as a number of the same value. -/
theorem exists_ofText?_canonical {x : Decimal} (h : Held x) :
    ∃ y, ofText? x.canonical = some y ∧ Equals y x := by
  obtain ⟨n, c, e, hchecked⟩ := h
  obtain ⟨rfl, hlow, hhigh⟩ := checked_eq_ok hchecked
  obtain ⟨numeral, htext, hvalue, hlength⟩ := exists_numeral_canonical n c e
  have hlimit : exponentLimit = 999999999999999999 := rfl
  have hread : ofText? (finite n c e).canonical = some (numeral.signed n) := by
    rw [htext]
    refine numeral.ofText?_text (fun hne => ?_) (by omega)
    -- the numeral has no more digits in front of the point than the number
    obtain ⟨hc, hle⟩ := adjusted_le_of_magnitude_eq hne (magnitude_eq_of_value_eq hvalue)
    exact hle.trans (hhigh hc)
  exact ⟨_, hread, rfl, rfl, hvalue⟩

end Decimal

/-! ## Plain numbers -/

namespace Command

open Decimal

/-- The text is a number of the command grammar without an exponent and without superfluous
zeros. -/
structure PlainNumber (s : String) : Prop where
  /-- There are digits, a point and a minus sign, and nothing else, so no exponent. -/
  mem : ∀ c ∈ s.toList, c.isDigit = true ∨ c = '.' ∨ c = '-'
  /-- The whole text is a number as it may be typed. -/
  number : number? s.toList = some s
  /-- It does not end in a point. -/
  last_ne_point : s.toList.getLast? ≠ some '.'
  /-- It does not end in a zero behind a point. -/
  last_ne_zero : '.' ∈ s.toList → s.toList.getLast? ≠ some '0'

/-- The canonical text of a finite number is a plain number. -/
theorem plainNumber_canonical {x : Decimal} (hx : x.isFinite = true) :
    PlainNumber x.canonical := by
  obtain ⟨n, c, e, rfl⟩ := isFinite_iff.1 hx
  obtain ⟨numeral, htext, -⟩ := exists_numeral_canonical n c e
  obtain ⟨hpoint, hzero⟩ := getLast?_dropDecimalZeros (count_point_plain_le n c e)
  have hplain : (finite n c e).canonical.toList =
      dropDecimalZeros (signText n ++ finitePlain c e) := by
    rw [canonical, plain, String.toList_ofList, String.toList_ofList]
  refine ⟨fun d hd => ?_, ?_, by rwa [hplain], by rwa [hplain]⟩
  · rw [htext, String.toList_ofList] at hd
    rcases numeral.mem_signed_text hd with hd | hd | hd
    · exact .inl hd
    · exact .inr (.inl hd)
    · exact .inr (.inr hd)
  · rw [htext]
    exact (isNumber_signed_text n numeral).number?_toList

/-- A finite number is written in one way, without an exponent and without superfluous zeros: equal
numbers other than zero have the same text. What is read from the text has exactly the value of the
number, if that is within the limits of what can be held at all. -/
theorem canonical_exact (x : Decimal) (hx : x.isFinite = true) :
    PlainNumber x.canonical ∧
    (Held x → ∃ y, ofText? x.canonical = some y ∧ Equals y x) ∧
    ∀ y, Equals x y → x.value ≠ 0 → y.canonical = x.canonical :=
  ⟨plainNumber_canonical hx, exists_ofText?_canonical,
    fun _ hequals hne => (canonical_eq_of_value_eq hequals hne).symm⟩

/-- Minus `15E+1` is written as minus `150.0` is, with its zero in front of the point only. -/
theorem canonical_exact_expanded :
    (finite true 1500 (-1)).canonical = "-150" ∧
    PlainNumber (finite true 1500 (-1)).canonical ∧
    (∃ y, ofText? (finite true 1500 (-1)).canonical = some y ∧
      Equals y (finite true 1500 (-1))) ∧
    (finite true 15 1).canonical = (finite true 1500 (-1)).canonical := by
  obtain ⟨hplain, hread, hsame⟩ := canonical_exact (finite true 1500 (-1)) rfl
  have hheld : Held (finite true 1500 (-1)) := ⟨true, 1500, -1, by rfl⟩
  have hequals : Equals (finite true 1500 (-1)) (finite true 15 1) :=
    ⟨rfl, rfl, by norm_num [value, magnitude]⟩
  have hne : (finite true 1500 (-1)).value ≠ 0 := by norm_num [value, magnitude]
  exact ⟨by decide +kernel, hplain, hread hheld, hsame _ hequals hne⟩

end Command

end OrderTicket
