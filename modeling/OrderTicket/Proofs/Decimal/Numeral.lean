import OrderTicket.Decimal.Printer
import OrderTicket.Decimal.Reader
import OrderTicket.Proofs.Decimal.Rounded
import OrderTicket.Proofs.Text.Words

/-!
# Numerals

This module is about texts of digits with an optional point, the form in which numbers are written
into commands. A `Numeral` has digits in front of the point, and it may have digits behind it. A
sign may stand in front of it. Reading a numeral gives its value exactly (`Numeral.ofText_text`),
and a finite number of any exponent is written as a numeral of the same value
(`exists_numeral_canonical`).

* `Decimal.Held`: the numbers that can be held, among them all that are read
  (`Decimal.held_of_ofText`).
* `Numeral`, `Numeral.text`, `Numeral.signed`: numerals, their texts and the numbers they stand for.
* `Numeral.ofText_text`, `Numeral.ofText?_text`: a numeral is read as the number it stands for.
* `exists_numeral_canonical`, `exists_numeral_toString`: numbers and integers are written as
  numerals.
-/

namespace OrderTicket

/-! ## Digits of ASCII -/

/-- A digit of ASCII has its distance from zero as its value. -/
theorem Text.digitValue?_of_isDigit {c : Char} (h : c.isDigit = true) :
    Text.digitValue? c = some (c.toNat - 48) := by
  obtain ⟨hlow, hhigh⟩ := toNat_of_isDigit h
  have h0 : '0' ≤ c := hlow
  have h9 : c ≤ '9' := hhigh
  rw [digitValue?, if_pos (by omega), if_pos ⟨h0, h9⟩]

/-- A digit of ASCII is a digit. -/
theorem Text.isDigit_of_isDigit {c : Char} (h : c.isDigit = true) : Text.isDigit c = true := by
  rw [Text.isDigit, digitValue?_of_isDigit h]
  rfl

namespace Digits

/-- The number that some characters stand for as digits; other characters are skipped. -/
def ofChars (cs : List Char) : ℕ :=
  shortValue (cs.filterMap Text.digitValue?)

/-- To append digits shifts the number that stands in front of them. -/
theorem ofChars_append {high low : List Char} (hlow : ∀ c ∈ low, c.isDigit = true) :
    ofChars (high ++ low) = ofChars high * 10 ^ low.length + ofChars low := by
  have hlength : (low.filterMap Text.digitValue?).length = low.length := by
    rw [List.filterMap_length_eq_length]
    intro c hc
    exact Text.isDigit_of_isDigit (hlow c hc)
  rw [ofChars, List.filterMap_append, shortValue_append, hlength]
  rfl

theorem ofChars_replicate_zero (k : ℕ) : ofChars (List.replicate k '0') = 0 := by
  induction k with
  | zero => rfl
  | succ k ih =>
    rw [List.replicate_succ', ofChars_append (by simp), ih]
    rfl

theorem isDigit_of_mem_text {n : ℕ} {c : Char} (h : c ∈ text n) : c.isDigit = true := by
  rw [text_eq] at h
  generalize count n = width at h
  -- the last digit is a remainder, and the others are those of the quotient
  induction width generalizing n with
  | zero => simp [shortText] at h
  | succ width ih =>
    rw [shortText_succ, List.mem_append, List.mem_singleton] at h
    rcases h with h | rfl
    · exact ih h
    · rw [Nat.isDigit_digitChar]
      exact decide_eq_true (Nat.mod_lt n (by norm_num))

/-- The digits of a natural number stand for that number. -/
theorem ofChars_text (n : ℕ) : ofChars (text n) = n := by
  rw [ofChars, text_eq, Decimal.shortValue_shortText (lt_pow_count n)]

/-- So many digits stand for less than that power of ten. -/
theorem ofChars_lt {cs : List Char} (h : ∀ c ∈ cs, c.isDigit = true) :
    ofChars cs < 10 ^ cs.length := by
  -- on the digits from the front, since the last one counts least
  induction cs using List.reverseRecOn with
  | nil => decide
  | append_singleton cs c ih =>
    have hc : c.isDigit = true := h c (by simp)
    have hrest := ih fun d hd => h d (List.mem_append_left _ hd)
    have hlast : ofChars [c] < 10 := by
      obtain ⟨hlow, hhigh⟩ := Text.toNat_of_isDigit hc
      simp only [ofChars, List.filterMap_cons, Text.digitValue?_of_isDigit hc, List.filterMap_nil,
        shortValue, List.foldl_cons, List.foldl_nil]
      omega
    rw [ofChars_append (by simpa using hc), List.length_append, List.length_singleton, pow_succ]
    omega

end Digits

/-- A number that can be held is the one with these digits, its exponent is large enough, and its
leading digit stands low enough. -/
theorem Decimal.checked_eq_ok {negative : Bool} {c : ℕ} {e : ℤ} {x : Decimal}
    (h : checked negative c e = .ok x) :
    x = finite negative c e ∧ -(2 * exponentLimit - 1) ≤ e ∧
      (c ≠ 0 → adjusted c e ≤ exponentLimit) := by
  unfold checked at h
  by_cases hlimit : exponentLimit < (if c = 0 then e else adjusted c e) ∨
      e < -(2 * exponentLimit - 1)
  · rw [if_pos hlimit] at h
    cases h
  · rw [if_neg hlimit] at h
    refine ⟨(Except.ok.inj h).symm, by omega, fun hc => ?_⟩
    rw [if_neg hc] at hlimit
    omega

/-- The number can be held: it is finite, and neither its leading digit nor its last one is beyond
the limits of all numbers. -/
def Decimal.Held (x : Decimal) : Prop :=
  ∃ n c e, checked n c e = .ok x

/-- A finite number that is read from a text is held. -/
theorem Decimal.held_of_ofText {s : String} {x : Decimal} (h : ofText s = .ok x)
    (hx : x.isFinite = true) : Held x := by
  unfold ofText at h
  simp only at h
  split at h
  · -- words stand for infinities and for no numbers
    rename_i special hspecial
    cases h
    unfold readSpecial? at hspecial
    split at hspecial
    · cases hspecial
      cases hx
    · split at hspecial <;> simp at hspecial
      all_goals
        obtain ⟨payload, -, rfl⟩ := hspecial
        cases hx
  · unfold readFinite at h
    simp only at h
    split at h
    · cases h
    · split at h
      · cases h
      · exact ⟨_, _, _, h⟩

/-! ## Numerals -/

/-- Digits in front of a point, at least one, and digits behind it, perhaps none. -/
structure Numeral where
  /-- The digits in front of the point. -/
  whole : List Char
  /-- The digits behind the point; without any there is no point. -/
  fraction : List Char
  /-- There is a digit in front of the point. -/
  whole_ne_nil : whole ≠ []
  /-- All are digits of ASCII. -/
  isDigit : ∀ c ∈ whole ++ fraction, c.isDigit = true

namespace Numeral

/-- The text of a numeral. -/
def text (numeral : Numeral) : List Char :=
  numeral.whole ++ if numeral.fraction = [] then [] else '.' :: numeral.fraction

/-- All digits of a numeral as one number. -/
def coefficient (numeral : Numeral) : ℕ :=
  Digits.ofChars (numeral.whole ++ numeral.fraction)

/-- The number that a numeral stands for with a minus sign in front of it, or without one. -/
def signed (numeral : Numeral) (negative : Bool) : Decimal :=
  .finite negative numeral.coefficient (-numeral.fraction.length)

variable (numeral : Numeral)

theorem isDigit_whole {c : Char} (h : c ∈ numeral.whole) : c.isDigit = true :=
  numeral.isDigit c (List.mem_append_left _ h)

theorem isDigit_fraction {c : Char} (h : c ∈ numeral.fraction) : c.isDigit = true :=
  numeral.isDigit c (List.mem_append_right _ h)

/-- A numeral has digits and points only. -/
theorem mem_text {c : Char} (h : c ∈ numeral.text) : c.isDigit = true ∨ c = '.' := by
  rw [text, List.mem_append] at h
  rcases h with h | h
  · exact .inl (numeral.isDigit_whole h)
  · split at h
    · simp at h
    · rcases List.mem_cons.1 h with rfl | h
      · exact .inr rfl
      · exact .inl (numeral.isDigit_fraction h)

/-- A numeral starts with a digit. -/
theorem exists_text_eq_cons : ∃ c cs, numeral.text = c :: cs ∧ c.isDigit = true := by
  obtain ⟨c, cs, hwhole⟩ := List.exists_cons_of_ne_nil numeral.whole_ne_nil
  have hc : c.isDigit = true := numeral.isDigit_whole (by rw [hwhole]; exact List.mem_cons_self)
  rw [text, hwhole, List.cons_append]
  exact ⟨c, _, rfl, hc⟩

/-! ### Reading -/

/-- All digits are read up to the first character that is none. -/
theorem readDigits_append {ds rest : List Char} (hds : ∀ c ∈ ds, c.isDigit = true)
    (hrest : ∀ c, rest.head? = some c → Text.isDigit c = false) :
    Decimal.readDigits (ds ++ rest) = (ds.filterMap Text.digitValue?, rest) := by
  obtain ⟨htake, hdrop⟩ :=
    Text.takeWhile_append_of_head (fun c hc => Text.isDigit_of_isDigit (hds c hc)) hrest
  rw [Decimal.readDigits, htake, hdrop]

/-- The digits of a numeral are read as one number and a count of decimals. -/
theorem readFinite_text (negative : Bool) :
    Decimal.readFinite negative numeral.text =
      Decimal.checked negative numeral.coefficient (-numeral.fraction.length) := by
  have hpoint : Text.isDigit '.' = false := by decide
  have hlength {ds : List Char} (hds : ∀ c ∈ ds, c.isDigit = true) :
      (ds.filterMap Text.digitValue?).length = ds.length := by
    rw [List.filterMap_length_eq_length]
    exact fun c hc => Text.isDigit_of_isDigit (hds c hc)
  have hwhole : numeral.whole.filterMap Text.digitValue? ≠ [] := by
    rw [← List.length_pos_iff, hlength fun c hc => numeral.isDigit_whole hc, List.length_pos_iff]
    exact numeral.whole_ne_nil
  have hvalue : Digits.value (numeral.whole.filterMap Text.digitValue? ++
      numeral.fraction.filterMap Text.digitValue?) = numeral.coefficient := by
    rw [Digits.value_eq, ← List.filterMap_append]
    rfl
  rw [Decimal.readFinite, text]
  -- without a fraction there is no point, and the reader stops behind the whole part
  by_cases hfraction : numeral.fraction = []
  · rw [if_pos hfraction, readDigits_append (fun c hc => numeral.isDigit_whole hc) (by simp)]
    simp only [Decimal.readFraction, List.isEmpty_nil, List.append_nil, List.length_nil,
      Decimal.readExponent?, List.isEmpty_eq_false_iff.2 hwhole]
    rw [hfraction, List.filterMap_nil, List.append_nil] at hvalue
    simp [hvalue, hfraction]
  · rw [if_neg hfraction,
      readDigits_append (fun c hc => numeral.isDigit_whole hc) (by simp [hpoint])]
    have hrest : Decimal.readDigits (numeral.fraction ++ []) =
        (numeral.fraction.filterMap Text.digitValue?, []) :=
      readDigits_append (fun c hc => numeral.isDigit_fraction hc) (by simp)
    rw [List.append_nil] at hrest
    simp only [Decimal.readFraction, hrest, Decimal.readExponent?,
      List.isEmpty_eq_false_iff.2 hwhole]
    rw [hvalue, hlength fun c hc => numeral.isDigit_fraction hc]
    simp

/-- A character of a numeral is none of those that are treated in a special way around numbers. -/
theorem ne_of_isDigit_or {c : Char} (h : c.isDigit = true ∨ c = '.') :
    Text.isBlank c = false ∧ c ≠ '_' := by
  rcases h with h | rfl
  · refine ⟨?_, ?_⟩
    · obtain ⟨hlow, hhigh⟩ := Text.toNat_of_isDigit h
      exact Text.not_isBlank_of_visible (by omega) (by omega)
    · rintro rfl
      revert h
      decide
  · decide

/-- A numeral with a sign has digits, points and minus signs only. -/
theorem mem_signed_text {negative : Bool} {c : Char}
    (h : c ∈ Decimal.signText negative ++ numeral.text) : c.isDigit = true ∨ c = '.' ∨ c = '-' := by
  rcases List.mem_append.1 h with h | h
  · cases negative <;> simp_all [Decimal.signText]
  · exact (numeral.mem_text h).imp_right .inl

theorem trimBy_of_not_isBlank {cs : List Char} (h : ∀ c ∈ cs, Text.isBlank c = false) :
    Text.trimBy Text.isBlank cs = cs := by
  have hdrop {cs : List Char} (hcs : ∀ c ∈ cs, Text.isBlank c = false) :
      cs.dropWhile Text.isBlank = cs := by
    cases cs with
    | nil => rfl
    | cons c cs => rw [List.dropWhile_cons_of_neg (by simp [hcs c List.mem_cons_self])]
  rw [Text.trimBy, hdrop h, hdrop (by simpa using h), List.reverse_reverse]

/-- The sign in front of a numeral is read as the sign of the number. -/
theorem readSign_append (negative : Bool) :
    Decimal.readSign (Decimal.signText negative ++ numeral.text) = (negative, numeral.text) := by
  cases negative with
  | true => rfl
  | false =>
    obtain ⟨c, cs, htext, hc⟩ := numeral.exists_text_eq_cons
    rw [htext]
    change Decimal.readSign (c :: cs) = _
    unfold Decimal.readSign
    split
    · rename_i heq
      cases heq
      exact absurd hc (by decide)
    · rename_i heq
      cases heq
      exact absurd hc (by decide)
    · rfl

/-- A numeral is read as the number that it stands for, which may have too many digits to be
held. -/
theorem ofText_text (negative : Bool) :
    Decimal.ofText (.ofList (Decimal.signText negative ++ numeral.text)) =
      Decimal.checked negative numeral.coefficient (-numeral.fraction.length) := by
  have hkind : ∀ c ∈ Decimal.signText negative ++ numeral.text,
      Text.isBlank c = false ∧ c ≠ '_' := by
    intro c hc
    rcases numeral.mem_signed_text hc with hc | rfl | rfl
    · exact ne_of_isDigit_or (.inl hc)
    · exact ne_of_isDigit_or (.inr rfl)
    · decide
  have hfilter : (Decimal.signText negative ++ numeral.text).filter (· ≠ '_') =
      Decimal.signText negative ++ numeral.text := by
    rw [List.filter_eq_self]
    exact fun c hc => by simpa using (hkind c hc).2
  -- no word stands behind the sign
  have hspecial : Decimal.readSpecial? negative numeral.text = none := by
    obtain ⟨c, cs, htext, hc⟩ := numeral.exists_text_eq_cons
    have hword {w : Char} {word : List Char} (hw : w.isDigit = false) :
        Decimal.readWord? (w :: word) (c :: cs) = none := by
      have hlower : c.toLower ≠ w := by
        rw [Text.toLower_of_isLow (Text.isLow_of_isDigit hc)]
        rintro rfl
        exact absurd hc (by simp [hw])
      rw [Decimal.readWord?, if_neg hlower]
    rw [htext, Decimal.readSpecial?]
    simp [hword]
  rw [Decimal.ofText, String.toList_ofList, trimBy_of_not_isBlank fun c hc => (hkind c hc).1,
    hfilter, readSign_append]
  simp only [hspecial, readFinite_text]

/-- A numeral is read as the number that it stands for, if that number can be held. -/
theorem ofText?_text {negative : Bool}
    (hhigh : numeral.coefficient ≠ 0 →
      Decimal.adjusted numeral.coefficient (-numeral.fraction.length) ≤ Decimal.exponentLimit)
    (hlow : (numeral.fraction.length : ℤ) ≤ 2 * Decimal.exponentLimit - 1) :
    Decimal.ofText? (.ofList (Decimal.signText negative ++ numeral.text)) =
      some (numeral.signed negative) := by
  have hlimit : (0 : ℤ) ≤ Decimal.exponentLimit := by decide
  have hchecked : Decimal.checked negative numeral.coefficient (-numeral.fraction.length) =
      .ok (numeral.signed negative) := by
    rw [Decimal.checked]
    split
    · rw [if_neg (by omega)]
      rfl
    · rename_i hne
      have hle := hhigh hne
      rw [if_neg (by omega)]
      rfl
  rw [Decimal.ofText?, ofText_text, hchecked]
  rfl

/-- A numeral is read as no other number than the one that it stands for. -/
theorem eq_signed_of_ofText? {negative : Bool} {x : Decimal}
    (h : Decimal.ofText? (.ofList (Decimal.signText negative ++ numeral.text)) = some x) :
    x = numeral.signed negative := by
  rw [Decimal.ofText?, ofText_text] at h
  split at h
  · rename_i y hy
    obtain ⟨rfl, -⟩ := Decimal.checked_eq_ok hy
    exact (Option.some.inj h).symm
  · cases h

end Numeral

/-! ## Writing -/

/-- Characters in front of the last one that is not a zero, and a count of zeros behind it. -/
theorem exists_eq_append_zeros (cs : List Char) :
    ∃ kept zeros, cs = kept ++ List.replicate zeros '0' ∧
      kept = (cs.reverse.dropWhile (· == '0')).reverse := by
  refine ⟨(cs.reverse.dropWhile (· == '0')).reverse, (cs.reverse.takeWhile (· == '0')).length,
    ?_, rfl⟩
  have hzeros : cs.reverse.takeWhile (· == '0') =
      List.replicate (cs.reverse.takeWhile (· == '0')).length '0' := by
    rw [List.eq_replicate_iff]
    refine ⟨rfl, fun c hc => ?_⟩
    simpa using List.all_eq_true.1 List.all_takeWhile c hc
  -- the zeros at the end are the ones in front of the reversed list
  have hsplit := congrArg List.reverse
    (List.takeWhile_append_dropWhile (p := (· == '0')) (l := cs.reverse))
  rw [List.reverse_append, List.reverse_reverse] at hsplit
  rw [← List.reverse_replicate, ← hzeros, hsplit]

/-- Dropping superfluous zeros from digits with a point leaves a numeral: without a point, if all
decimals are zeros. -/
theorem dropDecimalZeros_pointed {whole fraction : List Char} (hne : whole ≠ [])
    (hwhole : ∀ c ∈ whole, c.isDigit = true) (hfraction : ∀ c ∈ fraction, c.isDigit = true) :
    ∃ (numeral : Numeral) (zeros : ℕ),
      Decimal.dropDecimalZeros (whole ++ '.' :: fraction) = numeral.text ∧
      numeral.whole = whole ∧ fraction = numeral.fraction ++ List.replicate zeros '0' := by
  obtain ⟨kept, zeros, hsplit, hkept⟩ := exists_eq_append_zeros fraction
  have hdigits : ∀ c ∈ whole ++ kept, c.isDigit = true := by
    intro c hc
    rcases List.mem_append.1 hc with hc | hc
    · exact hwhole c hc
    · exact hfraction c (by rw [hsplit]; exact List.mem_append_left _ hc)
  refine ⟨⟨whole, kept, hne, hdigits⟩, zeros, ?_, rfl, hsplit⟩
  have hnotPoint {c : Char} (hc : c.isDigit = true) : c ≠ '.' := by
    rintro rfl
    exact absurd hc (by decide)
  have hreverse : (whole ++ '.' :: fraction).reverse.dropWhile (· == '0') =
      kept.reverse ++ '.' :: whole.reverse := by
    rw [List.reverse_append, List.reverse_cons, List.append_assoc, List.singleton_append,
      List.dropWhile_append, hkept, List.reverse_reverse]
    split
    · rename_i hempty
      rw [List.isEmpty_iff.1 hempty]
      rfl
    · rfl
  rw [Decimal.dropDecimalZeros, if_pos (by simp), hreverse]
  change _ = whole ++ if kept = [] then [] else '.' :: kept
  by_cases hnil : kept = []
  · -- the point goes as well, and nothing in front of it
    obtain ⟨c, cs, hcs⟩ := List.exists_cons_of_ne_nil (List.reverse_ne_nil_iff.2 hne)
    have hc : c ≠ '.' :=
      hnotPoint (hwhole c (by rw [← List.mem_reverse, hcs]; exact List.mem_cons_self))
    rw [if_pos hnil, hnil, List.append_nil, List.reverse_nil, List.nil_append,
      List.dropWhile_cons_of_pos (by simp), hcs, List.dropWhile_cons_of_neg (by simpa using hc),
      ← hcs, List.reverse_reverse]
  · obtain ⟨c, cs, hcs⟩ := List.exists_cons_of_ne_nil (List.reverse_ne_nil_iff.2 hnil)
    have hc : c ≠ '.' := by
      refine hnotPoint (hdigits c (List.mem_append_right _ ?_))
      rw [← List.mem_reverse, hcs]
      exact List.mem_cons_self
    rw [if_neg hnil, hcs, List.cons_append, List.dropWhile_cons_of_neg (by simpa using hc),
      ← List.cons_append, ← hcs]
    simp

/-- The digits of a number are a numeral of the same magnitude with no more decimals than its
own. -/
theorem exists_numeral_finitePlain (c : ℕ) (e : ℤ) :
    ∃ numeral : Numeral, Decimal.dropDecimalZeros (Decimal.finitePlain c e) = numeral.text ∧
      Decimal.magnitude numeral.coefficient (-numeral.fraction.length) = Decimal.magnitude c e ∧
      numeral.fraction.length ≤ (-e).toNat := by
  have hdigits : ∀ d ∈ Digits.text c, d.isDigit = true := fun d hd => Digits.isDigit_of_mem_text hd
  have hlength := Digits.length_text c
  have hcount := Digits.count_pos c
  rw [Decimal.finitePlain]
  by_cases he : 0 ≤ e
  · rw [if_pos he]
    by_cases hc : c = 0
    · exact ⟨⟨['0'], [], by simp, by simp⟩, by rw [if_pos hc]; rfl,
        by simp [hc, Numeral.coefficient, Digits.ofChars, Decimal.magnitude, Digits.shortValue,
          Text.digitValue?], Nat.zero_le _⟩
    -- digits with zeros behind them, and no point
    have hall : ∀ d ∈ Digits.text c ++ List.replicate e.toNat '0', d.isDigit = true := by
      intro d hd
      rcases List.mem_append.1 hd with hd | hd
      · exact hdigits d hd
      · rw [List.eq_of_mem_replicate hd]
        decide
    have hne : Digits.text c ++ List.replicate e.toNat '0' ≠ [] := by
      rw [← List.length_pos_iff, List.length_append]
      omega
    refine ⟨⟨_, [], hne, by simpa using hall⟩, ?_, ?_, Nat.zero_le _⟩
    · have hpoint : ¬ (Digits.text c ++ List.replicate e.toNat '0').contains '.' = true := by
        intro hmem
        exact absurd (hall '.' (by simpa using hmem)) (by decide)
      rw [if_neg hc, Decimal.dropDecimalZeros, if_neg hpoint, Numeral.text, if_pos rfl,
        List.append_nil]
    · have hcoefficient : Digits.ofChars (Digits.text c ++ List.replicate e.toNat '0') =
          c * 10 ^ e.toNat := by
        rw [Digits.ofChars_append (by simp), Digits.ofChars_text, Digits.ofChars_replicate_zero,
          List.length_replicate, Nat.add_zero]
      simp only [Numeral.coefficient, List.append_nil, hcoefficient, Decimal.magnitude,
        List.length_nil, Nat.cast_zero, neg_zero, zpow_zero, mul_one]
      push_cast
      rw [← zpow_natCast, Int.toNat_of_nonneg he]
  · -- a point among the digits, with zeros in front of them if they are too few
    obtain ⟨places, hplaces⟩ : ∃ places : ℕ, (-e).toNat = places + 1 := ⟨(-e).toNat - 1, by omega⟩
    rw [if_neg he, Decimal.pointed, hplaces, if_neg (by omega)]
    simp only
    generalize hpadded : List.replicate (places + 1 + 1 - (Digits.text c).length) '0' ++
      Digits.text c = padded
    have hall : ∀ d ∈ padded, d.isDigit = true := by
      intro d hd
      rw [← hpadded] at hd
      rcases List.mem_append.1 hd with hd | hd
      · rw [List.eq_of_mem_replicate hd]
        decide
      · exact hdigits d hd
    have hlong : places + 1 < padded.length := by
      rw [← hpadded, List.length_append, List.length_replicate]
      omega
    have hvalue : Digits.ofChars padded = c := by
      rw [← hpadded, Digits.ofChars_append hdigits, Digits.ofChars_replicate_zero, Nat.zero_mul,
        Nat.zero_add, Digits.ofChars_text]
    have hne : padded.take (padded.length - (places + 1)) ≠ [] := by
      rw [← List.length_pos_iff, List.length_take]
      omega
    have hdrop : ∀ d ∈ padded.drop (padded.length - (places + 1)), d.isDigit = true :=
      fun d hd => hall d (List.mem_of_mem_drop hd)
    obtain ⟨numeral, zeros, htext, hwhole, hfraction⟩ :=
      dropDecimalZeros_pointed hne (fun d hd => hall d (List.mem_of_mem_take hd)) hdrop
    have hdecimals : numeral.fraction.length + zeros = places + 1 := by
      have hlengths := congrArg List.length hfraction
      simp only [List.length_drop, List.length_append, List.length_replicate] at hlengths
      omega
    refine ⟨numeral, by rw [htext], ?_, by omega⟩
    -- the zeros that were dropped are the factor between the two coefficients
    have hcoefficient : numeral.coefficient * 10 ^ zeros = c := by
      rw [← hvalue, ← List.take_append_drop (padded.length - (places + 1)) padded, hfraction,
        ← hwhole, ← List.append_assoc, Digits.ofChars_append (by simp),
        Digits.ofChars_replicate_zero, List.length_replicate, Nat.add_zero]
      rfl
    have hexp : e = -(numeral.fraction.length : ℤ) - zeros := by omega
    rw [Decimal.magnitude, Decimal.magnitude, ← hcoefficient, hexp, sub_eq_add_neg,
      Decimal.ten_zpow_add, zpow_neg _ (zeros : ℤ), zpow_natCast]
    push_cast
    field_simp

/-- A sign stays in front of what is left. -/
theorem dropDecimalZeros_sign (negative : Bool) (cs : List Char) :
    Decimal.dropDecimalZeros (Decimal.signText negative ++ cs) =
      Decimal.signText negative ++ Decimal.dropDecimalZeros cs := by
  cases negative with
  | false => rfl
  | true =>
    -- zeros are dropped from the end, so the sign is only reached if nothing else is left
    have hdrop {p : Char → Bool} (hp : p '-' = false) (cs : List Char) :
        (cs ++ ['-']).dropWhile p = cs.dropWhile p ++ ['-'] := by
      rw [List.dropWhile_append]
      split
      · rename_i hempty
        rw [List.isEmpty_iff.1 hempty, List.dropWhile_cons_of_neg (by simp [hp])]
        rfl
      · rfl
    have hcontains : ('-' :: cs).contains '.' = cs.contains '.' := by simp
    change Decimal.dropDecimalZeros ('-' :: cs) = '-' :: Decimal.dropDecimalZeros cs
    rw [Decimal.dropDecimalZeros, Decimal.dropDecimalZeros, hcontains]
    split
    · rw [List.reverse_cons, hdrop (by decide), hdrop (by decide), List.reverse_append]
      rfl
    · rfl

/-- A finite number is written as a numeral of the same value with no more decimals than its own. -/
theorem exists_numeral_canonical (negative : Bool) (c : ℕ) (e : ℤ) :
    ∃ numeral : Numeral,
      (Decimal.finite negative c e).canonical =
        .ofList (Decimal.signText negative ++ numeral.text) ∧
      (numeral.signed negative).value = (Decimal.finite negative c e).value ∧
      numeral.fraction.length ≤ (-e).toNat := by
  obtain ⟨numeral, htext, hvalue, hlength⟩ := exists_numeral_finitePlain c e
  refine ⟨numeral, ?_, ?_, hlength⟩
  · rw [Decimal.canonical, Decimal.plain, String.toList_ofList, dropDecimalZeros_sign, htext]
  · rw [Numeral.signed, Decimal.value, Decimal.value, hvalue]

theorem Digits.ofChars_toDigits (k : ℕ) : ofChars (Nat.toDigits 10 k) = k := by
  have hdigit {d : ℕ} (hd : d < 10) : ofChars [Nat.digitChar d] = d := by
    simp [ofChars, Text.digitValue?_digitChar hd, shortValue]
  -- the digits in front of the last one are those of a smaller number
  induction k using Nat.strong_induction_on with
  | _ k ih =>
    rw [Nat.toDigits_eq_if (by norm_num)]
    split
    · rename_i hk
      exact hdigit hk
    · have hlast := Nat.mod_lt k (show 0 < 10 by norm_num)
      rw [ofChars_append (by simp [Nat.isDigit_digitChar, hlast]), ih (k / 10) (by omega),
        hdigit hlast]
      simp only [List.length_singleton, pow_one]
      omega

/-- An integer is written as a numeral without decimals. -/
theorem exists_numeral_toString (i : ℤ) :
    ∃ (negative : Bool) (numeral : Numeral),
      toString i = .ofList (Decimal.signText negative ++ numeral.text) ∧
      numeral.fraction = [] ∧ (numeral.signed negative).value = i := by
  -- the numeral is that of the magnitude
  have hnat (k : ℕ) : ∃ numeral : Numeral, Nat.toDigits 10 k = numeral.text ∧
      numeral.fraction = [] ∧ numeral.coefficient = k := by
    have hall : ∀ c ∈ Nat.toDigits 10 k ++ [], c.isDigit = true := by
      rw [List.append_nil]
      exact fun c hc => Nat.isDigit_of_mem_toDigits (by norm_num) (by norm_num) hc
    refine ⟨⟨Nat.toDigits 10 k, [], Nat.toDigits_ne_nil, hall⟩, ?_, rfl, ?_⟩
    · rw [Numeral.text, if_pos rfl, List.append_nil]
    · rw [Numeral.coefficient, List.append_nil, Digits.ofChars_toDigits]
  cases i with
  | ofNat k =>
    obtain ⟨numeral, htext, hfraction, hcoefficient⟩ := hnat k
    refine ⟨false, numeral, ?_, hfraction, ?_⟩
    · rw [← htext]
      rfl
    · simp [Numeral.signed, hfraction, hcoefficient, Decimal.value, Decimal.magnitude]
  | negSucc k =>
    obtain ⟨numeral, htext, hfraction, hcoefficient⟩ := hnat (k + 1)
    refine ⟨true, numeral, ?_, hfraction, ?_⟩
    · rw [← htext]
      exact String.toList_injective (by simp [toString, Int.repr, Decimal.signText, Nat.repr])
    · simp [Numeral.signed, hfraction, hcoefficient, Decimal.value, Decimal.magnitude]

end OrderTicket
