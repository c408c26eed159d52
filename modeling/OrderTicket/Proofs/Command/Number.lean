import OrderTicket.Command.Number
import OrderTicket.Proofs.Text.Words

/-!
# Numbers as they are typed

This module is about the texts that the grammar of commands takes for numbers: an optional sign and
digits of any script with an optional point. A number is found again at the front of a word, if what
stands behind it cannot be a part of it (`IsNumber.splitNumber?_append`), and what is found at the
front of a word is a number (`isNumber_of_splitNumber?`).

* `IsNumber`: texts that are numbers.
* `numberBefore?_eq_some`, `numberBefore?_append`: the words of a number and a mark.
* `IsPercentage`: the words that are percentages, which `percentage?_eq_some_iff` reads.
-/

namespace OrderTicket.Command

/-- The text is a number as it may be typed. -/
def IsNumber (s : String) : Prop :=
  splitNumber? s.toList = some (s.toList, [])

instance (s : String) : Decidable (IsNumber s) :=
  inferInstanceAs (Decidable (_ = _))

/-- No character at the front of a text continues a number. -/
def EndsNumber (cs : List Char) : Prop :=
  ∀ c, cs.head? = some c → Text.isDigit c = false ∧ c ≠ '.'

/-! ## Digits -/

/-- The digits of an unsigned number, with or without a point among them, and what stands behind
it. -/
theorem splitUnsigned?_cases {cs number rest : List Char}
    (h : splitUnsigned? cs = some (number, rest)) :
    ∃ whole : List Char, (∀ c ∈ whole, Text.isDigit c = true) ∧
      ((number = whole ∧ whole ≠ []) ∨
        ∃ fraction : List Char, (∀ c ∈ fraction, Text.isDigit c = true) ∧
          number = whole ++ '.' :: fraction ∧ (whole ≠ [] ∨ fraction ≠ [])) := by
  have hdigits (cs : List Char) : ∀ c ∈ cs.takeWhile Text.isDigit, Text.isDigit c = true :=
    fun c hc => List.all_eq_true.1 List.all_takeWhile c hc
  simp only [splitUnsigned?] at h
  refine ⟨cs.takeWhile Text.isDigit, hdigits cs, ?_⟩
  -- Only a point directly behind the first digits makes a number of two parts.
  split at h
  · rename_i tail hpoint
    split at h
    · cases h
    · rename_i hne
      simp only [Option.some.injEq, Prod.mk.injEq] at h
      obtain ⟨rfl, rfl⟩ := h
      rw [Bool.and_eq_true, List.isEmpty_iff, List.isEmpty_iff,
        Classical.not_and_iff_not_or_not] at hne
      exact .inr ⟨tail.takeWhile Text.isDigit, hdigits tail, rfl, hne⟩
  · split at h
    · cases h
    · rename_i hne
      simp only [Option.some.injEq, Prod.mk.injEq] at h
      obtain ⟨rfl, rfl⟩ := h
      exact .inl ⟨rfl, by simpa using hne⟩

/-- An unsigned number is split off a word again, if the rest of the word does not continue it. -/
theorem splitUnsigned?_append_of {cs number old rest : List Char}
    (h : splitUnsigned? cs = some (number, old)) (hrest : EndsNumber rest) :
    splitUnsigned? (number ++ rest) = some (number, rest) := by
  obtain ⟨whole, hwhole, ⟨rfl, hne⟩ | ⟨fraction, hfraction, rfl, hne⟩⟩ := splitUnsigned?_cases h
  · -- without a point the digits end where the rest starts
    obtain ⟨htake, hdrop⟩ := Text.takeWhile_append_of_head hwhole fun c hc => (hrest c hc).1
    simp only [splitUnsigned?, htake, hdrop, List.isEmpty_eq_false_iff.2 hne]
    split
    · rename_i tail
      exact absurd rfl (hrest '.' rfl).2
    · simp
  · have hpoint : ∀ c, ('.' :: (fraction ++ rest)).head? = some c → Text.isDigit c = false := by
      rintro c ⟨⟩
      decide
    obtain ⟨htake, hdrop⟩ := Text.takeWhile_append_of_head hwhole hpoint
    obtain ⟨htake', hdrop'⟩ := Text.takeWhile_append_of_head hfraction fun c hc => (hrest c hc).1
    have hempty : ¬ (whole.isEmpty && fraction.isEmpty) = true := by
      rwa [Bool.and_eq_true, List.isEmpty_iff, List.isEmpty_iff, Classical.not_and_iff_not_or_not]
    rw [List.append_assoc, List.cons_append, splitUnsigned?, htake, hdrop]
    simp only [htake', hdrop']
    rw [if_neg hempty]

/-! ## Signs -/

/-- A character that is not a sign is no part of one. -/
theorem splitSign_of_ne {c : Char} {cs : List Char} (hminus : c ≠ '-') (hplus : c ≠ '+') :
    splitSign (c :: cs) = ([], c :: cs) := by
  unfold splitSign
  split
  · rename_i heq
    cases heq
    exact absurd rfl hminus
  · rename_i heq
    cases heq
    exact absurd rfl hplus
  · rfl

/-- The sign that is split off is a minus, a plus or nothing. -/
theorem splitSign_fst (cs : List Char) :
    (splitSign cs).1 = ['-'] ∨ (splitSign cs).1 = ['+'] ∨ (splitSign cs).1 = [] := by
  unfold splitSign
  split <;> simp

/-- An unsigned number starts with a digit or a point. -/
theorem exists_cons_of_splitUnsigned? {cs number rest : List Char}
    (h : splitUnsigned? cs = some (number, rest)) :
    ∃ c tail, number = c :: tail ∧ (Text.isDigit c = true ∨ c = '.') := by
  obtain ⟨whole, hwhole, ⟨rfl, hne⟩ | ⟨fraction, -, rfl, -⟩⟩ := splitUnsigned?_cases h
  · obtain ⟨c, tail, rfl⟩ := List.exists_cons_of_ne_nil hne
    exact ⟨c, tail, rfl, .inl (hwhole c List.mem_cons_self)⟩
  · cases whole with
    | nil => exact ⟨'.', fraction, rfl, .inr rfl⟩
    | cons c tail => exact ⟨c, _, rfl, .inl (hwhole c List.mem_cons_self)⟩

/-- Neither a digit nor a point is a sign. -/
theorem ne_sign_of_isDigit_or {c : Char} (h : Text.isDigit c = true ∨ c = '.') :
    c ≠ '-' ∧ c ≠ '+' := by
  constructor <;> rintro rfl <;> revert h <;> decide

/-- A number is split off a word again, if the rest of the word does not continue it. -/
theorem splitNumber?_append_of {cs number old rest : List Char}
    (h : splitNumber? cs = some (number, old)) (hrest : EndsNumber rest) :
    splitNumber? (number ++ rest) = some (number, rest) := by
  simp only [splitNumber?, Option.map_eq_some_iff] at h
  obtain ⟨⟨digits, tail⟩, hdigits, heq⟩ := h
  obtain ⟨rfl, rfl⟩ := Prod.mk.inj heq
  have hagain := splitUnsigned?_append_of hdigits hrest
  -- what stands in front of the digits is split off as a sign again
  have hsign : splitSign ((splitSign cs).1 ++ (digits ++ rest)) =
      ((splitSign cs).1, digits ++ rest) := by
    obtain ⟨c, tail, rfl, hc⟩ := exists_cons_of_splitUnsigned? hdigits
    obtain ⟨hminus, hplus⟩ := ne_sign_of_isDigit_or hc
    rcases splitSign_fst cs with hone | hone | hone <;> rw [hone]
    · rfl
    · rfl
    · exact splitSign_of_ne hminus hplus
  rw [List.append_assoc, splitNumber?, hsign]
  simp only [hagain, Option.map_some]

/-- What is split off the front of a word is a number by itself. -/
theorem isNumber_of_splitNumber? {cs number rest : List Char}
    (h : splitNumber? cs = some (number, rest)) : IsNumber (.ofList number) := by
  have hself : splitNumber? (number ++ []) = some (number, []) :=
    splitNumber?_append_of h (by simp [EndsNumber])
  rw [List.append_nil] at hself
  simpa [IsNumber] using hself

namespace IsNumber

variable {s : String}

/-- A number is found at the front of a word, if the rest of the word does not continue it. -/
theorem splitNumber?_append (h : IsNumber s) {rest : List Char} (hrest : EndsNumber rest) :
    splitNumber? (s.toList ++ rest) = some (s.toList, rest) :=
  splitNumber?_append_of h hrest

/-- A number starts with a digit, a point or a sign. -/
theorem exists_toList_eq_cons (h : IsNumber s) :
    ∃ c cs, s.toList = c :: cs ∧ (Text.isDigit c = true ∨ c = '.' ∨ c = '-' ∨ c = '+') := by
  simp only [IsNumber, splitNumber?, Option.map_eq_some_iff] at h
  obtain ⟨⟨digits, tail⟩, hdigits, heq⟩ := h
  obtain ⟨c, cs, rfl, hc⟩ := exists_cons_of_splitUnsigned? hdigits
  obtain ⟨hs, -⟩ := Prod.mk.inj heq
  rcases splitSign_fst s.toList with hone | hone | hone <;> rw [hone] at hs
  · exact ⟨_, _, hs.symm, by simp⟩
  · exact ⟨_, _, hs.symm, by simp⟩
  · exact ⟨c, cs, hs.symm, hc.imp_right .inl⟩

/-- A number has a digit. -/
theorem exists_isDigit (h : IsNumber s) : ∃ c ∈ s.toList, Text.isDigit c = true := by
  simp only [IsNumber, splitNumber?, Option.map_eq_some_iff] at h
  obtain ⟨⟨digits, tail⟩, hdigits, heq⟩ := h
  obtain ⟨hs, -⟩ := Prod.mk.inj heq
  have hsub {c : Char} (hc : c ∈ digits) : c ∈ s.toList := by
    rw [← hs]
    exact List.mem_append_right _ hc
  obtain ⟨whole, hwhole, ⟨rfl, hne⟩ | ⟨fraction, hfraction, rfl, hne⟩⟩ :=
    splitUnsigned?_cases hdigits
  · obtain ⟨c, hc⟩ := List.exists_mem_of_ne_nil _ hne
    exact ⟨c, hsub hc, hwhole c hc⟩
  · rcases hne with hne | hne
    · obtain ⟨c, hc⟩ := List.exists_mem_of_ne_nil _ hne
      exact ⟨c, hsub (List.mem_append_left _ hc), hwhole c hc⟩
    · obtain ⟨c, hc⟩ := List.exists_mem_of_ne_nil _ hne
      exact ⟨c, hsub (List.mem_append_right _ (List.mem_cons_of_mem _ hc)), hfraction c hc⟩

/-- A number has digits, a point and a sign only. -/
theorem mem (h : IsNumber s) {c : Char} (hc : c ∈ s.toList) :
    Text.isDigit c = true ∨ c = '.' ∨ c = '-' ∨ c = '+' := by
  simp only [IsNumber, splitNumber?, Option.map_eq_some_iff] at h
  obtain ⟨⟨digits, tail⟩, hdigits, heq⟩ := h
  obtain ⟨hs, -⟩ := Prod.mk.inj heq
  rw [← hs, List.mem_append] at hc
  rcases hc with hc | hc
  · rcases splitSign_fst s.toList with hone | hone | hone <;> simp_all
  · obtain ⟨whole, hwhole, ⟨rfl, -⟩ | ⟨fraction, hfraction, rfl, -⟩⟩ := splitUnsigned?_cases hdigits
    · exact .inl (hwhole c hc)
    · rcases List.mem_append.1 hc with hc | hc
      · exact .inl (hwhole c hc)
      · rcases List.mem_cons.1 hc with rfl | hc
        · exact .inr (.inl rfl)
        · exact .inl (hfraction c hc)

/-- A number has no small letter of ASCII. -/
theorem not_isLower (h : IsNumber s) {c : Char} (hc : c ∈ s.toList) : c.isLower = false := by
  refine Bool.eq_false_iff.2 fun hlower => ?_
  have hascii : c.toNat < 128 := by
    have hz : c.toNat ≤ 122 := of_decide_eq_true (Bool.and_eq_true_iff.1 hlower).2
    omega
  have hletter : c.isLower = true → Text.isDigit c = false ∧ c ≠ '.' ∧ c ≠ '-' ∧ c ≠ '+' :=
    Text.forall_ascii c hascii (by decide +kernel)
  obtain ⟨hdigit, hpoint, hminus, hplus⟩ := hletter hlower
  simpa [hdigit, hpoint, hminus, hplus] using h.mem hc

end IsNumber

/-! ## Numbers with marks -/

/-- A word that is found to be a number with a mark behind it is one. -/
theorem numberBefore?_eq_some {marks : List (List Char)} {cs : List Char} {number : String}
    (h : numberBefore? marks cs = some number) :
    IsNumber number ∧ ∃ mark ∈ marks, cs = number.toList ++ mark := by
  unfold numberBefore? at h
  split at h
  · rename_i digits rest hsplit
    split at h
    · rename_i hmark
      cases h
      refine ⟨isNumber_of_splitNumber? hsplit, rest, by simpa using hmark, ?_⟩
      rw [String.toList_ofList, splitNumber?_append hsplit]
    · cases h
  · cases h

/-- A number with a mark behind it is found to be one. -/
theorem numberBefore?_append {marks : List (List Char)} {mark : List Char} {number : String}
    (h : IsNumber number) (hmark : mark ∈ marks) (hends : EndsNumber mark) :
    numberBefore? marks (number.toList ++ mark) = some number := by
  rw [numberBefore?, h.splitNumber?_append hends]
  simp [hmark]

/-- What is read as a number is all of the text. -/
theorem number?_eq_some {cs : List Char} {number : String} (h : number? cs = some number) :
    IsNumber number ∧ cs = number.toList := by
  obtain ⟨hnumber, mark, hmark, hcs⟩ := numberBefore?_eq_some h
  obtain rfl : mark = [] := by simpa using hmark
  exact ⟨hnumber, by rw [hcs, List.append_nil]⟩

/-- A number is read as itself. -/
theorem IsNumber.number?_toList {s : String} (h : IsNumber s) : number? s.toList = some s := by
  have hnumber : number? (s.toList ++ []) = some s :=
    numberBefore?_append h (by simp) (by simp [EndsNumber])
  rwa [List.append_nil] at hnumber

/-! ## Percentages -/

/-- The word is a percentage: a number, perhaps with `=` in front and `%` behind. -/
def IsPercentage (word number : String) : Prop :=
  IsNumber number ∧ ∃ front ∈ ["", "="], ∃ mark ∈ ["", "%"], word = front ++ number ++ mark

/-- A percentage starts with `=` or like a number. -/
theorem IsPercentage.exists_toList_eq_cons {word number : String} (h : IsPercentage word number) :
    ∃ c cs, word.toList = c :: cs ∧
      (c = '=' ∨ Text.isDigit c = true ∨ c = '.' ∨ c = '-' ∨ c = '+') := by
  obtain ⟨hnumber, front, hfront, mark, -, rfl⟩ := h
  obtain ⟨c, cs, hcs, hc⟩ := hnumber.exists_toList_eq_cons
  simp only [List.mem_cons, List.not_mem_nil, or_false] at hfront
  rcases hfront with rfl | rfl
  · exact ⟨c, cs ++ mark.toList, by simp [hcs], .inr hc⟩
  · exact ⟨'=', number.toList ++ mark.toList, by simp, .inl rfl⟩

/-- A percentage has a digit. -/
theorem IsPercentage.exists_isDigit {word number : String} (h : IsPercentage word number) :
    ∃ c ∈ word.toList, Text.isDigit c = true := by
  obtain ⟨hnumber, front, -, mark, -, rfl⟩ := h
  obtain ⟨c, hc, hdigit⟩ := hnumber.exists_isDigit
  exact ⟨c, by simp [hc], hdigit⟩

/-- The words that are read as percentages are those that are. -/
theorem percentage?_eq_some_iff {word number : String} :
    percentage? word.toList = some number ↔ IsPercentage word number := by
  have hmark {mark : String} (hmark : mark ∈ ["", "%"]) :
      mark.toList ∈ [[], ['%']] ∧ EndsNumber mark.toList := by
    simp only [List.mem_cons, List.not_mem_nil, or_false] at hmark
    rcases hmark with rfl | rfl
    · exact ⟨by simp, by simp [EndsNumber]⟩
    · exact ⟨by simp, by rintro c ⟨⟩; decide⟩
  have hword (front : String) {rest : List Char} (hfront : front ∈ ["", "="])
      (hcs : word.toList = front.toList ++ rest)
      (h : numberBefore? [[], ['%']] rest = some number) : IsPercentage word number := by
    obtain ⟨hnumber, mark, hmark, rfl⟩ := numberBefore?_eq_some h
    refine ⟨hnumber, front, hfront, .ofList mark, ?_, ?_⟩
    · simp only [List.mem_cons, List.not_mem_nil, or_false] at hmark
      rcases hmark with rfl | rfl <;> decide
    · apply String.toList_injective
      simp [hcs]
  constructor
  · intro h
    unfold percentage? at h
    split at h
    · rename_i rest heq
      exact hword "=" (by simp) (by simpa using heq) h
    · exact hword "" (by simp) (by simp) h
  · rintro ⟨hnumber, front, hfront, mark, hmem, rfl⟩
    obtain ⟨hlist, hends⟩ := hmark hmem
    have hread := numberBefore?_append hnumber hlist hends
    simp only [List.mem_cons, List.not_mem_nil, or_false] at hfront
    rcases hfront with rfl | rfl
    · -- a number does not start with `=`
      obtain ⟨c, cs, hcs, hc⟩ := hnumber.exists_toList_eq_cons
      have hne : c ≠ '=' := by
        rintro rfl
        revert hc
        decide
      rw [hcs] at hread
      simp only [String.toList_append, String.toList_empty, List.nil_append, hcs]
      unfold percentage?
      split
      · rename_i heq
        cases heq
        exact absurd rfl hne
      · exact hread
    · simpa [percentage?] using hread

end OrderTicket.Command
