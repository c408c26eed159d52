import OrderTicket.Text.Blank
import OrderTicket.Text.LetterCase

/-!
# Words of a text that was put together

This module shows that a text made of words with a blank between them has these words again, and
that lower case letters, digits and marks of ASCII have themselves as their lower case.

* `Text.forall_ascii`: properties of characters of ASCII, from their codes.
* `Text.words_intercalate`: the words of several texts with blanks between them.
* `Text.words_of_not_isBlank`: a text without blanks is one word.
* `Text.lower_eq_self`: texts that are in lower case already.
-/

namespace OrderTicket.Text

/-! ## Characters of ASCII -/

/-- A character of ASCII has a property that the characters with codes below 128 have. -/
@[elab_as_elim]
theorem forall_ascii {P : Char → Prop} (c : Char) (hc : c.toNat < 128)
    (h : ∀ n < 128, P (Char.ofNat n)) : P c := by
  rw [← Char.ofNat_toNat c]
  exact h c.toNat hc

theorem toNat_of_isDigit {c : Char} (h : c.isDigit = true) : 48 ≤ c.toNat ∧ c.toNat ≤ 57 :=
  Char.isDigit_iff_toNat.1 h

theorem toNat_of_isUpper {c : Char} (h : c.isUpper = true) : 65 ≤ c.toNat ∧ c.toNat ≤ 90 :=
  of_decide_eq_true h

/-- A visible character of ASCII is not blank. -/
theorem not_isBlank_of_visible {c : Char} (hlow : 33 ≤ c.toNat) (hhigh : c.toNat < 127) :
    isBlank c = false := by
  simp only [isBlank, isWhiteSpace]
  rw [if_pos (by omega)]
  simp
  omega

/-- A character of ASCII that is no capital letter. -/
def IsLow (c : Char) : Prop :=
  c.toNat < 128 ∧ (c.toNat < 65 ∨ 90 < c.toNat)

instance (c : Char) : Decidable (IsLow c) :=
  inferInstanceAs (Decidable (_ ∧ _))

theorem isLow_of_isDigit {c : Char} (h : c.isDigit = true) : IsLow c := by
  obtain ⟨-, hhigh⟩ := toNat_of_isDigit h
  exact ⟨by omega, .inl (by omega)⟩

theorem toLower_of_isLow {c : Char} (h : IsLow c) : c.toLower = c := by
  obtain ⟨-, hlow⟩ := h
  refine dif_neg ?_
  rintro ⟨hA, hZ⟩
  have hlow' : 65 ≤ c.toNat := hA
  have hhigh' : c.toNat ≤ 90 := hZ
  omega

/-! ## Splitting -/

/-- Characters with a property are split off in front of one without it. -/
theorem takeWhile_append_of_head {p : Char → Bool} {cs rest : List Char}
    (hcs : ∀ c ∈ cs, p c = true) (hrest : ∀ c, rest.head? = some c → p c = false) :
    (cs ++ rest).takeWhile p = cs ∧ (cs ++ rest).dropWhile p = rest := by
  rw [List.takeWhile_append_of_pos hcs, List.dropWhile_append_of_pos hcs]
  cases rest with
  | nil => simp
  | cons c rest => simp [hrest c rfl]

/-! ## Words -/

/-- A blank ends a word, whatever has been read of it. -/
theorem wordsFrom_append_blank {b : Char} (hb : isBlank b = true) (word front back : List Char) :
    wordsFrom word (front ++ b :: back) = wordsFrom word front ++ wordsFrom [] back := by
  -- on the characters in front of the blank; what has been read of a word goes along
  induction front generalizing word with
  | nil =>
    simp only [List.nil_append, wordsFrom, if_pos hb]
    split <;> simp
  | cons c front ih =>
    rw [List.cons_append, wordsFrom, wordsFrom, ih, ih]
    split
    · split <;> simp
    · rfl

/-- The words of two texts with a blank between them are the words of each. -/
theorem words_append_blank (front back : String) :
    words (front ++ " " ++ back) = words front ++ words back := by
  have h := wordsFrom_append_blank (b := ' ') (by decide) [] front.toList back.toList
  simp only [words, String.toList_append]
  rw [List.append_assoc, ← List.map_append, ← h]
  rfl

/-- The words of texts with blanks between them are the words of the texts. -/
theorem words_intercalate (texts : List String) :
    words (" ".intercalate texts) = texts.flatMap words := by
  induction texts with
  | nil => simp [words_empty]
  | cons text texts ih =>
    cases texts with
    | nil => simp
    | cons next texts =>
      rw [String.intercalate_cons_cons, words_append_blank, ih]
      rfl

/-- Characters that are not blank are added to the word. -/
theorem wordsFrom_of_not_isBlank {word cs : List Char} (h : ∀ c ∈ cs, isBlank c = false)
    (hne : word ≠ [] ∨ cs ≠ []) : wordsFrom word cs = [word.reverse ++ cs] := by
  induction cs generalizing word with
  | nil =>
    have hword : word ≠ [] := hne.resolve_right (by simp)
    simp [wordsFrom, hword]
  | cons c cs ih =>
    have hc : ¬ isBlank c = true := by simp [h c List.mem_cons_self]
    rw [wordsFrom, if_neg hc, ih (fun d hd => h d (List.mem_cons_of_mem _ hd)) (.inl (by simp))]
    simp

/-- A text without blanks is one word. -/
theorem words_of_not_isBlank {text : String} (hne : text ≠ "")
    (h : ∀ c ∈ text.toList, isBlank c = false) : words text = [text] := by
  rw [words, wordsFrom_of_not_isBlank h (.inr (by simpa using hne))]
  simp

/-! ## Lower case -/

/-- A character in lower case is its own lower case. -/
theorem lowerChar_of_isLow {c : Char} (h : IsLow c) : lowerChar c = [c] := by
  rw [lowerChar, if_pos h.1, toLower_of_isLow h]

/-- Characters in lower case are their own lower case, whatever stands before them. -/
theorem lowerFrom_of_isLow {before cs : List Char} (h : ∀ c ∈ cs, IsLow c) :
    lowerFrom before cs = cs := by
  induction cs generalizing before with
  | nil => rfl
  | cons c cs ih =>
    have hc := h c List.mem_cons_self
    -- a capital sigma, whose lower case depends on its place, is not of ASCII
    have hsigma : ¬ (c == 'Σ') = true := by
      intro heq
      rw [beq_iff_eq] at heq
      subst heq
      exact absurd hc (by decide)
    rw [lowerFrom, if_neg hsigma, lowerChar_of_isLow hc,
      ih fun d hd => h d (List.mem_cons_of_mem _ hd)]
    rfl

/-- A text without capital letters, all of ASCII, is its own lower case. -/
theorem lower_eq_self {text : String} (h : ∀ c ∈ text.toList, IsLow c) : lower text = text := by
  rw [lower, lowerFrom_of_isLow h, String.ofList_toList]

end OrderTicket.Text
