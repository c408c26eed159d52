/-!
# Blank characters

What separates the words of a text. Two sets are in use: the blanks that cut a text into words,
and the slightly smaller white space of Unicode, which leaves out the four information separators.

* `trim`: a text without the blanks at its two ends.
* `words`: the maximal runs of other characters, in order. Words have no blanks
  (`not_isBlank_of_mem_words`), and only blanks lie between them (`flatten_wordsFrom`).
-/

namespace OrderTicket.Text

/-- The white space of Unicode (property `White_Space`). -/
def isWhiteSpace (c : Char) : Bool :=
  let code := c.toNat
  if code < 128 then
    (9 ≤ code && code ≤ 13) || code == 32
  else
    code == 0x85 || code == 0xA0 || code == 0x1680 || (0x2000 ≤ code && code ≤ 0x200A) ||
      code == 0x2028 || code == 0x2029 || code == 0x202F || code == 0x205F || code == 0x3000

/-- Blanks: white space and the information separators U+001C to U+001F. -/
def isBlank (c : Char) : Bool :=
  isWhiteSpace c || (28 ≤ c.toNat && c.toNat ≤ 31)

/-- The characters between the first and the last one that is not in the class `blank`. -/
def trimBy (blank : Char → Bool) (cs : List Char) : List Char :=
  ((cs.dropWhile blank).reverse.dropWhile blank).reverse

/-- A text without the blanks at its two ends. -/
def trim (s : String) : String :=
  .ofList (trimBy isBlank s.toList)

/-- Cuts characters into words; `word` holds, last first, what has been read of the current one. -/
def wordsFrom (word : List Char) : List Char → List (List Char)
  | [] => if word.isEmpty then [] else [word.reverse]
  | c :: rest =>
    if isBlank c then
      if word.isEmpty then wordsFrom [] rest else word.reverse :: wordsFrom [] rest
    else
      wordsFrom (c :: word) rest

/-- The words of a text: its maximal runs of characters that are not blank, in order. -/
def words (s : String) : List String :=
  (wordsFrom [] s.toList).map String.ofList

theorem words_empty : words "" = [] := by
  decide +kernel

/-- Nothing but blanks is lost between the words. -/
theorem flatten_wordsFrom (word cs : List Char) :
    (wordsFrom word cs).flatten = word.reverse ++ cs.filter (!isBlank ·) := by
  induction cs generalizing word with
  | nil => cases word <;> simp [wordsFrom]
  | cons c rest ih =>
    by_cases hc : isBlank c = true
    · cases word <;> simp [wordsFrom, hc, ih]
    · simp [wordsFrom, hc, ih]

/-- A word has at least one character, and none that is blank. -/
theorem of_mem_wordsFrom {word cs w : List Char} (hword : ∀ c ∈ word, isBlank c = false)
    (hw : w ∈ wordsFrom word cs) : w ≠ [] ∧ ∀ c ∈ w, isBlank c = false := by
  -- on the characters; the word that is being read has no blank so far
  induction cs generalizing word with
  | nil =>
    cases word with
    | nil => simp [wordsFrom] at hw
    | cons d word =>
      obtain rfl : w = (d :: word).reverse := by simpa [wordsFrom] using hw
      exact ⟨by simp, fun c hc => hword c (List.mem_reverse.1 hc)⟩
  | cons c rest ih =>
    by_cases hc : isBlank c = true
    · have hnil : ∀ d ∈ ([] : List Char), isBlank d = false := nofun
      cases word with
      | nil => exact ih hnil (by simpa [wordsFrom, hc] using hw)
      | cons d word =>
        rw [wordsFrom, if_pos hc, if_neg (by simp), List.mem_cons] at hw
        rcases hw with rfl | hw
        · exact ⟨by simp, fun c hc => hword c (List.mem_reverse.1 hc)⟩
        · exact ih hnil hw
    · rw [wordsFrom, if_neg hc] at hw
      exact ih (by simpa [hc] using hword) hw

theorem of_mem_wordsFrom_nil {cs w : List Char} (hw : w ∈ wordsFrom [] cs) :
    w ≠ [] ∧ ∀ c ∈ w, isBlank c = false := by
  have hnil : ∀ d ∈ ([] : List Char), isBlank d = false := nofun
  exact of_mem_wordsFrom hnil hw

theorem not_isBlank_of_mem_words {s w : String} (hw : w ∈ words s) {c : Char}
    (hc : c ∈ w.toList) : isBlank c = false := by
  obtain ⟨cs, hcs, rfl⟩ := List.mem_map.1 hw
  exact (of_mem_wordsFrom_nil hcs).2 c (by simpa using hc)

theorem ne_empty_of_mem_words {s w : String} (hw : w ∈ words s) : w ≠ "" := by
  obtain ⟨cs, hcs, rfl⟩ := List.mem_map.1 hw
  simpa using (of_mem_wordsFrom_nil hcs).1

end OrderTicket.Text
