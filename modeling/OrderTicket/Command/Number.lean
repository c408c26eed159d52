import OrderTicket.Text.DecimalDigit

/-!
# Numbers in commands

The numbers that may be typed in a command: an optional sign and digits with an optional point, no
exponent. Around a number stand the marks of a term, such as the `%` of a percentage.

* `Command.splitNumber?`: the number at the front of a word and the rest of the word, which
  together are the word (`Command.splitNumber?_append`).
* `Command.number?`, `Command.percentage?`: a word that is a number, or a percentage, as a whole.
-/

namespace OrderTicket.Command

/-- A sign at the front, if there is one. -/
def splitSign : List Char → List Char × List Char
  | '-' :: rest => (['-'], rest)
  | '+' :: rest => (['+'], rest)
  | cs => ([], cs)

theorem splitSign_append (cs : List Char) : (splitSign cs).1 ++ (splitSign cs).2 = cs := by
  unfold splitSign
  split <;> rfl

/-- The digits at the front, with an optional point and more digits behind it; a number may also
start with its point. At least one digit is needed. -/
def splitUnsigned? (cs : List Char) : Option (List Char × List Char) :=
  let whole := cs.takeWhile Text.isDigit
  match cs.dropWhile Text.isDigit with
  | '.' :: rest =>
    let fraction := rest.takeWhile Text.isDigit
    if whole.isEmpty && fraction.isEmpty then none
    else some (whole ++ '.' :: fraction, rest.dropWhile Text.isDigit)
  | rest => if whole.isEmpty then none else some (whole, rest)

theorem splitUnsigned?_append {cs number rest : List Char}
    (h : splitUnsigned? cs = some (number, rest)) : number ++ rest = cs := by
  simp only [splitUnsigned?] at h
  have hcs := List.takeWhile_append_dropWhile (p := Text.isDigit) (l := cs)
  split at h
  · rename_i tail hpoint
    split at h
    · simp at h
    · simp only [Option.some.injEq, Prod.mk.injEq] at h
      obtain ⟨rfl, rfl⟩ := h
      rw [List.append_assoc, List.cons_append, List.takeWhile_append_dropWhile, ← hpoint, hcs]
  · split at h
    · simp at h
    · simp only [Option.some.injEq, Prod.mk.injEq] at h
      obtain ⟨rfl, rfl⟩ := h
      exact hcs

/-- The number at the front of a word, as long as possible, and the rest of the word. -/
def splitNumber? (cs : List Char) : Option (List Char × List Char) :=
  let (sign, rest) := splitSign cs
  (splitUnsigned? rest).map fun (digits, rest) => (sign ++ digits, rest)

/-- A number and the rest behind it make up the word. -/
theorem splitNumber?_append {cs number rest : List Char}
    (h : splitNumber? cs = some (number, rest)) : number ++ rest = cs := by
  simp only [splitNumber?, Option.map_eq_some_iff] at h
  obtain ⟨⟨digits, tail⟩, hdigits, heq⟩ := h
  simp only [Prod.mk.injEq] at heq
  obtain ⟨rfl, rfl⟩ := heq
  rw [List.append_assoc, splitUnsigned?_append hdigits, splitSign_append]

/-- The number at the front of a word whose rest is one of the given marks. -/
def numberBefore? (marks : List (List Char)) (cs : List Char) : Option String :=
  match splitNumber? cs with
  | some (number, rest) => if marks.contains rest then some (.ofList number) else none
  | none => none

/-- A word that is a number. -/
def number? (cs : List Char) : Option String :=
  numberBefore? [[]] cs

/-- A word that is a percentage: a number, perhaps with `=` in front and `%` behind. -/
def percentage? : List Char → Option String
  | '=' :: rest => numberBefore? [[], ['%']] rest
  | cs => numberBefore? [[], ['%']] cs

/-- What follows a keyword at the front of a word. -/
def afterKeyword? (keyword : String) (cs : List Char) : Option (List Char) :=
  if keyword.toList.isPrefixOf cs then some (cs.drop keyword.length) else none

/-- A percentage behind one of several keywords in the same word. -/
def percentageAfter? (keywords : List String) (cs : List Char) : Option String :=
  keywords.findSome? fun keyword => (afterKeyword? keyword cs).bind percentage?

end OrderTicket.Command
