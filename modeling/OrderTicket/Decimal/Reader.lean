import OrderTicket.Decimal.Basic
import OrderTicket.Text.Blank
import OrderTicket.Text.DecimalDigit

/-!
# Reading decimal text

`Decimal.ofText` reads a number exactly: blanks around it and underscores anywhere are ignored,
digits may be of any script, and every digit is kept whatever the precision of arithmetic is.
`Decimal.readDigits_text` reads back the digits that `Digits.text` writes.
-/

namespace OrderTicket.Decimal

-- Powers are those of core, also where a library brings in powers in monoids.
attribute [local instance (2000)] instPowNat

/-- The largest exponent that a number can have at all. -/
def exponentLimit : Int := 999999999999999999

/-- A leading sign and what follows it. -/
def readSign : List Char → Bool × List Char
  | '-' :: rest => (true, rest)
  | '+' :: rest => (false, rest)
  | cs => (false, cs)

/-- The leading digits, as numbers, and what follows them. -/
def readDigits (cs : List Char) : List Nat × List Char :=
  ((cs.takeWhile Text.isDigit).filterMap Text.digitValue?, cs.dropWhile Text.isDigit)

theorem isDigit_of_mem_shortText {width n : Nat} {c : Char}
    (h : c ∈ Digits.shortText width n []) : Text.isDigit c = true := by
  induction width generalizing n with
  | zero => simp [Digits.shortText] at h
  | succ width ih =>
    rw [Digits.shortText_succ, List.mem_append, List.mem_singleton] at h
    rcases h with h | rfl
    · exact ih h
    · simp [Text.isDigit, Text.digitValue?_digitChar (Nat.mod_lt n (by decide))]

theorem shortValue_shortText {width n : Nat} (h : n < 10 ^ width) :
    Digits.shortValue ((Digits.shortText width n []).filterMap Text.digitValue?) = n := by
  induction width generalizing n with
  | zero =>
    obtain rfl : n = 0 := by simpa using h
    rfl
  | succ width ih =>
    have hrest : n / 10 < 10 ^ width := by
      rw [Nat.pow_succ] at h
      exact Nat.div_lt_of_lt_mul (by rwa [Nat.mul_comm])
    rw [Digits.shortText_succ, List.filterMap_append, Digits.shortValue_append, ih hrest]
    simp only [List.filterMap_cons, Text.digitValue?_digitChar (Nat.mod_lt n (by decide : 0 < 10)),
      List.filterMap_nil, Digits.shortValue, List.length_singleton, List.foldl_cons, List.foldl_nil]
    omega

/-- Reading the digits of a number gives the number back, whatever follows that is no digit. -/
theorem readDigits_text (n : Nat) {rest : List Char}
    (hrest : ∀ c, rest.head? = some c → Text.isDigit c = false) :
    ∃ ds, readDigits (Digits.text n ++ rest) = (ds, rest) ∧ Digits.value ds = n := by
  refine ⟨(Digits.text n).filterMap Text.digitValue?, ?_, ?_⟩
  · have hall : ∀ c ∈ Digits.text n, Text.isDigit c = true := by
      intro c hc
      rw [Digits.text_eq] at hc
      exact isDigit_of_mem_shortText hc
    have htake : rest.takeWhile Text.isDigit = [] := by
      cases rest with
      | nil => rfl
      | cons c rest => simp [hrest c rfl]
    have hdrop : rest.dropWhile Text.isDigit = rest := by
      cases rest with
      | nil => rfl
      | cons c rest => simp [hrest c rfl]
    rw [readDigits, List.takeWhile_append_of_pos hall, List.dropWhile_append_of_pos hall, htake,
      hdrop, List.append_nil]
  · rw [Digits.value_eq, Digits.text_eq, shortValue_shortText (Digits.lt_pow_count n)]

/-- A word of ASCII letters in any case at the front of a text, and what follows it. -/
def readWord? : List Char → List Char → Option (List Char)
  | [], rest => some rest
  | _ :: _, [] => none
  | w :: word, c :: rest => if c.toLower = w then readWord? word rest else none

/-- The whole rest of a text as digits. -/
def readPayload? (cs : List Char) : Option Nat :=
  match readDigits cs with
  | (ds, []) => some (Digits.value ds)
  | _ => none

/-- An infinity or a NaN. -/
def readSpecial? (negative : Bool) (cs : List Char) : Option Decimal :=
  if readWord? "inf".toList cs = some [] ∨ readWord? "infinity".toList cs = some [] then
    some (infinity negative)
  else
    match readWord? "nan".toList cs, readWord? "snan".toList cs with
    | some payload, _ => (readPayload? payload).map (nan negative false)
    | none, some payload => (readPayload? payload).map (nan negative true)
    | none, none => none

/-- The decimals after a point, if there is one. -/
def readFraction : List Char → List Nat × List Char
  | '.' :: rest => readDigits rest
  | cs => ([], cs)

/-- The exponent at the end of a text; no exponent is the exponent zero. -/
def readExponent? : List Char → Option Int
  | [] => some 0
  | c :: rest =>
    if c = 'e' ∨ c = 'E' then
      let (negative, rest) := readSign rest
      match readDigits rest with
      | (d :: ds, []) =>
        let magnitude := Digits.value (d :: ds)
        some (if negative then -(magnitude : Int) else magnitude)
      | _ => none
    else none

/-- A number with an exponent beyond all limits cannot be held. -/
def checked (negative : Bool) (coefficient : Nat) (exponent : Int) : Except Fault Decimal :=
  let leading := if coefficient = 0 then exponent else adjusted coefficient exponent
  if exponentLimit < leading ∨ exponent < -(2 * exponentLimit - 1) then .error .invalidOperation
  else .ok (finite negative coefficient exponent)

/-- Digits, decimals and exponent of a finite number. -/
def readFinite (negative : Bool) (cs : List Char) : Except Fault Decimal :=
  let (whole, rest) := readDigits cs
  let (fraction, rest) := readFraction rest
  if whole.isEmpty ∧ fraction.isEmpty then .error .conversionSyntax
  else
    match readExponent? rest with
    | none => .error .conversionSyntax
    | some exponent =>
      checked negative (Digits.value (whole ++ fraction)) (exponent - fraction.length)

/-- The number that a text stands for. -/
def ofText (s : String) : Except Fault Decimal :=
  let (negative, rest) := readSign ((Text.trimBy Text.isBlank s.toList).filter (· ≠ '_'))
  match readSpecial? negative rest with
  | some x => .ok x
  | none => readFinite negative rest

/-- The finite number that a text stands for, if it does. -/
def ofText? (s : String) : Option Decimal :=
  match ofText s with
  | .ok x => if x.isFinite then some x else none
  | .error _ => none

end OrderTicket.Decimal
