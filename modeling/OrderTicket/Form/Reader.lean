import OrderTicket.Form.Problem
import OrderTicket.Payload.Json

/-!
# Reading forms

A form is a record of payloads with named fields. Each kind of field has a reader that accepts what
plainly means a value of that kind (a text of digits for an integer, say) and complains otherwise.
`Checked` puts fields together and keeps all problems in the order of the fields.

These readers make up the checkers that run. What is shown of forms elsewhere holds for any checker
that says why it refuses a form (`Form.Checker.Reports`).
-/

namespace OrderTicket.Form

/-- A value, or everything that is wrong with it. -/
def Checked (α : Type) : Type :=
  Except (List Problem) α

namespace Checked

variable {α β : Type}

/-- A value with nothing wrong. -/
def ok (x : α) : Checked α :=
  Except.ok x

/-- A value with problems. -/
def bad (problems : List Problem) : Checked α :=
  Except.error problems

/-- A function applied to a value; the problems of both are kept in order. -/
def ap (f : Checked (α → β)) (x : Checked α) : Checked β :=
  match f, x with
  | .ok f, .ok x => .ok (f x)
  | .ok _, .error ps => .error ps
  | .error ps, .ok _ => .error ps
  | .error ps, .error qs => .error (ps ++ qs)

/-- The outcome of one reader as the field of a name. -/
def named (name : String) (x : Except Complaint α) : Checked α :=
  x.mapError fun complaint => [⟨[name], complaint.message⟩]

/-- A value whose problems lie one level further in. -/
def within (name : String) (x : Checked α) : Checked α :=
  x.mapError (·.map (Problem.within name))

/-- Further problems behind those of a value. -/
def also (x : Checked α) (problems : List Problem) : Checked α :=
  match x with
  | .ok x => if problems.isEmpty then .ok x else .error problems
  | .error ps => .error (ps ++ problems)

end Checked

/-- A text. -/
def text : Payload → Except Complaint String
  | .text s => .ok s
  | _ => .error .notText

/-- A finite decimal number, from text or from any number. -/
def decimal : Payload → Except Complaint Decimal
  | .int i => .ok (Decimal.ofInt i)
  | .text s => finite s
  | .float x => finite x.text
  | _ => .error .notNumber
where
  /-- The finite number of a text. -/
  finite (s : String) : Except Complaint Decimal :=
    match Decimal.ofText s with
    | .ok x => if x.isFinite then .ok x else .error .notFinite
    | .error _ => .error .unreadableNumber

/-- Digits in which single underscores may stand between two digits. -/
def groupedDigits? (afterDigit : Bool) : List Char → Option (List Nat)
  | [] => if afterDigit then some [] else none
  | c :: rest =>
    if c.isDigit then (groupedDigits? true rest).map ((c.toNat - 48) :: ·)
    else if c == '_' && afterDigit then
      -- An underscore must be followed by a digit.
      groupedDigits? false rest
    else none

/-- A text without a point followed by zeros only at its end. -/
def dropZeroDecimals (cs : List Char) : List Char :=
  match cs.dropWhile (· != '.') with
  | '.' :: decimals => if decimals.all (· == '0') then cs.takeWhile (· != '.') else cs
  | _ => cs

/-- The integer that a text stands for: blanks around, a sign, digits, zeros behind a point. -/
def integerText (s : String) : Except Complaint Int :=
  let (negative, digits) := Decimal.readSign (Text.trimBy Text.isWhiteSpace s.toList)
  match groupedDigits? false (dropZeroDecimals digits) with
  | some ds =>
    if Integer.textLimit < ds.length then .error .integerTooLong
    else
      let magnitude := Digits.value ds
      .ok (if negative then -(magnitude : Int) else magnitude)
  | none => .error .unreadableInteger

/-- The least magnitude that is too large for an integer from a floating point number. -/
def floatIntegerLimit : Nat := 0x8000000000000000

/-- An integer, from an integer, a truth value, a float without decimals, or a text. -/
def integer : Payload → Except Complaint Int
  | .int i => .ok i
  | .bool b => .ok (if b then 1 else 0)
  | .text s => integerText s
  | .float (.finite n s e) =>
    match (Binary64.finite n s e).toInt? with
    | some i => if i.natAbs < floatIntegerLimit then .ok i else .error .integerTooLong
    | none => .error .fractional
  | .float _ => .error .notFinite
  | _ => .error .notInteger

/-- The words for true. -/
def trueWords : List String := ["1", "on", "t", "true", "y", "yes"]

/-- The words for false. -/
def falseWords : List String := ["0", "off", "f", "false", "n", "no"]

/-- A truth value, from a truth value, zero or one, or a word. -/
def boolean : Payload → Except Complaint Bool
  | .bool b => .ok b
  | .int i =>
    if i == 0 then .ok false else if i == 1 then .ok true else .error .unreadableBoolean
  | .text s =>
    let word := s.toLower
    if trueWords.contains word then .ok true
    else if falseWords.contains word then .ok false
    else .error .unreadableBoolean
  | .float x =>
    match x.toInt? with
    | some 0 => .ok false
    | some 1 => .ok true
    | _ => .error .notBoolean
  | _ => .error .notBoolean

/-- One of several named values. -/
def choice {α : Type} (options : List (String × α)) (x : Payload) : Except Complaint α :=
  match x with
  | .text s =>
    match options.find? (·.1 == s) with
    | some (_, value) => .ok value
    | none => .error (.notOneOf (options.map (·.1)))
  | _ => .error (.notOneOf (options.map (·.1)))

/-- Null, or what another reader accepts. -/
def optional {α : Type} (read : Payload → Except Complaint α) :
    Payload → Except Complaint (Option α)
  | .null => .ok none
  | x => (read x).map some

/-- The items of a list, problems named by position. -/
def itemsFrom {α : Type} (read : Payload → Except Complaint α) : Nat → List Payload →
    Checked (List α)
  | _, [] => .ok []
  | position, x :: xs =>
    ((Checked.ok List.cons).ap (.named (toString position) (read x))).ap
      (itemsFrom read (position + 1) xs)

/-- A list of values of one kind. -/
def listOf {α : Type} (read : Payload → Except Complaint α) : Payload → Checked (List α)
  | .list xs => itemsFrom read 0 xs
  | _ => .bad [⟨[], Complaint.notList.message⟩]

/-- A field that must be given. -/
def required {α : Type} (name : String) (read : Payload → Except Complaint α) (x : Option Payload) :
    Checked α :=
  match x with
  | some x => .named name (read x)
  | none => .bad [⟨[name], Complaint.missing.message⟩]

/-- A field with a value of its own for when it is not given. -/
def withDefault {α : Type} (name : String) (read : Payload → Except Complaint α) (standard : α)
    (x : Option Payload) : Checked α :=
  match x with
  | some x => .named name (read x)
  | none => .ok standard

/-- A list field with a value of its own for when it is not given. -/
def listWithDefault {α : Type} (name : String) (read : Payload → Except Complaint α)
    (standard : List α) (x : Option Payload) : Checked (List α) :=
  match x with
  | some x => (listOf read x).within name
  | none => .ok standard

/-- A complaint about every field whose name is not known, in order. -/
def unexpected (known : List String) (fields : List (String × Payload)) : List Problem :=
  (fields.filter fun field => !known.contains field.1).map fun field =>
    ⟨[field.1], Complaint.unexpected.message⟩

end OrderTicket.Form
