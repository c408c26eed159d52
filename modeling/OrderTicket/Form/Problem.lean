import OrderTicket.Payload.Basic

/-!
# Problems of a form

What can be wrong with a field of a form, and where. A form reports all its problems at once.

* `Form.Problem`: what is wrong at one place of a form.
* `Form.Checker`: what turns the fields of a form into a value, or into all that is wrong with them.
* `Form.Complaint`: the usual complaints about a value, in words.
-/

namespace OrderTicket.Form

/-- What is wrong with a value. -/
inductive Complaint where
  | missing
  | unexpected
  | notText
  | notNumber
  | unreadableNumber
  | notFinite
  | notInteger
  | fractional
  | unreadableInteger
  | integerTooLong
  | notBoolean
  | unreadableBoolean
  | notList
  | notRecord (name : String)
  | notOneOf (options : List String)
  | custom (text : String)
deriving DecidableEq, Repr

/-- The options of a choice as a phrase: quoted, with commas, the last after an "or". -/
def optionsPhrase : List String → String
  | [] => ""
  | [a] => "'" ++ a ++ "'"
  | [a, b] => "'" ++ a ++ "' or '" ++ b ++ "'"
  | a :: rest => "'" ++ a ++ "', " ++ optionsPhrase rest

/-- A complaint in words. -/
def Complaint.message : Complaint → String
  | missing => "Field required"
  | unexpected => "Extra inputs are not permitted"
  | notText => "Input should be a valid string"
  | notNumber => "Decimal input should be an integer, float, string or Decimal object"
  | unreadableNumber => "Input should be a valid decimal"
  | notFinite => "Input should be a finite number"
  | notInteger => "Input should be a valid integer"
  | fractional => "Input should be a valid integer, got a number with a fractional part"
  | unreadableInteger => "Input should be a valid integer, unable to parse string as an integer"
  | integerTooLong => "Unable to parse input string as an integer, exceeded maximum size"
  | notBoolean => "Input should be a valid boolean"
  | unreadableBoolean => "Input should be a valid boolean, unable to interpret input"
  | notList => "Input should be a valid list"
  | notRecord name => "Input should be a valid dictionary or instance of " ++ name
  | notOneOf options => "Input should be " ++ optionsPhrase options
  | custom text => "Value error, " ++ text

/-- What is wrong at one place of a form. -/
structure Problem where
  /-- The names and positions that lead to the place. -/
  path : List String
  /-- What is wrong there, in words. -/
  text : String
deriving DecidableEq, Repr

namespace Problem

/-- The place of a problem as text. -/
def place (problem : Problem) : String :=
  ".".intercalate problem.path

/-- A problem in words. -/
def message (problem : Problem) : String :=
  problem.place ++ ": " ++ problem.text

/-- The same problem, seen from one level further out. -/
def within (name : String) (problem : Problem) : Problem :=
  { problem with path := name :: problem.path }

end Problem

/-- A checker of forms: the value that the fields of a form stand for, or the problems of the
form. -/
abbrev Checker (α : Type) : Type :=
  List (String × Payload) → Except (List Problem) α

end OrderTicket.Form
