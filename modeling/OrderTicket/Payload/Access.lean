import OrderTicket.Failure
import OrderTicket.Payload.Json

/-!
# Access to payloads

Market data is used as it stands, so every look into a payload may meet a value of another kind.
Each operation says what it needs and fails by cause otherwise.

* `Payload.field?`, `Payload.field`: a field that may, or must, be there.
* `Payload.item`, `Payload.items`: an entry by position, all entries in turn.
* `Payload.number`: the decimal number that the text of a value stands for.
-/

namespace OrderTicket.Payload

/-- The fields of a record. -/
def entries : Payload → Except Failure (List (String × Payload))
  | object fields => .ok fields
  | _ => .error .notRecord

/-- A field of a record, if it has one of this name. -/
def field? (x : Payload) (name : String) : Except Failure (Option Payload) :=
  x.entries.map (lookup? · name)

/-- A field of a record that must be there. -/
def field (x : Payload) (name : String) : Except Failure Payload :=
  match x with
  | object fields =>
    match lookup? fields name with
    | some value => .ok value
    | none => .error (.missingField name)
  | _ => .error .unusable

/-- The entry of a list or the character of a text at a position. -/
def item (x : Payload) (position : Nat) : Except Failure Payload :=
  match x with
  | list xs =>
    match xs[position]? with
    | some value => .ok value
    | none => .error .tooShort
  | text s =>
    match s.toList[position]? with
    | some c => .ok (text (.singleton c))
    | none => .error .tooShort
  | object _ => .error (.missingEntry position)
  | _ => .error .unusable

/-- The entries of a list, the characters of a text, or the names of a record, in order. -/
def items : Payload → Except Failure (List Payload)
  | list xs => .ok xs
  | text s => .ok (s.toList.map fun c => text (.singleton c))
  | object fields => .ok (fields.map fun field => text field.1)
  | _ => .error .unusable

/-- Whether a text holds another one. -/
def holds (part : List Char) : List Char → Bool
  | [] => part.isEmpty
  | c :: rest => part.isPrefixOf (c :: rest) || holds part rest

/-- Whether a list has an entry, a text a part, or a record a field of this name. -/
def has (x : Payload) (name : String) : Except Failure Bool :=
  match x with
  | object fields => .ok (fields.any (·.1 == name))
  | list xs => .ok (xs.any (sameAtom (text name)))
  | text s => .ok (holds name.toList s.toList)
  | _ => .error .unusable

/-- The decimal number that the text of a value stands for. -/
def number (x : Payload) : Except Decimal.Fault Decimal := do
  Decimal.ofText (← x.shown)

end OrderTicket.Payload
