import OrderTicket.Binary64
import OrderTicket.Integer
import OrderTicket.Text.Quoted

/-!
# Payloads

A payload is a value as it arrives from outside: market metadata, order book depth, the fields of a
form, a setting. Objects keep their fields in the order of arrival and hold each name once.

* `Payload.lookup?`: the field of an object.
* `Payload.shown`: the text of a value in a message; texts stand as they are.
* `Payload.quoted`: the text of a value inside another one; texts stand between quotes.
-/

namespace OrderTicket

/-- A value from outside. -/
inductive Payload where
  | null
  | bool (value : Bool)
  | int (value : Int)
  | float (value : Binary64)
  | text (value : String)
  | list (items : List Payload)
  | object (fields : List (String × Payload))
deriving Repr, Inhabited

namespace Payload

instance : Coe String Payload := ⟨text⟩

/-- The value of the first field of a name. -/
def lookup? (fields : List (String × Payload)) (name : String) : Option Payload :=
  (fields.find? (·.1 == name)).map (·.2)

/-- Fields with a name set to a value: in place if the name is known, else at the end. -/
def insert (fields : List (String × Payload)) (name : String) (value : Payload) :
    List (String × Payload) :=
  if fields.any (·.1 == name) then
    fields.map fun field => if field.1 == name then (name, value) else field
  else
    fields ++ [(name, value)]

/-- A field that was set has the value that it was set to. -/
theorem lookup?_insert_self (fields : List (String × Payload)) (name : String) (value : Payload) :
    lookup? (insert fields name value) name = some value := by
  unfold insert
  split
  · rename_i h
    induction fields with
    | nil => simp at h
    | cons field fields ih =>
      by_cases hf : field.1 = name
      · simp [lookup?, hf]
      · simpa [lookup?, hf] using ih (by simpa [hf] using h)
  · rename_i h
    have hnone : fields.find? (·.1 == name) = none :=
      List.find?_eq_none.2 fun field hfield hname => h (List.any_eq_true.2 ⟨field, hfield, hname⟩)
    simp [lookup?, List.find?_append, hnone]

/-- Setting a field leaves the others as they were. -/
theorem lookup?_insert_of_ne (fields : List (String × Payload)) {name other : String}
    (value : Payload) (h : other ≠ name) :
    lookup? (insert fields name value) other = lookup? fields other := by
  unfold insert
  split
  · rename_i hany
    clear hany
    induction fields with
    | nil => rfl
    | cons field fields ih =>
      by_cases hf : field.1 = name
      · have hother : ¬ field.1 = other := fun e => h (e ▸ hf)
        simpa [lookup?, hf, hother, Ne.symm h] using ih
      · by_cases ho : field.1 = other
        · simp [lookup?, ho, h]
        · simpa [lookup?, hf, ho] using ih
  · simp [lookup?, List.find?_append, Ne.symm h]

/-- Whether a value counts as given: not null, false, zero or empty. -/
def isGiven : Payload → Bool
  | null => false
  | bool b => b
  | int i => i != 0
  | float x => !x.isZero
  | text s => !s.isEmpty
  | list xs => !xs.isEmpty
  | object fs => !fs.isEmpty

/-- Whether a value may name an entry of a table; lists and objects may not. -/
def isAtom : Payload → Bool
  | list _ => false
  | object _ => false
  | _ => true

/-- An atom as a key: whole numbers count by value, and true and false as one and zero. -/
def key : Payload → Payload
  | bool b => int (b.toNat : Int)
  | float x =>
    match x.toInt? with
    | some i => int i
    | none => float x
  | x => x

/-- Whether two atoms have the same value; no NaN has. -/
def sameAtom (a b : Payload) : Bool :=
  match a.key, b.key with
  | null, null => true
  | int a, int b => a == b
  | float a, float b => a == b && a != .nan
  | text a, text b => a == b
  | _, _ => false

mutual

/-- The text of a value inside another one. It has none if an integer in it has none. -/
def quoted : Payload → Except Decimal.Fault String
  | null => .ok "None"
  | bool b => .ok (if b then "True" else "False")
  | int i => Integer.text i
  | float x => .ok x.text
  | text s => .ok (Text.quoted s)
  | list xs => return "[" ++ ", ".intercalate (← quotedItems xs) ++ "]"
  | object fs => return "\x7b" ++ ", ".intercalate (← quotedFields fs) ++ "\x7d"

/-- The texts of the items of a list. -/
def quotedItems : List Payload → Except Decimal.Fault (List String)
  | [] => .ok []
  | x :: xs => return (← x.quoted) :: (← quotedItems xs)

/-- The texts of the fields of an object. -/
def quotedFields : List (String × Payload) → Except Decimal.Fault (List String)
  | [] => .ok []
  | (name, x) :: fs => return (Text.quoted name ++ ": " ++ (← x.quoted)) :: (← quotedFields fs)

end

/-- The text of a value in a message. -/
def shown : Payload → Except Decimal.Fault String
  | text s => .ok s
  | x => x.quoted

end Payload

end OrderTicket
