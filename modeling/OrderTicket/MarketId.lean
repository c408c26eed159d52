import OrderTicket.Payload.Basic

/-!
# Market identifiers

The identifier under which a venue publishes a market. It is a name, as far as the rest of the
library looks at it; a value of another kind in its place is carried along and names no market that
anybody could ask for.
-/

namespace OrderTicket

/-- The identifier of a market. -/
inductive MarketId where
  | name (text : String)
  | other (value : Payload)
deriving Repr, Inhabited

namespace MarketId

/-- The identifier that a payload stands for. -/
def ofPayload : Payload → MarketId
  | .text s => name s
  | x => other x

/-- The payload that an identifier came from. -/
def toPayload : MarketId → Payload
  | name s => .text s
  | other x => x

/-- The text of an identifier in a message. A name is its own text; a value in the place of a name
that has no text is left out. -/
def shown (id : MarketId) : String :=
  (id.toPayload.shown.toOption).getD ""

/-- Whether an identifier is a given name. -/
def isName (id : MarketId) (symbol : String) : Bool :=
  match id with
  | name s => s == symbol
  | other _ => false

/-- Whether two identifiers are the same entry of a table. -/
def same : MarketId → MarketId → Bool
  | name a, name b => a == b
  | other a, other b => a.sameAtom b
  | _, _ => false

@[simp]
theorem isName_iff {id : MarketId} {symbol : String} :
    id.isName symbol = true ↔ id = name symbol := by
  cases id <;> simp [isName]

/-- Names are the same entry if they are equal. -/
@[simp]
theorem same_name (a b : String) : (name a).same (name b) = (a == b) :=
  rfl

theorem toPayload_ofPayload (x : Payload) : (ofPayload x).toPayload = x := by
  cases x <;> rfl

end MarketId

end OrderTicket
