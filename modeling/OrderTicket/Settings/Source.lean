import OrderTicket.Failure
import OrderTicket.Form.Reader
import OrderTicket.Text.LetterCase

/-!
# Where settings come from

A setting is taken from the values that are given directly, else from a variable of the environment
whose name is the family of the settings followed by the setting's name, in any case, else it has
its standard value. A variable that stands for a list holds it as JSON.

This is the source that runs. What is shown of orders and tickets holds for all settings, wherever
they come from.
-/

namespace OrderTicket.Settings

/-- The variables of the environment, in order. -/
abbrev Environment := List (String × String)

/-- What a group of settings is read from. -/
structure Source where
  /-- The values that are given directly. -/
  values : List (String × Payload) := []
  /-- The environment. -/
  environment : Environment := []
  /-- What the names of the group's variables start with. -/
  family : String := ""

namespace Source

/-- The variable of a setting; of several that differ in case the last counts. -/
def variableOf? (source : Source) (name : String) : Option String :=
  let wanted := Text.lower (source.family ++ name)
  (source.environment.reverse.find? fun entry => Text.lower entry.1 == wanted).map (·.2)

/-- The value of a plain setting, if it is given. -/
def plain? (source : Source) (name : String) : Option Payload :=
  (Payload.lookup? source.values name).or ((source.variableOf? name).map Payload.text)

/-- The variable of a setting that holds JSON; null means that nothing is set. -/
def jsonVariable? (source : Source) (name : String) : Except Failure (Option Payload) :=
  match source.variableOf? name with
  | none => .ok none
  | some text =>
    match Payload.ofJson? text with
    | some .null => .ok none
    | some x => .ok (some x)
    | none => .error (.unreadableSetting name)

/-- The value of a list setting, if it is given. A variable has to be JSON even if it is not
used. -/
def list? (source : Source) (name : String) : Except Failure (Option Payload) := do
  let stored ← source.jsonVariable? name
  return (Payload.lookup? source.values name).or stored

mutual

/-- The fields of one record put over those of another; records inside are merged in turn. -/
def mergeFields (under : List (String × Payload)) : List (String × Payload) →
    List (String × Payload)
  | [] => under
  | (name, x) :: rest =>
    mergeFields (Payload.insert under name (merge (Payload.lookup? under name) x)) rest

/-- A value put over another one. -/
def merge (under : Option Payload) : Payload → Payload
  | .object fields =>
    match under with
    | some (.object under) => .object (mergeFields under fields)
    | _ => .object fields
  | x => x

end

/-- Fields whose names are those of settings in any case, under the settings' own names. -/
def withNames (names : List String) (fields : List (String × Payload)) :
    List (String × Payload) :=
  fields.foldl (fun known (name, x) =>
    let wanted := Text.lower name
    Payload.insert known ((names.find? fun setting => Text.lower setting == wanted).getD name) x) []

/-- The value of a setting that is a group of its own, if it is given. In a variable the names of
the group's settings may be in any case. -/
def group? (source : Source) (name : String) (settings : List String) :
    Except Failure (Option Payload) := do
  let stored := (← source.jsonVariable? name).map fun
    | .object fields => .object (withNames settings fields)
    | x => x
  match Payload.lookup? source.values name with
  | none => return stored
  | some x => return some (merge stored x)

end Source

/-- The value of a checked form. -/
def settle {α : Type} : Form.Checked α → Except Failure α
  | .ok x => .ok x
  | .error problems => .error (.badForm problems)

end OrderTicket.Settings
