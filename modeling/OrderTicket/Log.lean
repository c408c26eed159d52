import OrderTicket.Failure
import OrderTicket.Text.LetterCase

/-!
# Event log

Events are records with a level, a name and fields. A log has a least level and a format. In what is
written, decimal numbers stand without exponents, so that no digit is lost on the way to the reader
of the log; inside lists they are left to the format.

* `Log.Record`: an event.
* `Log.Setup`: the least level and the format of a log.
* `Log.Setup.written`: which events a log writes, and with which fields.
-/

namespace OrderTicket.Log

/-- How serious an event is. -/
inductive Level where
  | debug
  | info
  | warning
  | error
  | critical
deriving DecidableEq, Repr

/-- The name of a level. -/
def Level.name : Level → String
  | debug => "debug"
  | info => "info"
  | warning => "warning"
  | error => "error"
  | critical => "critical"

/-- The rank of a level. -/
def Level.rank : Level → Nat
  | debug => 10
  | info => 20
  | warning => 30
  | error => 40
  | critical => 50

/-- The level of a method that logs an event. -/
def Level.ofMethod? : String → Option Level
  | "debug" => some debug
  | "info" => some info
  | "warn" => some warning
  | "warning" => some warning
  | "error" => some error
  | "critical" => some critical
  | "fatal" => some critical
  | _ => none

/-- A value of a field. -/
inductive Value where
  | payload (value : Payload)
  | decimal (value : Decimal)
  | list (items : List Value)
  | record (fields : List (String × Value))
deriving Repr, Inhabited

/-- An event. -/
structure Record where
  /-- How serious it is. -/
  level : Level
  /-- What happened. -/
  event : String
  /-- The circumstances. -/
  fields : List (String × Payload) := []
deriving Repr

/-- A decimal field as plain text; other fields stay as they are. -/
def Value.plain : Value → Value
  | decimal x => payload (.text x.plain)
  | x => x

/-- Fields with decimal numbers as plain text. -/
def plainFields (fields : List (String × Value)) : List (String × Value) :=
  fields.map fun field => (field.1, field.2.plain)

mutual

/-- A field as it is written: decimal numbers that are left are shown as numbers of their kind. -/
def Value.written : Value → Payload
  | .payload x => x
  | .decimal x => .text ("Decimal('" ++ x.text ++ "')")
  | .list xs => .list (writtenItems xs)
  | .record fields => .object (writtenFields fields)

/-- The items of a list as they are written. -/
def writtenItems : List Value → List Payload
  | [] => []
  | x :: xs => x.written :: writtenItems xs

/-- The fields of a record as they are written. -/
def writtenFields : List (String × Value) → List (String × Payload)
  | [] => []
  | (name, x) :: fields => (name, x.written) :: writtenFields fields

end

/-- The form of a log's lines. -/
inductive Format where
  | json
  | console
deriving DecidableEq, Repr

/-- How a log is set up. -/
structure Setup where
  /-- The rank below which events are not written. -/
  least : Nat
  /-- The form of the lines. -/
  format : Format
deriving DecidableEq, Repr

/-- The rank that a level's name stands for, in any case; a name that is not known stands for that
of information. -/
def rankOf (name : String) : Except Failure Nat :=
  match Text.upper name with
  | "DEBUG" => .ok 10
  | "WARN" => .ok 30
  | "WARNING" => .ok 30
  | "ERROR" => .ok 40
  | "CRITICAL" => .ok 50
  | "FATAL" => .ok 50
  | "NOTSET" => .ok 0
  | "BASIC_FORMAT" => .error (.unknownLevel "%(levelname)s:%(name)s:%(message)s")
  | "_STYLES" => .error .unusable
  | _ => .ok 20

/-- The format that is asked for, in any case; without a wish the environment's, else the
console. -/
def formatOf (wish environment : Option String) : Format :=
  let name :=
    match wish with
    | some name => if name.isEmpty then environment.getD "console" else name
    | none => environment.getD "console"
  if Text.lower name == "json" then .json else .console

/-- Sets up a log. -/
def setup (level : String) (format environment : Option String) : Except Failure Setup :=
  (rankOf level).map fun least => ⟨least, formatOf format environment⟩

/-- An event that is logged. -/
structure Entry where
  /-- How serious it is. -/
  level : Level
  /-- What happened. -/
  event : String
  /-- The circumstances. -/
  fields : List (String × Value)
deriving Repr

/-- The fields of a written event: its own, and its name, level and logger. -/
def Entry.written (logger : String) (entry : Entry) : List (String × Payload) :=
  let fields := writtenFields (plainFields entry.fields)
  let fields := Payload.insert fields "event" (.text entry.event)
  let fields := Payload.insert fields "level" (.text entry.level.name)
  (Payload.insert fields "logger" (.text logger)).filter (·.1 != "timestamp")

/-- The events that are serious enough for a log, in order. -/
def Setup.kept (setup : Setup) (entries : List Entry) : List Entry :=
  entries.filter fun entry => setup.least ≤ entry.level.rank

/-- The events that a log writes, in order. -/
def Setup.written (setup : Setup) (logger : String) (entries : List Entry) :
    List (List (String × Payload)) :=
  (setup.kept entries).map (Entry.written logger)

/-- The number of lines that a log on a console writes: one for each event, and one more for each
line break in the name of an event. -/
def Setup.lineCount (setup : Setup) (entries : List Entry) : Nat :=
  (setup.kept entries).foldl (fun lines entry => lines + 1 + entry.event.toList.count '\n') 0

end OrderTicket.Log
