import OrderTicket.Log
import OrderTicket.Rules.Basic

/-!
# Registry of trading rules

The rules of all markets of a venue, in a table that is replaced as a whole. A reload builds the new
table at a place of its own and makes it the current one in a single assignment once it is complete.
A reader is given the place of the current table and may keep it. Lookups ignore case, as far as
upper-casing the symbol that is looked for does.

* `RuleTable.enter`: a table with the rules of one more market.
* `Registry.reload`: the registry with new rules, unless a market is listed twice.
* `Registry.find?`, `Registry.get`, `Registry.contains`: the rules of a market.
* `Registry.snapshot`: where the current table is.
* `Registry.step`, `Registry.run`: a registry at work.
-/

namespace OrderTicket

/-- The rules of markets, in the order in which they were entered. -/
structure RuleTable where
  /-- The entries, each under the identifier of its market. -/
  entries : List (MarketId × TradingRules) := []

namespace RuleTable

/-- Whether a market has an entry. -/
def has (table : RuleTable) (id : MarketId) : Bool :=
  table.entries.any (·.1.same id)

/-- The table with an entry set: in place if the market has one, else at the end. -/
def set (table : RuleTable) (id : MarketId) (rules : TradingRules) : RuleTable where
  entries :=
    if table.has id then
      table.entries.map fun entry => if entry.1.same id then (entry.1, rules) else entry
    else
      table.entries ++ [(id, rules)]

/-- The table with the rules of one more market. -/
def enter (table : RuleTable) (rules : TradingRules) : Except Failure RuleTable :=
  if !rules.symbol.toPayload.isAtom then .error .unusable
  else if table.has rules.symbol then .error (.duplicateSymbol rules.symbol)
  else .ok (table.set rules.symbol rules)

/-- The rules under a name. -/
def find? (table : RuleTable) (name : String) : Option TradingRules :=
  (table.entries.find? (·.1.isName name)).map (·.2)

/-- Whether there are rules under a name. -/
def contains (table : RuleTable) (name : String) : Bool :=
  table.entries.any (·.1.isName name)

/-- The number of markets. -/
def size (table : RuleTable) : Nat :=
  table.entries.length

/-- The markets, by name. -/
def symbols (table : RuleTable) : List MarketId :=
  (table.entries.map (·.1)).mergeSort fun a b => !(b.shown < a.shown)

end RuleTable

/-- A registry. The tables that it has built stay in memory; a reference to one is its position
there. -/
structure Registry where
  /-- The quote asset that the registry serves. -/
  quoteAsset : String := "USDT"
  /-- The tables, the latest last. -/
  tables : List RuleTable := [{}]
  /-- The reference to the current table. -/
  current : Nat := 0
  /-- The number of completed reloads. -/
  version : Nat := 0
  /-- The current table is one that was built. -/
  current_lt : current < tables.length := by decide

namespace Registry

/-- What happens to a registry. -/
inductive Event where
  | reloaded (version count previous : Nat)
deriving DecidableEq, Repr

/-- The log record of an event. -/
def Event.record : Event → Log.Record
  | reloaded version count previous =>
    { level := .info
      event := "filter_registry_reloaded"
      fields := [("version", .int version), ("symbol_count", .int count),
        ("previous_count", .int previous)] }

/-- What stands at a reference. -/
def read (registry : Registry) (reference : Nat) : RuleTable :=
  registry.tables.getD reference {}

/-- The current table. -/
def table (registry : Registry) : RuleTable :=
  registry.read registry.current

/-- Enters rules one after another into the table at a reference. What was entered before a failure
stays there. -/
def fill (reference : Nat) :
    List TradingRules → List RuleTable → Except Failure Unit × List RuleTable
  | [], tables => (.ok (), tables)
  | rules :: rest, tables =>
    match (tables.getD reference {}).enter rules with
    | .ok table => fill reference rest (tables.set reference table)
    | .error failure => (.error failure, tables)

/-- Filling a table neither builds another one nor drops one. -/
@[simp]
theorem length_fill (reference : Nat) (rules : List TradingRules) (tables : List RuleTable) :
    (fill reference rules tables).2.length = tables.length := by
  induction rules generalizing tables with
  | nil => rfl
  | cons first rest ih =>
    rw [fill]
    split
    · simp [ih]
    · rfl

/-- The registry with new rules, its version and what happened. The new table becomes the current
one when all rules are in it; after a failure nobody refers to it. -/
def reload (registry : Registry) (rules : List TradingRules) :
    Except Failure (Nat × Event) × Registry :=
  let reference := registry.tables.length
  let filled := fill reference rules (registry.tables ++ [{}])
  have built : reference < filled.2.length := by simp [filled, reference]
  match filled.1 with
  | .error failure =>
    (.error failure,
      { registry with tables := filled.2, current_lt := Nat.lt_trans registry.current_lt built })
  | .ok () =>
    let previous := registry.table.size
    let next : Registry :=
      { registry with
        tables := filled.2, current := reference, version := registry.version + 1,
        current_lt := built }
    (.ok (next.version, .reloaded next.version next.table.size previous), next)

/-- The rules of a market, if it has any. -/
def find? (registry : Registry) (symbol : String) : Option TradingRules :=
  registry.table.find? (Text.upper symbol)

/-- The rules of a market. -/
def get (registry : Registry) (symbol : String) : Except Failure TradingRules :=
  match registry.table.find? (Text.upper symbol) with
  | some rules => .ok rules
  | none => .error (.unknownSymbol symbol)

/-- Whether a value names a market that has rules. -/
def contains (registry : Registry) (key : Payload) : Bool :=
  match key with
  | .text symbol => registry.table.contains (Text.upper symbol)
  | _ => false

/-- The reference to the current table. -/
def snapshot (registry : Registry) : Nat :=
  registry.current

/-- What a registry is asked for. -/
inductive Request where
  | reload (rules : List TradingRules)
  | get (symbol : String)
  | find (symbol : String)
  | contains (key : Payload)
  | snapshot

/-- What a registry answers. -/
inductive Reply where
  | reloaded (version : Nat) (event : Event)
  | rules (rules : TradingRules)
  | found (rules : Option TradingRules)
  | contains (known : Bool)
  | snapshot (reference : Nat)

/-- One request. -/
def step (registry : Registry) (request : Request) : Except Failure Reply × Registry :=
  match request with
  | .reload rules =>
    let (outcome, next) := registry.reload rules
    (outcome.map fun (version, event) => .reloaded version event, next)
  | .get symbol => ((registry.get symbol).map .rules, registry)
  | .find symbol => (.ok (.found (registry.find? symbol)), registry)
  | .contains key => (.ok (.contains (registry.contains key)), registry)
  | .snapshot => (.ok (.snapshot registry.snapshot), registry)

/-- The registry after several requests. -/
def run (registry : Registry) (requests : List Request) : Registry :=
  requests.foldl (fun registry request => (registry.step request).2) registry

@[simp]
theorem run_nil (registry : Registry) : registry.run [] = registry :=
  rfl

theorem run_append (registry : Registry) (first later : List Request) :
    registry.run (first ++ later) = (registry.run first).run later := by
  simp [run, List.foldl_append]

end Registry

end OrderTicket
