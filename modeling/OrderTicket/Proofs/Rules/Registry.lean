import Mathlib.Data.List.GetD
import Mathlib.Data.List.Induction
import Mathlib.Data.List.Pairwise
import OrderTicket.Proofs.Run
import OrderTicket.Rules.Registry

/-!
# The registry as a state machine

A registry is told by what it was asked for: its table is that of the last reload that completed,
and its version counts those reloads. A reload works at the end of the memory, at a place that
nobody has a reference to yet, so it can neither change a table that was handed out nor leave half
of a list in the current one.

* `RuleTable.Distinct`: lists in which every market stands once, and `RuleTable.ofList`, their
  tables (`RuleTable.find?_ofList`).
* `Registry.fill_of_distinct`, `Registry.fill_of_not_distinct`: what a reload builds.
* `Registry.reload_of_distinct`, `Registry.reload_of_not_distinct`: how it ends.
* `Registry.read_run`: what a reference leads to stays the same.
* `Registry.table_run`, `Registry.version_run`: the history of the current table.
* `Registry.follows_run`: all of it, for every sequence of requests.
-/

namespace OrderTicket

/-! ## Tables of lists -/

namespace RuleTable

variable {known rules earlier : List TradingRules} {next first : TradingRules}

/-- A list that a table can be made of: each identifier may be the key of an entry, and no two are
the same key. -/
def Distinct (rules : List TradingRules) : Prop :=
  (∀ market ∈ rules, market.symbol.toPayload.isAtom) ∧
    rules.Pairwise fun earlier later => earlier.symbol.same later.symbol = false

instance (rules : List TradingRules) : Decidable (Distinct rules) :=
  inferInstanceAs (Decidable (_ ∧ _))

/-- The table with the rules of a list, each under its own market. -/
def ofList (rules : List TradingRules) : RuleTable where
  entries := rules.map fun market => (market.symbol, market)

/-- A table has the identifiers of the rules that it was made of. -/
@[simp]
theorem has_ofList (id : MarketId) :
    (ofList rules).has id = rules.any (·.symbol.same id) := by
  simp [ofList, has, List.any_map, Function.comp_def]

theorem Distinct.nil : Distinct [] := by
  simp [Distinct]

theorem Distinct.of_append (h : Distinct (known ++ rules)) : Distinct known :=
  ⟨fun market hmarket => h.1 market (List.mem_append_left _ hmarket),
    (List.pairwise_append.1 h.2).1⟩

/-- A list grows by a market that may be a key and is not one yet. -/
theorem distinct_concat :
    Distinct (known ++ [next]) ↔
      Distinct known ∧ next.symbol.toPayload.isAtom ∧ (ofList known).has next.symbol = false := by
  simp only [Distinct, List.forall_mem_append, List.pairwise_append, List.mem_singleton, forall_eq,
    List.pairwise_singleton, true_and, has_ofList, List.any_eq_false, Bool.not_eq_true]
  exact and_and_and_comm

/-- The identifiers of a list are names. -/
def Named (rules : List TradingRules) : Prop :=
  ∀ market ∈ rules, ∃ name, market.symbol = .name name

/-- A name may be a key. -/
theorem Named.isAtom (hnames : Named rules) {market : TradingRules} (hmarket : market ∈ rules) :
    market.symbol.toPayload.isAtom := by
  obtain ⟨name, hname⟩ := hnames market hmarket
  rw [hname]
  rfl

/-- Where all identifiers are names, no two of them are equal. -/
theorem Named.distinct_iff (hnames : Named rules) :
    Distinct rules ↔ (rules.map (·.symbol)).Nodup := by
  simp only [Distinct, List.Nodup, List.pairwise_map]
  refine (and_iff_right fun _ => hnames.isAtom).trans
    (List.Pairwise.iff_of_mem fun {a b} ha hb => ?_)
  obtain ⟨x, hx⟩ := hnames a ha
  obtain ⟨y, hy⟩ := hnames b hb
  simp [hx, hy]

/-- A market that is new to a table is entered at its end. -/
theorem enter_of_distinct (h : Distinct (known ++ [next])) :
    (ofList known).enter next = .ok (ofList (known ++ [next])) := by
  obtain ⟨-, hatom, hnew⟩ := distinct_concat.1 h
  rw [enter, hnew, set, hnew]
  simp [hatom, ofList]

/-- A market that cannot be entered has an identifier that is no key, or one that is already
there. -/
theorem enter_of_not_distinct (hknown : Distinct known) (h : ¬ Distinct (known ++ [next])) :
    (¬ next.symbol.toPayload.isAtom ∧ (ofList known).enter next = .error .unusable) ∨
      ((∃ market ∈ known, market.symbol.same next.symbol) ∧
        (ofList known).enter next = .error (.duplicateSymbol next.symbol)) := by
  by_cases hatom : next.symbol.toPayload.isAtom
  · have hhas : (ofList known).has next.symbol = true := by
      by_contra hnew
      exact h (distinct_concat.2 ⟨hknown, hatom, by simpa using hnew⟩)
    exact .inr ⟨by simpa using hhas, by rw [enter, hhas]; simp [hatom]⟩
  · exact .inl ⟨hatom, by simp [enter, hatom]⟩

/-- A list of distinct markets has one market of each name. -/
theorem Distinct.eq_of_name (h : Distinct rules) {a b : TradingRules} {name : String}
    (ha : a ∈ rules) (hb : b ∈ rules) (haname : a.symbol = .name name)
    (hbname : b.symbol = .name name) : a = b := by
  -- two entries of one name would be the same key
  have hpairwise :
      rules.Pairwise fun x y => ¬ (x.symbol = .name name ∧ y.symbol = .name name) := by
    refine h.2.imp fun {x y} hsame hboth => ?_
    simp [hboth.1, hboth.2] at hsame
  have : Std.Symm fun x y : TradingRules => ¬ (x.symbol = .name name ∧ y.symbol = .name name) :=
    ⟨fun _ _ hnot hboth => hnot hboth.symm⟩
  by_contra hne
  exact hpairwise.forall ha hb hne ⟨haname, hbname⟩

/-- The table of a list has the rules of each market under its name and nothing else. -/
theorem find?_ofList (h : Distinct rules) (name : String) :
    (ofList rules).find? name = some next ↔ next ∈ rules ∧ next.symbol = .name name := by
  have hfind : (ofList rules).find? name = rules.find? (·.symbol.isName name) := by
    simp [find?, ofList, List.find?_map, Function.comp_def]
  rw [hfind]
  constructor
  · intro hnext
    exact ⟨List.mem_of_find?_eq_some hnext, by simpa using List.find?_some hnext⟩
  · rintro ⟨hmem, hname⟩
    have hsome : (rules.find? (·.symbol.isName name)).isSome :=
      List.find?_isSome.2 ⟨next, hmem, by simp [hname]⟩
    obtain ⟨found, hfound⟩ := Option.isSome_iff_exists.1 hsome
    have hfoundName : found.symbol = .name name := by simpa using List.find?_some hfound
    rw [hfound, h.eq_of_name (List.mem_of_find?_eq_some hfound) hmem hfoundName hname]

/-- A name is in a table if there are rules under it. -/
theorem contains_eq_isSome (table : RuleTable) (name : String) :
    table.contains name = (table.find? name).isSome := by
  rw [Bool.eq_iff_iff]
  simp [contains, find?]

end RuleTable

open RuleTable

namespace Registry

variable {known rules : List TradingRules} {tables : List RuleTable} {registry : Registry}
  {request : Request} {requests : List Request} {reference : Nat}

/-! ## Building a table -/

/-- The table at the end of the memory takes one more market. -/
theorem fill_cons (table : RuleTable) (first : TradingRules) :
    fill tables.length (first :: rules) (tables ++ [table]) =
      match table.enter first with
      | .ok next => fill tables.length rules (tables ++ [next])
      | .error failure => (.error failure, tables ++ [table]) := by
  have hread : (tables ++ [table]).getD tables.length {} = table := by simp
  rw [fill, hread]
  cases table.enter first with
  | ok next => simp
  | error failure => rfl

/-- A list of distinct markets is entered as a whole. -/
theorem fill_of_distinct (h : Distinct (known ++ rules)) :
    fill tables.length rules (tables ++ [ofList known]) =
      (.ok (), tables ++ [ofList (known ++ rules)]) := by
  -- the table always holds the list up to the market at hand
  induction rules generalizing known with
  | nil => simp [fill]
  | cons first rest ih =>
    have hsplit : known ++ first :: rest = known ++ [first] ++ rest := by simp
    rw [hsplit] at h ⊢
    rw [fill_cons, enter_of_distinct h.of_append]
    exact ih h

/-- Any other list is entered up to the first market that the table cannot take. -/
theorem fill_of_not_distinct (hknown : Distinct known) (h : ¬ Distinct (known ++ rules)) :
    ∃ earlier next later failure, rules = earlier ++ next :: later ∧
      Distinct (known ++ earlier) ∧ ¬ Distinct (known ++ earlier ++ [next]) ∧
      (ofList (known ++ earlier)).enter next = .error failure ∧
      fill tables.length rules (tables ++ [ofList known]) =
        (.error failure, tables ++ [ofList (known ++ earlier)]) := by
  -- on the rules: the first one that repeats a market stops, with those before it in the table
  induction rules generalizing known with
  | nil => exact absurd (by simpa using hknown) h
  | cons first rest ih =>
    rw [fill_cons]
    by_cases hfirst : Distinct (known ++ [first])
    · obtain ⟨earlier, next, later, failure, hrest, hearlier, hnext, hfailure, hfill⟩ :=
        ih hfirst (by simpa using h)
      rw [enter_of_distinct hfirst]
      exact ⟨first :: earlier, next, later, failure, by simp [hrest], by simpa using hearlier,
        by simpa using hnext, by simpa using hfailure, by simpa using hfill⟩
    · obtain ⟨failure, hfailure⟩ : ∃ failure, (ofList known).enter first = .error failure := by
        rcases enter_of_not_distinct hknown hfirst with ⟨-, hfailure⟩ | ⟨-, hfailure⟩ <;>
          exact ⟨_, hfailure⟩
      rw [hfailure]
      exact ⟨[], first, rest, failure, by simp, by simpa using hknown, by simpa using hfirst,
        by simpa using hfailure, by simp⟩

/-! ## Reloads -/

/-- The registry with a new current table. -/
def install (registry : Registry) (table : RuleTable) : Registry where
  quoteAsset := registry.quoteAsset
  tables := registry.tables ++ [table]
  current := registry.tables.length
  version := registry.version + 1
  current_lt := by simp

/-- The registry with more tables in memory, none of them the current one. -/
def leave (registry : Registry) (more : List RuleTable) : Registry where
  quoteAsset := registry.quoteAsset
  tables := registry.tables ++ more
  current := registry.current
  version := registry.version
  current_lt := by simpa using Nat.lt_add_right more.length registry.current_lt

@[simp]
theorem table_install (registry : Registry) (table : RuleTable) :
    (registry.install table).table = table := by
  simp [install, Registry.table, read]

@[simp]
theorem table_leave (registry : Registry) (more : List RuleTable) :
    (registry.leave more).table = registry.table :=
  List.getD_append _ _ _ _ registry.current_lt

@[simp]
theorem leave_nil (registry : Registry) : registry.leave [] = registry := by
  simp [leave]

/-- A reload with a list of distinct markets makes their table the current one. -/
theorem reload_of_distinct (registry : Registry) (h : Distinct rules) :
    registry.reload rules =
      (.ok (registry.version + 1,
        .reloaded (registry.version + 1) rules.length registry.table.size),
       registry.install (ofList rules)) := by
  have hfill : fill registry.tables.length rules (registry.tables ++ [({} : RuleTable)]) =
      (.ok (), registry.tables ++ [ofList rules]) :=
    @fill_of_distinct [] rules registry.tables h
  simp [reload, hfill, install, table, read, size, ofList]

/-- A reload with any other list fails at the first market that the new table cannot take. All that
is left of it is a table that nobody refers to. -/
theorem reload_of_not_distinct (registry : Registry) (h : ¬ Distinct rules) :
    ∃ earlier next later failure, rules = earlier ++ next :: later ∧
      Distinct earlier ∧ ¬ Distinct (earlier ++ [next]) ∧
      (ofList earlier).enter next = .error failure ∧
      registry.reload rules = (.error failure, registry.leave [ofList earlier]) := by
  obtain ⟨earlier, next, later, failure, hrules, hearlier, hnext, hfailure, hfill⟩ :=
    @fill_of_not_distinct [] rules registry.tables .nil h
  refine ⟨earlier, next, later, failure, hrules, hearlier, hnext, hfailure, ?_⟩
  replace hfill : fill registry.tables.length rules (registry.tables ++ [({} : RuleTable)]) =
      (.error failure, registry.tables ++ [ofList earlier]) := hfill
  simp [reload, hfill, leave]

/-- Where all identifiers are names, a reload fails exactly because one of them is repeated. -/
theorem reload_eq_duplicate_iff (registry : Registry) (hnames : Named rules) :
    (∃ id, (registry.reload rules).1 = .error (.duplicateSymbol id)) ↔
      ¬ (rules.map (·.symbol)).Nodup := by
  rw [← hnames.distinct_iff]
  constructor
  · rintro ⟨id, hid⟩ hdistinct
    simp [registry.reload_of_distinct hdistinct] at hid
  · intro hdistinct
    obtain ⟨earlier, next, later, failure, rfl, hearlier, hnext, hfailure, hreload⟩ :=
      registry.reload_of_not_distinct hdistinct
    -- a name can be a key, so only a repetition is left as the reason
    have hatom : next.symbol.toPayload.isAtom := hnames.isAtom (by simp)
    rcases enter_of_not_distinct hearlier hnext with ⟨hno, -⟩ | ⟨-, henter⟩
    · exact absurd hatom hno
    · obtain rfl := Except.error.inj (henter.symm.trans hfailure)
      exact ⟨next.symbol, by rw [hreload]⟩

/-! ## Steps -/

/-- The list of a reload that completes. -/
def Request.completed? : Request → Option (List TradingRules)
  | .reload rules => if Distinct rules then some rules else none
  | _ => none

/-- The rules of a request that was completed are distinct. -/
theorem distinct_of_completed? (h : request.completed? = some rules) : Distinct rules := by
  cases request with
  | reload given =>
    obtain ⟨hdistinct, hgiven⟩ := Option.ite_none_right_eq_some.1 h
    exact Option.some.inj hgiven ▸ hdistinct
  | _ => cases h

/-- A step makes the table of a list the current one, or it leaves the current one in place. -/
theorem step_cases (registry : Registry) (request : Request) :
    (∃ rules, request.completed? = some rules ∧
      (registry.step request).2 = registry.install (ofList rules)) ∨
    (∃ more, request.completed? = none ∧ (registry.step request).2 = registry.leave more) := by
  cases request with
  | reload rules =>
    by_cases h : Distinct rules
    · exact .inl ⟨rules, by simp [Request.completed?, h],
        by simp only [step, registry.reload_of_distinct h]⟩
    · obtain ⟨earlier, next, later, failure, -, -, -, -, hreload⟩ :=
        registry.reload_of_not_distinct h
      exact .inr ⟨[ofList earlier], by simp [Request.completed?, h],
        by simp only [step, hreload]⟩
  | get symbol => exact .inr ⟨[], rfl, registry.leave_nil.symm⟩
  | find symbol => exact .inr ⟨[], rfl, registry.leave_nil.symm⟩
  | contains key => exact .inr ⟨[], rfl, registry.leave_nil.symm⟩
  | snapshot => exact .inr ⟨[], rfl, registry.leave_nil.symm⟩

/-- The tables in memory stay where they are. -/
theorem exists_tables_step (registry : Registry) (request : Request) :
    ∃ more, (registry.step request).2.tables = registry.tables ++ more := by
  rcases registry.step_cases request with ⟨rules, -, hstep⟩ | ⟨more, -, hstep⟩
  · exact ⟨[ofList rules], by rw [hstep, install]⟩
  · exact ⟨more, by rw [hstep, leave]⟩

/-- What a reference leads to survives a step. -/
theorem read_step (h : reference < registry.tables.length) :
    (registry.step request).2.read reference = registry.read reference := by
  obtain ⟨more, hmore⟩ := registry.exists_tables_step request
  rw [read, read, hmore, List.getD_append _ _ _ _ h]

/-- One request replaces the table if it is completed, and else keeps it. -/
theorem table_step (registry : Registry) (request : Request) :
    (registry.step request).2.table = (request.completed?.map ofList).getD registry.table := by
  rcases registry.step_cases request with ⟨rules, hrequest, hstep⟩ | ⟨more, hrequest, hstep⟩ <;>
    simp [hrequest, hstep]

/-- One request raises the version if it is completed, and else keeps it. -/
theorem version_step (registry : Registry) (request : Request) :
    (registry.step request).2.version = registry.version + request.completed?.toList.length := by
  rcases registry.step_cases request with ⟨rules, hrequest, hstep⟩ | ⟨more, hrequest, hstep⟩ <;>
    simp [hrequest, hstep, install, leave]

/-! ## Runs -/

/-- The lists of the reloads that complete, in order. -/
def completed (requests : List Request) : List (List TradingRules) :=
  requests.filterMap Request.completed?

/-- The list of the last reload that completes, empty if none does. -/
def served (requests : List Request) : List TradingRules :=
  (completed requests).getLast?.getD []

/-- One more request is one more completed one, if it is completed. -/
theorem completed_concat (requests : List Request) (request : Request) :
    completed (requests ++ [request]) = completed requests ++ request.completed?.toList := by
  cases h : request.completed? <;> simp [completed, h]

/-- One more request serves its own rules if it is completed, and else those that were served
before. -/
theorem served_concat (requests : List Request) (request : Request) :
    served (requests ++ [request]) = request.completed?.getD (served requests) := by
  cases h : request.completed? <;> simp [served, completed_concat, h]

/-- The lists that are served are lists of distinct markets. -/
theorem distinct_served (requests : List Request) : Distinct (served requests) := by
  induction requests using List.reverseRecOn with
  | nil => exact .nil
  | append_singleton earlier request ih =>
    rw [served_concat]
    cases hrequest : request.completed? with
    | none => exact ih
    | some rules => exact distinct_of_completed? hrequest

/-- What a reference leads to survives all requests that follow. -/
theorem read_run (h : reference < registry.tables.length) :
    (registry.run requests).read reference = registry.read reference := by
  induction requests generalizing registry with
  | nil => rfl
  | cons request later ih =>
    -- the memory has only grown, so the reference still leads into it
    obtain ⟨more, hmore⟩ := registry.exists_tables_step request
    have hlater : reference < (registry.step request).2.tables.length := by
      rw [hmore, List.length_append]
      omega
    exact (ih hlater).trans (read_step h)

/-- The current table is that of the last reload that completed. -/
theorem table_run (quoteAsset : String) (requests : List Request) :
    (run { quoteAsset } requests).table = ofList (served requests) := by
  induction requests using List.reverseRecOn with
  | nil => rfl
  | append_singleton earlier request ih =>
    rw [run_append, served_concat]
    refine (table_step _ request).trans ?_
    rw [ih]
    cases request.completed? <;> rfl

/-- The version is the number of reloads that completed. -/
theorem version_run (quoteAsset : String) (requests : List Request) :
    (run { quoteAsset } requests).version = (completed requests).length := by
  induction requests using List.reverseRecOn with
  | nil => rfl
  | append_singleton earlier request ih =>
    rw [run_append, completed_concat, List.length_append, ← ih]
    exact version_step _ request

/-! ## What a registry promises -/

/-- What holds of a registry after requests to an empty one. -/
structure Follows (registry : Registry) (requests : List Request) : Prop where
  /-- The table is that of the last list of distinct markets. -/
  table_eq : registry.table = ofList (served requests)
  /-- A name has the rules of the market of that name in upper case. -/
  find?_eq_some_iff (symbol : String) (rules : TradingRules) :
    registry.find? symbol = some rules ↔
      rules ∈ served requests ∧ rules.symbol = .name (Text.upper symbol)
  /-- The version counts the reloads with such lists. -/
  version_eq : registry.version = (completed requests).length
  /-- A reload with such a list returns the next version. -/
  ok_of_distinct (rules : List TradingRules) (h : Distinct rules) :
    ∃ event, (registry.step (.reload rules)).1 = .ok (.reloaded (registry.version + 1) event)
  /-- A reload with any other list fails, and the table and the version are as before. -/
  error_of_not_distinct (rules : List TradingRules) (h : ¬ Distinct rules) :
    (∃ failure, (registry.step (.reload rules)).1 = .error failure) ∧
      (registry.step (.reload rules)).2.table = registry.table ∧
      (registry.step (.reload rules)).2.version = registry.version
  /-- Where all identifiers are names, it fails exactly because one of them is repeated. -/
  duplicate_iff (rules : List TradingRules) (hnames : Named rules) :
    (∃ id, (registry.step (.reload rules)).1 = .error (.duplicateSymbol id)) ↔
      ¬ (rules.map (·.symbol)).Nodup
  /-- All lookups agree on whether a market is known, and on its rules. -/
  lookups_agree (symbol : String) :
    (∃ rules, (registry.step (.find symbol)).1 = .ok (.found (some rules)) ∧
      (registry.step (.get symbol)).1 = .ok (.rules rules) ∧
      (registry.step (.contains (.text symbol))).1 = .ok (.contains true)) ∨
    ((registry.step (.find symbol)).1 = .ok (.found none) ∧
      (registry.step (.get symbol)).1 = .error (.unknownSymbol symbol) ∧
      (registry.step (.contains (.text symbol))).1 = .ok (.contains false))

/-- A registry whose table is that of the lists it was given keeps the promises. -/
theorem follows_of_table (htable : registry.table = ofList (served requests))
    (hversion : registry.version = (completed requests).length) : registry.Follows requests where
  table_eq := htable
  find?_eq_some_iff symbol rules := by
    rw [find?, htable]
    exact find?_ofList (distinct_served requests) _
  version_eq := hversion
  ok_of_distinct rules h := by
    simp only [step, registry.reload_of_distinct h]
    exact ⟨_, rfl⟩
  -- the table that was begun stays in memory, but nothing refers to it
  error_of_not_distinct rules h := by
    obtain ⟨earlier, next, later, failure, -, -, -, -, hreload⟩ :=
      registry.reload_of_not_distinct h
    simp only [step, hreload]
    exact ⟨⟨failure, rfl⟩, registry.table_leave _, rfl⟩
  duplicate_iff rules hnames := by
    rw [← registry.reload_eq_duplicate_iff hnames]
    simp only [step]
    cases (registry.reload rules).1 <;> simp [Except.map]
  lookups_agree symbol := by
    simp only [step, find?, get, contains, contains_eq_isSome]
    cases registry.table.find? (Text.upper symbol) with
    | some rules => exact .inl ⟨rules, rfl, rfl, rfl⟩
    | none => exact .inr ⟨rfl, rfl, rfl⟩

/-- After any requests to an empty registry its table is that of the last list of distinct markets
and its version is the number of such lists. Whatever a reload does, a table that was handed out
keeps the content that it had at that moment. -/
theorem follows_run (quoteAsset : String) (requests : List Request) :
    (run { quoteAsset } requests).Follows requests ∧
      ∀ earlier later, requests = earlier ++ .snapshot :: later →
        ∃ reference, ((run { quoteAsset } earlier).step .snapshot).1 = .ok (.snapshot reference) ∧
          (run { quoteAsset } requests).read reference = (run { quoteAsset } earlier).table := by
  refine ⟨follows_of_table (table_run ..) (version_run ..), ?_⟩
  rintro earlier later rfl
  rw [run_append]
  exact ⟨_, rfl, read_run (run { quoteAsset } earlier).current_lt⟩

/-! ### A refused list between two that are served -/

theorem isPositive_one : Decimal.IsPositive 1 :=
  rfl

theorem isPositive_of_not_given {step : Decimal} (h : none = some step) : step.IsPositive := by
  cases h

/-- A market in which quantities and prices are whole numbers. -/
def sampleRules (name : String) : TradingRules where
  symbol := .name name
  step := 1
  tick := 1
  step_pos := isPositive_one
  tick_pos := isPositive_one
  marketStep_pos := @isPositive_of_not_given

/-- The first reload of the sample. -/
def sampleStart : List Request :=
  [.reload [sampleRules "BTCUSDT", sampleRules "ETHUSDT"]]

/-- A reader keeps the first table, and the second list repeats its last market. -/
def sampleRequests : List Request :=
  sampleStart ++ .snapshot ::
    [.reload [sampleRules "BTCUSDT", sampleRules "SOLUSDT", sampleRules "SOLUSDT"],
      .reload [sampleRules "SOLUSDT"]]

/-- The reader still sees both markets of the first list, while the registry serves the last list
in version two. -/
theorem follows_run_sample :
    (∃ reference, ((run {} sampleStart).step .snapshot).1 = .ok (.snapshot reference) ∧
      (run {} sampleRequests).read reference =
        ofList [sampleRules "BTCUSDT", sampleRules "ETHUSDT"]) ∧
      (run {} sampleRequests).version = 2 ∧
      (run {} sampleRequests).find? "solusdt" = some (sampleRules "SOLUSDT") ∧
      (run {} sampleRequests).table = ofList [sampleRules "SOLUSDT"] := by
  obtain ⟨hfollows, hkept⟩ := follows_run "USDT" sampleRequests
  obtain ⟨reference, hsnapshot, hread⟩ := hkept sampleStart _ rfl
  refine ⟨⟨reference, hsnapshot, hread⟩, ?_, ?_, hfollows.table_eq⟩
  · rw [hfollows.version_eq]
    rfl
  · rw [hfollows.find?_eq_some_iff]
    exact ⟨.head _, congrArg MarketId.name (by decide)⟩

end Registry

end OrderTicket
