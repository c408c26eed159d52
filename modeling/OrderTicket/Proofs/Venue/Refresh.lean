import OrderTicket.Proofs.Venue.Listing
import OrderTicket.Venue.Session

/-!
# Refreshing a registry

A session refreshes its registry from the markets that the venue lists at that moment. A refresh
that returns puts the rules of the leading markets into the table, raises the version by one, and
leaves a note of every market that was not inactive and is not in the table. Nothing else changes
the table or the version, however the steps of a session come one after another and whatever the
venue answers.

* `Client.refresh_achieves`: what a refresh does.
* `Session.Refreshed`, `Session.step_cases`: the steps of a session.
* `Session.holds_run`, `Session.keeps_run`: the runs of a session.
-/

namespace OrderTicket

open RuleTable

namespace Client

variable {client : Client} {state : State} {registry : Registry}

/-- What a client has done that asked for the markets and read their rules. -/
structure Listed (client : Client) (state : State) (entries : List (String × Payload))
    (readings : List Reading) (rules : List TradingRules) (next : State) : Prop where
  /-- The venue listed these markets. -/
  answer : client.venue.answer .markets = .ok (.object entries)
  /-- It was asked for them, and for nothing else. -/
  requests : next.requests = state.requests ++ [.markets]
  /-- The client remembers them. -/
  markets : next.markets = .object entries
  /-- It knows their unified symbols. -/
  unified : unifiedSymbols entries = .ok next.unified
  /-- What became of each of them. -/
  accounts : Accounts client.settings.defaultPriceBand [] entries readings
  /-- The rules are those that were read. -/
  rules_eq : rules = readings.filterMap Reading.rules?
  /-- A table can be made of them. -/
  distinct : Distinct rules
  /-- The notes tell of each market that was left out, and how many rules there are. -/
  events : next.events = state.events ++
    [.connecting client.settings.venue, .connected client.settings.venue entries.length] ++
      readings.filterMap Reading.note? ++ [.loaded rules.length]

/-- A client that knows no markets reads the rules of those that the venue lists. -/
theorem tradingRules_achieves (client : Client) (h : state.markets.isGiven = false) :
    Achieves client.tradingRules state (fun rules next => ∃ entries readings,
      Listed client state entries readings rules next) fun failure _ => failure.OfVenue := by
  refine .bind (ensureMarkets_achieves h ((connect_achieves client state).mono ?_))
  rintro ⟨⟩ _ ⟨listed, unified, hanswer, hunified, rfl⟩
  refine .bind (.get (.bind (.lift (fun entries hentries => ?_) .ok)))
  obtain rfl : listed = entries := Except.ok.inj hentries
  refine .bind ((readMarkets_achieves (.nil _) _).mono ?_)
  rintro rules _ ⟨readings, haccounts, hrules, hdistinct, rfl⟩
  refine .bind (.note (.pure ⟨listed, readings, ?_⟩))
  exact ⟨hanswer, rfl, rfl, hunified, haccounts, by simpa using hrules, hdistinct, by simp⟩

/-- A refresh fails in what the venue answers, or it installs the table of the rules that were
read. -/
theorem refresh_achieves (client : Client) (registry : Registry) (state : State) :
    Achieves (client.refresh registry) state (fun result next =>
      ∃ entries readings rules listed, Listed client state entries readings rules listed ∧
        result = (registry.version + 1, registry.install (ofList rules)) ∧
        next = { listed with events := listed.events ++ [.registry
          (.reloaded (registry.version + 1) rules.length registry.table.size)] })
      fun failure _ => failure.OfVenue := by
  refine .bind (.modify (.bind ((tradingRules_achieves client rfl).mono ?_)))
  rintro rules listed ⟨entries, readings, hlisted⟩
  rw [registry.reload_of_distinct hlisted.distinct]
  exact .bind (.lift (by
    rintro _ ⟨⟩
    exact .bind (.note (.pure ⟨entries, readings, rules, listed, { hlisted with }, rfl, rfl⟩))) .ok)

end Client

namespace Session

open Client

variable {session next : Session} {action : Action} {band : Decimal}
  {entries : List (String × Payload)} {readings : List Reading}

/-! ## Tables of listings -/

/-- A table of what a venue lists: each leading market has its rules in it, under its own
identifier, and nothing else is in it. -/
structure Serves (band : Decimal) (entries : List (String × Payload)) (table : RuleTable) :
    Prop where
  /-- The entries are the rules of the leading markets. -/
  mem_iff (id : MarketId) (rules : TradingRules) :
    (id, rules) ∈ table.entries ↔ id = rules.symbol ∧ Leads band entries rules
  /-- A name leads to the rules of the leading market of that name. -/
  find?_iff (name : String) (rules : TradingRules) :
    table.find? name = some rules ↔ rules.symbol = .name name ∧ Leads band entries rules

theorem serves_nil (band : Decimal) : Serves band [] {} := by
  have hnone (rules : TradingRules) : ¬ Leads band [] rules := by
    rintro ⟨before, symbol, market, after, hsplit, -⟩
    simp at hsplit
  exact ⟨fun id rules => by simp [hnone], fun name rules => by simp [hnone, find?]⟩

/-- The table of the rules that account for a listing serves it. -/
theorem serves_of_accounts (h : Accounts band [] entries readings)
    (hdistinct : Distinct (readings.filterMap Reading.rules?)) :
    Serves band entries (ofList (readings.filterMap Reading.rules?)) := by
  have hleads (rules : TradingRules) :
      rules ∈ readings.filterMap Reading.rules? ↔ Leads band entries rules :=
    h.mem_iff
  refine ⟨fun id rules => ?_, fun name rules => ?_⟩
  · rw [← hleads, ofList, List.mem_map]
    constructor
    · rintro ⟨market, hmarket, hentry⟩
      obtain ⟨rfl, rfl⟩ := Prod.mk.inj hentry
      exact ⟨rfl, hmarket⟩
    · rintro ⟨rfl, hrules⟩
      exact ⟨rules, hrules, rfl⟩
  · rw [find?_ofList hdistinct, hleads, and_comm]

/-! ## Steps -/

/-- What a refresh that returned has done. -/
structure Refreshed (session next : Session) (entries : List (String × Payload))
    (readings : List Reading) : Prop where
  /-- The venue was asked for its markets once, and for nothing else. -/
  requests : next.state.requests = [.markets]
  /-- It listed these. -/
  answer : session.client.venue.answer .markets = .ok (.object entries)
  /-- The version is the next one. -/
  version : next.registry.version = session.registry.version + 1
  /-- The table is that of the listing. -/
  serves : Serves session.client.settings.defaultPriceBand entries next.registry.table
  /-- What became of each market. -/
  accounts : Accounts session.client.settings.defaultPriceBand [] entries readings
  /-- The markets that count are in the table, in order. -/
  table_eq : next.registry.table = ofList (readings.filterMap Reading.rules?)
  /-- The markets that were left out are in the log, in order. -/
  events : next.state.events =
    [.connecting session.client.settings.venue,
      .connected session.client.settings.venue entries.length] ++
    readings.filterMap Reading.note? ++
    [.loaded (readings.filterMap Reading.rules?).length,
      .registry (.reloaded next.registry.version (readings.filterMap Reading.rules?).length
        session.registry.table.size)]

/-- A step whose work returns replies with the result and keeps the state. -/
theorem perform_of_ok {α : Type} {work : Client.Work α} {finish : α → Reply × Registry} {x : α}
    {state : State} (h : work.run session.state = (.ok x, state)) :
    session.perform work finish =
      (.ok (finish x).1, { session with state, registry := (finish x).2 }) := by
  rw [perform, h]

/-- A step whose work fails fails likewise, and keeps the state up to the failure. -/
theorem perform_of_error {α : Type} {work : Client.Work α} {finish : α → Reply × Registry}
    {failure : Failure} {state : State} (h : work.run session.state = (.error failure, state)) :
    session.perform work finish = (.error failure, { session with state }) := by
  rw [perform, h]

/-- A refresh returns the next version and has installed the table of a listing, or it fails in what
the venue answers. -/
theorem refresh_cases (session : Session) :
    (∃ entries readings, (session.step .refresh).1 =
        .ok (.version (session.registry.version + 1)) ∧
      session.Refreshed (session.step .refresh).2 entries readings) ∨
    ∃ failure, (session.step .refresh).1 = .error failure ∧ failure.OfVenue := by
  have hachieves := refresh_achieves session.client session.registry session.fresh.state
  have hstep : session.step .refresh = session.fresh.perform
      (session.client.refresh session.registry) fun result => (.version result.1, result.2) := rfl
  -- The registry is installed last, so a failure anywhere before leaves it as it was.
  rcases hrun : (session.client.refresh session.registry).run session.fresh.state with
    ⟨failure | result, state⟩
  · rw [hstep, perform_of_error hrun]
    exact .inr ⟨failure, rfl, hachieves.of_error hrun⟩
  · obtain ⟨entries, readings, rules, listed, hlisted, rfl, rfl⟩ := hachieves.of_ok hrun
    obtain rfl := hlisted.rules_eq
    rw [hstep, perform_of_ok hrun]
    have htable : (session.registry.install
        (ofList (readings.filterMap Reading.rules?))).table = _ := Registry.table_install _ _
    refine .inl ⟨entries, readings, rfl, hlisted.requests, hlisted.answer, rfl, ?_,
      hlisted.accounts, htable, ?_⟩
    · change Serves _ _ (session.registry.install _).table
      rw [htable]
      exact serves_of_accounts hlisted.accounts hlisted.distinct
    · change listed.events ++ _ = _
      rw [hlisted.events]
      simp [fresh, Registry.install]

/-- What a step does to the registry. -/
structure Keeps (session : Session) (action : Action) : Prop where
  /-- A refresh that returns gives the next version and has installed the table of the markets that
  the venue listed. -/
  refreshed (reply : Reply) (hrefresh : action = .refresh)
      (hreply : (session.step action).1 = .ok reply) :
    reply = .version (session.registry.version + 1) ∧
      ∃ entries readings, session.Refreshed (session.step action).2 entries readings
  /-- A refresh does not fail because a market is listed twice. -/
  not_duplicate (id : MarketId) (hrefresh : action = .refresh) :
    (session.step action).1 ≠ .error (.duplicateSymbol id)
  /-- After a refresh that fails the registry is as it was. -/
  failed (failure : Failure) (hfailure : (session.step action).1 = .error failure) :
    (session.step action).2.registry = session.registry
  /-- After a step that is no refresh the registry is as it was. -/
  other (hother : action ≠ .refresh) : (session.step action).2.registry = session.registry

/-- The registry of a session changes only in refreshes that return. -/
theorem keeps_step (session : Session) (action : Action) : session.Keeps action where
  refreshed reply hrefresh hreply := by
    subst hrefresh
    rcases session.refresh_cases with ⟨entries, readings, hok, hrefreshed⟩ | ⟨failure, herror, -⟩
    · exact ⟨Except.ok.inj (hreply.symm.trans hok), entries, readings, hrefreshed⟩
    · cases hreply.symm.trans herror
  not_duplicate id hrefresh hduplicate := by
    subst hrefresh
    rcases session.refresh_cases with ⟨entries, readings, hok, -⟩ | ⟨failure, herror, hvenue⟩
    · cases hduplicate.symm.trans hok
    · exact hvenue.ne_duplicateSymbol id (Except.error.inj (herror.symm.trans hduplicate))
  failed failure hfailure := session.registry_step_of_error hfailure
  other hother := session.registry_step_of_ne_refresh hother

/-- No step changes the settings of the client. -/
theorem settings_step (session : Session) (action : Action) :
    (session.step action).2.client.settings = session.client.settings := by
  have hperform {α : Type} (work : Client.Work α) (finish : α → Reply × Registry) :
      (session.fresh.perform work finish).2.client = session.client := by
    unfold perform
    split <;> rfl
  cases action with
  | change venue => rfl
  | connect => exact congrArg _ (hperform _ _)
  | close => exact congrArg _ (hperform _ _)
  | tradingRules => exact congrArg _ (hperform _ _)
  | refresh => exact congrArg _ (hperform _ _)
  | book symbol limit => exact congrArg _ (hperform _ _)
  | markPrice symbol => exact congrArg _ (hperform _ _)

/-! ## Runs -/

/-- The markets that a venue lists for a step that puts them into the registry. -/
def listing? (session : Session) (action : Action) : Option (List (String × Payload)) :=
  match action, (session.step action).1, session.client.venue.markets with
  | .refresh, .ok _, .object entries => some entries
  | _, _, _ => none

/-- The listings of the refreshes that return, in order. -/
def listings : Session → List Action → List (List (String × Payload))
  | _, [] => []
  | session, action :: later =>
    (session.listing? action).toList ++ listings (session.step action).2 later

/-- A registry whose version counts listings, and whose table is that of the last one. -/
structure Holds (band : Decimal) (listings : List (List (String × Payload)))
    (registry : Registry) : Prop where
  /-- The version counts the listings. -/
  version : registry.version = listings.length
  /-- The table is that of the last one, or empty. -/
  serves : Serves band (listings.getLast?.getD []) registry.table

/-- Only a refresh has a listing. -/
theorem listing?_of_ne_refresh (h : action ≠ .refresh) : session.listing? action = none := by
  unfold listing?
  split
  · exact absurd rfl h
  · rfl

/-- A step adds its listing, if it has one. -/
theorem holds_step {past : List (List (String × Payload))}
    (h : Holds session.client.settings.defaultPriceBand past session.registry) (action : Action) :
    Holds session.client.settings.defaultPriceBand (past ++ (session.listing? action).toList)
      (session.step action).2.registry := by
  -- only a refresh that returns has a listing, and only it changes the registry
  by_cases hrefresh : action = .refresh
  · subst hrefresh
    rcases session.refresh_cases with ⟨entries, readings, hok, hrefreshed⟩ | ⟨failure, herror, -⟩
    · have hmarkets : session.client.venue.markets = .object entries := by
        have hanswer := hrefreshed.answer
        unfold Venue.answer at hanswer
        split at hanswer
        · cases hanswer
        · exact Except.ok.inj hanswer
      have hlisting : session.listing? .refresh = some entries := by
        unfold listing?
        rw [hok, hmarkets]
      rw [hlisting]
      exact ⟨by simp [hrefreshed.version, h.version], by simpa using hrefreshed.serves⟩
    · have hlisting : session.listing? .refresh = none := by
        unfold listing?
        rw [herror]
      rw [hlisting, session.registry_step_of_error herror]
      simpa using h
  · rw [listing?_of_ne_refresh hrefresh, session.registry_step_of_ne_refresh hrefresh]
    simpa using h

/-- A run adds the listings of its steps, one after another. -/
theorem holds_run {past : List (List (String × Payload))}
    (h : Holds session.client.settings.defaultPriceBand past session.registry)
    (actions : List Action) :
    Holds session.client.settings.defaultPriceBand (past ++ listings session actions)
      (session.run actions).registry := by
  -- on the actions; `past` holds the listings of those before them
  induction actions generalizing session past with
  | nil => simpa [listings] using h
  | cons action later ih =>
    have hstep := holds_step h action
    rw [← settings_step session action] at hstep ⊢
    rw [listings, ← List.append_assoc]
    exact ih hstep

/-- A session that has not begun. -/
def start (client : Client) (quoteAsset : String) : Session where
  client := client
  registry := { quoteAsset }

/-- The registry of a session serves what the venue listed for the last refresh that returned, and
its version counts those refreshes. -/
theorem keeps_run (client : Client) (quoteAsset : String) (actions : List Action) :
    Holds client.settings.defaultPriceBand (listings (start client quoteAsset) actions)
        ((start client quoteAsset).run actions).registry ∧
      ∀ earlier action later, actions = earlier ++ action :: later →
        ((start client quoteAsset).run earlier).Keeps action :=
  ⟨@holds_run (start client quoteAsset) [] ⟨rfl, serves_nil _⟩ actions,
    fun earlier action _ _ => keeps_step ((start client quoteAsset).run earlier) action⟩

/-! ### A refresh that returns and one that fails -/

namespace Sample

/-- A market with steps for quantities and prices. -/
def traded (id : String) : Payload :=
  .object [("id", id), ("precision", .object [("amount", "0.001"), ("price", "0.1")])]

/-- Two markets of one identifier, one without steps, and an inactive one. -/
def markets : List (String × Payload) :=
  [("BTC/USDT:USDT", traded "BTCUSDT"), ("BTC/USDT", traded "BTCUSDT"),
    ("NEW/USDT:USDT", .object [("id", "NEWUSDT")]),
    ("OLD/USDT:USDT", .object [("id", "OLDUSDT"), ("active", .bool false)])]

/-- A client of a venue that lists them. -/
def client : Client where
  settings := {}
  venue := { markets := .object markets }

/-- A refresh, and another one while the venue does not answer. -/
def actions : List Action :=
  [.refresh, .change { failing := ["load_markets"] }, .refresh]

theorem listings_actions : listings (start client "USDT") actions = [markets] :=
  rfl

end Sample

/-- The registry keeps the first market of the first refresh. -/
theorem keeps_run_sample :
    ((start Sample.client "USDT").run Sample.actions).registry.version = 1 ∧
      (∃ rules, ((start Sample.client "USDT").run Sample.actions).registry.table.find? "BTCUSDT" =
          some rules ∧
        Leads Sample.client.settings.defaultPriceBand Sample.markets rules) ∧
      ((start Sample.client "USDT").run Sample.actions).registry =
        ((start Sample.client "USDT").run (Sample.actions.take 2)).registry := by
  obtain ⟨hholds, hkeeps⟩ := keeps_run Sample.client "USDT" Sample.actions
  rw [Sample.listings_actions] at hholds
  refine ⟨hholds.version, ?_, (hkeeps (Sample.actions.take 2) .refresh [] rfl).failed _ rfl⟩
  have hactive : ¬ IsInactive (Sample.traded "BTCUSDT") := by
    simp [IsInactive, Sample.traded, Payload.field?, Payload.entries, Payload.lookup?, Except.map]
  obtain ⟨rules, hgives, hname⟩ : ∃ rules, Gives Sample.client.settings.defaultPriceBand
      (Sample.traded "BTCUSDT") rules ∧ rules.symbol = .name "BTCUSDT" :=
    ⟨_, ⟨hactive, rfl⟩, rfl⟩
  have hleads : Leads Sample.client.settings.defaultPriceBand Sample.markets rules :=
    ⟨[], _, _, _, rfl, hgives, by simp [Taken]⟩
  exact ⟨rules, (hholds.serves.find?_iff _ _).2 ⟨hname, hleads⟩, hleads⟩

end Session

end OrderTicket
