import Mathlib.Data.List.Basic
import OrderTicket.Proofs.Venue.Refresh

/-!
# Where market data is asked for

A client asks for the book and the price of a market by its unified symbol, which it looks up by the
identifier of the market. Identifiers need not be unique: the rules of an identifier are those of
the first market that gives any, but its unified symbol is that of the last market that has it. So
rules and market data belong to the same market exactly if no later market has the identifier too.

Rules come from a listing that a client asks for or from one that it knows, and they are returned or
put into a registry. In all cases the unified symbols are those of the same listing, unless a venue
has listed markets whose identifiers cannot be looked up.

* `Client.Last`: the last market of an identifier; `Client.unifiedOf_of_last`: it is looked up.
* `Client.book_achieves`, `Client.markPrice_achieves`: what a client asks for.
* `Session.Loaded`, `Session.loaded_run`: what a client remembers between two listings.
* `Client.State.Ready`, `Session.ready_run`: both tables of a client come from one listing.
* `Session.Yields`, `Session.Origin`: the rules that a step gives, and the market that they are of.
* `Session.queries_run`: what a client asks for after it has given rules.
-/

namespace OrderTicket

namespace Client

variable {client : Client} {state : State} {entries : List (String × Payload)}
  {known : List (String × String)} {id unified : String}

/-! ## Unified symbols -/

/-- A market that a client finds under an identifier. -/
def IsFoundBy (id : String) (market : Payload) : Prop :=
  identifier? market = .ok (some id)

/-- The unified symbol of the last market of an identifier. -/
def Last (entries : List (String × Payload)) (id unified : String) : Prop :=
  ∃ before market after, entries = before ++ (unified, market) :: after ∧ IsFoundBy id market ∧
    ∀ entry ∈ after, ¬ IsFoundBy id entry.2

/-- The unified symbols that are known, with that of one more market. -/
def learn (known : List (String × String)) (entry : String × Payload) :
    Except Failure (List (String × String)) := do
  match ← identifier? entry.2 with
  | some id => return (id, entry.1) :: known
  | none => return known

/-- Markets without an identifier do not change what it stands for. -/
theorem find?_foldlM_learn {known' : List (String × String)}
    (h : entries.foldlM learn known = .ok known')
    (hnot : ∀ entry ∈ entries, ¬ IsFoundBy id entry.2) :
    known'.find? (·.1 == id) = known.find? (·.1 == id) := by
  induction entries generalizing known with
  | nil =>
    obtain rfl : known = known' := Except.ok.inj h
    rfl
  | cons entry rest ih =>
    obtain ⟨hfirst, hrest⟩ := List.forall_mem_cons.1 hnot
    rw [List.foldlM_cons] at h
    obtain ⟨next, hnext, h⟩ := bind_eq_ok h
    rw [ih h hrest]
    obtain ⟨found, hfound, hnext⟩ := bind_eq_ok hnext
    cases found with
    | none =>
      obtain rfl : known = next := Except.ok.inj hnext
      rfl
    -- A later entry stands in front, so it must not be found by the same identifier.
    | some other =>
      obtain rfl : (other, entry.1) :: known = next := Except.ok.inj hnext
      have hne : other ≠ id := fun heq => hfirst (heq ▸ hfound)
      simp [hne]

/-- The last market of an identifier is the one that is looked up. -/
theorem find?_of_last (h : unifiedSymbols entries = .ok known) (hlast : Last entries id unified) :
    known.find? (·.1 == id) = some (id, unified) := by
  obtain ⟨before, market, after, rfl, hfound, hafter⟩ := hlast
  change (before ++ (unified, market) :: after).foldlM learn [] = .ok known at h
  rw [List.foldlM_append] at h
  obtain ⟨first, -, h⟩ := bind_eq_ok h
  rw [List.foldlM_cons] at h
  obtain ⟨next, hnext, h⟩ := bind_eq_ok h
  -- its entry is put in front of the earlier ones, and no later market puts one before it
  rw [find?_foldlM_learn h hafter]
  obtain ⟨found, hidentifier, hnext⟩ := bind_eq_ok hnext
  obtain rfl : some id = found := Except.ok.inj (hfound.symm.trans hidentifier)
  obtain rfl : (id, unified) :: first = next := Except.ok.inj hnext
  simp

/-- There is only one last market. -/
theorem last_unique (h : unifiedSymbols entries = .ok known) {other : String}
    (hlast : Last entries id unified) (hother : Last entries id other) : unified = other := by
  have hfind := find?_of_last h hlast
  rw [find?_of_last h hother, Option.some.injEq] at hfind
  exact (congrArg Prod.snd hfind).symm

/-- The unified symbol of an identifier is that of its last market. -/
theorem unifiedOf_of_last (h : unifiedSymbols entries = .ok state.unified)
    (hlast : Last entries id unified) : unifiedOf state id = unified := by
  rw [unifiedOf, find?_of_last h hlast]
  rfl

/-- An identifier that some market has stands for one of them. -/
theorem exists_last (h : ∃ entry ∈ entries, IsFoundBy id entry.2) :
    ∃ unified, Last entries id unified := by
  -- from the end of the list: the first market that is found there is the last one
  induction entries using List.reverseRecOn with
  | nil => simp at h
  | append_singleton earlier entry ih =>
    obtain ⟨symbol, market⟩ := entry
    by_cases hfound : IsFoundBy id market
    · exact ⟨symbol, earlier, market, [], rfl, hfound, by simp⟩
    · obtain ⟨unified, before, found, after, rfl, hown, hafter⟩ := ih (by simpa [hfound] using h)
      exact ⟨unified, before, found, after ++ [(symbol, market)], by simp, hown, by
        simpa [or_imp, forall_and, hfound] using hafter⟩

/-- Two splits of a list of distinct unified symbols at the same symbol are the same one. -/
theorem after_eq_of_nodup {before after before' after' : List (String × Payload)}
    {market market' : Payload}
    (h : before ++ (unified, market) :: after = before' ++ (unified, market') :: after')
    (hnodup : ((before ++ (unified, market) :: after).map Prod.fst).Nodup) : after = after' := by
  rw [List.map_append, List.map_cons, List.nodup_append, List.nodup_cons] at hnodup
  obtain ⟨-, ⟨hafter, -⟩, hbefore⟩ := hnodup
  -- no other market of the list has this symbol
  refine ((List.append_cons_inj_of_notMem (fun hmem => ?_) fun hmem => ?_).1 h).2.2
  · exact hbefore unified (List.mem_map.2 ⟨_, hmem, rfl⟩) unified List.mem_cons_self rfl
  · exact hafter (List.mem_map.2 ⟨_, hmem, rfl⟩)

/-! ## What is asked for -/

/-- A state in which the same markets are remembered as before. -/
structure Remembers (state next : State) : Prop where
  /-- The markets are the same. -/
  markets : next.markets = state.markets
  /-- The unified symbols are the same. -/
  unified : next.unified = state.unified

/-- A state in which the same markets are remembered, and the venue was asked once more. -/
structure Asked (state : State) (request : Request) (next : State) : Prop
    extends Remembers state next where
  /-- The last request is the given one. -/
  requests : next.requests = state.requests ++ [request]

/-- The number of levels that are asked for. -/
def levelCount (client : Client) : Option Int → Int
  | some limit => if limit = 0 then client.settings.depthLimit else limit
  | none => client.settings.depthLimit

/-- The book of a market is that of the unified symbol of its identifier, also if it does not
arrive. -/
theorem book_achieves (client : Client) (symbol : String) (limit : Option Int)
    (h : state.markets.isGiven = true) :
    Achieves (client.book symbol limit) state
      (fun _ => Asked state (.book (unifiedOf state (Text.upper symbol)) (client.levelCount limit)))
      fun _ => Asked state
        (.book (unifiedOf state (Text.upper symbol)) (client.levelCount limit)) := by
  refine .bind (ensureMarkets_of_given h (.bind (.get (.bind (.ask (fun depth _ => ?_) ?_)))))
  · refine .bind (.lift (fun book _ => .bind (.note (.pure ?_))) fun failure _ => ?_) <;>
      exact ⟨⟨rfl, rfl⟩, rfl⟩
  · exact fun failure _ => ⟨⟨rfl, rfl⟩, rfl⟩

/-- The price of a market is that of the unified symbol of its identifier, also if it does not
arrive. -/
theorem markPrice_achieves (client : Client) (symbol : String)
    (h : state.markets.isGiven = true) :
    Achieves (client.markPrice symbol) state
      (fun _ => Asked state (.ticker (unifiedOf state (Text.upper symbol))))
      fun _ => Asked state (.ticker (unifiedOf state (Text.upper symbol))) := by
  refine .bind (ensureMarkets_of_given h (.bind (.get (.bind (.ask (fun ticker _ => ?_) ?_)))))
  · exact .lift (fun price _ => ⟨⟨rfl, rfl⟩, rfl⟩) fun failure _ => ⟨⟨rfl, rfl⟩, rfl⟩
  · exact fun failure _ => ⟨⟨rfl, rfl⟩, rfl⟩

/-- A client that takes leave of the venue goes on to know its markets. -/
theorem close_achieves :
    Achieves client.close state (fun _ => Remembers state) fun _ => Remembers state := by
  refine .bind (.note (.bind (.ask (fun answer _ => .pure ⟨rfl, rfl⟩) fun failure _ => ⟨rfl, rfl⟩)))

section Keeps

variable {R : State → Prop}
  (hnote : ∀ state event, R state → R { state with events := state.events ++ [event] })

include hnote

/-- Reading markets only adds notes. -/
theorem readMarkets_keeps (band : Decimal) (known : List TradingRules)
    (entries : List (String × Payload)) (h : R state) :
    Achieves (readMarkets band known entries) state (fun _ => R) fun _ => R := by
  induction entries generalizing known state with
  | nil => exact .pure h
  | cons entry rest ih =>
    refine .bind (.lift (fun reading _ => ?_) fun failure _ => h)
    cases reading with
    | inactive => exact ih known h
    | rules rules => exact ih (known ++ [rules]) h
    | left event => exact .bind (.note (ih known (hnote _ event h)))

/-- A client that makes sure that it knows markets only adds notes when it reads their rules. -/
theorem tradingRules_keeps
    (h : Achieves client.ensureMarkets state (fun _ => R) fun _ => R) :
    Achieves client.tradingRules state (fun _ => R) fun _ => R := by
  refine .bind (h.mono fun _ middle hmiddle => .bind (.get (.bind (.lift (fun entries _ => ?_)
    fun failure _ => hmiddle))))
  exact .bind ((readMarkets_keeps hnote _ _ _ hmiddle).mono fun rules next hnext =>
    .bind (.note (.pure (hnote _ _ hnext))))

end Keeps

/-- A client that knows markets reads their rules and goes on to know them. -/
theorem tradingRules_remembers (h : state.markets.isGiven = true) :
    Achieves client.tradingRules state (fun _ => Remembers state) fun _ => Remembers state :=
  tradingRules_keeps (fun _ _ hstate => ⟨hstate.markets, hstate.unified⟩)
    (ensureMarkets_of_given h ⟨rfl, rfl⟩)

/-- The rules that a client reads of the markets that it knows are those of the leading ones. -/
theorem tradingRules_of_known (h : state.markets = .object entries) (hne : entries ≠ []) :
    Achieves client.tradingRules state
      (fun rules _ => ∀ own ∈ rules, Leads client.settings.defaultPriceBand entries own)
      fun failure _ => failure.OfVenue := by
  have hgiven : state.markets.isGiven = true := by simpa [h, Payload.isGiven] using hne
  refine .bind (ensureMarkets_of_given hgiven (.bind (.get (.bind (.lift (fun listed hlisted => ?_)
    (h ▸ .ok))))))
  rw [h] at hlisted
  obtain rfl : entries = listed := Except.ok.inj hlisted
  refine .bind ((readMarkets_achieves (.nil _) _).mono ?_)
  rintro rules next ⟨readings, haccounts, hrules, -, -⟩
  refine .bind (.note (.pure fun own hown => haccounts.mem_iff.1 ?_))
  simpa [hrules] using hown

/-! ## Two tables of one listing -/

/-- If a client knows markets, it knows the unified symbols of the same markets. -/
def State.Ready (state : State) : Prop :=
  state.markets.isGiven = true →
    ∃ entries, state.markets = .object entries ∧ unifiedSymbols entries = .ok state.unified

/-- Whether both tables come from one listing depends on these tables only. -/
theorem State.Ready.of_remembers {next : State} (h : state.Ready) (hnext : Remembers state next) :
    next.Ready := by
  rw [State.Ready, hnext.markets, hnext.unified]
  exact h

/-- If the venue lists markets, their unified symbols can be told. -/
def ListsMarkets (venue : Venue) : Prop :=
  ∀ markets, venue.answer .markets = .ok markets →
    ∃ entries unified, markets = .object entries ∧ unifiedSymbols entries = .ok unified

/-- A connection changes both tables or none. -/
theorem connect_ready (h : state.Ready) (hvenue : ListsMarkets client.venue) :
    Achieves client.connect state (fun _ => State.Ready) fun _ => State.Ready := by
  unfold Achieves
  cases hanswer : client.venue.answer .markets with
  | error failure =>
    rw [run_connect_of_error hanswer]
    exact h
  | ok markets =>
    obtain ⟨entries, unified, rfl, hunified⟩ := hvenue markets hanswer
    rw [run_connect_of_ok hanswer hunified]
    exact fun _ => ⟨entries, rfl, hunified⟩

/-- Making sure that markets are known changes both tables or none. -/
theorem ensureMarkets_ready (h : state.Ready) (hvenue : ListsMarkets client.venue) :
    Achieves client.ensureMarkets state (fun _ => State.Ready) fun _ => State.Ready := by
  cases hgiven : state.markets.isGiven with
  | true => exact ensureMarkets_of_given hgiven h
  | false => exact ensureMarkets_achieves hgiven (connect_ready h hvenue)

/-- Reading rules changes both tables or none. -/
theorem tradingRules_ready (h : state.Ready) (hvenue : ListsMarkets client.venue) :
    Achieves client.tradingRules state (fun _ => State.Ready) fun _ => State.Ready :=
  tradingRules_keeps (fun _ _ hstate => hstate) (ensureMarkets_ready h hvenue)

/-- A refresh forgets the markets, so it does not matter what the client knew. -/
theorem refresh_ready (client : Client) (registry : Registry) (state : State)
    (hvenue : ListsMarkets client.venue) :
    Achieves (client.refresh registry) state (fun _ => State.Ready) fun _ => State.Ready := by
  have hnone : ({ state with markets := .object [] } : State).Ready := fun hgiven => nomatch hgiven
  refine .bind (.modify (.bind ((tradingRules_ready hnone hvenue).mono fun rules next hnext => ?_)))
  exact .bind (.lift (fun _ _ => .bind (.note (.pure hnext))) fun _ _ => hnext)

/-- Asking for a book changes both tables or none. -/
theorem book_ready (symbol : String) (limit : Option Int) (h : state.Ready)
    (hvenue : ListsMarkets client.venue) :
    Achieves (client.book symbol limit) state (fun _ => State.Ready) fun _ => State.Ready := by
  refine .bind ((ensureMarkets_ready h hvenue).mono fun _ middle hmiddle => .bind (.get ?_))
  exact .bind (.ask (fun depth _ => .bind (.lift (fun book _ => .bind (.note (.pure hmiddle)))
    fun _ _ => hmiddle)) fun _ _ => hmiddle)

/-- Asking for a price changes both tables or none. -/
theorem markPrice_ready (symbol : String) (h : state.Ready) (hvenue : ListsMarkets client.venue) :
    Achieves (client.markPrice symbol) state (fun _ => State.Ready) fun _ => State.Ready := by
  refine .bind ((ensureMarkets_ready h hvenue).mono fun _ middle hmiddle => .bind (.get ?_))
  exact .bind (.ask (fun ticker _ => .lift (fun _ _ => hmiddle) fun _ _ => hmiddle)
    fun _ _ => hmiddle)

end Client

namespace Session

open Client

variable {session : Session} {action : Action} {entries : List (String × Payload)}
  {id unified : String} {own : TradingRules}

/-- What holds at the end of some work, whether it fails or not, holds behind the step. -/
theorem state_perform {α : Type} {work : Client.Work α} {finish : α → Reply × Registry}
    {R : State → Prop} (h : Achieves work session.state (fun _ => R) fun _ => R) :
    R (session.perform work finish).2.state := by
  rcases hrun : work.run session.state with ⟨failure | x, state⟩
  · rw [perform_of_error hrun]
    exact h.of_error hrun
  · rw [perform_of_ok hrun]
    exact h.of_ok hrun

/-! ## Between two listings -/

/-- A session whose client knows markets and their unified symbols. -/
structure Loaded (session : Session) (entries : List (String × Payload)) : Prop where
  /-- The client knows the markets. -/
  markets : session.state.markets = .object entries
  /-- There are markets. -/
  ne_nil : entries ≠ []
  /-- The client knows the unified symbols of the markets. -/
  unified : unifiedSymbols entries = .ok session.state.unified

theorem Loaded.isGiven (h : session.Loaded entries) :
    session.fresh.state.markets.isGiven = true := by
  have hmarkets : session.fresh.state.markets = .object entries := h.markets
  rw [hmarkets]
  simpa [Payload.isGiven] using h.ne_nil

theorem Loaded.of_remembers {next : Session} (h : session.Loaded entries)
    (hnext : Remembers session.fresh.state next.state) : next.Loaded entries :=
  ⟨hnext.markets.trans h.markets, h.ne_nil, hnext.unified ▸ h.unified⟩

/-- Only a connection and a refresh change what a client knows. -/
theorem loaded_step (h : session.Loaded entries) (hconnect : action ≠ .connect)
    (hrefresh : action ≠ .refresh) : (session.step action).2.Loaded entries := by
  cases action with
  | change venue => exact h.of_remembers ⟨rfl, rfl⟩
  | connect => exact absurd rfl hconnect
  | close => exact h.of_remembers (@state_perform session.fresh _ _ _ _ close_achieves)
  | tradingRules =>
    exact h.of_remembers (@state_perform session.fresh _ _ _ _ (tradingRules_remembers h.isGiven))
  | refresh => exact absurd rfl hrefresh
  | book symbol limit =>
    have hbook := book_achieves session.client symbol limit h.isGiven
    exact h.of_remembers (@state_perform session.fresh _ _ _ _ hbook).toRemembers
  | markPrice symbol =>
    have hprice := markPrice_achieves session.client symbol h.isGiven
    exact h.of_remembers (@state_perform session.fresh _ _ _ _ hprice).toRemembers

/-- The steps between two listings. -/
def Between (actions : List Action) : Prop :=
  ∀ action ∈ actions, action ≠ .connect ∧ action ≠ .refresh

/-- What a client knows lasts until it asks for the markets again. -/
theorem loaded_run (h : session.Loaded entries) {actions : List Action}
    (hactions : Between actions) : (session.run actions).Loaded entries := by
  -- on the actions; each of them leaves what the client knows as it is
  induction actions generalizing session with
  | nil => exact h
  | cons action later ih =>
    obtain ⟨⟨hconnect, hrefresh⟩, hlater⟩ := List.forall_mem_cons.1 hactions
    exact ih (loaded_step h hconnect hrefresh) hlater

/-! ## Whole runs -/

/-- A session that has not begun knows no markets. -/
theorem ready_start (client : Client) (quoteAsset : String) :
    (start client quoteAsset).state.Ready := by
  intro hgiven
  cases hgiven

/-- Both tables of a client come from one listing after any step on a venue whose unified symbols
can be told. -/
theorem ready_step (h : session.state.Ready) (hvenue : ListsMarkets session.client.venue)
    (action : Action) : (session.step action).2.state.Ready := by
  cases action with
  | change venue => exact h
  | connect => exact @state_perform session.fresh _ _ _ _ (connect_ready h hvenue)
  | close =>
    exact @State.Ready.of_remembers session.fresh.state _ h
      (@state_perform session.fresh _ _ _ _ close_achieves)
  | tradingRules => exact @state_perform session.fresh _ _ _ _ (tradingRules_ready h hvenue)
  | refresh => exact @state_perform session.fresh _ _ _ _ (refresh_ready _ _ _ hvenue)
  | book symbol limit =>
    exact @state_perform session.fresh _ _ _ _ (book_ready symbol limit h hvenue)
  | markPrice symbol => exact @state_perform session.fresh _ _ _ _ (markPrice_ready symbol h hvenue)

/-- A session whose venue lists only markets whose unified symbols can be told, at every step. -/
def Lists (session : Session) (actions : List Action) : Prop :=
  ∀ before action after, actions = before ++ action :: after →
    ListsMarkets (session.run before).client.venue

/-- Both tables of a client come from one listing after any run on a venue whose unified symbols can
be told at every step. -/
theorem ready_run {actions : List Action} (h : session.state.Ready)
    (hlists : session.Lists actions) : (session.run actions).state.Ready := by
  -- on the steps, from the end: those before the last one lead to a client of one listing
  induction actions using List.reverseRecOn with
  | nil => exact h
  | append_singleton earlier action ih =>
    have hready := ih fun before other after hsplit =>
      hlists before other (after ++ [action]) (by simp [hsplit])
    rw [run_append]
    exact ready_step hready (hlists earlier action [] rfl) action

/-! ## Where rules come from -/

/-- The rules that a step gives: it returns them, or it has put them into the registry. -/
inductive Yields (session : Session) : Action → TradingRules → Prop
  /-- Rules that are read are returned. -/
  | returned {rules : List TradingRules} {own : TradingRules}
    (hreply : (session.step .tradingRules).1 = .ok (.rules rules)) (hown : own ∈ rules) :
    Yields session .tradingRules own
  /-- A refresh that returns has filled a table. -/
  | installed {reply : Reply} {id : MarketId} {own : TradingRules}
    (hreply : (session.step .refresh).1 = .ok reply)
    (hown : (id, own) ∈ (session.step .refresh).2.registry.table.entries) :
    Yields session .refresh own

/-- The market that the rules of a step come from, among those that the client knows behind the
step. -/
structure Origin (session : Session) (action : Action) (own : TradingRules)
    (before : List (String × Payload)) (unified : String) (market : Payload)
    (after : List (String × Payload)) : Prop where
  /-- The client knows the markets behind the step. -/
  markets : (session.step action).2.state.markets = .object (before ++ (unified, market) :: after)
  /-- The venue has listed them for the step, unless the client knew them and did not refresh. -/
  answer (hasked : session.state.markets.isGiven = false ∨ action = .refresh) :
    session.client.venue.answer .markets = .ok (.object (before ++ (unified, market) :: after))
  /-- The market gives the rules. -/
  gives : Gives session.client.settings.defaultPriceBand market own
  /-- No market before it gives rules for their identifier. -/
  free : ¬ Taken session.client.settings.defaultPriceBand before own.symbol

/-- A client that has read rules knows the markets that they come from. -/
theorem listed_of_rules (hnone : session.state.markets.isGiven = false)
    {rules : List TradingRules} (hreply : (session.step .tradingRules).1 = .ok (.rules rules)) :
    ∃ entries readings, Listed session.client session.fresh.state entries readings rules
      (session.step .tradingRules).2.state := by
  have hachieves := @tradingRules_achieves session.fresh.state session.client hnone
  have hstep : session.step .tradingRules =
      session.fresh.performOnly session.client.tradingRules .rules := rfl
  rw [hstep, performOnly] at hreply ⊢
  rcases hrun : session.client.tradingRules.run session.fresh.state with ⟨failure | found, state⟩
  · rw [perform_of_error hrun] at hreply
    cases hreply
  · rw [perform_of_ok hrun] at hreply ⊢
    obtain rfl : found = rules := Reply.rules.inj (Except.ok.inj hreply)
    exact hachieves.of_ok hrun

/-- A client that knows markets and has read rules has read those of the leading ones. -/
theorem leads_of_rules (h : session.Loaded entries) {rules : List TradingRules}
    (hreply : (session.step .tradingRules).1 = .ok (.rules rules)) (hown : own ∈ rules) :
    Leads session.client.settings.defaultPriceBand entries own := by
  have hachieves := @tradingRules_of_known session.client session.fresh.state _ h.markets h.ne_nil
  have hstep : session.step .tradingRules =
      session.fresh.performOnly session.client.tradingRules .rules := rfl
  rw [hstep, performOnly] at hreply
  rcases hrun : session.client.tradingRules.run session.fresh.state with ⟨failure | found, state⟩
  · rw [perform_of_error hrun] at hreply
    cases hreply
  · rw [perform_of_ok hrun] at hreply
    obtain rfl : found = rules := Reply.rules.inj (Except.ok.inj hreply)
    exact hachieves.of_ok hrun own hown

/-- A client that has refreshed knows the markets that the table is of. -/
theorem known_of_refresh {reply : Reply} (hreply : (session.step .refresh).1 = .ok reply) :
    ∃ entries, session.client.venue.answer .markets = .ok (.object entries) ∧
      (session.step .refresh).2.state.markets = .object entries ∧
      unifiedSymbols entries = .ok (session.step .refresh).2.state.unified := by
  have hachieves := refresh_achieves session.client session.registry session.fresh.state
  have hstep : session.step .refresh = session.fresh.perform
      (session.client.refresh session.registry) fun result => (.version result.1, result.2) := rfl
  rw [hstep] at hreply ⊢
  rcases hrun : (session.client.refresh session.registry).run session.fresh.state with
    ⟨failure | result, state⟩
  · rw [perform_of_error hrun] at hreply
    cases hreply
  · obtain ⟨entries, readings, rules, listed, hlisted, rfl, rfl⟩ := hachieves.of_ok hrun
    rw [perform_of_ok hrun]
    exact ⟨entries, hlisted.answer, hlisted.markets, hlisted.unified⟩

/-- Where a market leads there are markets. -/
theorem ne_nil_of_leads {band : Decimal} (h : Leads band entries own) : entries ≠ [] := by
  rintro rfl
  obtain ⟨before, symbol, market, after, hsplit, -⟩ := h
  simp at hsplit

/-- The rules of a step are those of a leading market of a listing that the client knows from there
on. -/
theorem exists_listing (hready : session.state.Ready) (h : session.Yields action own) :
    ∃ entries, (session.step action).2.Loaded entries ∧
      (session.state.markets.isGiven = false ∨ action = .refresh →
        session.client.venue.answer .markets = .ok (.object entries)) ∧
      Leads session.client.settings.defaultPriceBand entries own := by
  cases h with
  | returned hreply hown =>
    cases hgiven : session.state.markets.isGiven with
    | true =>
      obtain ⟨entries, hmarkets, hunified⟩ := hready hgiven
      have hloaded : session.Loaded entries :=
        ⟨hmarkets, by simpa [hmarkets, Payload.isGiven] using hgiven, hunified⟩
      exact ⟨entries, loaded_step hloaded (by simp) (by simp), by simp,
        leads_of_rules hloaded hreply hown⟩
    -- The request itself loads the markets, from the answer of the venue at that time.
    | false =>
      obtain ⟨entries, readings, hlisted⟩ := listed_of_rules hgiven hreply
      have hleads : Leads session.client.settings.defaultPriceBand entries own :=
        hlisted.accounts.mem_iff.1 (hlisted.rules_eq ▸ hown)
      exact ⟨entries, ⟨hlisted.markets, ne_nil_of_leads hleads, hlisted.unified⟩,
        fun _ => hlisted.answer, hleads⟩
  | installed hreply hown =>
    obtain ⟨entries, hanswer, hmarkets, hunified⟩ := known_of_refresh hreply
    obtain ⟨-, listed, readings, hrefreshed⟩ := (keeps_step session _).refreshed _ rfl hreply
    obtain rfl : entries = listed :=
      Payload.object.inj (Except.ok.inj (hanswer.symm.trans hrefreshed.answer))
    have hleads := ((hrefreshed.serves.mem_iff _ _).1 hown).2
    exact ⟨entries, ⟨hmarkets, ne_nil_of_leads hleads, hunified⟩, fun _ => hanswer, hleads⟩

/-! ## Where market data is asked for -/

/-- A session that asks for the market data of an identifier under a unified symbol. -/
structure Queries (session : Session) (id unified : String) : Prop where
  /-- The request for a book. -/
  book (limit : Option Int) : (session.step (.book id limit)).2.state.requests =
    [.book unified (session.client.levelCount limit)]
  /-- The request for a price. -/
  markPrice : (session.step (.markPrice id)).2.state.requests = [.ticker unified]

/-- A client that knows markets asks for the last one of an identifier. -/
theorem queries_of_loaded (h : session.Loaded entries) (hlast : Last entries id unified)
    (hupper : Text.upper id = id) : session.Queries id unified := by
  have hunified : unifiedOf session.fresh.state (Text.upper id) = unified := by
    rw [hupper]
    exact unifiedOf_of_last h.unified hlast
  refine ⟨fun limit => ?_, ?_⟩
  · have hbook := book_achieves session.client id limit h.isGiven
    rw [hunified] at hbook
    exact (@state_perform session.fresh _ _ _ _ hbook).requests
  · have hprice := markPrice_achieves session.client id h.isGiven
    rw [hunified] at hprice
    exact (@state_perform session.fresh _ _ _ _ hprice).requests

/-- After a step that gives rules, at any point of a run on a venue whose unified symbols can be
told, a client asks for the market data of the last market of their identifier, until it asks for
the markets again. That is the market of the rules exactly if no later one has the identifier too,
provided that the venue lists no unified symbol twice. -/
theorem queries_run (hready : session.state.Ready) {earlier : List Action}
    (hlists : session.Lists earlier) (hyields : (session.run earlier).Yields action own)
    (hupper : Text.upper id = id) {later : List Action} (hlater : Between later) :
    ∃ before unified market after,
      (session.run earlier).Origin action own before unified market after ∧
      (IsFoundBy id market → ∃ last, Last (before ++ (unified, market) :: after) id last ∧
        (((session.run earlier).step action).2.run later).Queries id last ∧
        ((∀ entry ∈ after, ¬ IsFoundBy id entry.2) → last = unified) ∧
        (((before ++ (unified, market) :: after).map Prod.fst).Nodup → last = unified →
          ∀ entry ∈ after, ¬ IsFoundBy id entry.2)) := by
  obtain ⟨entries, hloaded, hanswer, hleads⟩ := exists_listing (ready_run hready hlists) hyields
  obtain ⟨before, unified, market, after, rfl, hgives, hfree⟩ := hleads
  refine ⟨before, unified, market, after, ⟨hloaded.markets, hanswer, hgives, hfree⟩,
    fun hfound => ?_⟩
  obtain ⟨last, hlast⟩ := exists_last
    ⟨(unified, market), List.mem_append_right before List.mem_cons_self, hfound⟩
  have hqueries := queries_of_loaded (loaded_run hloaded hlater) hlast hupper
  refine ⟨last, hlast, hqueries, fun hunused => ?_, ?_⟩
  · exact last_unique hloaded.unified hlast ⟨before, market, after, rfl, hfound, hunused⟩
  · -- the last market of the identifier is the one of the rules, so it has the same ones behind it
    rintro hnodup rfl
    obtain ⟨_, _, _, hsplit, -, hunused⟩ := hlast
    rwa [after_eq_of_nodup hsplit hnodup]

/-! ### Two markets of one identifier -/

namespace Sample

/-- A swap and a spot market of one identifier. -/
def repeated : List (String × Payload) :=
  [("BTC/USDT:USDT", traded "BTCUSDT"), ("BTC/USDT", traded "BTCUSDT")]

/-- A client of a venue that lists them. -/
def repeatedClient : Client where
  settings := {}
  venue := { markets := .object repeated }

theorem last_repeated : Last repeated "BTCUSDT" "BTC/USDT" :=
  ⟨[("BTC/USDT:USDT", traded "BTCUSDT")], traded "BTCUSDT", [], rfl, rfl, by simp⟩

end Sample

/-- The second market was dropped when the rules were read, but the book and the price are asked for
under its unified symbol. -/
theorem queries_run_repeated : ∃ own,
    ((start Sample.repeatedClient "USDT").step .tradingRules).1 = .ok (.rules [own]) ∧
      Event.duplicate "BTC/USDT" own.symbol ∈
        ((start Sample.repeatedClient "USDT").step .tradingRules).2.state.events ∧
      ((start Sample.repeatedClient "USDT").step .tradingRules).2.Queries "BTCUSDT" "BTC/USDT" := by
  obtain ⟨own, hreply, hdropped⟩ : ∃ own,
      ((start Sample.repeatedClient "USDT").step .tradingRules).1 = .ok (.rules [own]) ∧
      Event.duplicate "BTC/USDT" own.symbol ∈
        ((start Sample.repeatedClient "USDT").step .tradingRules).2.state.events :=
    ⟨_, rfl, List.mem_cons_of_mem _ (List.mem_cons_of_mem _ List.mem_cons_self)⟩
  refine ⟨own, hreply, hdropped, ?_⟩
  have hupper : Text.upper "BTCUSDT" = "BTCUSDT" := by decide
  have hyields : ((start Sample.repeatedClient "USDT").run []).Yields .tradingRules own :=
    .returned hreply (List.mem_singleton_self own)
  obtain ⟨before, unified, market, after, horigin, hqueries⟩ :=
    queries_run (ready_start _ _) (by simp [Lists]) hyields hupper (List.forall_mem_nil _)
  have hentries : Sample.repeated = before ++ (unified, market) :: after :=
    Payload.object.inj (Except.ok.inj (horigin.answer (.inl rfl)))
  -- both markets have the identifier
  have hmarket : market = Sample.traded "BTCUSDT" := by
    have hmem : (unified, market) ∈ Sample.repeated := by simp [hentries]
    simp only [Sample.repeated, List.mem_cons, List.not_mem_nil, or_false, Prod.mk.injEq] at hmem
    rcases hmem with ⟨-, hmarket⟩ | ⟨-, hmarket⟩ <;> exact hmarket
  obtain ⟨last, hlast, hasks, -⟩ := hqueries (by rw [hmarket]; rfl)
  rw [← hentries] at hlast
  obtain rfl : last = "BTC/USDT" := last_unique rfl hlast Sample.last_repeated
  exact hasks

end Session

end OrderTicket
