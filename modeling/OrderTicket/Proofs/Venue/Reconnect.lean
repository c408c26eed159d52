import OrderTicket.Proofs.Venue.Lookup

/-!
# After a refresh that was not answered

A refresh forgets the markets before it asks for them. If the venue does not answer, the client is
left without markets, where a connection that is not answered leaves it with those that it knew.
From then on every step that needs markets asks for them first: it fails as long as the venue does
not list them, and the first one that is answered goes on as after a connection.

* `Client.IgnoresLog`: work that does not look at what was asked and noted before.
* `Action.NeedsMarkets`: the steps that need markets; `Action.NeedsMarkets.exists_rest`: what they
  have in common.
* `Session.forget`: a session without markets; `Session.fresh_run_forget`: how long it stays so.
* `Session.costs_run`: what a refresh that was not answered costs the steps that follow.
-/

namespace OrderTicket

namespace Client

variable {α β : Type} {client : Client} {state : State} {failure : Failure}

/-! ## Work behind a log -/

/-- A state behind what was asked and noted earlier. -/
def State.behind (state earlier : State) : State :=
  { state with
    requests := earlier.requests ++ state.requests
    events := earlier.events ++ state.events }

/-- Work that does not look at what was asked and noted before. -/
def IgnoresLog (work : Work α) : Prop :=
  ∀ earlier state, work.run (state.behind earlier) =
    ((work.run state).1, (work.run state).2.behind earlier)

namespace IgnoresLog

variable {work : Work α}

theorem pure {x : α} : IgnoresLog (pure x : Work α) :=
  fun _ _ => rfl

theorem lift {x : Except Failure α} : IgnoresLog (Client.lift x) :=
  fun _ _ => rfl

theorem note {event : Event} : IgnoresLog (Client.note event) := by
  intro earlier state
  simp only [run_note, State.behind, List.append_assoc]

theorem ask {request : Request} : IgnoresLog (client.ask request) := by
  intro earlier state
  simp only [run_ask, State.behind, List.append_assoc]

/-- Work in two steps does not look at the log if neither step does. -/
theorem bind {next : α → Work β} (h : IgnoresLog work) (hnext : ∀ x, IgnoresLog (next x)) :
    IgnoresLog (work >>= next) := by
  intro earlier state
  rw [run_bind, run_bind, h earlier state]
  rcases work.run state with ⟨failure | x, middle⟩
  · rfl
  · exact hnext x earlier middle

/-- Work that goes by the markets that a client remembers. -/
theorem get {next : State → Work β}
    (hsame : ∀ earlier state, next (state.behind earlier) = next state)
    (hnext : ∀ state, IgnoresLog (next state)) : IgnoresLog (get >>= next) := by
  intro earlier state
  rw [run_get_bind, run_get_bind, hsame]
  exact hnext state earlier state

end IgnoresLog

/-- Reading markets does not look at the log. -/
theorem readMarkets_ignoresLog (band : Decimal) (known : List TradingRules)
    (entries : List (String × Payload)) : IgnoresLog (readMarkets band known entries) := by
  induction entries generalizing known with
  | nil => exact .pure
  | cons entry rest ih =>
    refine .bind .lift fun reading => ?_
    cases reading with
    | inactive => exact ih known
    | rules rules => exact ih (known ++ [rules])
    | left event => exact .bind .note fun _ => ih known

/-! ## Work that needs markets -/

/-- Work that makes sure that markets are known, and does not look at the log from there on. -/
def NeedsMarkets (client : Client) (work : Work α) : Prop :=
  ∃ rest : Work α, IgnoresLog rest ∧ work = client.ensureMarkets >>= fun _ => rest

/-- Reading the rules of all markets needs markets. -/
theorem tradingRules_needsMarkets (client : Client) : client.NeedsMarkets client.tradingRules := by
  refine ⟨_, ?_, rfl⟩
  exact .get (fun _ _ => rfl) fun state => .bind .lift fun entries =>
    .bind (readMarkets_ignoresLog _ _ _) fun rules => .bind .note fun _ => .pure

/-- Asking for a book needs markets. -/
theorem book_needsMarkets (client : Client) (symbol : String) (limit : Option Int) :
    client.NeedsMarkets (client.book symbol limit) := by
  refine ⟨_, ?_, rfl⟩
  exact .get (fun _ _ => rfl) fun state => .bind .ask fun depth => .bind .lift fun book =>
    .bind .note fun _ => .pure

/-- Asking for a price needs markets. -/
theorem markPrice_needsMarkets (client : Client) (symbol : String) :
    client.NeedsMarkets (client.markPrice symbol) := by
  refine ⟨_, ?_, rfl⟩
  exact .get (fun _ _ => rfl) fun state => .bind .ask fun ticker => .lift

/-- Work that needs markets fails if none are known and the venue does not answer. -/
theorem NeedsMarkets.run_of_error {work : Work α} (h : client.NeedsMarkets work)
    (hnone : state.markets.isGiven = false)
    (herror : client.venue.answer .markets = .error failure) :
    work.run state = (.error failure,
      { state with
        requests := state.requests ++ [.markets]
        events := state.events ++ [.connecting client.settings.venue] }) := by
  obtain ⟨rest, -, rfl⟩ := h
  rw [run_bind, run_ensureMarkets, hnone, if_neg Bool.false_ne_true, run_connect_of_error herror]

/-- If the venue answers, work that needs markets goes on as work of a client that has just asked
for them. -/
theorem NeedsMarkets.run_of_ok {work : Work α} (h : client.NeedsMarkets work) {next : State}
    (hnone : state.markets.isGiven = false) (hconnect : client.connect.run state = (.ok (), next))
    (hgiven : next.markets.isGiven = true) :
    work.run state = ((work.run { next with requests := [], events := [] }).1,
      (work.run { next with requests := [], events := [] }).2.behind next) := by
  obtain ⟨rest, hrest, rfl⟩ := h
  have hnext : next = ({ next with requests := [], events := [] } : State).behind next := by
    simp [State.behind]
  have hfirst : (client.ensureMarkets >>= fun _ => rest).run state = rest.run next := by
    rw [run_bind, run_ensureMarkets, hnone, if_neg Bool.false_ne_true, hconnect]
  have hlater : (client.ensureMarkets >>= fun _ => rest).run
      { next with requests := [], events := [] } =
        rest.run { next with requests := [], events := [] } := by
    rw [run_bind, run_ensureMarkets, if_pos hgiven]
  rw [hfirst, hlater, ← hrest, ← hnext]

/-- A client that knows markets asks for nothing to read their rules. -/
theorem tradingRules_requests (h : state.markets.isGiven = true) :
    Achieves client.tradingRules state (fun _ next => next.requests = state.requests)
      fun _ next => next.requests = state.requests :=
  tradingRules_keeps (fun _ _ hstate => hstate) (ensureMarkets_of_given h rfl)

end Client

open Client

/-- The steps that need markets. -/
def Action.NeedsMarkets : Action → Prop
  | .tradingRules | .book .. | .markPrice _ => True
  | _ => False

/-- The steps that need markets are work of the client that does. -/
theorem Action.NeedsMarkets.exists_work {action : Action} (h : action.NeedsMarkets) :
    ∃ (α : Type) (work : Client → Client.Work α) (reply : α → Reply),
      (∀ client : Client, client.NeedsMarkets (work client)) ∧
        ∀ session : Session, session.step action =
          session.fresh.performOnly (work session.client) reply := by
  cases action with
  | tradingRules => exact ⟨_, Client.tradingRules, .rules, tradingRules_needsMarkets, fun _ => rfl⟩
  | book symbol limit =>
    exact ⟨_, (·.book symbol limit), .book, (book_needsMarkets · symbol limit), fun _ => rfl⟩
  | markPrice symbol =>
    exact ⟨_, (·.markPrice symbol), .price, (markPrice_needsMarkets · symbol), fun _ => rfl⟩
  | change venue => exact h.elim
  | connect => exact h.elim
  | close => exact h.elim
  | refresh => exact h.elim

namespace Session

variable {session kept lost connected : Session} {action : Action} {failure : Failure}
  {entries : List (String × Payload)}

/-! ## Sessions without markets -/

/-- A session that has forgotten the markets. -/
def forget (session : Session) : Session :=
  { session with state := { session.state with markets := .object [] } }

/-- A session that has asked for markets and was not answered. -/
def unheard (session : Session) : Session :=
  { session with
    state := { session.state with
      requests := [.markets]
      events := [.connecting session.client.settings.venue] } }

/-- A session that has asked for markets and was told these. -/
def heard (session : Session) (entries : List (String × Payload))
    (unified : List (String × String)) : Session :=
  { session with
    state :=
      { markets := .object entries
        unified
        requests := [.markets]
        events := [.connecting session.client.settings.venue,
          .connected session.client.settings.venue entries.length] } }

/-- A session behind what was asked and noted earlier. -/
def behind (session : Session) (earlier : Client.State) : Session :=
  { session with state := session.state.behind earlier }

theorem fresh_forget_congr (h : lost.fresh = kept.fresh) : lost.forget.fresh = kept.forget.fresh :=
  congrArg forget h

/-- A step does not look at the log of the step before it. -/
theorem step_fresh (session : Session) (action : Action) :
    session.fresh.step action = session.step action :=
  rfl

/-- Sessions that differ only in their logs do the same in a step. -/
theorem fresh_step_congr (h : lost.fresh = kept.fresh) (action : Action) :
    lost.step action = kept.step action := by
  rw [← step_fresh lost, ← step_fresh kept, h]

/-- Sessions that differ only in their logs still do so after several steps. -/
theorem fresh_run_congr (h : lost.fresh = kept.fresh) (actions : List Action) :
    (lost.run actions).fresh = (kept.run actions).fresh := by
  cases actions with
  | nil => exact h
  | cons action later =>
    change ((lost.step action).2.run later).fresh = ((kept.step action).2.run later).fresh
    rw [fresh_step_congr h]

theorem performOnly_of_ok {α : Type} {work : Client.Work α} {reply : α → Reply} {x : α}
    {state : State} (h : work.run session.state = (.ok x, state)) :
    session.performOnly work reply = (.ok (reply x), { session with state }) :=
  perform_of_ok h

theorem performOnly_of_error {α : Type} {work : Client.Work α} {reply : α → Reply}
    {state : State} (h : work.run session.state = (.error failure, state)) :
    session.performOnly work reply = (.error failure, { session with state }) :=
  perform_of_error h

theorem step_connect (session : Session) :
    session.step .connect = session.fresh.performOnly session.client.connect fun _ => .done :=
  rfl

/-- A connection that is not answered leaves the session as it was. -/
theorem step_connect_of_error (h : session.client.venue.answer .markets = .error failure) :
    session.step .connect = (.error failure, session.unheard) := by
  rw [step_connect, performOnly_of_error (run_connect_of_error h session.fresh.state)]
  rfl

/-- A refresh that is not answered leaves the session without markets. -/
theorem step_refresh_of_error (h : session.client.venue.answer .markets = .error failure) :
    session.step .refresh = (.error failure, session.forget.unheard) := by
  have hrules : session.client.tradingRules.run
      { session.fresh.state with markets := .object [] } =
        (.error failure, session.forget.unheard.state) :=
    (tradingRules_needsMarkets session.client).run_of_error rfl h
  have hrun : (session.client.refresh session.registry).run session.fresh.state =
      (.error failure, session.forget.unheard.state) := by
    rw [refresh, run_bind, run_modify]
    dsimp only
    rw [run_bind, hrules]
  have hstep : session.step .refresh = session.fresh.perform
      (session.client.refresh session.registry) fun result => (.version result.1, result.2) := rfl
  rw [hstep, perform_of_error hrun]
  rfl

/-- Without markets, a step that needs some fails if the venue does not list them. -/
theorem step_forget_of_error (h : action.NeedsMarkets)
    (herror : session.client.venue.answer .markets = .error failure) :
    session.forget.step action = (.error failure, session.forget.unheard) := by
  obtain ⟨α, work, reply, hwork, hstep⟩ := h.exists_work
  have hnone : session.forget.fresh.state.markets.isGiven = false := rfl
  have hrun := (hwork session.forget.client).run_of_error hnone herror
  rw [hstep, performOnly_of_error hrun]
  rfl

/-- A connection that is answered leaves the session with the markets that are listed now. -/
theorem step_connect_of_ok {unified : List (String × String)}
    (h : session.client.venue.answer .markets = .ok (.object entries))
    (hunified : unifiedSymbols entries = .ok unified) :
    session.step .connect = (.ok .done, session.heard entries unified) := by
  rw [step_connect, performOnly_of_ok (run_connect_of_ok h hunified session.fresh.state)]
  rfl

/-- A connection that returns was answered. -/
theorem exists_answer_of_connect (h : session.step .connect = (.ok .done, connected)) :
    ∃ entries unified, session.client.venue.answer .markets = .ok (.object entries) ∧
      unifiedSymbols entries = .ok unified ∧ connected = session.heard entries unified := by
  have hachieves := connect_achieves session.client session.fresh.state
  rcases hrun : session.client.connect.run session.fresh.state with ⟨failure | _, next⟩
  · rw [step_connect, performOnly_of_error hrun] at h
    cases h
  · obtain ⟨entries, unified, hanswer, hunified, -⟩ := hachieves.of_ok hrun
    refine ⟨entries, unified, hanswer, hunified, ?_⟩
    rw [step_connect_of_ok hanswer hunified] at h
    exact (Prod.mk.inj h).2.symm

/-- Work that adds the same behind an earlier log gives the same reply in two sessions. -/
theorem performOnly_behind {α : Type} {work : Client.Work α} {reply : α → Reply}
    {earlier : Client.State} (hclient : lost.client = kept.client)
    (hregistry : lost.registry = kept.registry)
    (h : work.run lost.state = ((work.run kept.state).1, (work.run kept.state).2.behind earlier)) :
    lost.performOnly work reply =
      ((kept.performOnly work reply).1, (kept.performOnly work reply).2.behind earlier) := by
  unfold performOnly perform
  rw [h]
  rcases work.run kept.state with ⟨failure | x, next⟩ <;> simp [behind, hclient, hregistry]

/-- Without markets, a step that needs some goes on as after a connection. -/
theorem step_forget_of_ok {unified : List (String × String)} (h : action.NeedsMarkets)
    (hanswer : session.client.venue.answer .markets = .ok (.object entries))
    (hunified : unifiedSymbols entries = .ok unified) (hne : entries ≠ []) :
    session.forget.step action =
      (((session.heard entries unified).step action).1,
        ((session.heard entries unified).step action).2.behind
          (session.heard entries unified).state) := by
  obtain ⟨α, work, reply, hwork, hstep⟩ := h.exists_work
  have hnone : session.forget.fresh.state.markets.isGiven = false := rfl
  have hconnect : session.client.connect.run session.forget.fresh.state =
      (.ok (), (session.heard entries unified).state) :=
    run_connect_of_ok hanswer hunified session.forget.fresh.state
  have hgiven : (session.heard entries unified).state.markets.isGiven = true := by
    simpa [heard, Payload.isGiven] using hne
  have hrun := (hwork session.client).run_of_ok hnone hconnect hgiven
  rw [hstep, hstep]
  exact performOnly_behind rfl rfl hrun

/-! ## Sessions that know markets -/

/-- A session that remembers the same markets is the same but for its log. -/
theorem fresh_of_remembers {next : State} (h : Remembers session.state next) :
    ({ session with state := next } : Session).fresh = session.fresh := by
  simp [fresh, h.markets, h.unified]

/-- Work that leaves the markets as they are leaves the session as it is. -/
theorem fresh_performOnly {α : Type} {work : Client.Work α} {reply : α → Reply}
    (h : Remembers session.state (session.performOnly work reply).2.state) :
    (session.performOnly work reply).2.fresh = session.fresh := by
  rcases hrun : work.run session.state with ⟨failure | x, next⟩
  · rw [performOnly_of_error hrun] at h ⊢
    exact fresh_of_remembers h
  · rw [performOnly_of_ok hrun] at h ⊢
    exact fresh_of_remembers h

/-- A session that takes leave of the venue is the same as before. -/
theorem fresh_step_close (session : Session) : (session.step .close).2.fresh = session.fresh :=
  @fresh_performOnly session.fresh _ _ _ (@state_perform session.fresh _ _ _ _ close_achieves)

/-- A session that knows markets is the same behind a step that needs some. -/
theorem Loaded.fresh_step (h : session.Loaded entries) (haction : action.NeedsMarkets) :
    (session.step action).2.fresh = session.fresh := by
  cases action with
  | tradingRules =>
    have hrules := @tradingRules_remembers session.client _ h.isGiven
    exact @fresh_performOnly session.fresh _ _ _ (@state_perform session.fresh _ _ _ _ hrules)
  | book symbol limit =>
    have hbook := book_achieves session.client symbol limit h.isGiven
    exact @fresh_performOnly session.fresh _ _ _
      (@state_perform session.fresh _ _ _ _ hbook).toRemembers
  | markPrice symbol =>
    have hprice := markPrice_achieves session.client symbol h.isGiven
    exact @fresh_performOnly session.fresh _ _ _
      (@state_perform session.fresh _ _ _ _ hprice).toRemembers
  | change venue => exact haction.elim
  | connect => exact haction.elim
  | close => exact haction.elim
  | refresh => exact haction.elim

/-- A session that knows markets does not ask for them in a step that needs some. -/
theorem Loaded.markets_not_mem_requests (h : session.Loaded entries)
    (haction : action.NeedsMarkets) : .markets ∉ (session.step action).2.state.requests := by
  -- The markets are asked for only by an action that finds none, and here they are given.
  cases action with
  | tradingRules =>
    have hrules := @tradingRules_requests session.client _ h.isGiven
    have hnone : (session.step .tradingRules).2.state.requests = [] :=
      @state_perform session.fresh _ _ _ (·.requests = []) hrules
    simp [hnone]
  | book symbol limit =>
    have hbook := book_achieves session.client symbol limit h.isGiven
    have hone : (session.step (.book symbol limit)).2.state.requests = [.book _ _] :=
      (@state_perform session.fresh _ _ _ _ hbook).requests
    simp [hone]
  | markPrice symbol =>
    have hprice := markPrice_achieves session.client symbol h.isGiven
    have hone : (session.step (.markPrice symbol)).2.state.requests = [.ticker _] :=
      (@state_perform session.fresh _ _ _ _ hprice).requests
    simp [hone]
  | change venue => exact haction.elim
  | connect => exact haction.elim
  | close => exact haction.elim
  | refresh => exact haction.elim

/-- A session that connects to the markets that it knows is the same as before. -/
theorem Loaded.fresh_heard (h : session.Loaded entries) :
    (session.heard entries session.state.unified).fresh = session.fresh := by
  simp [heard, fresh, h.markets]

/-! ## Runs -/

/-- A session in which the venue does not list its markets whenever a step needs some. -/
def Silent (session : Session) (actions : List Action) : Prop :=
  ∀ before action after, actions = before ++ action :: after → action.NeedsMarkets →
    ∃ failure, (session.run before).client.venue.answer .markets = .error failure

/-- A session without markets stays the one that has forgotten them, step by step. -/
theorem fresh_step_forget (h : lost.fresh = kept.forget.fresh) (hloaded : kept.Loaded entries)
    (hconnect : action ≠ .connect) (hrefresh : action ≠ .refresh)
    (hsilent : action.NeedsMarkets →
      ∃ failure, kept.client.venue.answer .markets = .error failure) :
    (lost.step action).2.fresh = (kept.step action).2.forget.fresh := by
  rw [fresh_step_congr h]
  by_cases hneeds : action.NeedsMarkets
  · obtain ⟨failure, hfailure⟩ := hsilent hneeds
    rw [step_forget_of_error hneeds hfailure]
    exact (fresh_forget_congr (hloaded.fresh_step hneeds)).symm
  · cases action with
    | change venue => rfl
    | close =>
      exact (fresh_step_close kept.forget).trans (fresh_forget_congr (fresh_step_close kept)).symm
    | connect => exact absurd rfl hconnect
    | refresh => exact absurd rfl hrefresh
    | tradingRules => exact absurd trivial hneeds
    | book symbol limit => exact absurd trivial hneeds
    | markPrice symbol => exact absurd trivial hneeds

/-- A session without markets stays the one that has forgotten them as long as the venue does not
list them. -/
theorem fresh_run_forget {later : List Action} (h : lost.fresh = kept.forget.fresh)
    (hloaded : kept.Loaded entries) (hbetween : Between later) (hsilent : kept.Silent later) :
    (lost.run later).fresh = (kept.run later).forget.fresh := by
  -- on the steps, from the end: those before the last one lead to a pair of such sessions
  induction later using List.reverseRecOn with
  | nil => exact h
  | append_singleton earlier action ih =>
    have hearlier : Between earlier := fun other hother =>
      hbetween other (List.mem_append_left _ hother)
    have hpair := ih hearlier fun before other after hsplit =>
      hsilent before other (after ++ [action]) (by simp [hsplit])
    obtain ⟨hconnect, hrefresh⟩ := hbetween action (by simp)
    rw [run_append, run_append]
    exact fresh_step_forget hpair (loaded_run hloaded hearlier) hconnect hrefresh
      (hsilent earlier action [] rfl)

/-! ## What a refresh that was not answered costs -/

/-- A step that asks for the markets first, and does then what another session does without. From
there on the two sessions do the same. -/
structure CatchesUp (lost other : Session) (action : Action) : Prop where
  /-- The step replies the same. -/
  reply_eq : (lost.step action).1 = (other.step action).1
  /-- The step asks for the markets, and then for what the other one asks for. -/
  requests_eq : (lost.step action).2.state.requests =
    .markets :: (other.step action).2.state.requests
  /-- Every later step is the same. -/
  step_eq (later : List Action) (next : Action) :
    ((lost.step action).2.run later).step next = ((other.step action).2.run later).step next

/-- What a step that needs markets does in a session that has lost them, compared with one that
knows them. -/
structure Costs (entries : List (String × Payload)) (kept lost : Session) (action : Action) :
    Prop where
  /-- The session that knows the markets does not ask for them. -/
  not_mem : .markets ∉ (kept.step action).2.state.requests
  /-- The session that lost them asks for nothing else, and fails, if the venue does not answer. -/
  unanswered (failure : Failure) (h : kept.client.venue.answer .markets = .error failure) :
    (lost.step action).1 = .error failure ∧ (lost.step action).2.state.requests = [.markets]
  /-- If the venue still lists the same markets, it catches up with the session that knows them. -/
  relisted (h : kept.client.venue.answer .markets = .ok (.object entries)) :
    lost.CatchesUp kept action
  /-- If it lists other markets, it catches up with a session that connects to them. -/
  connected (connected : Session) (h : kept.step .connect = (.ok .done, connected))
    (hgiven : connected.state.markets.isGiven = true) : lost.CatchesUp connected action

/-- A session without markets catches up with one that was told which there are. -/
theorem catchesUp_heard {unified : List (String × String)} (h : lost.fresh = kept.forget.fresh)
    (haction : action.NeedsMarkets)
    (hanswer : kept.client.venue.answer .markets = .ok (.object entries))
    (hunified : unifiedSymbols entries = .ok unified) (hne : entries ≠ []) :
    lost.CatchesUp (kept.heard entries unified) action := by
  have hstep : lost.step action = _ :=
    (fresh_step_congr h action).trans
      (step_forget_of_ok haction hanswer hunified hne)
  refine ⟨by rw [hstep], by rw [hstep]; rfl, fun later next => ?_⟩
  rw [hstep]
  have hfresh : (((kept.heard entries unified).step action).2.behind
      (kept.heard entries unified).state).fresh =
        ((kept.heard entries unified).step action).2.fresh := rfl
  exact fresh_step_congr (fresh_run_congr hfresh later) next

/-- Catching up with a session does not depend on its log. -/
theorem CatchesUp.congr {other : Session} (h : lost.CatchesUp other action)
    (hother : other.fresh = kept.fresh) : lost.CatchesUp kept action := by
  obtain ⟨hreply, hrequests, hlater⟩ := h
  rw [fresh_step_congr hother action] at hreply hrequests hlater
  exact ⟨hreply, hrequests, hlater⟩

/-- What a step costs in a session that has forgotten the markets. -/
theorem costs_of_forget (h : lost.fresh = kept.forget.fresh) (hloaded : kept.Loaded entries)
    (haction : action.NeedsMarkets) : Costs entries kept lost action where
  not_mem := hloaded.markets_not_mem_requests haction
  unanswered failure hfailure := by
    rw [fresh_step_congr h,
      step_forget_of_error haction hfailure]
    exact ⟨rfl, rfl⟩
  relisted hanswer := (catchesUp_heard h haction hanswer hloaded.unified hloaded.ne_nil).congr
    hloaded.fresh_heard
  connected connected hconnect hgiven := by
    obtain ⟨listed, unified, hanswer, hunified, rfl⟩ := exists_answer_of_connect hconnect
    have hne : listed ≠ [] := by simpa [heard, Payload.isGiven] using hgiven
    exact catchesUp_heard h haction hanswer hunified hne

/-- A refresh that is not answered fails, and the registry is as before. From then on, until the
client connects or refreshes again, every step that needs markets asks for them and fails until the
venue lists them. The first one that is answered does what the session would do without the refresh
if the markets are the same, and what it would do after a connection else; and so does every step
that follows. Nothing is said of an answer without markets, after which they are asked for again. -/
theorem costs_run (h : session.Loaded entries)
    (herror : session.client.venue.answer .markets = .error failure) :
    (session.step .refresh).1 = .error failure ∧
      (session.step .refresh).2.registry = session.registry ∧
      ∀ later action, Between later → session.Silent later → action.NeedsMarkets →
        Costs entries (session.run later) ((session.step .refresh).2.run later) action := by
  rw [step_refresh_of_error herror]
  refine ⟨rfl, rfl, fun later action hbetween hsilent haction => ?_⟩
  exact costs_of_forget (fresh_run_forget rfl h hbetween hsilent) (loaded_run h hbetween) haction

/-! ### A refresh while the venue does not answer -/

namespace Sample

/-- The only market of a venue. -/
def listed : List (String × Payload) :=
  [("BTC/USDT:USDT", traded "BTCUSDT")]

/-- The venue, with the price of the market. -/
def venue : Venue where
  markets := .object listed
  tickers := [("BTC/USDT:USDT", .object [("markPrice", "50000.5")])]

/-- The venue while it does not list its markets. -/
def silentVenue : Venue :=
  { venue with failing := ["load_markets"] }

/-- A session that has connected before the venue falls silent. -/
def interrupted : Session :=
  (start { settings := {}, venue } "USDT").run [.connect, .change silentVenue]

theorem loaded_interrupted : interrupted.Loaded listed :=
  ⟨rfl, by simp [listed], rfl⟩

end Sample

/-- After the refresh the price is not asked for, but once the venue lists the market again it is,
and is the same. -/
theorem costs_run_sample :
    ((Sample.interrupted.step .refresh).2.step (.markPrice "BTCUSDT")).1 =
        .error (.requestFailed "load_markets") ∧
      ((Sample.interrupted.step .refresh).2.run [.change Sample.venue]).CatchesUp
        (Sample.interrupted.run [.change Sample.venue]) (.markPrice "BTCUSDT") := by
  obtain ⟨-, -, hcosts⟩ := costs_run Sample.loaded_interrupted rfl
  have hnow := hcosts [] (.markPrice "BTCUSDT") (by simp [Between]) (by simp [Silent]) trivial
  have hlater := hcosts [.change Sample.venue] (.markPrice "BTCUSDT") (by simp [Between]) (by
    intro before action after hsplit hneeds
    have hmem : action ∈ [Action.change Sample.venue] := by simp [hsplit]
    obtain rfl := List.mem_singleton.1 hmem
    exact hneeds.elim) trivial
  exact ⟨(hnow.unanswered _ rfl).1, hlater.relisted rfl⟩

/-- Without the refresh the price would be there: it is asked for, and nothing else is. With it the
markets are asked for, and there is no price. -/
theorem not_same_after_refresh :
    (Sample.interrupted.step .refresh).1 = .error (.requestFailed "load_markets") ∧
      (∃ price, (Sample.interrupted.step (.markPrice "BTCUSDT")).1 = .ok (.price (some price))) ∧
      (Sample.interrupted.step (.markPrice "BTCUSDT")).2.state.requests =
        [.ticker "BTC/USDT:USDT"] ∧
      ((Sample.interrupted.step .refresh).2.step (.markPrice "BTCUSDT")).1 =
        .error (.requestFailed "load_markets") ∧
      ((Sample.interrupted.step .refresh).2.step (.markPrice "BTCUSDT")).2.state.requests =
        [.markets] :=
  ⟨rfl, ⟨_, rfl⟩, rfl, rfl, rfl⟩

end Session

end OrderTicket
