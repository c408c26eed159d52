import OrderTicket.Proofs.Rules.Metadata
import OrderTicket.Venue.Client

/-!
# What work of a client comes to

Work of a client starts in a state and ends in another one, with a result or a failure.

* `Client.Achieves`: it ends with a result and a state of one kind, or with a failure of another.
* `Client.run_bind`, `Client.run_ask` and so on: what a single step ends with.
* `Client.connect_achieves`: what a client remembers of the markets that a venue lists.
-/

namespace OrderTicket

open Failure

/-- Failures that lie in what a venue answers, or in that it does not answer. -/
def Failure.OfVenue : Failure → Prop
  | requestFailed _ => True
  | requestUnknown .. => True
  | failure => failure.OfMetadata

/-- A failure that lies in metadata lies in what the venue answers. -/
theorem Failure.OfMetadata.ofVenue {failure : Failure} (h : failure.OfMetadata) :
    failure.OfVenue := by
  cases failure with
  | requestFailed => exact h.elim
  | requestUnknown => exact h.elim
  | _ => exact h

/-- A venue is not to blame for a symbol that is listed twice in a table. -/
theorem Failure.OfVenue.ne_duplicateSymbol {failure : Failure} (h : failure.OfVenue)
    (id : MarketId) : failure ≠ .duplicateSymbol id := by
  rintro rfl
  exact h

namespace Client

variable {α β : Type} {client : Client} {state : State} {P : Failure → State → Prop}

/-- The second step starts where the first one ends, if that has a result. -/
theorem run_bind (work : Work α) (next : α → Work β) (state : State) :
    (work >>= next).run state = match work.run state with
      | (.ok x, middle) => (next x).run middle
      | (.error failure, middle) => (.error failure, middle) := by
  change (match work.run state with
    | (result, middle) => ExceptT.bindCont next result middle) = _
  rcases work.run state with ⟨_ | _, _⟩ <;> rfl

/-- An event that is noted is the last one in the log. -/
theorem run_note (event : Event) (state : State) :
    (note event).run state = (.ok (), { state with events := state.events ++ [event] }) :=
  rfl

/-- A request is remembered before it is answered. -/
theorem run_ask (client : Client) (request : Request) (state : State) :
    (client.ask request).run state =
      (client.venue.answer request, { state with requests := state.requests ++ [request] }) :=
  rfl

theorem run_lift (x : Except Failure α) (state : State) : (lift x).run state = (x, state) :=
  rfl

theorem run_modify (f : State → State) (state : State) :
    (modify f : Work Unit).run state = (.ok (), f state) :=
  rfl

theorem run_get_bind (next : State → Work α) (state : State) :
    (get >>= next).run state = (next state).run state :=
  rfl

/-- Work that starts in a state ends with a result and a state that go together, or with a failure
and a state that do. -/
def Achieves (work : Work α) (state : State) (Q : α → State → Prop)
    (P : Failure → State → Prop) : Prop :=
  match work.run state with
  | (.ok x, next) => Q x next
  | (.error failure, next) => P failure next

namespace Achieves

variable {work : Work α} {Q : α → State → Prop}

/-- Work that has returned has achieved what is said of results. -/
theorem of_ok (h : Achieves work state Q P) {x : α} {next : State}
    (hrun : work.run state = (.ok x, next)) : Q x next := by
  rwa [Achieves, hrun] at h

/-- Work that has failed has achieved what is said of failures. -/
theorem of_error (h : Achieves work state Q P) {failure : Failure} {next : State}
    (hrun : work.run state = (.error failure, next)) : P failure next := by
  rwa [Achieves, hrun] at h

/-- Less may be said of the result. -/
theorem mono {Q' : α → State → Prop} (h : Achieves work state Q P)
    (himp : ∀ x next, Q x next → Q' x next) : Achieves work state Q' P := by
  unfold Achieves at h ⊢
  split at h
  · exact himp _ _ h
  · exact h

theorem pure {x : α} (h : Q x state) : Achieves (pure x) state Q P :=
  h

/-- What the first step ends with, the second one starts from. -/
theorem bind {next : α → Work β} {Q' : β → State → Prop}
    (h : Achieves work state (fun x middle => Achieves (next x) middle Q' P) P) :
    Achieves (work >>= next) state Q' P := by
  unfold Achieves at h ⊢
  rw [run_bind]
  split at h
  · exact h
  · exact h

/-- Work that needs no venue leaves the state as it is. -/
theorem lift {x : Except Failure α} (hok : ∀ a, x = .ok a → Q a state)
    (herror : FailsOnly x fun failure => P failure state) :
    Achieves (Client.lift x) state Q P := by
  cases x with
  | ok a => exact hok a rfl
  | error failure => exact herror failure rfl

theorem modify {f : State → State} {Q : PUnit → State → Prop} (h : Q ⟨⟩ (f state)) :
    Achieves (modify f) state Q P :=
  h

theorem get {Q : State → State → Prop} (h : Q state state) : Achieves get state Q P :=
  h

theorem note {event : Event} {Q : Unit → State → Prop}
    (h : Q () { state with events := state.events ++ [event] }) :
    Achieves (note event) state Q P :=
  h

/-- A request is remembered, and the answer is that of the venue. -/
theorem ask {request : Request} {Q : Payload → State → Prop}
    (h : ∀ answer, client.venue.answer request = .ok answer →
      Q answer { state with requests := state.requests ++ [request] })
    (herror : FailsOnly (client.venue.answer request) fun failure =>
      P failure { state with requests := state.requests ++ [request] }) :
    Achieves (client.ask request) state Q P :=
  .bind (.modify (.lift h herror))

end Achieves

/-! ## Answers -/

/-- A venue fails to answer for no other reasons than its own. -/
theorem answer_failsOnly (venue : Venue) (request : Request) :
    FailsOnly (venue.answer request) OfVenue := by
  have hentry (symbol : String) (table : List (String × Payload)) :
      FailsOnly (Venue.entry request symbol table) OfVenue := by
    unfold Venue.entry
    split
    · exact .ok
    · exact .error trivial
  refine .ite (fun _ => .error trivial) fun _ => ?_
  cases request with
  | markets => exact .ok
  | book symbol limit => exact hentry _ _
  | ticker symbol => exact hentry _ _
  | close => exact .ok

/-- Looking for the identifier of a market fails only because of the metadata. -/
theorem identifier?_failsOnly (market : Payload) : FailsOnly (identifier? market) OfMetadata := by
  refine .bind (market.has_failsOnly _) fun known _ => .ite (fun _ => ?_) fun _ => .ok
  refine .bind (market.field_failsOnly _) fun id _ => ?_
  split
  · exact .ok
  · exact .ite (fun _ => .ok) fun _ => .error trivial

/-- The unified symbols of markets fail to be told only because of the metadata. -/
theorem unifiedSymbols_failsOnly (entries : List (String × Payload)) :
    FailsOnly (unifiedSymbols entries) OfMetadata :=
  .foldlM (fun known (symbol, market) _ => .bind (identifier?_failsOnly market) fun id _ => by
    cases id <;> exact .ok) _

/-! ## Markets -/

/-- A client that has asked for the markets remembers them, and their unified symbols. -/
theorem connect_achieves (client : Client) (state : State) :
    Achieves client.connect state (fun _ next => ∃ entries unified,
      client.venue.answer .markets = .ok (.object entries) ∧
      unifiedSymbols entries = .ok unified ∧
      next = {
        markets := .object entries
        unified
        requests := state.requests ++ [.markets]
        events := state.events ++
          [.connecting client.settings.venue, .connected client.settings.venue entries.length] })
      fun failure _ => failure.OfVenue := by
  refine .bind (.note (.bind (.ask (fun markets hmarkets => ?_) (answer_failsOnly _ _))))
  refine .bind (.modify (.bind (.lift (fun entries hentries => ?_)
    (markets.entries_failsOnly.mono fun _ => OfMetadata.ofVenue))))
  refine .bind (.lift (fun unified hunified => ?_)
    ((unifiedSymbols_failsOnly entries).mono fun _ => OfMetadata.ofVenue))
  refine .bind (.modify (.note ?_))
  -- only a record has entries
  cases markets with
  | object fields =>
    obtain rfl : fields = entries := Except.ok.inj hentries
    exact ⟨fields, unified, hmarkets, hunified, by simp⟩
  | _ => cases hentries

/-- A client that knows no markets asks for them. -/
theorem ensureMarkets_achieves {Q : Unit → State → Prop} (h : state.markets.isGiven = false)
    (hconnect : Achieves client.connect state Q P) :
    Achieves client.ensureMarkets state Q P := by
  refine .bind (.get ?_)
  rw [h]
  exact hconnect

/-- A client that knows markets does not ask. -/
theorem ensureMarkets_of_given {Q : Unit → State → Prop} (h : state.markets.isGiven = true)
    (hstate : Q () state) : Achieves client.ensureMarkets state Q P := by
  refine .bind (.get ?_)
  rw [h]
  exact hstate

/-- A connection that is not answered leaves the client as it was. -/
theorem run_connect_of_error {failure : Failure}
    (h : client.venue.answer .markets = .error failure) (state : State) :
    client.connect.run state = (.error failure,
      { state with
        requests := state.requests ++ [.markets]
        events := state.events ++ [.connecting client.settings.venue] }) := by
  rw [connect, run_bind, run_note]
  dsimp only
  rw [run_bind, run_ask, h]

/-- A connection that is answered leaves nothing of what the client knew. -/
theorem run_connect_of_ok {entries : List (String × Payload)} {unified : List (String × String)}
    (h : client.venue.answer .markets = .ok (.object entries))
    (hunified : unifiedSymbols entries = .ok unified) (state : State) :
    client.connect.run state = (.ok (), {
      markets := .object entries
      unified
      requests := state.requests ++ [.markets]
      events := state.events ++ [.connecting client.settings.venue,
        .connected client.settings.venue entries.length] }) := by
  simp only [connect, run_bind, run_note, run_ask, run_modify, run_lift, h, hunified,
    Payload.entries, List.append_assoc, List.cons_append, List.nil_append]

/-- Work that needs markets asks for them only if none are known. -/
theorem run_ensureMarkets (client : Client) (state : State) :
    client.ensureMarkets.run state =
      if state.markets.isGiven then (.ok (), state) else client.connect.run state := by
  rw [ensureMarkets, run_get_bind]
  split <;> rfl

end Client

end OrderTicket
