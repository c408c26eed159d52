import OrderTicket.Venue.Client

/-!
# Sessions with a venue

A session is a client, the registry that it refreshes, and what it remembers. It goes from step to
step; between steps the venue may change what it answers. A step that fails keeps what was asked,
noted and remembered up to the failure, and leaves the registry as it was.

* `Session.step`: one step, with its reply. The registry stays as it was unless the step is a
  refresh (`Session.registry_step_of_ne_refresh`) that succeeds (`Session.registry_step_of_error`).
* `Session.run`: several steps.
-/

namespace OrderTicket

/-- A step of a session. -/
inductive Action where
  /-- From now on the venue gives other answers. -/
  | change (venue : Venue)
  | connect
  | close
  | tradingRules
  | refresh
  | book (symbol : String) (limit : Option Int)
  | markPrice (symbol : String)
deriving Repr

/-- What a step gives. -/
inductive Reply where
  | done
  | rules (rules : List TradingRules)
  | version (version : Nat)
  | book (book : Book)
  | price (price : Option Decimal)

/-- A client at work, with the registry that it refreshes. -/
structure Session where
  /-- The client. -/
  client : Client
  /-- The registry of trading rules. -/
  registry : Registry := {}
  /-- What the client remembers, and what it asked and noted in the last step. -/
  state : Client.State := {}

namespace Session

/-- A session in which nothing has been asked or noted yet. -/
def fresh (session : Session) : Session :=
  { session with state := { session.state with requests := [], events := [] } }

/-- Work of the client as a step. -/
def perform {α : Type} (session : Session) (work : Client.Work α) (finish : α → Reply × Registry) :
    Except Failure Reply × Session :=
  match work.run session.state with
  | (.ok x, state) =>
    let (reply, registry) := finish x
    (.ok reply, { session with state, registry })
  | (.error failure, state) => (.error failure, { session with state })

/-- Work of the client that leaves the registry alone. -/
def performOnly {α : Type} (session : Session) (work : Client.Work α) (reply : α → Reply) :
    Except Failure Reply × Session :=
  session.perform work fun x => (reply x, session.registry)

/-- One step. -/
def step (session : Session) (action : Action) : Except Failure Reply × Session :=
  let session := session.fresh
  let client := session.client
  match action with
  | .change venue => (.ok .done, { session with client := { client with venue } })
  | .connect => session.performOnly client.connect fun _ => .done
  | .close => session.performOnly client.close fun _ => .done
  | .tradingRules => session.performOnly client.tradingRules .rules
  | .refresh =>
    session.perform (client.refresh session.registry) fun (version, registry) =>
      (.version version, registry)
  | .book symbol limit => session.performOnly (client.book symbol limit) .book
  | .markPrice symbol => session.performOnly (client.markPrice symbol) .price

theorem registry_performOnly {α : Type} (session : Session) (work : Client.Work α)
    (reply : α → Reply) :
    (session.performOnly work reply).2.registry = session.registry := by
  unfold performOnly perform
  split <;> rfl

/-- Only a refresh changes the registry. -/
theorem registry_step_of_ne_refresh (session : Session) {action : Action} (h : action ≠ .refresh) :
    (session.step action).2.registry = session.registry := by
  cases action with
  | refresh => exact absurd rfl h
  | change venue => rfl
  | connect => exact registry_performOnly ..
  | close => exact registry_performOnly ..
  | tradingRules => exact registry_performOnly ..
  | book symbol limit => exact registry_performOnly ..
  | markPrice symbol => exact registry_performOnly ..

/-- A step that fails leaves the registry as it was. -/
theorem registry_step_of_error (session : Session) {action : Action} {failure : Failure}
    (h : (session.step action).1 = .error failure) :
    (session.step action).2.registry = session.registry := by
  by_cases hrefresh : action = .refresh
  · subst hrefresh
    simp only [step, perform] at h ⊢
    split at h
    · simp at h
    · rfl
  · exact session.registry_step_of_ne_refresh hrefresh

/-- The session after several steps. -/
def run (session : Session) (actions : List Action) : Session :=
  actions.foldl (fun session action => (session.step action).2) session

@[simp]
theorem run_nil (session : Session) : session.run [] = session :=
  rfl

theorem run_append (session : Session) (first later : List Action) :
    session.run (first ++ later) = (session.run first).run later := by
  simp [run, List.foldl_append]

end Session

end OrderTicket
