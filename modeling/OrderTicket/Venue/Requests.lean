import OrderTicket.Payload.Access

/-!
# Venues

A venue as far as a client sees it: which requests it can be asked, and what it answers. Its answers
are fixed by tables of markets, books and tickers, and it may fail to answer some requests at all.

* `Request`: what a venue is asked.
* `Venue.answer`: what it answers.
-/

namespace OrderTicket

/-- What a venue is asked. -/
inductive Request where
  | markets
  | book (symbol : String) (limit : Int)
  | ticker (symbol : String)
  | close
deriving DecidableEq, Repr

/-- The name of a request. -/
def Request.name : Request → String
  | markets => "load_markets"
  | book .. => "fetch_order_book"
  | ticker _ => "fetch_ticker"
  | close => "close"

/-- The details of a request. -/
def Request.details : Request → List Payload
  | markets => []
  | book symbol limit => [.text symbol, .int limit]
  | ticker symbol => [.text symbol]
  | close => []

/-- What a venue answers. -/
structure Venue where
  /-- All markets. -/
  markets : Payload := .object []
  /-- The depth data of markets. -/
  books : List (String × Payload) := []
  /-- The tickers of markets. -/
  tickers : List (String × Payload) := []
  /-- The names of the requests that fail. -/
  failing : List String := []
deriving Repr, Inhabited

namespace Venue

/-- The entry of a table that a request asks for. -/
def entry (request : Request) (symbol : String) (table : List (String × Payload)) :
    Except Failure Payload :=
  match Payload.lookup? table symbol with
  | some x => .ok x
  | none => .error (.requestUnknown request.name symbol)

/-- The answer to a request. -/
def answer (venue : Venue) (request : Request) : Except Failure Payload :=
  if venue.failing.contains request.name then .error (.requestFailed request.name)
  else
    match request with
    | .markets => .ok venue.markets
    | .book symbol _ => entry request symbol venue.books
    | .ticker symbol => entry request symbol venue.tickers
    | .close => .ok .null

end Venue

end OrderTicket
