import OrderTicket.Text.LetterCase
import OrderTicket.Integer
import OrderTicket.Decimal.Quantum
import OrderTicket.Decimal.Value
import OrderTicket.Payload.Access
import OrderTicket.Form.Reader
import OrderTicket.Settings.Groups
import OrderTicket.Selection
import OrderTicket.Rules.Normal
import OrderTicket.Rules.Metadata
import OrderTicket.Rules.Registry
import OrderTicket.Book.Fill
import OrderTicket.Book.Depth
import OrderTicket.Ticket.Prepare
import OrderTicket.Venue.Client
import OrderTicket.Venue.Session
import OrderTicket.Proofs.Run
import OrderTicket.Proofs.Integer
import OrderTicket.Proofs.Decimal.Operations
import OrderTicket.Proofs.Decimal.Quantum
import OrderTicket.Proofs.Decimal.Order
import OrderTicket.Proofs.Decimal.Bounds
import OrderTicket.Proofs.Decimal.Numeral
import OrderTicket.Proofs.Decimal.Exact
import OrderTicket.Proofs.Decimal.Line
import OrderTicket.Proofs.Decimal.Alike
import OrderTicket.Proofs.Text.Words
import OrderTicket.Proofs.Text.LetterCase
import OrderTicket.Proofs.Text.UpperCase
import OrderTicket.Proofs.Rules.Grid
import OrderTicket.Proofs.Rules.Settled
import OrderTicket.Proofs.Rules.Registry
import OrderTicket.Proofs.Rules.Kept
import OrderTicket.Proofs.Rules.Quantity
import OrderTicket.Proofs.Rules.Price
import OrderTicket.Proofs.Rules.Refused
import OrderTicket.Proofs.Rules.Suggested
import OrderTicket.Proofs.Rules.Band
import OrderTicket.Proofs.Rules.Published
import OrderTicket.Proofs.Rules.MarketLot
import OrderTicket.Proofs.Rules.Finite
import OrderTicket.Proofs.Rules.Served
import OrderTicket.Proofs.Book.Walk
import OrderTicket.Proofs.Book.Bought
import OrderTicket.Proofs.Book.Allocation
import OrderTicket.Proofs.Book.Sides
import OrderTicket.Proofs.Book.Best
import OrderTicket.Proofs.Book.Spent
import OrderTicket.Proofs.Book.Closed
import OrderTicket.Proofs.Book.Inverse
import OrderTicket.Proofs.Book.Larger
import OrderTicket.Proofs.Book.SingleLevel
import OrderTicket.Proofs.Book.Faithful
import OrderTicket.Proofs.Book.Offered
import OrderTicket.Proofs.Book.Advised
import OrderTicket.Proofs.Book.Rearranged
import OrderTicket.Proofs.Book.Share
import OrderTicket.Proofs.Command.Number
import OrderTicket.Proofs.Command.Grammar
import OrderTicket.Proofs.Command.Entry
import OrderTicket.Proofs.Command.Variants
import OrderTicket.Proofs.Command.Sound
import OrderTicket.Proofs.Command.RoundTrip
import OrderTicket.Proofs.Command.Decided
import OrderTicket.Proofs.Command.Given
import OrderTicket.Proofs.Command.Market
import OrderTicket.Proofs.Command.Stable
import OrderTicket.Proofs.Command.Quote
import OrderTicket.Proofs.Command.Canonical
import OrderTicket.Proofs.Command.Walk
import OrderTicket.Proofs.Form.Reader
import OrderTicket.Proofs.Selection
import OrderTicket.Proofs.Selection.Decided
import OrderTicket.Proofs.Selection.Limit
import OrderTicket.Proofs.Ticket.Steps
import OrderTicket.Proofs.Ticket.Legal
import OrderTicket.Proofs.Ticket.Settled
import OrderTicket.Proofs.Ticket.BestPrice
import OrderTicket.Proofs.Ticket.Protection
import OrderTicket.Proofs.Ticket.Refusals
import OrderTicket.Proofs.Ticket.Suggestion
import OrderTicket.Proofs.Ticket.LimitPrice
import OrderTicket.Proofs.Ticket.Budget
import OrderTicket.Proofs.Ticket.Warnings
import OrderTicket.Proofs.Venue.Lookup
import OrderTicket.Proofs.Venue.Reconnect
import OrderTicket.Proofs.Venue.Shape
import OrderTicket.Proofs.Venue.Broken
