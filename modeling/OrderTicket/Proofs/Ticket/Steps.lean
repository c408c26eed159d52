import OrderTicket.Proofs.Run
import OrderTicket.Ticket.Prepare

/-!
# The steps to a ticket

Where a ticket was made, every step on the way to it returned something and no check stood against
the order. `Steps` is the record of these steps; what a ticket promises is read off from it. Its
first part is the `Estimate` of quantity and price, which an order also has if its value is refused.

* `Ticket.Estimate`: quantity and price of an order when its value is checked.
* `Ticket.Steps`, `Ticket.exists_steps`: the steps of a ticket.
* `Ticket.exists_ready`: a ticket is found by running the preparation.
* `Ticket.complete_eq_ok`, `Ticket.protectivePrice_eq_ok`: the parts that a ticket is made of.
* `Ticket.checkBounds_eq_ok`: what the checks of value and price distance have let pass.
-/

namespace OrderTicket.Ticket

variable {order : Order} {book : Book} {rules : TradingRules} {risk : RiskSettings}
  {balance markPrice : Option Decimal} {ticket : Ticket}

/-- The leverage is at least one and not above the trader's cap, unless that is below one. -/
theorem usedLeverage_bounds (order : Order) (risk : RiskSettings) :
    1 ≤ usedLeverage order risk ∧ usedLeverage order risk ≤ Max.max 1 risk.leverageCap := by
  unfold usedLeverage leverageCap
  omega

/-! ## All steps -/

/-- Quantity and price of an order when its value is checked, and how they came about. -/
structure Estimate (order : Order) (book : Book) (rules : TradingRules) (risk : RiskSettings)
    (balance : Option Decimal) where
  /-- The terms. -/
  terms : Terms
  /-- The fill that an amount of the quote currency was turned into a quantity by. -/
  conversion : Option Fill
  /-- The quantity. -/
  baseSize : Decimal
  /-- The expected price. -/
  price : Decimal
  leverage_eq : terms.leverage = usedLeverage order risk
  limitPrice_eq : limitPrice? order rules = .ok terms.limitPrice
  raw_eq : rawQuantity order book terms.limitPrice terms.leverage balance =
    .ok (terms.raw, conversion)
  fill_eq : marketFill? order book terms.raw conversion = .ok terms.fill
  baseSize_eq : rules.quantity (order.type == .market) terms.raw = .ok baseSize
  price_eq : priceOf order rules terms = .ok price

/-- The steps on the way to a ticket: the estimate, the warnings, the checks that it passed, and the
parts that the ticket was completed with. -/
structure Steps (order : Order) (book : Book) (rules : TradingRules) (risk : RiskSettings)
    (balance markPrice : Option Decimal) (ticket : Ticket) extends
    Estimate order book rules risk balance where
  /-- The warnings about the leverage. -/
  leverageNotes : List Warning
  /-- The warnings about the limit price. -/
  priceNotes : List Warning
  /-- The warnings about slippage. -/
  slippageNotes : List Warning
  /-- The warnings about the quantity. -/
  quantityNotes : List Warning
  leverageNotes_eq : leverageWarnings order risk = .ok leverageNotes
  priceNotes_eq : priceWarnings order rules terms.limitPrice = .ok priceNotes
  slippage_eq : slippage risk terms.fill = .ok (terms.overLimit, slippageNotes)
  quantityNotes_eq :
    quantityWarnings order (rules.lot (order.type == .market)) terms.raw baseSize =
      .ok quantityNotes
  bounds_eq : checkBounds order book rules markPrice terms.limitPrice baseSize price = .ok ()
  complete_eq : complete order rules risk terms baseSize price
    (leverageNotes ++ priceNotes ++ slippageNotes ++ quantityNotes) = .ok ticket

/-- A settled step on the way to a ticket returned something. -/
theorem settle_eq_ready {α : Type} {warnings : List Warning} {x : Except Failure α}
    {next : α → Except Failure Outcome} (h : settle warnings x next = .ok (.ready ticket)) :
    ∃ a, x = .ok a ∧ next a = .ok (.ready ticket) := by
  unfold settle at h
  split at h
  · exact ⟨_, rfl, h⟩
  · cases h
  · cases h

/-- A ticket has steps that lead to it. -/
theorem exists_steps (h : assemble order book rules risk balance markPrice = .ok (.ready ticket)) :
    Nonempty (Steps order book rules risk balance markPrice ticket) := by
  obtain ⟨leverageNotes, hleverageNotes, h⟩ := settle_eq_ready h
  obtain ⟨limitPrice, hlimit, h⟩ := settle_eq_ready h
  obtain ⟨priceNotes, hpriceNotes, h⟩ := settle_eq_ready h
  obtain ⟨⟨raw, conversion⟩, hraw, h⟩ := settle_eq_ready h
  obtain ⟨fill, hfill, h⟩ := settle_eq_ready h
  obtain ⟨⟨overLimit, slippageNotes⟩, hslippage, h⟩ := settle_eq_ready h
  obtain ⟨baseSize, hbase, h⟩ := settle_eq_ready h
  obtain ⟨quantityNotes, hquantityNotes, h⟩ := settle_eq_ready h
  obtain ⟨price, hprice, h⟩ := settle_eq_ready h
  obtain ⟨_, hbounds, h⟩ := settle_eq_ready h
  obtain ⟨made, hmade, h⟩ := settle_eq_ready h
  -- the last step is the one that makes the ticket
  obtain rfl : made = ticket := by
    cases h
    rfl
  let estimate : Estimate order book rules risk balance :=
    ⟨⟨_, limitPrice, raw, fill, overLimit⟩, conversion, baseSize, price, rfl, hlimit, hraw, hfill,
      hbase, hprice⟩
  exact ⟨⟨estimate, leverageNotes, priceNotes, slippageNotes, quantityNotes,
    liftM_eq_ok hleverageNotes, hpriceNotes, hslippage, hquantityNotes, hbounds, hmade⟩⟩

/-- What is prepared is assembled from inputs about one market. -/
theorem prepare_eq_ok {outcome : Outcome} {event : Event}
    (h : prepare order book rules risk balance markPrice = .ok (outcome, event)) :
    assemble order book rules risk balance markPrice = .ok outcome ∧
      event = outcome.event order := by
  unfold prepare at h
  split at h
  · cases h
  · obtain ⟨made, hmade, h⟩ := bind_eq_ok h
    cases h
    exact ⟨hmade, rfl⟩

/-- A run that is seen to end in a ticket with some property has such a ticket. -/
theorem exists_ready {r : Except Failure (Outcome × Event)} {c : Ticket → Bool}
    (h : r.toOption.any (fun result => result.1.ticket?.any c) = true) :
    ∃ ticket event, r = .ok (.ready ticket, event) ∧ c ticket = true := by
  cases r with
  | error failure => cases h
  | ok result =>
    obtain ⟨outcome, event⟩ := result
    cases outcome with
    | ready ticket => exact ⟨ticket, event, rfl, h⟩
    | refused => cases h

/-! ## Price and quantity -/

/-- A market order has no limit price; a limit order has one that the market takes. -/
theorem limitPrice?_eq_ok {limitPrice : Option Decimal}
    (h : limitPrice? order rules = .ok limitPrice) :
    order.type = .market ∧ limitPrice = none ∨
      order.type = .limit ∧ ∃ typed price, order.limitPrice = some typed ∧
        rules.price (some order.side) typed = .ok price ∧ limitPrice = some price := by
  unfold limitPrice? at h
  split at h
  · cases h
    exact .inl ⟨‹_›, rfl⟩
  · split at h
    · cases h
    · obtain ⟨price, hprice, h⟩ := bind_eq_ok h
      cases h
      exact .inr ⟨‹_›, _, price, ‹_›, hprice, rfl⟩

/-- A limit order takes nothing from the book, a market order does. -/
theorem marketFill?_eq_ok {raw : Decimal} {conversion fill : Option Fill}
    (h : marketFill? order book raw conversion = .ok fill) :
    order.type = .limit ∧ fill = none ∨ order.type = .market ∧ ∃ taken, fill = some taken := by
  unfold marketFill? at h
  split at h
  · cases h
    exact .inl ⟨‹_›, rfl⟩
  · split at h
    · cases h
      exact .inr ⟨‹_›, _, rfl⟩
    · obtain ⟨taken, -, h⟩ := bind_eq_ok h
      cases h
      exact .inr ⟨‹_›, taken, rfl⟩

/-- A limit order waits at the typed price, moved to the grid, which is also the expected price. -/
theorem Steps.of_limit (steps : Steps order book rules risk balance markPrice ticket)
    (htype : order.type = .limit) :
    ∃ typed, order.limitPrice = some typed ∧ rules.price (some order.side) typed = .ok steps.price ∧
      steps.terms.limitPrice = some steps.price ∧ steps.terms.fill = none := by
  obtain ⟨hmarket, -⟩ | ⟨-, typed, price, htyped, hprice, hlimit⟩ :=
    limitPrice?_eq_ok steps.limitPrice_eq
  · rw [hmarket] at htype
    cases htype
  obtain ⟨-, hfill⟩ | ⟨hmarket, -⟩ := marketFill?_eq_ok steps.fill_eq
  · have hexpected := steps.price_eq
    rw [priceOf, hfill, hlimit] at hexpected
    obtain rfl := Except.ok.inj hexpected
    exact ⟨typed, htyped, hprice, hlimit, hfill⟩
  · rw [hmarket] at htype
    cases htype

/-! ## What a ticket is made of -/

/-- A protection triggers at a price that the market takes, computed from the entry. -/
theorem protectivePrice_eq_ok {side : Side} {isStop : Bool} {entry percent price : Decimal}
    (h : protectivePrice rules side isStop entry percent = .ok price) :
    ∃ fraction factor raw, percent.div 100 = .ok fraction ∧
      (if isStop = decide (side = .buy) then Decimal.sub 1 fraction else Decimal.add 1 fraction) =
        .ok factor ∧
      entry.mul factor = .ok raw ∧ rules.price (some side.opposite) raw = .ok price := by
  obtain ⟨fraction, hfraction, h⟩ := bind_eq_ok h
  obtain ⟨factor, hfactor, h⟩ := bind_eq_ok h
  obtain ⟨raw, hraw, h⟩ := bind_eq_ok h
  refine ⟨fraction, factor, raw, liftM_eq_ok hfraction, liftM_eq_ok hfactor, liftM_eq_ok hraw, ?_⟩
  -- a trigger that the market does not take is refused with another message
  split at h
  · cases h
  · exact h

/-- A protection with a trigger was asked for. -/
theorem protectivePrice?_eq_ok {side : Side} {isStop : Bool} {entry price : Decimal}
    {percent : Option Decimal}
    (h : protectivePrice? rules side isStop entry percent = .ok (some price)) :
    ∃ wanted, percent = some wanted ∧
      protectivePrice rules side isStop entry wanted = .ok price := by
  cases percent with
  | none => cases h
  | some wanted =>
    obtain ⟨made, hmade, h⟩ := map_eq_ok h
    cases h
    exact ⟨wanted, rfl, hmade⟩

/-- The amounts and triggers of a ticket, and where its other fields come from. -/
theorem complete_eq_ok {terms : Terms} {baseSize price : Decimal} {warnings : List Warning}
    (h : complete order rules risk terms baseSize price warnings = .ok ticket) :
    ∃ quoteSize estimatedFees requiredMargin stopLossPrice takeProfitPrice,
      baseSize.mul price = .ok quoteSize ∧
      quoteSize.mul risk.feeRate = .ok estimatedFees ∧
      quoteSize.div (.ofInt terms.leverage) = .ok requiredMargin ∧
      protectivePrice? rules order.side true price order.stopLoss = .ok stopLossPrice ∧
      protectivePrice? rules order.side false price order.takeProfit = .ok takeProfitPrice ∧
      ticket = {
        symbol := order.symbol, side := order.side, type := order.type, baseSize, quoteSize
        leverage := terms.leverage, estimatedPrice := price, estimatedFees
        slippageWarning := terms.overLimit || terms.fill.any (·.exhausted)
        maxSlippageExceeded := terms.fill.any (·.exhausted) && terms.overLimit
        stopLossPrice, takeProfitPrice, limitPrice := terms.limitPrice, trailing := order.trailing
        reduceOnly := order.reduceOnly
        slippagePercent := (terms.fill.map (·.slippagePercent)).getD 0
        bookExhausted := terms.fill.any (·.exhausted), requiredMargin, warnings } := by
  obtain ⟨quoteSize, hquote, h⟩ := bind_eq_ok h
  obtain ⟨fees, hfees, h⟩ := bind_eq_ok h
  obtain ⟨margin, hmargin, h⟩ := bind_eq_ok h
  obtain ⟨stop, hstop, h⟩ := bind_eq_ok h
  obtain ⟨target, htarget, h⟩ := bind_eq_ok h
  exact ⟨quoteSize, fees, margin, stop, target, liftM_eq_ok hquote, liftM_eq_ok hfees,
    liftM_eq_ok hmargin, hstop, htarget, (Except.ok.inj h).symm⟩

/-- The fields of a ticket that show what its steps returned. -/
structure Steps.Shown (steps : Steps order book rules risk balance markPrice ticket) : Prop where
  /-- The quantity is the one on the grid. -/
  baseSize : ticket.baseSize = steps.baseSize
  /-- The value of the quantity is taken at the expected price. -/
  quoteSize : steps.baseSize.mul steps.price = .ok ticket.quoteSize
  /-- The leverage is the one of the terms. -/
  leverage : ticket.leverage = steps.terms.leverage
  /-- The margin is the value divided by the leverage. -/
  requiredMargin : ticket.quoteSize.div (.ofInt steps.terms.leverage) = .ok ticket.requiredMargin
  /-- The limit price is the one of the terms. -/
  limitPrice : ticket.limitPrice = steps.terms.limitPrice
  /-- The expected price is the one of the estimate. -/
  estimatedPrice : ticket.estimatedPrice = steps.price
  /-- The slippage is the one of the fill, or zero without one. -/
  slippagePercent : ticket.slippagePercent = (steps.terms.fill.map (·.slippagePercent)).getD 0
  /-- The book is exhausted if there is a fill that empties it. -/
  bookExhausted : ticket.bookExhausted = steps.terms.fill.any (·.exhausted)
  /-- The ticket warns if the slippage is too much or the book exhausted. -/
  slippageWarning : ticket.slippageWarning = (steps.terms.overLimit || ticket.bookExhausted)
  /-- The ticket says that it is more than bad if both are the case. -/
  maxSlippageExceeded : ticket.maxSlippageExceeded = (ticket.bookExhausted && steps.terms.overLimit)
  /-- The warnings are those of all steps, in their order. -/
  warnings : ticket.warnings = steps.leverageNotes ++ steps.priceNotes ++ steps.slippageNotes ++
    steps.quantityNotes

/-- The fields of a ticket show what its steps returned, as the last step puts them in. -/
theorem Steps.shown (steps : Steps order book rules risk balance markPrice ticket) :
    steps.Shown := by
  obtain ⟨quoteSize, _, margin, _, _, hquote, -, hmargin, -, -, hticket⟩ :=
    complete_eq_ok steps.complete_eq
  have hworth : ticket.quoteSize = quoteSize := congrArg Ticket.quoteSize hticket
  have hbound : ticket.requiredMargin = margin := congrArg Ticket.requiredMargin hticket
  -- Both derived flags are computed from this one, so it is replaced in them by what is shown.
  have hthin : ticket.bookExhausted = steps.terms.fill.any (·.exhausted) :=
    congrArg Ticket.bookExhausted hticket
  exact {
    baseSize := congrArg Ticket.baseSize hticket
    quoteSize := hworth ▸ hquote
    leverage := congrArg Ticket.leverage hticket
    requiredMargin := hworth ▸ hbound ▸ hmargin
    limitPrice := congrArg Ticket.limitPrice hticket
    estimatedPrice := congrArg Ticket.estimatedPrice hticket
    slippagePercent := congrArg Ticket.slippagePercent hticket
    bookExhausted := hthin
    slippageWarning := hthin ▸ congrArg Ticket.slippageWarning hticket
    maxSlippageExceeded := hthin ▸ congrArg Ticket.maxSlippageExceeded hticket
    warnings := congrArg Ticket.warnings hticket }

/-! ## Checks -/

/-- No rejection of a limit price: it lies within the band. -/
theorem bandRejection?_eq_none {mark limit : Decimal}
    (h : rules.bandRejection? mark limit = .ok none) :
    ∃ low high, rules.band mark = .ok (low, high) ∧ low.le limit = .ok true ∧
      limit.le high = .ok true := by
  obtain ⟨⟨low, high⟩, hband, h⟩ := bind_eq_ok h
  obtain ⟨inside, hinside, h⟩ := bind_eq_ok h
  refine ⟨low, high, liftM_eq_ok hband, ?_⟩
  cases inside with
  | false =>
    exfalso
    rw [if_neg (by decide)] at h
    obtain ⟨below, _, h⟩ := bind_eq_ok h
    cases below <;> obtain ⟨_, _, h⟩ := bind_eq_ok h <;> cases h
  | true =>
    -- the upper bound is only asked for if the lower one holds
    obtain ⟨above, habove, hinside⟩ := bind_eq_ok (liftM_eq_ok hinside)
    cases above with
    | false => cases hinside
    | true => exact ⟨habove, hinside⟩

/-- The price that a limit price is held against: the mark price, or else the middle of the book. -/
def IsReference (book : Book) (markPrice : Option Decimal) (reference : Decimal) : Prop :=
  markPrice = some reference ∨ markPrice = none ∧ book.midPrice? = .ok (some reference)

/-- A check that added no rejection returned none. -/
theorem eq_none_of_toList {check : Except Failure (Option Rejection)}
    (h : (check >>= fun rejection => pure rejection.toList) = .ok []) : check = .ok none := by
  obtain ⟨rejection, hcheck, h⟩ := bind_eq_ok h
  cases rejection with
  | none => exact hcheck
  | some _ => cases h

/-- A limit price without rejections lies within the band around its reference. -/
theorem bandRejections_eq_nil {price : Decimal}
    (h : bandRejections order book rules markPrice (some price) = .ok []) :
    ∃ reference, IsReference book markPrice reference ∧
      rules.bandRejection? reference price = .ok none := by
  cases markPrice with
  | some mark => exact ⟨mark, .inl rfl, eq_none_of_toList h⟩
  | none =>
    obtain ⟨reference, hmid, h⟩ := bind_eq_ok h
    cases reference with
    | none => cases h
    | some mid => exact ⟨mid, .inr ⟨rfl, liftM_eq_ok hmid⟩, eq_none_of_toList h⟩

/-- Where the checks let an order pass, none of them has a rejection. -/
theorem checkBounds_eq_ok {limitPrice : Option Decimal} {baseSize price : Decimal}
    (h : checkBounds order book rules markPrice limitPrice baseSize price = .ok ()) :
    rules.notionalRejection? baseSize price (!order.reduceOnly) = .ok none ∧
      bandRejections order book rules markPrice limitPrice = .ok [] := by
  obtain ⟨value, hvalue, h⟩ := bind_eq_ok h
  obtain ⟨distance, hdistance, h⟩ := bind_eq_ok h
  cases value with
  | some _ => cases h
  | none =>
    cases distance with
    | nil => exact ⟨hvalue, hdistance⟩
    | cons => cases h

end OrderTicket.Ticket
