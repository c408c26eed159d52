import OrderTicket.Proofs.Ticket.Protection

/-!
# The limit price of a ticket beside the typed one

A typed limit price is moved to the tick so that the order does not become more aggressive: a
purchase does not pay more, a sale does not take less. For purchases that is so, however many digits
were typed. For sales the quotient by the tick is rounded first, and a fraction that is lost there
leaves the price below the typed one, by what the last digit of that quotient is worth.

* `Ticket.StandsBy`: where the limit price of a ticket lies beside the typed one.
* `Ticket.standsBy_of_price`: that is what moving a price to the tick gives.
* `Ticket.standsBy_of_prepare`: the tickets of all commands.
-/

namespace OrderTicket.Ticket

open Decimal

/-- Where the limit price of a ticket lies beside the typed one. -/
structure StandsBy (side : Side) (tick typed price : ℚ) : Prop where
  /-- A purchase never pays more than typed. -/
  buy_le : side = .buy → price ≤ typed
  /-- A purchase pays less than a tick less than typed. -/
  buy_lt : side = .buy → typed < price + tick
  /-- A sale takes less than a tick more than typed. -/
  sell_lt : side = .sell → price < typed + tick
  /-- A sale takes less than typed exactly where rounding the quotient by the tick takes all of its
  fraction away. -/
  sell_iff : side = .sell → (price < typed ↔ ∃ j : ℤ, nearest (typed / tick) = j ∧ j < typed / tick)
  /-- A sale takes less than typed only by what the precision cannot tell. -/
  sell_sub_le : side = .sell → typed - typed / 10 ^ 27 ≤ price
  /-- A sale does not take less than typed where that quotient can be held, or where the price has
  fewer digits than the precision beside the tick. -/
  sell_le : side = .sell → Representable (typed / tick) ∨
    AlignedBelow (10 ^ (precision - 1)) typed tick → typed ≤ price

section

variable {order : Order} {book : Book} {rules : TradingRules} {risk : RiskSettings}
  {balance markPrice : Option Decimal} {ticket : Ticket} {event : Event} {side : Side}
  {typed price : Decimal}

/-- Nothing is lost of a quotient that can be held. -/
theorem le_of_representable {tick typed price : ℚ} (hrep : Representable (typed / tick))
    (hiff : price < typed ↔ ∃ j : ℤ, nearest (typed / tick) = j ∧ j < typed / tick) :
    typed ≤ price := by
  refine not_lt.1 fun hlt => ?_
  obtain ⟨j, hnear, hj⟩ := hiff.1 hlt
  rw [nearest_of_representable hrep] at hnear
  exact hj.ne' hnear

/-- What moving a limit price to the tick gives, on either side. -/
theorem standsBy_of_price (htick : rules.tick.InContext)
    (h : rules.price (some side) typed = .ok price) :
    StandsBy side rules.tick.value typed.value price.value := by
  cases side with
  | buy =>
    -- toward zero the quotient is exact
    obtain ⟨-, k, hwritten, hdown, -⟩ := TradingRules.price_isWritten htick h
    obtain ⟨hlow, hhigh⟩ := hdown (by decide)
    rw [add_one_mul, ← hwritten.value_eq] at hhigh
    rw [← hwritten.value_eq] at hlow
    exact {
      buy_le := fun _ => hlow
      buy_lt := fun _ => hhigh
      sell_lt := nofun
      sell_iff := nofun
      sell_sub_le := nofun
      sell_le := nofun }
  | sell =>
    have hlt := TradingRules.sub_lt_of_price_sell htick h
    have hiff := TradingRules.price_lt_iff_of_sell htick h
    exact {
      buy_le := nofun
      buy_lt := nofun
      sell_lt := fun _ => sub_lt_iff_lt_add.1 hlt
      sell_iff := fun _ => hiff
      sell_sub_le := fun _ => TradingRules.sub_le_of_price_sell htick h
      sell_le := by
        rintro - (hrep | haligned)
        · exact le_of_representable hrep hiff
        · exact TradingRules.le_of_price_sell htick haligned h }

/-- The limit price of a limit order's ticket is the typed one, moved to the tick. -/
theorem exists_price_of_limit (htype : order.type = .limit)
    (h : prepare order book rules risk balance markPrice = .ok (.ready ticket, event)) :
    ∃ typed price, order.limitPrice = some typed ∧ ticket.limitPrice = some price ∧
      rules.price (some order.side) typed = .ok price := by
  obtain ⟨hassemble, -⟩ := prepare_eq_ok h
  obtain ⟨steps⟩ := exists_steps hassemble
  obtain ⟨typed, htyped, hprice, hlimit, -⟩ := steps.of_limit htype
  exact ⟨typed, steps.price, htyped, steps.shown.limitPrice.trans hlimit, hprice⟩

/-- Where the limit price of a ticket lies beside the typed one, whatever the order asks for and
whatever the market is like. -/
theorem standsBy_of_prepare (htype : order.type = .limit) (htick : rules.tick.InContext)
    (h : prepare order book rules risk balance markPrice = .ok (.ready ticket, event)) :
    ∃ typed price, order.limitPrice = some typed ∧ ticket.limitPrice = some price ∧
      typed.isFinite = true ∧ price.isFinite = true ∧
      StandsBy order.side rules.tick.value typed.value price.value := by
  obtain ⟨typed, price, htyped, hlimit, hprice⟩ := exists_price_of_limit htype h
  obtain ⟨hfinite, k, hwritten, -⟩ := TradingRules.price_isWritten htick hprice
  exact ⟨typed, price, htyped, hlimit, hfinite, hwritten.isFinite, standsBy_of_price htick hprice⟩

end

/-! ## Sales at a typed price -/

/-- A typed sale at a price off the grid waits at the next tick above it. -/
theorem standsBy_sample_sale : ∃ reading order ticket event typed price,
    Command.read {} "/sell BTCUSDT 1 limit 64000.11" = .ok reading ∧ reading.order = some order ∧
      prepare order Sample.book Sample.rules {} none none = .ok (.ready ticket, event) ∧
      order.limitPrice = some typed ∧ ticket.limitPrice = some price ∧
      typed.value ≤ price.value ∧ price.value < typed.value + Sample.rules.tick.value := by
  obtain ⟨reading, order, ticket, event, hread, horder, hrun, hcheck⟩ := exists_ready_of_read
    (r := Command.read {} "/sell BTCUSDT 1 limit 64000.11")
    (f := fun order => prepare order Sample.book Sample.rules {} none none)
    (c := fun order _ => decide (order.type = .limit ∧ order.side = .sell ∧
      order.limitPrice = some 64000.11)) (by decide +kernel)
  obtain ⟨htype, hside, hentry⟩ := of_decide_eq_true hcheck
  obtain ⟨typed, price, htyped, hlimit, -, -, hstands⟩ :=
    standsBy_of_prepare htype Sample.rules_inContext.tick hrun
  obtain rfl : 64000.11 = typed := Option.some.inj (hentry.symm.trans htyped)
  refine ⟨reading, order, ticket, event, 64000.11, price, hread, horder, hrun, htyped, hlimit,
    hstands.sell_le hside (.inr ⟨6400011, 10, -2, ?_, ?_, by decide⟩), hstands.sell_lt hside⟩
  · exact value_positive 6400011 (-2)
  · have htick : Sample.rules.tick.value = 1 * 10 ^ (-1 : ℤ) := rfl
    rw [htick]
    norm_num

/-- A price of thirty-one digits is typed a little above a tick. The quotient is rounded to that
tick, and the sale takes less than was typed. -/
theorem below_typed_sale : ∃ reading order ticket event typed price,
    Command.read {} "/sell BTCUSDT 1 limit 64000.10000000000000000000000001" = .ok reading ∧
      reading.order = some order ∧
      prepare order Sample.book Sample.rules {} none none = .ok (.ready ticket, event) ∧
      order.side = .sell ∧ order.type = .limit ∧ order.limitPrice = some typed ∧
      ticket.limitPrice = some price ∧ price.value < typed.value := by
  obtain ⟨reading, order, ticket, event, hread, horder, hrun, hcheck⟩ := exists_ready_of_read
    (r := Command.read {} "/sell BTCUSDT 1 limit 64000.10000000000000000000000001")
    (f := fun order => prepare order Sample.book Sample.rules {} none none)
    (c := fun order ticket => decide (order.side = .sell ∧ order.type = .limit ∧
      order.limitPrice = some 64000.10000000000000000000000001 ∧
      ticket.limitPrice = some 64000.1)) (by decide +kernel)
  obtain ⟨hside, htype, htyped, hlimit⟩ := of_decide_eq_true hcheck
  have hless : (64000.1 : Decimal).lt 64000.10000000000000000000000001 = .ok true := by rfl
  rw [lt_eq rfl rfl] at hless
  exact ⟨reading, order, ticket, event, _, _, hread, horder, hrun, hside, htype, htyped, hlimit,
    of_decide_eq_true (Except.ok.inj hless)⟩

end OrderTicket.Ticket
