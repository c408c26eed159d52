import OrderTicket.Proofs.Selection.Decided

/-!
# The limit price of a selection

The type and the limit price of a selection are fields of their own, and neither is checked against
the other. The command has a limit price only behind the limit keyword, so a limit order keeps the
price that was chosen and a market order is read as if none had been.

* `Selection.reading_withoutPrice`: what is read of a market order does not depend on the price.
* `Selection.limitPrice_of_reading`: what becomes of the price in the order.
* `Selection.price_lost_pricedPurchase`: a purchase at the market, with a price of no effect.
-/

namespace OrderTicket

open Command Decimal

variable {settings : CommandSettings} {selection : Selection}

/-- The order is a limit order, and its price is the number, perhaps with other digits. -/
def Order.LimitedTo (order : Order) (chosen : Decimal) : Prop :=
  order.type = .limit ∧ ∃ price, order.limitPrice = some price ∧ price.isFinite = true ∧
    price.value = chosen.value

namespace Selection

/-! ## Selections without a price -/

/-- The selection without its limit price. -/
def withoutPrice (selection : Selection) : Selection :=
  { selection with limitPrice := none }

/-- A valid selection is valid without its limit price. -/
theorem Valid.withoutPrice (h : selection.Valid) : selection.withoutPrice.Valid where
  symbol_ne_empty := h.symbol_ne_empty
  symbol_word := h.symbol_word
  numbers := by
    intro x hx
    refine h.numbers x ?_
    simp only [Selection.numbers, Selection.withoutPrice, Option.toList_none, List.nil_append,
      List.mem_cons, List.mem_append] at hx ⊢
    tauto

/-- The command of a market order does not have the limit price. -/
theorem command_withoutPrice (hmarket : selection.type = .market) :
    selection.withoutPrice.command = selection.command := by
  have hterms : selection.withoutPrice.limitTerms = selection.limitTerms := by
    simp only [limitTerms, withoutPrice, hmarket]
  rw [command, hterms]
  rfl

/-- A market order is read as if no limit price had been chosen. -/
theorem reading_withoutPrice (hmarket : selection.type = .market) :
    selection.withoutPrice.reading settings = selection.reading settings := by
  rw [reading, command_withoutPrice hmarket, reading]

/-! ## What becomes of the price -/

/-- A selection that is accepted is read as its order, and all numbers of the order can be
written. -/
theorem exists_fillable_of_ok (hvalid : selection.Valid)
    (hlimit : selection.limitPrice.isSome = true → selection.type = .limit)
    {reading : Reading} (h : selection.reading settings = .ok reading) (hok : reading.ok = true) :
    ∃ market, Fillable settings (selection.order market) ∧
      reading.order = some (rereadOrder (selection.order market)) := by
  obtain ⟨market, hacceptable⟩ := acceptable_of_ok hvalid hlimit h hok
  refine ⟨market, hacceptable.fillable hvalid hlimit, ?_⟩
  obtain rfl := Except.ok.inj ((hacceptable.reading_eq hvalid hlimit).symm.trans h)
  have horder : (draftOf (selection.order market)).order? =
      some (rereadOrder (selection.order market)) :=
    order?_draftOf (hacceptable.limit_iff hlimit)
  rw [Reading.ofDraft, horder]

/-- Where a selection with a limit price is accepted, its type decides what becomes of the price: a
limit order has it, and a market order has none. -/
theorem limitPrice_of_reading (hvalid : selection.Valid) {chosen : Decimal}
    (hchosen : selection.limitPrice = some chosen) {reading : Reading}
    (h : selection.reading settings = .ok reading) (hok : reading.ok = true) :
    ∃ order, reading.order = some order ∧
      (selection.type = .limit → order.LimitedTo chosen) ∧
      (selection.type = .market → order.type = .market ∧ order.limitPrice = none) := by
  cases htype : selection.type with
  | limit =>
    obtain ⟨market, hfillable, horder⟩ := exists_fillable_of_ok hvalid (fun _ => htype) h hok
    have hwritable : Writable chosen := hfillable.limitPrice chosen hchosen
    refine ⟨_, horder, fun _ => ⟨htype, reread chosen, ?_, ?_, ?_⟩, nofun⟩
    · exact congrArg (Option.map reread) hchosen
    · exact hwritable.accepted_canonical.isFinite
    · exact hwritable.reread_value
  | market =>
    -- the price is not in the command, so the selection is accepted without it as well
    rw [← reading_withoutPrice htype] at h
    obtain ⟨market, -, horder⟩ := exists_fillable_of_ok hvalid.withoutPrice nofun h hok
    exact ⟨_, horder, nofun, fun _ => ⟨htype, rfl⟩⟩

/-! ## A sale and a purchase -/

/-- The sale for a limit price is accepted, and its order has that price. -/
theorem limitPrice_sampleSale :
    sampleSale.Valid ∧ sampleSale.limitPrice = some (.finite false 31 2) ∧
      ∃ reading, sampleSale.reading {} = .ok reading ∧ reading.ok = true ∧
        ∃ order, reading.order = some order ∧
          (sampleSale.type = .limit → order.LimitedTo (.finite false 31 2)) ∧
          (sampleSale.type = .market → order.type = .market ∧ order.limitPrice = none) := by
  obtain ⟨reading, hreading, hok⟩ : ∃ reading, sampleSale.reading {} = .ok reading ∧
      reading.ok = true := exists_ok_of_any (by decide +kernel)
  exact ⟨valid_sampleSale, rfl, reading, hreading, hok,
    limitPrice_of_reading valid_sampleSale rfl hreading hok⟩

/-- A purchase with a limit price whose type is left open, so that it is a market order. -/
def pricedPurchase : List (String × Payload) :=
  [("action", .text "buy"), ("symbol", .text "BTCUSDT"), ("size", .text "100"),
    ("limit_price", .text "63000")]

/-- The purchase is accepted as a market order without a price, so not every chosen limit price is
one of the order. -/
theorem price_lost_pricedPurchase :
    (∃ reading order, readForm check {} pricedPurchase = .ok reading ∧ reading.ok = true ∧
      reading.order = some order ∧ order.type = .market ∧ order.limitPrice = none) ∧
    ¬ ∀ (settings : CommandSettings) (selection : Selection) (chosen : Decimal)
        (reading : Reading), selection.Valid → selection.limitPrice = some chosen →
      selection.reading settings = .ok reading → reading.ok = true →
      ∃ order, reading.order = some order ∧ order.LimitedTo chosen := by
  have hcheck : check pricedPurchase = .ok
      { action := .buy, symbol := "BTCUSDT", size := .finite false 100 0,
        limitPrice := some (.finite false 63000 0) } := by
    rfl
  obtain ⟨reading, hreading, hok⟩ : ∃ reading, readForm check {} pricedPurchase = .ok reading ∧
      reading.ok = true := exists_ok_of_any (by decide +kernel)
  have hread := (readForm_of_ok hcheck).symm.trans hreading
  -- the order is that of the selection without the price
  rw [← reading_withoutPrice rfl] at hread
  obtain ⟨market, -, horder⟩ :=
    exists_fillable_of_ok (valid_of_check hcheck).withoutPrice nofun hread hok
  refine ⟨⟨reading, _, hreading, hok, horder, rfl, rfl⟩, fun hall => ?_⟩
  rw [reading_withoutPrice rfl] at hread
  obtain ⟨order, hother, htype, -⟩ := hall {} _ _ reading (valid_of_check hcheck) rfl hread hok
  obtain rfl := Option.some.inj (horder.symm.trans hother)
  cases htype

end Selection

end OrderTicket
