import OrderTicket.Proofs.Rules.Refused
import OrderTicket.Proofs.Ticket.Steps

/-!
# Which step refuses an order

Each step of a preparation refuses an order for reasons of its own, so the code of a rejection tells
where it comes from, and with it what was settled about the order before. This module follows the
rejections of an order's value to the check that they come from.

* `Failure.HasCodes`, `Failure.HasReasons`: failures that are no rejections, or rejections with
  certain codes, or with any.
* `Ticket.settle_eq_refused`: a step that cannot have led to a rejection returned something.
* `Ticket.exists_estimate`: a rejection of the value comes from the check of an estimate.
-/

namespace OrderTicket

/-- The failure is not a rejection, or it gives reasons, all of them with these codes. -/
def Failure.HasCodes (codes : List Rejection.Code) : Failure → Prop
  | .rejected rejections => rejections ≠ [] ∧ ∀ r ∈ rejections, r.code ∈ codes
  | _ => True

/-- The failure is not a rejection, or it gives reasons. -/
def Failure.HasReasons : Failure → Prop
  | .rejected rejections => rejections ≠ []
  | _ => True

/-- More codes may be allowed. -/
theorem Failure.HasCodes.mono {codes more : List Rejection.Code} {failure : Failure}
    (h : failure.HasCodes codes) (hsub : codes ⊆ more) : failure.HasCodes more := by
  cases failure with
  | rejected rejections => exact ⟨h.1, fun r hr => hsub (h.2 r hr)⟩
  | _ => trivial

/-- A failure whose codes are known gives reasons. -/
theorem Failure.HasCodes.hasReasons {codes : List Rejection.Code} {failure : Failure}
    (h : failure.HasCodes codes) : failure.HasReasons := by
  cases failure with
  | rejected rejections => exact h.1
  | _ => trivial

/-- A computation whose codes are known gives reasons where it refuses. -/
theorem FailsOnly.hasReasons {α : Type} {codes : List Rejection.Code} {x : Except Failure α}
    (h : FailsOnly x (Failure.HasCodes codes)) : FailsOnly x Failure.HasReasons :=
  h.mono fun _ => Failure.HasCodes.hasReasons

/-- Nothing is refused where there is no reason to. -/
theorem FailsOnly.hasReasons_of_nil {α : Type} {x : Except Failure α}
    (h : FailsOnly x (Failure.HasCodes [])) : FailsOnly x Failure.HasReasons :=
  h.hasReasons

/-! ## Steps and rules -/

section

variable {codes : List Rejection.Code} {value step : Decimal} {rules : TradingRules}

/-- Decimal operations do not refuse anything. -/
theorem FailsOnly.liftM_hasCodes {α : Type} (x : Except Decimal.Fault α) :
    FailsOnly (liftM x : Except Failure α) (Failure.HasCodes codes) :=
  .lift fun _ _ => trivial

/-- What has no code to refuse with refuses nothing. -/
theorem FailsOnly.not_mem_rejected {α : Type} {x : Except Failure α} {rejections : List Rejection}
    {r : Rejection} (hx : FailsOnly x (Failure.HasCodes []))
    (h : x = .error (.rejected rejections)) : r ∉ rejections := fun hr =>
  List.not_mem_nil ((hx _ h).2 r hr)

/-- A failure of numbers is no rejection, so it has whatever codes. -/
theorem Failure.OfNumbers.hasCodes {failure : Failure} (h : failure.OfNumbers) :
    failure.HasCodes codes := by
  cases failure with
  | rejected => exact h.elim
  | _ => trivial

/-- Writing a number with the decimals of a step refuses nothing. -/
theorem Step.write_hasCodes : FailsOnly (Step.write value step) (Failure.HasCodes codes) :=
  Step.write_failsOnly.mono fun _ h => h.hasCodes

namespace TradingRules

/-- Rounding down to a step refuses nothing. -/
theorem floorWritten_hasCodes : FailsOnly (floorWritten value step) (Failure.HasCodes codes) :=
  floorWritten_failsOnly.mono fun _ h => h.hasCodes

/-- Rounding up to a step refuses nothing. -/
theorem ceilWritten_hasCodes : FailsOnly (ceilWritten value step) (Failure.HasCodes codes) :=
  ceilWritten_failsOnly.mono fun _ h => h.hasCodes

theorem reject_hasCodes {α : Type} {code : Rejection.Code} {message : String} {nearest : Decimal} :
    FailsOnly (reject code message nearest : Except Failure α) (Failure.HasCodes [code]) :=
  .error (by simp [Failure.HasCodes])

/-- A quantity is refused for its size. -/
theorem quantity_hasCodes {market : Bool} {raw : Decimal} :
    FailsOnly (rules.quantity market raw)
      (Failure.HasCodes [.aboveMaxQuantity, .belowMinQuantity]) := by
  have hbelow (rounded : Decimal) :
      FailsOnly (rules.rejectBelow (rules.lot market) raw rounded)
        (Failure.HasCodes [.aboveMaxQuantity, .belowMinQuantity]) :=
    .bind (.liftM_hasCodes _) fun _ _ => .bind ceilWritten_hasCodes fun _ _ =>
      .bind (.liftM_hasCodes _) fun _ _ => reject_hasCodes.mono fun _ h => h.mono (by simp)
  have habove (bound : Decimal) :
      FailsOnly (rules.rejectAbove (rules.lot market) raw bound)
        (Failure.HasCodes [.aboveMaxQuantity, .belowMinQuantity]) :=
    .bind floorWritten_hasCodes fun _ _ => reject_hasCodes.mono fun _ h => h.mono (by simp)
  have hwritten (floored : Decimal) :
      FailsOnly (rules.writtenQuantity (rules.lot market) raw floored)
        (Failure.HasCodes [.aboveMaxQuantity, .belowMinQuantity]) :=
    .bind Step.write_hasCodes fun rounded _ => .bind (.liftM_hasCodes _) fun _ _ =>
      .ite (fun _ => hbelow rounded) fun _ => .ok
  refine .bind (.liftM_hasCodes _) fun floored _ => ?_
  -- Without an upper bound there is nothing to be above.
  cases (rules.lot market).max with
  | none => exact hwritten floored
  | some bound =>
    exact .bind (.liftM_hasCodes _) fun _ _ =>
      .ite (fun _ => habove bound) fun _ => hwritten floored

/-- A price is refused for its range. -/
theorem price_hasCodes {side : Option Side} {raw : Decimal} :
    FailsOnly (rules.price side raw) (Failure.HasCodes [.priceOutOfRange]) := by
  have hlow : FailsOnly (rules.rejectLowPrice raw) (Failure.HasCodes [.priceOutOfRange]) :=
    .bind (.liftM_hasCodes _) fun _ _ => .bind Step.write_hasCodes fun _ _ => reject_hasCodes
  have hhigh (bound : Decimal) :
      FailsOnly (rules.rejectHighPrice raw bound) (Failure.HasCodes [.priceOutOfRange]) :=
    .bind floorWritten_hasCodes fun _ _ => reject_hasCodes
  rw [price_eq]
  refine .bind (.ite (fun _ => ceilWritten_hasCodes) fun _ => floorWritten_hasCodes) fun p _ => ?_
  refine .bind (.liftM_hasCodes _) fun _ _ => .ite (fun _ => hlow) fun _ => ?_
  cases rules.maxPrice with
  | none => exact .ok
  | some bound =>
    exact .bind (.liftM_hasCodes _) fun _ _ => .ite (fun _ => hhigh bound) fun _ => .ok

/-- Whether a value is refused is an answer and no failure. -/
theorem notionalRejection?_hasCodes {quantity price : Decimal} {checkMin : Bool} :
    FailsOnly (rules.notionalRejection? quantity price checkMin) (Failure.HasCodes codes) := by
  refine .bind (.liftM_hasCodes _) fun notional _ => .bind (.liftM_hasCodes _) fun _ _ => ?_
  refine .ite (fun _ => ?_) fun _ => ?_
  · exact .bind (.liftM_hasCodes _) fun _ _ => .bind (.liftM_hasCodes _) fun _ _ =>
      .bind (.liftM_hasCodes _) fun _ _ => .bind Step.write_hasCodes fun _ _ =>
      .bind (.liftM_hasCodes _) fun _ _ => .bind (.liftM_hasCodes _) fun _ _ => .ok
  · cases rules.maxNotional with
    | none => exact .ok
    | some most =>
      refine .bind (.liftM_hasCodes _) fun _ _ => .ite (fun _ => ?_) fun _ => .ok
      exact .bind (.liftM_hasCodes _) fun _ _ => .bind floorWritten_hasCodes fun _ _ =>
        .bind (.liftM_hasCodes _) fun _ _ => .bind (.liftM_hasCodes _) fun _ _ => .ok

/-- The check of a limit price against the mark price answers, and does not fail with a
rejection. -/
theorem bandRejection?_hasCodes {mark limit : Decimal} :
    FailsOnly (rules.bandRejection? mark limit) (Failure.HasCodes codes) := by
  refine .bind (.liftM_hasCodes _) fun _ _ => .bind (.liftM_hasCodes _) fun _ _ => ?_
  refine .ite (fun _ => .ok) fun _ => .bind (.liftM_hasCodes _) fun below _ => ?_
  cases below with
  | true => exact .bind ceilWritten_hasCodes fun _ _ => .ok
  | false => exact .bind floorWritten_hasCodes fun _ _ => .ok

/-- A limit price that is too far from the mark price is rejected with the code of the band. -/
theorem code_of_bandRejection? {mark limit : Decimal} {r : Rejection}
    (h : rules.bandRejection? mark limit = .ok (some r)) : r.code = .outsidePriceBand := by
  obtain ⟨⟨low, high⟩, -, h⟩ := bind_eq_ok h
  obtain ⟨inside, -, h⟩ := bind_eq_ok h
  cases inside with
  | true => cases h
  | false =>
    rw [if_neg (by decide)] at h
    obtain ⟨below, -, h⟩ := bind_eq_ok h
    cases below <;> obtain ⟨nearest, -, h⟩ := bind_eq_ok h <;> cases h <;> rfl

end TradingRules

end

/-! ## Steps of a preparation -/

namespace Ticket

section

variable {codes : List Rejection.Code} {order : Order} {book : Book} {rules : TradingRules}
  {risk : RiskSettings} {balance markPrice : Option Decimal} {limitPrice : Option Decimal}
  {fill : Option Fill} {raw : Decimal}

/-- A limit price is refused for its range. -/
theorem limitPrice?_hasCodes :
    FailsOnly (limitPrice? order rules) (Failure.HasCodes [.priceOutOfRange]) := by
  unfold limitPrice?
  split
  · exact .ok
  · split
    · exact .error trivial
    · exact .bind TradingRules.price_hasCodes fun _ _ => .ok

/-- Looking whether a limit price was moved refuses nothing. -/
theorem priceWarnings_hasCodes :
    FailsOnly (priceWarnings order rules limitPrice) (Failure.HasCodes codes) := by
  unfold priceWarnings
  split
  · exact .bind (.liftM_hasCodes _) fun _ _ => .ite (fun _ => .ok) fun _ =>
      .bind (.liftM_hasCodes _) fun _ _ => .ok
  · exact .ok

/-- Walking the book refuses nothing; what to do without liquidity is decided by the caller. -/
theorem fillFor_hasCodes {side : Side} {target : FillTarget} {requested : Decimal} :
    FailsOnly (book.fillFor side target requested) (Failure.HasCodes codes) := by
  refine .bind (.liftM_hasCodes _) fun _ _ => .ite (fun _ => .error trivial) fun _ => ?_
  cases book.levels side with
  | nil => exact .error trivial
  | cons best rest => exact .liftM_hasCodes _

/-- A fill is refused only for an empty book. -/
theorem fillOrReject_hasCodes {side : Side} {target : FillTarget} {requested : Decimal} :
    FailsOnly (fillOrReject book side target requested) (Failure.HasCodes [.noLiquidity]) := by
  unfold fillOrReject
  split
  · exact .error (by simp [Failure.HasCodes])
  · exact fillFor_hasCodes

/-- A quantity is not found for want of a balance or of a book. -/
theorem rawQuantity_hasCodes {leverage : Int} :
    FailsOnly (rawQuantity order book limitPrice leverage balance)
      (Failure.HasCodes [.balanceRequired, .noLiquidity]) := by
  have husable (amount : Decimal) : FailsOnly (usableBalance amount balance)
      (Failure.HasCodes [.balanceRequired, .noLiquidity]) := by
    cases balance with
    | none => exact .error (by simp [Failure.HasCodes])
    | some balance =>
      exact .bind (.liftM_hasCodes _) fun _ _ =>
        .ite (fun _ => .error (by simp [Failure.HasCodes])) fun _ => .ok
  have hnotional : FailsOnly (notional order.size leverage balance)
      (Failure.HasCodes [.balanceRequired, .noLiquidity]) :=
    .ite (fun _ => .bind (husable _) fun _ _ => .bind (.liftM_hasCodes _) fun _ _ =>
      .bind (.liftM_hasCodes _) fun _ _ => .liftM_hasCodes _) fun _ => .ok
  refine .ite (fun _ => .ok) fun _ => .bind hnotional fun notional _ => ?_
  cases limitPrice with
  | some price => exact .bind (.liftM_hasCodes _) fun _ _ => .ok
  | none =>
    exact .bind (fillOrReject_hasCodes.mono fun _ h => h.mono (by simp)) fun _ _ => .ok

/-- A market order is refused only for an empty book. -/
theorem marketFill?_hasCodes {conversion : Option Fill} :
    FailsOnly (marketFill? order book raw conversion) (Failure.HasCodes [.noLiquidity]) := by
  unfold marketFill?
  split
  · exact .ok
  · split
    · exact .ok
    · exact .bind fillOrReject_hasCodes fun _ _ => .ok

/-- The slippage check warns and refuses nothing. -/
theorem slippage_hasCodes : FailsOnly (slippage risk fill) (Failure.HasCodes codes) := by
  cases fill with
  | none => exact .ok
  | some fill =>
    exact .bind (.liftM_hasCodes _) fun _ _ => .bind (.liftM_hasCodes _) fun _ _ => .ok

/-- Looking whether a quantity was cut refuses nothing. -/
theorem quantityWarnings_hasCodes {lot : Lot} {used : Decimal} :
    FailsOnly (quantityWarnings order lot raw used) (Failure.HasCodes codes) :=
  .ite (fun _ => .ok) fun _ => .bind (.liftM_hasCodes _) fun _ _ => .ite (fun _ => .ok) fun _ =>
    .bind (.liftM_hasCodes _) fun _ _ => .ok

/-- The expected price is refused for its range. -/
theorem priceOf_hasCodes {terms : Terms} :
    FailsOnly (priceOf order rules terms) (Failure.HasCodes [.priceOutOfRange]) := by
  unfold priceOf
  split
  · exact TradingRules.price_hasCodes
  · exact .ok
  · exact .error trivial

/-- A ticket that has passed all checks is refused only for its protections. -/
theorem complete_hasCodes {terms : Terms} {baseSize price : Decimal} {warnings : List Warning} :
    FailsOnly (complete order rules risk terms baseSize price warnings)
      (Failure.HasCodes [.invalidProtectivePrice, .priceOutOfRange]) := by
  have hprotection {isStop : Bool} {percent? : Option Decimal} :
      FailsOnly (protectivePrice? rules order.side isStop price percent?)
        (Failure.HasCodes [.invalidProtectivePrice, .priceOutOfRange]) := by
    cases percent? with
    | none => exact .ok
    | some percent =>
      refine .map (.bind (.liftM_hasCodes _) fun _ _ => .bind (.liftM_hasCodes _) fun _ _ =>
        .bind (.liftM_hasCodes _) fun raw _ => ?_)
      split
      · exact .error (by simp [Failure.HasCodes])
      · exact TradingRules.price_hasCodes.mono fun _ h => h.mono (by simp)
  exact .bind (.liftM_hasCodes _) fun _ _ => .bind (.liftM_hasCodes _) fun _ _ =>
    .bind (.liftM_hasCodes _) fun _ _ => .bind hprotection fun _ _ =>
      .bind hprotection fun _ _ => .ok

/-! ## From a rejection to its step -/

variable {rejections : List Rejection} {warnings : List Warning} {r : Rejection}

/-- A step that does not refuse with the code of a rejection has returned something before the
rejection was made. -/
theorem settle_eq_refused {α : Type} {notes : List Warning} {x : Except Failure α}
    {next : α → Except Failure Outcome} (hx : FailsOnly x (Failure.HasCodes codes))
    (hr : r ∈ rejections) (hcode : r.code ∉ codes)
    (h : settle notes x next = .ok (.refused rejections warnings)) :
    ∃ a, x = .ok a ∧ next a = .ok (.refused rejections warnings) := by
  cases x with
  | ok a => exact ⟨a, rfl, h⟩
  | error failure =>
    cases failure with
    | rejected made =>
      cases h
      exact absurd ((hx _ rfl).2 r hr) hcode
    | _ => cases h

/-- Whether a limit price is within the band is an answer and no failure. -/
theorem bandRejections_hasCodes :
    FailsOnly (bandRejections order book rules markPrice limitPrice) (Failure.HasCodes codes) := by
  cases limitPrice with
  | none => exact .ok
  | some price =>
    cases markPrice with
    | some mark =>
      change FailsOnly
        (rules.bandRejection? mark price >>= fun rejection => pure rejection.toList) _
      exact .bind TradingRules.bandRejection?_hasCodes fun _ _ => .ok
    | none =>
      refine .bind (.liftM_hasCodes _) fun reference _ => ?_
      cases reference with
      | none => exact .ok
      | some reference => exact .bind TradingRules.bandRejection?_hasCodes fun _ _ => .ok

/-- The check of the price distance rejects for the band, or for want of a price to compare with. -/
theorem code_of_mem_bandRejections {distance : List Rejection}
    (h : bandRejections order book rules markPrice limitPrice = .ok distance) (hr : r ∈ distance) :
    r.code ∈ [.outsidePriceBand, .noLiquidity] := by
  -- With a mark price and with a book of two sides the check is the same one.
  have hband {reference price : Decimal}
      (h : (rules.bandRejection? reference price >>= fun rejection => pure rejection.toList) =
        .ok distance) : r.code ∈ [.outsidePriceBand, .noLiquidity] := by
    obtain ⟨rejection, hrejection, h⟩ := bind_eq_ok h
    cases h
    obtain rfl : rejection = some r := Option.mem_toList.1 hr
    simp [TradingRules.code_of_bandRejection? hrejection]
  cases limitPrice with
  | none =>
    cases h
    cases hr
  | some price =>
    cases markPrice with
    | some mark => exact hband h
    | none =>
      obtain ⟨reference, -, h⟩ := bind_eq_ok h
      cases reference with
      | some reference => exact hband h
      | none =>
        cases h
        obtain rfl := List.mem_singleton.1 hr
        simp

/-- A rejection of the value that the checks report is the one of the value's check. -/
theorem notionalRejection?_of_checkBounds {baseSize price : Decimal} (hr : r ∈ rejections)
    (hcode : r.code ∈ [.belowMinNotional, .aboveMaxNotional])
    (h : checkBounds order book rules markPrice limitPrice baseSize price =
      .error (.rejected rejections)) :
    rules.notionalRejection? baseSize price (!order.reduceOnly) = .ok (some r) := by
  unfold checkBounds at h
  cases hvalue : rules.notionalRejection? baseSize price (!order.reduceOnly) with
  | error failure =>
    rw [hvalue] at h
    cases h
    exact absurd hr (TradingRules.notionalRejection?_hasCodes.not_mem_rejected hvalue)
  | ok value =>
    rw [hvalue] at h
    cases hdistance : bandRejections order book rules markPrice limitPrice with
    | error failure =>
      rw [hdistance] at h
      cases h
      exact absurd hr (bandRejections_hasCodes.not_mem_rejected hdistance)
    | ok distance =>
      rw [hdistance] at h
      have hmem : r ∈ value.toList ++ distance := by
        simp only [bind, Except.bind] at h
        split at h
        · cases h
        · cases h
          exact hr
      rcases List.mem_append.1 hmem with hmem | hmem
      · rw [Option.mem_toList.1 hmem]
      · -- the other checks have codes of their own
        have hother := code_of_mem_bandRejections hdistance hmem
        rcases List.mem_pair.1 hcode with hcode | hcode <;> simp [hcode] at hother

/-- A rejection of the value comes from the check of an estimate. -/
theorem exists_estimate (hr : r ∈ rejections)
    (hcode : r.code ∈ [.belowMinNotional, .aboveMaxNotional])
    (h : assemble order book rules risk balance markPrice = .ok (.refused rejections warnings)) :
    ∃ estimate : Estimate order book rules risk balance,
      rules.notionalRejection? estimate.baseSize estimate.price (!order.reduceOnly) =
        .ok (some r) := by
  have hother {codes : List Rejection.Code}
      (hdisjoint : codes.all (fun code => code ∉ [.belowMinNotional, .aboveMaxNotional]) = true) :
      r.code ∉ codes := fun hmem => by
    simpa [hcode] using List.all_eq_true.1 hdisjoint _ hmem
  obtain ⟨leverageNotes, -, h⟩ := settle_eq_refused (.liftM_hasCodes _) hr List.not_mem_nil h
  obtain ⟨limitPrice, hlimit, h⟩ := settle_eq_refused limitPrice?_hasCodes hr (hother rfl) h
  obtain ⟨priceNotes, -, h⟩ := settle_eq_refused priceWarnings_hasCodes hr List.not_mem_nil h
  obtain ⟨⟨raw, conversion⟩, hraw, h⟩ := settle_eq_refused rawQuantity_hasCodes hr (hother rfl) h
  obtain ⟨fill, hfill, h⟩ := settle_eq_refused marketFill?_hasCodes hr (hother rfl) h
  obtain ⟨⟨overLimit, slippageNotes⟩, -, h⟩ :=
    settle_eq_refused slippage_hasCodes hr List.not_mem_nil h
  obtain ⟨baseSize, hbase, h⟩ :=
    settle_eq_refused TradingRules.quantity_hasCodes hr (hother rfl) h
  obtain ⟨quantityNotes, -, h⟩ := settle_eq_refused quantityWarnings_hasCodes hr List.not_mem_nil h
  obtain ⟨price, hprice, h⟩ := settle_eq_refused priceOf_hasCodes hr (hother rfl) h
  refine ⟨⟨⟨_, limitPrice, raw, fill, overLimit⟩, conversion, baseSize, price, rfl, hlimit, hraw,
    hfill, hbase, hprice⟩, ?_⟩
  -- what is left are the checks, and the parts of a ticket that has passed them
  cases hbounds : checkBounds order book rules markPrice limitPrice baseSize price with
  | error failure =>
    rw [hbounds] at h
    cases failure with
    | rejected made =>
      cases h
      exact notionalRejection?_of_checkBounds hr hcode hbounds
    | _ => cases h
  | ok _ =>
    rw [hbounds] at h
    obtain ⟨ticket, -, h⟩ := settle_eq_refused complete_hasCodes hr (hother rfl) h
    cases h

end

end Ticket

end OrderTicket
