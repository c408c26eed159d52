import OrderTicket.Proofs.Rules.Notional
import OrderTicket.Proofs.Rules.Price
import OrderTicket.Proofs.Ticket.Legal
import OrderTicket.Proofs.Ticket.Refusals

/-!
# The quantity that a rejection suggests

An order whose value is out of bounds is refused with the nearest quantity of a value within them.
That quantity is computed from the lot rules of limit orders, and the order with it would be held
against the lot rules of its own type. Where these agree, the suggestion can be placed whenever any
quantity can; market orders with lot rules of their own may be sent to a quantity that is cut or
refused again.

* `Ticket.Suited`: the lot rules agree as far as the suggestion depends on them.
* `Ticket.suggests_of_prepare`: the suggested quantity is taken if any quantity is.
-/

namespace OrderTicket.Ticket

open Decimal

/-- The suggestion of a rejection is computed from the lot rules that the order is held against, and
from a bound at which the values of quantities can be told apart. The lot rules of limit orders are
always those. -/
inductive Suited (rules : TradingRules) (market : Bool) (price : Decimal) :
    Rejection.Code → Prop where
  /-- The least quantity is the one that the order is held against, and a number of steps. -/
  | below (step : (rules.lot market).step = rules.step)
    (min : (rules.lot market).min = rules.minQuantity)
    (multiple : ∃ k : ℤ, rules.minQuantity.value = k * rules.step.value)
    (discernible : TradingRules.Discernible rules.step price rules.minNotional) :
    Suited rules market price .belowMinNotional
  /-- Of the largest value only the step matters. -/
  | above (step : (rules.lot market).step = rules.step) (most : Decimal)
    (max : rules.maxNotional = some most)
    (discernible : TradingRules.Discernible rules.step price most) :
    Suited rules market price .aboveMaxNotional

section

variable {order : Order} {book : Book} {rules : TradingRules} {risk : RiskSettings}
  {balance markPrice : Option Decimal} {event : Event} {rejections : List Rejection}
  {warnings : List Warning} {r : Rejection}

/-- An order has only one expected price. -/
theorem Estimate.price_unique (estimate other : Estimate order book rules risk balance) :
    estimate.price = other.price := by
  have hlimit : estimate.terms.limitPrice = other.terms.limitPrice :=
    Except.ok.inj (estimate.limitPrice_eq.symm.trans other.limitPrice_eq)
  have hraw := estimate.raw_eq
  rw [estimate.leverage_eq, hlimit, ← other.leverage_eq, other.raw_eq] at hraw
  obtain ⟨hquantity, hconversion⟩ := Prod.mk.inj (Except.ok.inj hraw)
  have hfill := estimate.fill_eq
  rw [← hquantity, ← hconversion, other.fill_eq] at hfill
  have hprice := estimate.price_eq
  unfold priceOf at hprice
  rw [hlimit, ← Except.ok.inj hfill] at hprice
  exact Except.ok.inj (hprice.symm.trans other.price_eq)

/-- An order that is refused for its value is sent to a quantity that the market takes at the
expected price, if it takes any, provided that the suggestion suits the type of the order. -/
theorem suggests_of_prepare (htick : rules.tick.InContext)
    (hlot : (rules.lot (order.type == .market)).InContext)
    (h : prepare order book rules risk balance markPrice =
      .ok (.refused rejections warnings, event)) (hr : r ∈ rejections)
    (hcode : r.code ∈ [.belowMinNotional, .aboveMaxNotional]) :
    ∃ (estimate : Estimate order book rules risk balance) (v : Decimal), r.nearestValid = some v ∧
      (Suited rules (order.type == .market) estimate.price r.code →
        (∃ q, rules.Takes (order.type == .market) estimate.price q) →
          rules.Takes (order.type == .market) estimate.price v) := by
  obtain ⟨hassemble, -⟩ := prepare_eq_ok h
  obtain ⟨estimate, hrejection⟩ := exists_estimate hr hcode hassemble
  -- the expected price is a number of ticks
  obtain ⟨_, _, hmoved⟩ := exists_of_priceOf estimate.limitPrice_eq estimate.price_eq
  obtain ⟨-, _, hprice, -⟩ := TradingRules.price_isWritten htick hmoved
  have hpricepos := hprice.value_pos (TradingRules.tick_value_pos htick)
  rcases TradingRules.notionalRejection?_eq_some hrejection with
    ⟨hbelow, notional, enough, x, least, v, hnotional, hlow, henough, hx, hleast, hv, hnearest⟩ |
      ⟨habove, notional, most, enough, v, hnotional, hmax, hhigh, henough, hv, hnearest⟩
  · refine ⟨estimate, v, hnearest, fun hsuited ⟨q, hq⟩ => ?_⟩
    rw [hbelow] at hsuited
    cases hsuited with
    | below hstep hmin hmultiple hdiscernible =>
      exact TradingRules.takes_least hlot hstep hmin hmultiple hprice.isFinite hpricepos
        hdiscernible estimate.baseSize_eq hnotional hlow henough hx hleast hv hq
  · refine ⟨estimate, v, hnearest, fun hsuited ⟨q, hq⟩ => ?_⟩
    rw [habove] at hsuited
    cases hsuited with
    | above hstep bound hbound hdiscernible =>
      obtain rfl := Option.some.inj (hbound.symm.trans hmax)
      exact TradingRules.takes_most hlot hstep hprice.isFinite hpricepos hdiscernible
        estimate.baseSize_eq hnotional hmax hhigh henough hv hq

/-- A run that is seen to end in a rejection with some property has such a rejection. -/
theorem exists_refused {r : Except Failure (Outcome × Event)} {c : Rejection → Bool}
    (h : r.toOption.any (fun result => result.1.rejections.any c) = true) :
    ∃ rejections warnings event rejection, r = .ok (.refused rejections warnings, event) ∧
      rejection ∈ rejections ∧ c rejection = true := by
  cases r with
  | error failure => cases h
  | ok result =>
    obtain ⟨outcome, event⟩ := result
    cases outcome with
    | ready => cases h
    | refused rejections warnings =>
      obtain ⟨rejection, hmem, hc⟩ := List.any_eq_true.1 h
      exact ⟨rejections, warnings, event, rejection, rfl, hmem, hc⟩

end

/-! ## A purchase that is worth too little -/

namespace Sample

/-- A book at prices of which less than a tenth of a unit is worth enough. -/
def middleBook : Book where
  symbol := "BTCUSDT"
  bids := [⟨63.9, 50⟩]
  asks := [⟨64.0, 50⟩]

/-- A market order for a hundredth of a unit. -/
def smallPurchase : Order where
  symbol := "BTCUSDT"
  side := .buy
  size := ⟨.base, 0.01⟩

/-- The sample market with a larger step for market orders. -/
def coarseRules : TradingRules where
  toRuleFields := { rules.toRuleFields with marketStep := some 0.01 }
  step_pos := rfl
  tick_pos := rfl
  marketStep_pos := by
    rintro s ⟨⟩
    rfl

theorem rules_marketLot : (rules.lot true).InContext where
  step := inContext_finite (by decide) (by decide)
  step_lt := by
    have hvalue : (rules.lot true).step.value = 1 * 10 ^ (-3 : ℤ) := value_positive 1 (-3)
    rw [hvalue, one_mul]
    exact zpow_lt_zpow_right₀ (by norm_num) (by decide)
  min := rfl
  max := by
    rintro bound ⟨⟩
    rfl

/-- What the small purchase takes from the book. -/
def smallFill : Fill where
  side := .buy
  target := .quantity
  requested := 0.01
  quantity := 0.01
  notional := 0.640
  averagePrice := 64.0
  bestPrice := 64.0
  worstPrice := 64.0
  slippagePercent := 0
  levelsTaken := 1
  exhausted := false

/-- The estimate of the small purchase in a market that takes its quantity and the price of the
book. -/
def smallEstimate {market : TradingRules} {baseSize : Decimal}
    (hquantity : market.quantity true 0.01 = .ok baseSize)
    (hprice : market.price (some .sell) 64.0 = .ok 64.0) :
    Estimate smallPurchase middleBook market {} none where
  terms := ⟨usedLeverage smallPurchase {}, none, 0.01, some smallFill, false⟩
  conversion := none
  baseSize := baseSize
  price := 64.0
  leverage_eq := rfl
  limitPrice_eq := rfl
  raw_eq := rfl
  fill_eq := rfl
  baseSize_eq := hquantity
  price_eq := hprice

end Sample

/-- A market order that is worth too little is sent to a quantity that the market takes. -/
theorem suggests_small_purchase : ∃ rejections warnings event r v,
    prepare Sample.smallPurchase Sample.middleBook Sample.rules {} none none =
        .ok (.refused rejections warnings, event) ∧
      r ∈ rejections ∧ r.code = .belowMinNotional ∧ r.nearestValid = some v ∧
      Sample.rules.Takes true 64.0 v := by
  obtain ⟨rejections, warnings, event, r, hrun, hr, hcode⟩ := exists_refused
    (c := fun r => decide (r.code = .belowMinNotional))
    (r := prepare Sample.smallPurchase Sample.middleBook Sample.rules {} none none)
    (by decide +kernel)
  have hcode := of_decide_eq_true hcode
  have hlot : (Sample.rules.lot (Sample.smallPurchase.type == .market)).InContext :=
    Sample.rules_marketLot
  obtain ⟨estimate, v, hnearest, htakes⟩ :=
    suggests_of_prepare Sample.rules_inContext.tick hlot hrun hr (by simp [hcode])
  have hquantity : Sample.rules.quantity true 0.01 = .ok 0.010 := rfl
  have hprice : estimate.price = 64.0 :=
    estimate.price_unique (Sample.smallEstimate hquantity rfl)
  rw [hcode, hprice] at htakes
  refine ⟨rejections, warnings, event, r, v, hrun, hr, hcode, hnearest, htakes ?_ ⟨0.079, rfl, rfl⟩⟩
  have hstep : Sample.rules.step.value = 1 * 10 ^ (-3 : ℤ) := value_positive 1 (-3)
  have hleast : Sample.rules.minNotional.value = 5 := value_ofNat 5
  have hunit : (64.0 : Decimal).value = 640 * 10 ^ (-1 : ℤ) := value_positive 640 (-1)
  -- The least quantity is one step, so the bound on the worth decides and 79 steps reach it.
  refine .below rfl rfl ⟨1, ?_⟩ ⟨rfl, ?_, 50000, 640, -4, by decide, ?_, ?_, by decide⟩
  · rw [Int.cast_one, one_mul]
    rfl
  · rw [hstep, one_mul]
    exact zpow_le_zpow_right₀ (by norm_num) (by decide)
  · rw [hleast]
    norm_num
  · rw [hstep, hunit]
    norm_num

/-- A market order is sent to a quantity with the decimals of the step of limit orders. Cut to its
own step that is worth too little, although the next multiple would be taken. -/
theorem not_takes_small_purchase : ∃ rejections warnings event r v,
    prepare Sample.smallPurchase Sample.middleBook Sample.coarseRules {} none none =
        .ok (.refused rejections warnings, event) ∧
      r ∈ rejections ∧ r.code = .belowMinNotional ∧ r.nearestValid = some v ∧
      (∃ estimate : Estimate Sample.smallPurchase Sample.middleBook Sample.coarseRules {} none,
        Sample.coarseRules.Takes true estimate.price 0.08 ∧
          ¬ Sample.coarseRules.Takes true estimate.price v) := by
  obtain ⟨rejections, warnings, event, r, hrun, hr, hcheck⟩ := exists_refused
    (c := fun r => decide (r.code = .belowMinNotional ∧ r.nearestValid = some 0.079))
    (r := prepare Sample.smallPurchase Sample.middleBook Sample.coarseRules {} none none)
    (by decide +kernel)
  obtain ⟨hcode, hnearest⟩ := of_decide_eq_true hcheck
  have hquantity : Sample.coarseRules.quantity true 0.01 = .ok 0.01 := rfl
  have hcut : Sample.coarseRules.quantity true 0.079 = .ok 0.07 := rfl
  refine ⟨rejections, warnings, event, r, 0.079, hrun, hr, hcode, hnearest,
    Sample.smallEstimate hquantity rfl, ⟨rfl, rfl⟩, fun htakes => ?_⟩
  exact absurd (Except.ok.inj (hcut.symm.trans htakes.1)) (by decide)

end OrderTicket.Ticket
