import OrderTicket.Proofs.Book.Walk
import OrderTicket.Proofs.Integer
import OrderTicket.Proofs.Rules.Settled
import OrderTicket.Proofs.Ticket.Legal

/-!
# Every order of a usual size is answered

This module shows that no arithmetic fault ends the preparation of a ticket if all numbers have a
usual size: there is a ticket that nothing stands against, or there is none and at least one
rejection says why. The steps are taken in the order of `Ticket.assemble`. What one step promises
about the size of its numbers is what the next ones need.

The first step is the only one that writes integers. It tells the trader which leverage was wanted,
and there is no ticket and no rejection if that one is too long to be written. Orders ask for a
leverage below `10 ^ 15`, but nothing bounds the leverage that the trader's preferences give to the
others.

* `Order.Usual`, `RiskSettings.Usual`: orders and preferences of a usual size.
* `Ticket.leverageWarnings_returns`, `Ticket.prepare_of_not_isShort`: the first step.
* `Ticket.rawQuantity_settles`, `Ticket.priceOf_settles`, `Ticket.checkBounds_settles`,
  `Ticket.complete_settles`: the steps.
* `Ticket.decided_of_usual`: every order of a usual size is answered.
-/

namespace OrderTicket

open Decimal

/-- What the command reader guarantees of an order, as far as it matters here, for an order whose
numbers have a usual size. -/
structure Order.Usual (order : Order) : Prop where
  /-- The amount. -/
  amount : Between (1 / 10 ^ 8) (10 ^ 8) order.size.amount
  /-- A leverage that is asked for is at least one and no large number. -/
  leverage : ∀ x, order.leverage = some x → 1 ≤ x ∧ x < 10 ^ 15
  /-- A share is at most `100`. -/
  share : order.size.unit = .percent → order.size.amount.value ≤ 100
  /-- The order is a limit order exactly if it has a limit price. -/
  limit_iff : order.type = .limit ↔ order.limitPrice.isSome = true
  /-- The limit price. -/
  limitPrice : ∀ x, order.limitPrice = some x → Between (1 / 10 ^ 8) (10 ^ 8) x
  /-- A stop loss is positive and less than the whole price. -/
  stopLoss : ∀ x, order.stopLoss = some x → x.isFinite = true ∧ 0 < x.value ∧ x.value < 100
  /-- A profit target is positive and at most a million percent. -/
  takeProfit : ∀ x, order.takeProfit = some x → x.isFinite = true ∧ 0 < x.value ∧ x.value ≤ 10 ^ 6
  /-- The profit target of a sale is less than the whole price. -/
  target : order.side = .sell → ∀ x, order.takeProfit = some x → x.value < 100

/-- Preferences of a usual size. -/
structure RiskSettings.Usual (risk : RiskSettings) : Prop where
  /-- The highest leverage that is used. -/
  leverageCap : risk.leverageCap ≤ 1000
  /-- The fee is a part of the value, or is paid to the trader. -/
  feeRate : Between (-1) 1 risk.feeRate
  /-- The slippage above which a warning is due. -/
  maxSlippageBps : Between (-10 ^ 8) (10 ^ 8) risk.maxSlippageBps

namespace Ticket

section

variable {order : Order} {book : Book} {rules : TradingRules} {risk : RiskSettings}
  {balance markPrice : Option Decimal}

/-! ## Leverage -/

theorem leverageCap_le (hrisk : risk.Usual) : leverageCap risk ≤ 1000 :=
  max_le (by norm_num) hrisk.leverageCap

/-- The leverages that are used and allowed have texts. -/
theorem isShort_of_le {leverage : ℤ} (hone : 1 ≤ leverage) (hleverage : leverage ≤ 1000) :
    Integer.IsShort leverage := by
  refine Integer.isShort_of_lt (k := 4) (by decide) ?_
  rw [abs_of_pos (by omega)]
  omega

/-- The wanted leverage has a text if an order that asks for none is given one with a text. -/
theorem isShort_wantedLeverage (horder : order.Usual)
    (hdefault : order.leverage = none → Integer.IsShort risk.defaultLeverage) :
    Integer.IsShort (wantedLeverage order risk) := by
  unfold wantedLeverage
  cases hasked : order.leverage with
  | none => exact hdefault hasked
  | some leverage =>
    obtain ⟨hone, hlt⟩ := horder.leverage leverage hasked
    refine Integer.isShort_of_lt (k := 15) (by decide) ?_
    rwa [Option.getD_some, abs_of_pos (by omega)]

/-- The first step returns where the wanted leverage has a text. -/
theorem leverageWarnings_returns (hrisk : risk.Usual)
    (hwanted : Integer.IsShort (wantedLeverage order risk)) :
    Returns (leverageWarnings order risk) fun _ => True := by
  have hcap : Integer.IsShort (leverageCap risk) :=
    isShort_of_le (le_max_left _ _) (leverageCap_le hrisk)
  have hused : Integer.IsShort (usedLeverage order risk) := by
    obtain ⟨hone, hused⟩ := usedLeverage_bounds order risk
    exact isShort_of_le hone (hused.trans (leverageCap_le hrisk))
  unfold leverageWarnings
  split
  · exact .ok trivial
  · rw [Integer.text_of_isShort hwanted, Integer.text_of_isShort hcap,
      Integer.text_of_isShort hused]
    exact .ok trivial

/-- A leverage without a text is above the cap or below one, and the warning that it is not used
cannot be written. -/
theorem leverageWarnings_of_not_isShort (hrisk : risk.Usual)
    (hwanted : ¬ Integer.IsShort (wantedLeverage order risk)) :
    leverageWarnings order risk = .error .integerTooLong := by
  obtain ⟨hone, hused⟩ := usedLeverage_bounds order risk
  have hdiffers : usedLeverage order risk ≠ wantedLeverage order risk := fun hsame =>
    hwanted (hsame ▸ isShort_of_le hone (hused.trans (leverageCap_le hrisk)))
  unfold leverageWarnings
  rw [if_neg hdiffers, Integer.text_eq_error_iff.2 ⟨rfl, hwanted⟩]
  rfl

/-- Nothing is prepared for an order that is given a leverage without a text. -/
theorem prepare_of_not_isShort (hrisk : risk.Usual)
    (hwanted : ¬ Integer.IsShort (wantedLeverage order risk))
    (hbookSymbol : book.symbol = order.symbol)
    (hrulesSymbol : rules.symbol.isName order.symbol = true) :
    prepare order book rules risk balance markPrice = .error (.arithmetic .integerTooLong) := by
  simp only [prepare, assemble, leverageWarnings_of_not_isShort hrisk hwanted, hbookSymbol,
    hrulesSymbol, ne_eq, not_true_eq_false, Bool.true_eq_false, or_self, if_false]
  rfl

/-! ## Price and quantity -/

theorem hundred_between : Between (10 ^ 2) (10 ^ 2) 100 :=
  ⟨rfl, by norm_num, by norm_num⟩

/-- A limit order has a limit price on the grid; a market order has none. -/
theorem limitPrice?_settles (horder : order.Usual) (hrules : rules.Usual) :
    Settles (limitPrice? order rules) fun price? =>
      (order.type = .market → price? = none) ∧
        (order.type = .limit →
          ∃ price, price? = some price ∧ Between (1 / 10 ^ 8) (10 ^ 9) price) := by
  unfold limitPrice?
  cases htype : order.type with
  | market => exact .ok ⟨fun _ => rfl, by simp⟩
  | limit =>
    obtain ⟨typed, htyped⟩ := Option.isSome_iff_exists.1 (horder.limit_iff.1 htype)
    have hbetween := horder.limitPrice typed htyped
    have hhigh := hbetween.le_high
    simp only [htyped]
    refine .bind (TradingRules.price_settles hrules _ (hbetween.mono (by norm_num) (by norm_num)))
      fun price hprice => .ok ⟨by simp, fun _ => ⟨price, rfl, hprice.mono le_rfl ?_⟩⟩
    norm_num at hhigh ⊢
    linarith

/-- Looking whether a limit price was moved returns. -/
theorem priceWarnings_returns (horder : order.Usual) (hrules : rules.Usual)
    {price? : Option Decimal}
    (hprice : ∀ price, price? = some price → price.isFinite = true) :
    Returns (priceWarnings order rules price?) fun _ => True := by
  unfold priceWarnings
  cases price? with
  | none => exact .ok trivial
  | some price =>
    cases htyped : order.limitPrice with
    | none => exact .ok trivial
    | some typed =>
      have hfin := (horder.limitPrice typed htyped).isFinite
      refine .bind (equal_returns (hprice price rfl) hfin).lift fun same _ => ?_
      cases same with
      | true => exact .ok trivial
      | false =>
        have htick : Between 0 (10 ^ 19) rules.tick :=
          hrules.tick.between.mono (by norm_num) (by norm_num)
        exact .bind (Step.shown_returns htick).lift fun _ _ => .ok trivial

/-- An order for a usual quantity or notional has a fill, or is refused since there is nothing to
take from. -/
theorem fillOrReject_settles (hbook : book.Usual) (side : Side) (target : FillTarget)
    {requested : Decimal} (hrequested : Between (1 / 10 ^ 18) (10 ^ 11) requested) :
    Settles (fillOrReject book side target requested) Fill.Usual := by
  unfold fillOrReject
  by_cases hnil : book.levels side = []
  · rw [Book.fillFor_of_nil side target hrequested hnil]
    exact .refused _ _
  · obtain ⟨fill, hfill, husual⟩ := Book.fillFor_returns hbook side target hrequested hnil
    rw [hfill]
    exact .ok husual

/-- The value of an order that is not sized in units of the asset. A share of the balance may be
multiplied with the leverage. -/
theorem notional_settles (horder : order.Usual)
    (hbalance : ∀ x, balance = some x → Between (-10 ^ 8) (10 ^ 8) x ∧
      (0 < x.value → 1 / 10 ^ 8 ≤ x.value))
    {leverage : ℤ} (hone : 1 ≤ leverage) (hleverage : leverage ≤ 1000) :
    Settles (notional order.size leverage balance) (Between (1 / 10 ^ 18) (10 ^ 11)) := by
  unfold notional
  split
  · rename_i hshare
    have hamount : Between (1 / 10 ^ 8) (10 ^ 2) order.size.amount :=
      ⟨horder.amount.isFinite, horder.amount.low_le, (horder.share hshare).trans (by norm_num)⟩
    have husable : Settles (usableBalance order.size.amount balance)
        (Between (1 / 10 ^ 8) (10 ^ 8)) := by
      unfold usableBalance
      cases balance with
      | none => exact .refused _ _
      | some x =>
        obtain ⟨hx, hleast⟩ := hbalance x rfl
        refine .bind (.lift (le_zero_returns hx.isFinite)) fun empty hempty => ?_
        cases empty with
        | true => exact .refused _ _
        | false =>
          have hpos : 0 < x.value := by simpa using hempty
          exact .ok ⟨hx.isFinite, hleast hpos, hx.le_high⟩
    -- the steps of a share: part of the balance, percent, leverage
    have hfactor : Between 1 (10 ^ 3) (ofInt leverage) := by
      refine ⟨rfl, ?_, ?_⟩ <;> rw [value_ofInt]
      · exact_mod_cast hone
      · exact_mod_cast hleverage
    refine .bind husable fun usable husable => ?_
    have hpart : Returns (usable.mul order.size.amount) fun r =>
        Rounded (usable.value * order.size.amount.value) r ∧ Between (1 / 10 ^ 16) (10 ^ 10) r :=
      mul_returns_of_pos husable hamount (by norm_num) (by norm_num) (bound_inv_pow (by decide))
        (bound_pow (by decide)) (by norm_num) (by norm_num)
    refine .bind (.lift hpart) fun part ⟨_, hpart⟩ => ?_
    have hpercent : Returns (part.div 100) fun r =>
        Rounded (part.value / value 100) r ∧ Between (1 / 10 ^ 18) (10 ^ 8) r :=
      div_returns_of_pos hpart hundred_between (by norm_num) (bound_inv_pow (by decide))
        (bound_pow (by decide)) (by norm_num) (by norm_num) (by norm_num) (by norm_num)
    refine .bind (.lift hpercent) fun percent ⟨_, hpercent⟩ => .lift (.mono (?_ : Returns _ fun r =>
      Rounded (percent.value * (ofInt leverage).value) r ∧ Between (1 / 10 ^ 18) (10 ^ 11) r)
        fun _ h => h.2)
    exact mul_returns_of_pos hpercent hfactor (by norm_num) (by norm_num)
      (bound_inv_pow (by decide))
      (bound_pow (by decide)) (by norm_num) (by norm_num)
  · exact .ok (horder.amount.mono (by norm_num) (by norm_num))

/-- What is known of a quantity before it is moved to the grid, and of the fill that it came
from. -/
structure RawUsual (price? : Option Decimal) (raw : Decimal) (conversion : Option Fill) : Prop where
  /-- The quantity has a usual size. -/
  between : Between 0 (10 ^ 19) raw
  /-- The value of the quantity at the limit price has a usual size. -/
  value_le : ∀ price, price? = some price → raw.value * price.value ≤ 10 ^ 20
  /-- Without a limit price the quantity itself is not large. -/
  le_of_none : price? = none → raw.value ≤ 10 ^ 13
  /-- A fill that it came from has a usual size. -/
  usual_of_fill : ∀ fill, conversion = some fill → fill.Usual
  /-- If it came from no fill, it can be asked for. -/
  requested : conversion = none → price? = none → Between (1 / 10 ^ 18) (10 ^ 11) raw

/-- An amount of the quote currency as a quantity at a limit price. -/
theorem quotient_returns {amount price : Decimal} (hamount : Between (1 / 10 ^ 18) (10 ^ 11) amount)
    (hprice : Between (1 / 10 ^ 8) (10 ^ 9) price) :
    Returns (amount.div price) fun raw => RawUsual (some price) raw none := by
  have hpos : 0 < price.value := lt_of_lt_of_le (by norm_num) hprice.low_le
  have hdiv : Returns (amount.div price) fun r =>
      Rounded (amount.value / price.value) r ∧ Between 0 (10 ^ 19) r :=
    div_returns (hamount.mono (by norm_num) le_rfl) hprice (by norm_num) (by decide) (by norm_num)
  refine hdiv.mono fun raw ⟨hround, hraw⟩ => ⟨hraw, ?_, by simp, by simp, by simp⟩
  rintro _ ⟨⟩
  -- the quotient is rounded, so at the price it may be worth a little more than the amount
  have hquot : 0 ≤ amount.value / price.value :=
    div_nonneg (le_trans (by norm_num) hamount.low_le) hpos.le
  have hle := mul_le_mul_of_nonneg_right (hround.bounds hquot).2 hpos.le
  rw [add_mul, mul_right_comm, div_mul_cancel₀ _ hpos.ne'] at hle
  have hamount' := hamount.le_high
  have hprice' := hprice.le_high
  norm_num at hle hamount' hprice' ⊢
  linarith

/-- The quantity of an order before it is moved to the grid. -/
theorem rawQuantity_settles (horder : order.Usual) (hbook : book.Usual) {price? : Option Decimal}
    (hprice : ∀ price, price? = some price → Between (1 / 10 ^ 8) (10 ^ 9) price)
    (hbalance : ∀ x, balance = some x → Between (-10 ^ 8) (10 ^ 8) x ∧
      (0 < x.value → 1 / 10 ^ 8 ≤ x.value))
    {leverage : ℤ} (hone : 1 ≤ leverage) (hleverage : leverage ≤ 1000) :
    Settles (rawQuantity order book price? leverage balance) fun r => RawUsual price? r.1 r.2 := by
  unfold rawQuantity
  split
  · have hamount := horder.amount
    have hhigh := hamount.le_high
    refine .ok ⟨hamount.mono (by norm_num) (by norm_num), fun price hsome => ?_,
      fun _ => hhigh.trans (by norm_num), by simp,
      fun _ _ => hamount.mono (by norm_num) (by norm_num)⟩
    have hlow : 0 ≤ price.value := le_trans (by norm_num) (hprice price hsome).low_le
    -- The worth of a typed quantity has no other bound than those of its two factors.
    calc order.size.amount.value * price.value ≤ 10 ^ 8 * 10 ^ 9 :=
          mul_le_mul hhigh (hprice price hsome).le_high hlow (by norm_num)
      _ ≤ 10 ^ 20 := by norm_num
  · refine .bind (notional_settles horder hbalance hone hleverage) fun amount hamount => ?_
    -- A worth becomes a quantity by division at a limit price and by the book at the market.
    cases price? with
    | some price =>
      exact .bind (.lift (quotient_returns hamount (hprice price rfl))) fun _ hraw => .ok hraw
    | none =>
      refine .bind (fillOrReject_settles hbook order.side .notional hamount)
        fun fill hfill => .ok ?_
      have hquantity := hfill.quantity
      exact ⟨hquantity.mono le_rfl (by norm_num), by simp, fun _ => hquantity.le_high,
        fun _ hsome => Option.some.inj hsome ▸ hfill, by simp⟩

/-- A market order has a fill; a limit order takes nothing from the book. -/
theorem marketFill?_settles (hbook : book.Usual) {price? : Option Decimal} {raw : Decimal}
    {conversion : Option Fill} (hmarket : order.type = .market → price? = none)
    (hraw : RawUsual price? raw conversion) :
    Settles (marketFill? order book raw conversion) fun fill? =>
      (order.type = .market → ∃ fill, fill? = some fill ∧ fill.Usual) ∧
        (order.type = .limit → fill? = none) := by
  unfold marketFill?
  cases htype : order.type with
  | limit => exact .ok ⟨by simp, fun _ => rfl⟩
  | market =>
    cases hconversion : conversion with
    | some fill => exact .ok ⟨fun _ => ⟨fill, rfl, hraw.usual_of_fill fill hconversion⟩, by simp⟩
    | none =>
      have hrequested := hraw.requested hconversion (hmarket htype)
      exact .bind (fillOrReject_settles hbook order.side .quantity hrequested)
        fun fill hfill => .ok ⟨fun _ => ⟨fill, rfl, hfill⟩, by simp⟩

/-! ## Warnings -/

/-- The slippage check of a fill of a usual size returns. -/
theorem slippage_returns (hrisk : risk.Usual) {fill? : Option Fill}
    (hfill : ∀ fill, fill? = some fill → fill.Usual) :
    Returns (slippage risk fill?) fun _ => True := by
  unfold slippage
  cases fill? with
  | none => exact .ok trivial
  | some fill =>
    -- The warning turns the slippage into basis points once more, so that has to return too.
    have hslippage := (hfill fill rfl).slippagePercent
    have hmost := hrisk.maxSlippageBps
    have hpercent : Returns (risk.maxSlippageBps.div 100) fun r =>
        Rounded (risk.maxSlippageBps.value / value 100) r ∧ Between (-10 ^ 8) (10 ^ 8) r := by
      have hlow := hmost.low_le
      have hhigh := hmost.le_high
      refine (div_computes hmost.isFinite rfl (by simp)).returns (bound_pow (by decide)).neg
        (bound_pow (by decide)) ?_ ?_ <;>
      · norm_num at hlow hhigh ⊢
        linarith
    have hover : Returns (isOverLimit fill risk) fun _ => True :=
      .bind hpercent fun bound ⟨_, hbound⟩ =>
        (lt_returns hbound.isFinite hslippage.isFinite).mono fun _ _ => trivial
    refine .bind hover.lift fun overLimit _ => ?_
    have hbps : Returns fill.slippageBps fun r =>
        Rounded (fill.slippagePercent.value * value 100) r ∧ Between 0 (10 ^ 21) r :=
      mul_returns hslippage (hundred_between.mono (by norm_num) le_rfl) (by decide) (by norm_num)
    have hwarnings : Returns (fillWarnings fill risk overLimit) fun _ => True := by
      unfold fillWarnings
      cases overLimit with
      | true => exact .bind hbps fun _ _ => .ok trivial
      | false => exact .ok trivial
    exact .bind hwarnings.lift fun _ _ => .ok trivial

/-- Looking whether a quantity was cut returns. -/
theorem quantityWarnings_returns {lot : Lot} (hlot : lot.Usual) {raw used : Decimal}
    (hraw : raw.isFinite = true) (hused : used.isFinite = true) :
    Returns (quantityWarnings order lot raw used) fun _ => True := by
  unfold quantityWarnings
  split
  · exact .ok trivial
  · refine .bind (equal_returns hused hraw).lift fun same _ => ?_
    cases same with
    | true => exact .ok trivial
    | false =>
      have hstep : Between 0 (10 ^ 19) lot.step :=
        hlot.step.between.mono (by norm_num) (by norm_num)
      exact .bind (Step.shown_returns hstep).lift fun _ _ => .ok trivial

/-! ## The expected price and the checks -/

/-- The expected price, and the value of the quantity at it. -/
theorem priceOf_settles (hrules : rules.Usual) {terms : Terms} {conversion : Option Fill}
    (hraw : RawUsual terms.limitPrice terms.raw conversion)
    (hprice : ∀ price, terms.limitPrice = some price → Between (1 / 10 ^ 8) (10 ^ 9) price)
    (hterms : (∃ fill, terms.fill = some fill ∧ fill.Usual ∧ terms.limitPrice = none) ∨
      ∃ price, terms.fill = none ∧ terms.limitPrice = some price) :
    Settles (priceOf order rules terms) fun price =>
      Between (1 / 10 ^ 8) (10 ^ 10) price ∧ terms.raw.value * price.value ≤ 10 ^ 24 := by
  unfold priceOf
  -- A market order is moved from the average price of its fill; a limit price was moved before.
  rcases hterms with ⟨fill, hfill, husual, hnone⟩ | ⟨limit, hfill, hlimit⟩
  · have haverage := husual.averagePrice
    have hhigh := haverage.le_high
    rw [hfill]
    refine (TradingRules.price_settles hrules _ (haverage.mono le_rfl (by norm_num))).mono
      fun price hprice => ?_
    have hbetween : Between (1 / 10 ^ 8) (10 ^ 10) price := by
      refine hprice.mono le_rfl ?_
      norm_num at hhigh ⊢
      linarith
    refine ⟨hbetween, ?_⟩
    calc terms.raw.value * price.value ≤ 10 ^ 13 * 10 ^ 10 :=
          mul_le_mul (hraw.le_of_none hnone) hbetween.le_high
            (le_trans (by norm_num) hbetween.low_le) (by norm_num)
      _ ≤ 10 ^ 24 := by norm_num
  · rw [hfill, hlimit]
    exact .ok ⟨(hprice limit hlimit).mono le_rfl (by norm_num),
      (hraw.value_le limit hlimit).trans (by norm_num)⟩

/-- The price in the middle of the book. -/
theorem midPrice?_returns (hbook : book.Usual) :
    Returns book.midPrice? fun mid? => ∀ mid, mid? = some mid → Between 0 (10 ^ 9) mid := by
  -- the best price of a side is that of one of its levels
  have hside (side : Side) {x : Decimal} (hx : (book.levels side).head?.map (·.price) = some x) :
      Between 0 (10 ^ 8) x := by
    obtain ⟨level, hlevel, rfl⟩ := Option.map_eq_some_iff.1 hx
    exact (hbook.level side level (List.mem_of_mem_head? hlevel)).price.mono (by norm_num) le_rfl
  unfold Book.midPrice?
  cases hbid : book.bestBid? with
  | none =>
    refine .ok fun ask hask => ?_
    exact (hside .buy hask).mono le_rfl (by norm_num)
  | some bid =>
    have hbid := hside .sell hbid
    cases hask : book.bestAsk? with
    | none =>
      refine .ok ?_
      rintro _ ⟨⟩
      exact hbid.mono le_rfl (by norm_num)
    | some ask =>
      have hask := hside .buy hask
      have hsum : Returns (bid.add ask) fun r => Rounded (bid.value + ask.value) r ∧
          Between 0 (10 ^ 9) r := by
        have hhigh := hbid.le_high
        have hhigh' := hask.le_high
        refine (add_computes hbid.isFinite hask.isFinite).returns bound_zero (bound_pow (by decide))
          (add_nonneg hbid.low_le hask.low_le) ?_
        norm_num at hhigh hhigh' ⊢
        linarith
      have htwo : Between 1 2 2 := ⟨rfl, by simp, by simp⟩
      refine .bind hsum fun sum ⟨_, hsum⟩ => ?_
      have hhalf : Returns (sum.div 2) fun r =>
          Rounded (sum.value / value 2) r ∧ Between 0 (10 ^ 9) r :=
        div_returns hsum htwo (by norm_num) (by decide) (by norm_num)
      refine .bind hhalf fun mid ⟨_, hmid⟩ => .ok ?_
      rintro _ ⟨⟩
      exact hmid

/-- The check of the price distance returns its rejections. -/
theorem bandRejections_returns (hbook : book.Usual) (hrules : rules.Usual)
    (hmark : ∀ x, markPrice = some x → Between (1 / 10 ^ 8) (10 ^ 8) x) {price? : Option Decimal}
    (hprice : ∀ price, price? = some price → price.isFinite = true) :
    Returns (bandRejections order book rules markPrice price?) fun _ => True := by
  unfold bandRejections
  cases price? with
  | none => exact .ok trivial
  | some price =>
    have hrest {reference : Decimal} (h : Between 0 (10 ^ 9) reference) :
        Returns (rules.bandRejection? reference price) fun _ => True :=
      TradingRules.bandRejection?_returns hrules h (hprice price rfl)
    cases hmarked : markPrice with
    | some mark =>
      have hbetween : Between 0 (10 ^ 9) mark :=
        (hmark mark hmarked).mono (by norm_num) (by norm_num)
      -- the reference is a step of its own, which returns the mark price
      refine .bind (.ok rfl) fun reference (hreference : some mark = reference) => ?_
      subst hreference
      exact .bind (hrest hbetween) fun _ _ => .ok trivial
    | none =>
      refine .bind (midPrice?_returns hbook).lift fun mid? hmid => ?_
      cases mid? with
      | none => exact .ok trivial
      | some mid => exact .bind (hrest (hmid mid rfl)) fun _ _ => .ok trivial

/-- The checks of an order's value and of its limit price pass or refuse it. -/
theorem checkBounds_settles (hbook : book.Usual) (hrules : rules.Usual)
    (hmark : ∀ x, markPrice = some x → Between (1 / 10 ^ 8) (10 ^ 8) x) {price? : Option Decimal}
    (hprice? : ∀ price, price? = some price → price.isFinite = true) {baseSize price : Decimal}
    (hsize : Between (1 / 10 ^ 8) (10 ^ 19) baseSize)
    (hprice : Between (1 / 10 ^ 8) (10 ^ 10) price)
    (hvalue : baseSize.value * price.value ≤ 10 ^ 24) :
    Settles (checkBounds order book rules markPrice price? baseSize price) fun _ => True := by
  refine .bind (.of_returns (TradingRules.notionalRejection?_returns hrules hsize
    (hprice.mono le_rfl (by norm_num)) (hvalue.trans (by norm_num)) _)) fun value _ => ?_
  refine .bind (.of_returns (bandRejections_returns hbook hrules hmark hprice?))
    fun distance _ => ?_
  -- all rejections of the two checks are reported together
  cases hall : value.toList ++ distance with
  | nil => exact .ok trivial
  | cons first rest => exact .refused _ _

/-! ## Protections and the ticket -/

/-- The trigger of a protection is on the grid, or the order is refused. Below the entry a
protection is less than the whole price away. -/
theorem protectivePrice_settles (hrules : rules.Usual) {side : Side} {isStop : Bool}
    {entry percent : Decimal} (hentry : Between (1 / 10 ^ 8) (10 ^ 10) entry)
    (hpercent : Between 0 (10 ^ 6) percent)
    (hbelow : isStop = decide (side = .buy) → percent.value ≤ 100) :
    Settles (protectivePrice rules side isStop entry percent) fun _ => True := by
  have hone : (1 : Decimal).value = 1 := by simp
  have hratio : Returns (percent.div 100) fun r =>
      Rounded (percent.value / value 100) r ∧ Between 0 (10 ^ 4) r :=
    div_returns hpercent hundred_between (by norm_num) (by decide) (by norm_num)
  refine .bind (.lift hratio) fun ratio ⟨hround, hratio⟩ => ?_
  -- toward zero the factor is one minus the ratio, which is at most one
  have hfactor : Returns (if isStop = decide (side = .buy) then Decimal.sub 1 ratio
      else Decimal.add 1 ratio) (Between 0 (10 ^ 5)) := by
    have hlow := hratio.low_le
    have hhigh := hratio.le_high
    split
    · rename_i hside
      have hle : ratio.value ≤ 1 := by
        refine hround.value_le bound_one.representable ?_
        rw [value_ofNat, div_le_one (by norm_num)]
        exact_mod_cast hbelow hside
      refine ((sub_computes rfl hratio.isFinite).returns bound_zero (bound_pow (by decide))
        ?_ ?_).mono fun _ h => h.2 <;>
      · rw [hone]
        linarith
    · refine ((add_computes rfl hratio.isFinite).returns bound_zero (bound_pow (by decide))
        ?_ ?_).mono fun _ h => h.2 <;>
      · rw [hone]
        norm_num at hhigh ⊢
        linarith
  refine .bind (.lift hfactor) fun factor hfactor => ?_
  have hraw : Returns (entry.mul factor) fun r =>
      Rounded (entry.value * factor.value) r ∧ Between 0 (10 ^ 15) r :=
    mul_returns (hentry.mono (by norm_num) le_rfl) hfactor (by decide) (by norm_num)
  refine .bind (.lift hraw) fun raw ⟨_, hraw⟩ => ?_
  -- a refusal is given another message
  rcases TradingRules.price_settles hrules (some side.opposite) (hraw.mono le_rfl (by norm_num))
    with ⟨price, hprice, -⟩ | ⟨first, rest, hprice⟩
  · rw [hprice]
    exact .ok trivial
  · rw [hprice]
    exact .refused _ _

/-- The trigger of a protection is found or refused, if the protection is asked for. -/
theorem protectivePrice?_settles (hrules : rules.Usual) {side : Side} {isStop : Bool}
    {entry : Decimal} (hentry : Between (1 / 10 ^ 8) (10 ^ 10) entry) {percent? : Option Decimal}
    (hpercent : ∀ percent, percent? = some percent → Between 0 (10 ^ 6) percent ∧
      (isStop = decide (side = .buy) → percent.value ≤ 100)) :
    Settles (protectivePrice? rules side isStop entry percent?) fun _ => True := by
  cases percent? with
  | none => exact .ok trivial
  | some percent =>
    obtain ⟨hbetween, hbelow⟩ := hpercent percent rfl
    exact .map (protectivePrice_settles hrules hentry hbetween hbelow)

/-- The ticket of an order whose quantity and price have a usual size. -/
theorem complete_settles (horder : order.Usual) (hrules : rules.Usual) (hrisk : risk.Usual)
    {terms : Terms} (hone : 1 ≤ terms.leverage) {baseSize price : Decimal}
    (hsize : Between (1 / 10 ^ 8) (10 ^ 19) baseSize)
    (hprice : Between (1 / 10 ^ 8) (10 ^ 10) price)
    (hvalue : baseSize.value * price.value ≤ 10 ^ 24) (warnings : List Warning) :
    Settles (complete order rules risk terms baseSize price warnings) fun _ => True := by
  have hnonneg : 0 ≤ baseSize.value * price.value :=
    mul_nonneg (le_trans (by norm_num) hsize.low_le) (le_trans (by norm_num) hprice.low_le)
  have hquote : Returns (baseSize.mul price) fun r =>
      Rounded (baseSize.value * price.value) r ∧ Between 0 (10 ^ 24) r :=
    (mul_computes hsize.isFinite hprice.isFinite).returns bound_zero
      (bound_pow (by decide)) hnonneg hvalue
  refine .bind (.lift hquote) fun quote ⟨_, hquote⟩ => ?_
  -- the fee may be negative, so the value is bounded on both sides
  have hfees : Returns (quote.mul risk.feeRate) fun r =>
      Rounded (quote.value * risk.feeRate.value) r ∧ Between (-10 ^ 24) (10 ^ 24) r := by
    have hlow := mul_le_mul_of_nonneg_left hrisk.feeRate.low_le hquote.low_le
    have hhigh := mul_le_mul_of_nonneg_left hrisk.feeRate.le_high hquote.low_le
    have hmost := hquote.le_high
    refine (mul_computes hquote.isFinite hrisk.feeRate.isFinite).returns (bound_pow (by decide)).neg
      (bound_pow (by decide)) ?_ ?_ <;> linarith
  refine .bind (.lift hfees) fun _ _ => ?_
  have hleverage : Between 1 (ofInt terms.leverage).value (ofInt terms.leverage) := by
    refine ⟨rfl, ?_, le_rfl⟩
    rw [value_ofInt]
    exact_mod_cast hone
  have hmargin : Returns (quote.div (ofInt terms.leverage)) fun r =>
      Rounded (quote.value / (ofInt terms.leverage).value) r ∧ Between 0 (10 ^ 24) r :=
    div_returns hquote hleverage (by norm_num) (by decide) (by norm_num)
  refine .bind (.lift hmargin) fun _ _ => ?_
  -- a stop loss lies less than the whole price away, a profit target of a sale as well
  refine .bind (protectivePrice?_settles hrules hprice fun percent hsome => ?_) fun _ _ => ?_
  · obtain ⟨hfin, hpos, hlt⟩ := horder.stopLoss percent hsome
    exact ⟨⟨hfin, hpos.le, hlt.le.trans (by norm_num)⟩, fun _ => hlt.le⟩
  refine .bind (protectivePrice?_settles hrules hprice fun percent hsome => ?_)
    fun _ _ => .ok trivial
  obtain ⟨hfin, hpos, hle⟩ := horder.takeProfit percent hsome
  refine ⟨⟨hfin, hpos.le, hle⟩, fun hside => ?_⟩
  have hsell : order.side = .sell := by
    cases hs : order.side with
    | buy => simp [hs] at hside
    | sell => rfl
  exact (horder.target hsell percent hsome).le

/-! ## The whole preparation -/

/-- The order is answered: by a ticket that nothing stands against, or by at least one rejection. -/
def Outcome.Decided (outcome : Outcome) : Prop :=
  outcome.ticket?.isSome = true ∧ outcome.rejections = [] ∨
    outcome.ticket? = none ∧ outcome.rejections ≠ []

/-- A step that settles leads to an answer, if the steps behind it do. -/
theorem settle_returns {α : Type} {P : α → Prop} {warnings : List Warning} {x : Except Failure α}
    {next : α → Except Failure Outcome} (h : Settles x P)
    (hnext : ∀ a, P a → Returns (next a) Outcome.Decided) :
    Returns (settle warnings x next) Outcome.Decided := by
  rcases h with ⟨a, rfl, ha⟩ | ⟨first, rest, rfl⟩
  · exact hnext a ha
  · exact .ok (.inr ⟨rfl, List.cons_ne_nil _ _⟩)

/-- The steps together lead to an answer. -/
theorem assemble_returns (horder : order.Usual) (hbook : book.Usual) (hrules : rules.Usual)
    (hrisk : risk.Usual)
    (hdefault : order.leverage = none → Integer.IsShort risk.defaultLeverage)
    (hbalance : ∀ x, balance = some x → Between (-10 ^ 8) (10 ^ 8) x ∧
      (0 < x.value → 1 / 10 ^ 8 ≤ x.value))
    (hmark : ∀ x, markPrice = some x → Between (1 / 10 ^ 8) (10 ^ 8) x) :
    Returns (assemble order book rules risk balance markPrice) Outcome.Decided := by
  obtain ⟨hone, hcap⟩ := usedLeverage_bounds order risk
  have hleverage : usedLeverage order risk ≤ 1000 := hcap.trans (leverageCap_le hrisk)
  have hwanted := isShort_wantedLeverage horder hdefault
  unfold assemble
  refine settle_returns (.lift (leverageWarnings_returns hrisk hwanted)) fun _ _ => ?_
  refine settle_returns (limitPrice?_settles horder hrules) fun price? ⟨hmarket, hlimit⟩ => ?_
  have hprice : ∀ price, price? = some price → Between (1 / 10 ^ 8) (10 ^ 9) price := by
    rintro price rfl
    cases htype : order.type with
    | market => cases hmarket htype
    | limit =>
      obtain ⟨_, ⟨⟩, hbetween⟩ := hlimit htype
      exact hbetween
  have hfin : ∀ price, price? = some price → price.isFinite = true :=
    fun price hsome => (hprice price hsome).isFinite
  refine settle_returns (.of_returns (priceWarnings_returns horder hrules hfin)) fun _ _ => ?_
  refine settle_returns (rawQuantity_settles horder hbook hprice hbalance hone hleverage)
    fun (raw, conversion) hraw => ?_
  refine settle_returns (marketFill?_settles hbook hmarket hraw) fun fill? ⟨hsome, hnone⟩ => ?_
  -- a market order has a fill and no limit price, a limit order the other way round
  have hterms : (∃ fill, fill? = some fill ∧ fill.Usual ∧ price? = none) ∨
      ∃ price, fill? = none ∧ price? = some price := by
    cases htype : order.type with
    | market =>
      obtain ⟨fill, hfill, husual⟩ := hsome htype
      exact .inl ⟨fill, hfill, husual, hmarket htype⟩
    | limit =>
      obtain ⟨price, hprice, -⟩ := hlimit htype
      exact .inr ⟨price, hnone htype, hprice⟩
  have hfill : ∀ fill, fill? = some fill → fill.Usual := by
    rintro fill rfl
    rcases hterms with ⟨_, ⟨⟩, husual, -⟩ | ⟨_, ⟨⟩, -⟩
    exact husual
  refine settle_returns (.of_returns (slippage_returns hrisk hfill)) fun (overLimit, more) _ => ?_
  refine settle_returns (TradingRules.quantity_settles hrules _ hraw.between)
    fun baseSize hsize => ?_
  refine settle_returns (.of_returns (quantityWarnings_returns (hrules.lot _) hraw.between.isFinite
    hsize.isFinite)) fun _ _ => ?_
  refine settle_returns (priceOf_settles hrules hraw hprice hterms)
    fun price ⟨hbetween, hvalue⟩ => ?_
  -- the quantity was cut, so its value is at most that of the raw quantity
  have hnonneg : 0 ≤ price.value := le_trans (by norm_num) hbetween.low_le
  have hvalue' : baseSize.value * price.value ≤ 10 ^ 24 :=
    (mul_le_mul_of_nonneg_right hsize.le_high hnonneg).trans hvalue
  have hsize' : Between (1 / 10 ^ 8) (10 ^ 19) baseSize := hsize.mono le_rfl hraw.between.le_high
  refine settle_returns (checkBounds_settles hbook hrules hmark hfin hsize' hbetween hvalue')
    fun _ _ => ?_
  refine settle_returns (complete_settles horder hrules hrisk hone hsize' hbetween hvalue' _)
    fun ticket _ => ?_
  exact .ok (.inl ⟨rfl, rfl⟩)

/-- Every order of a usual size is answered, with a ticket or with rejections, and without a
fault, if the leverage that an order without one is given has a text. -/
theorem decided_of_usual (horder : order.Usual) (hbook : book.Usual) (hrules : rules.Usual)
    (hrisk : risk.Usual)
    (hdefault : order.leverage = none → Integer.IsShort risk.defaultLeverage)
    (hbalance : ∀ x, balance = some x → Between (-10 ^ 8) (10 ^ 8) x ∧
      (0 < x.value → 1 / 10 ^ 8 ≤ x.value))
    (hmark : ∀ x, markPrice = some x → Between (1 / 10 ^ 8) (10 ^ 8) x)
    (hbookSymbol : book.symbol = order.symbol)
    (hrulesSymbol : rules.symbol.isName order.symbol = true) :
    ∃ outcome event, prepare order book rules risk balance markPrice = .ok (outcome, event) ∧
      outcome.Decided := by
  obtain ⟨outcome, hassemble, hdecided⟩ :=
    assemble_returns horder hbook hrules hrisk hdefault hbalance hmark
  refine ⟨outcome, outcome.event order, ?_, hdecided⟩
  simp only [prepare, hbookSymbol, hrulesSymbol, hassemble, ne_eq, not_true_eq_false,
    Bool.true_eq_false, or_self, if_false]
  rfl

end

/-! ## A market order for a share of the balance -/

namespace Sample

/-- A sale of a quarter of the balance. -/
def sale : Order where
  symbol := "BTCUSDT"
  side := .sell
  size := ⟨.percent, 25⟩
  stopLoss := some 2
  takeProfit := some 4

/-- A positive number lies between bounds if its coefficient does. -/
theorem between_finite {c : ℕ} {e : ℤ} {low high : ℚ} (hlow : low ≤ c * 10 ^ e)
    (hhigh : c * 10 ^ e ≤ high) : Between low high (finite false c e) :=
  ⟨rfl, hlow, hhigh⟩

theorem sale_usual : sale.Usual where
  amount := between_finite (by norm_num) (by norm_num)
  leverage := by simp [sale]
  share := fun _ => by norm_num [sale]
  limit_iff := by decide
  limitPrice := by simp [sale]
  stopLoss := by
    rintro x ⟨⟩
    exact ⟨rfl, by norm_num, by norm_num⟩
  takeProfit := by
    rintro x ⟨⟩
    exact ⟨rfl, by norm_num, by norm_num⟩
  target := by
    rintro - x ⟨⟩
    norm_num

theorem rules_usual : rules.Usual where
  step := ⟨rfl, 10 ^ 5, by norm_num, by norm_num, by
    change (finite false 1 (-3)).value = _
    norm_num [value, magnitude]⟩
  tick := ⟨rfl, 10 ^ 7, by norm_num, by norm_num, by
    change (finite false 1 (-1)).value = _
    norm_num [value, magnitude]⟩
  marketStep := by simp [rules]
  minNotional := between_finite (by norm_num) (by norm_num)
  maxNotional := by
    rintro x ⟨⟩
    exact between_finite (by norm_num) (by norm_num)
  bandDown := between_finite (by norm_num) (by norm_num)
  bandUp := between_finite (by norm_num) (by norm_num)
  minQuantity := between_finite (by norm_num) (by norm_num)
  maxQuantity := by
    rintro x ⟨⟩
    exact between_finite (by norm_num) (by norm_num)
  minPrice := between_finite (by norm_num) (by norm_num)
  maxPrice := by simp [rules]
  marketMinQuantity := by simp [rules]
  marketMaxQuantity := by simp [rules]

theorem book_usual : book.Usual where
  level := by
    intro side level hlevel
    cases side <;>
    · obtain rfl := List.mem_singleton.1 hlevel
      exact ⟨between_finite (by norm_num) (by norm_num), between_finite (by norm_num) (by norm_num)⟩
  total := by
    intro side
    cases side <;> norm_num [book, Book.levels]

theorem risk_usual : RiskSettings.Usual {} where
  leverageCap := by decide
  feeRate := between_finite (by norm_num) (by norm_num)
  maxSlippageBps := between_finite (by norm_num) (by norm_num)

theorem balance_usual : ∀ x, some (1000 : Decimal) = some x → Between (-10 ^ 8) (10 ^ 8) x ∧
    (0 < x.value → 1 / 10 ^ 8 ≤ x.value) := by
  rintro x ⟨⟩
  exact ⟨between_finite (by norm_num) (by norm_num), fun _ => by norm_num⟩

/-- Preferences with a leverage that is too long to be written. -/
def longRisk : RiskSettings :=
  { defaultLeverage := 10 ^ 5000 }

theorem longRisk_usual : longRisk.Usual :=
  ⟨risk_usual.leverageCap, risk_usual.feeRate, risk_usual.maxSlippageBps⟩

end Sample

/-- A sale of a quarter of the balance is answered. -/
theorem decided_sample_sale : ∃ outcome event,
    prepare Sample.sale Sample.book Sample.rules {} (some 1000) none = .ok (outcome, event) ∧
      outcome.Decided :=
  decided_of_usual Sample.sale_usual Sample.book_usual Sample.rules_usual Sample.risk_usual
    (fun _ => isShort_of_le (by decide) (by decide)) Sample.balance_usual (by simp) rfl (by decide)

/-- A sale of a quarter of the balance is not answered if the trader's standard leverage is too
long. -/
theorem not_decided_longRisk :
    (Sample.sale.Usual ∧ Sample.book.Usual ∧ Sample.rules.Usual ∧ Sample.longRisk.Usual ∧
      Sample.book.symbol = Sample.sale.symbol ∧
      Sample.rules.symbol.isName Sample.sale.symbol = true) ∧
    prepare Sample.sale Sample.book Sample.rules Sample.longRisk (some 1000) none =
      .error (.arithmetic .integerTooLong) ∧
    ¬ ∃ outcome event,
      prepare Sample.sale Sample.book Sample.rules Sample.longRisk (some 1000) none =
        .ok (outcome, event) := by
  have hfails : prepare Sample.sale Sample.book Sample.rules Sample.longRisk (some 1000) none =
      .error (.arithmetic .integerTooLong) :=
    prepare_of_not_isShort Sample.longRisk_usual (Integer.not_isShort_pow (by decide)) rfl
      (by decide)
  refine ⟨⟨Sample.sale_usual, Sample.book_usual, Sample.rules_usual, Sample.longRisk_usual, rfl,
    by decide⟩, hfails, ?_⟩
  rintro ⟨outcome, event, hok⟩
  cases hfails.symm.trans hok

end Ticket

end OrderTicket
