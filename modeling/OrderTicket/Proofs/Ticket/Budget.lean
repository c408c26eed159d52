import OrderTicket.Proofs.Rules.Finite
import OrderTicket.Proofs.Rules.Quantity
import OrderTicket.Proofs.Ticket.Legal

/-!
# What a limit order spends of its budget

A limit order for an amount of the quote currency, or for a share of the balance, is worth at most
that amount, and less than a step less. The quantity is a rounded quotient that is cut to the step,
and its value and the margin are rounded again. Counted in units of the last digit of the budget,
rounding the quotient changes it by less than one unit. So it leads across a multiple of the step
only if the budget buys that multiple exactly and the multiple has more digits than the precision;
then the order is worth a whole step less.

* `Ticket.share`, `Ticket.budget`: what the trader wants to bind and to spend.
* `Ticket.Countable`: budgets that can be counted in small units with fewer digits than the
  precision.
* `Ticket.Countable.mul_le`, `Ticket.Countable.le_mul`, `Ticket.Countable.lt_mul`: the multiples of
  a step on either side of a rounded quotient are on that side of the budget.
* `Ticket.WithinBudget`: what the order spends.
* `Ticket.withinBudget_of_prepare`: every ticket keeps to its budget.
-/

namespace OrderTicket

open Decimal

/-- A finite number with no more digits than the precision, wherever they are. -/
structure Decimal.IsShort (x : Decimal) : Prop where
  /-- The number is finite. -/
  isFinite : x.isFinite = true
  /-- It is an integer of few digits over a power of ten. -/
  digits : ∃ c e : ℤ, |c| < 10 ^ precision ∧ x.value = c * 10 ^ e

/-- The context holds a short number unless it is very small. -/
theorem Decimal.IsShort.inContext {x : Decimal} (h : x.IsShort)
    (hlow : (10 : ℚ) ^ (-2000 : ℤ) ≤ x.value) : x.InContext := by
  obtain ⟨c, e, hc, hvalue⟩ := h.digits
  refine ⟨h.isFinite, c, e, hc, ?_, hvalue⟩
  have hc' : (c : ℚ) < 10 ^ precision := by exact_mod_cast (le_abs_self c).trans_lt hc
  have hlt : (10 : ℚ) ^ (-2000 : ℤ) < 10 ^ ((precision : ℤ) + e) := by
    rw [ten_zpow_add, zpow_natCast]
    exact hlow.trans_lt (hvalue ▸ mul_lt_mul_of_pos_right hc' (ten_zpow_pos e))
  have hexp := (zpow_lt_zpow_iff_right₀ (by norm_num : (1 : ℚ) < 10)).1 hlt
  have htiny : tinyExponent = -1000026 := rfl
  have hprecision : precision = 28 := rfl
  omega

namespace Ticket

/-! ## Budgets -/

/-- The share of the balance that an order is sized by. -/
def share (size : Size) (balance : Option Decimal) : ℚ :=
  (balance.map (·.value)).getD 0 * size.amount.value / 100

/-- What an order may be worth that is not sized in units of the asset. -/
def budget (size : Size) (leverage : Int) (balance : Option Decimal) : ℚ :=
  if size.unit = .percent then share size balance * leverage else size.amount.value

/-- Computing the share of the balance needs no rounding. -/
structure ExactShare (size : Size) (leverage : Int) (balance : Option Decimal) : Prop where
  /-- The balance times the percentage needs no rounding. -/
  product : Representable ((balance.map (·.value)).getD 0 * size.amount.value)
  /-- The share needs no rounding. -/
  share : Representable (share size balance)
  /-- The share times the leverage needs no rounding. -/
  total : Representable (Ticket.share size balance * leverage)

/-- A budget and the price of a step are whole numbers of `10 ^ -m`, and the budget has a digit less
than the precision then. -/
structure Countable (m : ℤ) (budget stepPrice : ℚ) : Prop where
  /-- The unit is not very small. -/
  le : m ≤ 1000
  /-- The budget is a multiple of the unit. -/
  budget_eq : ∃ a : ℤ, budget = a * 10 ^ (-m)
  /-- The price of a step is a multiple of the unit. -/
  stepPrice_eq : ∃ b : ℤ, stepPrice = b * 10 ^ (-m)
  /-- The budget is not too large. -/
  lt : budget < 10 ^ (27 - m)

/-- What the order of a ticket spends of its budget, with the step and the limit price of its
market. -/
structure WithinBudget (size : Size) (balance : Option Decimal) (step price : ℚ) (ticket : Ticket) :
    Prop where
  /-- It is worth at most the budget. -/
  quoteSize_le : ticket.quoteSize.value ≤ budget size ticket.leverage balance
  /-- With one more step it would be worth the budget or more. -/
  le_add : budget size ticket.leverage balance ≤ ticket.quoteSize.value + step * price
  /-- With one more step it would be worth more, if the quantity with that step can be held. -/
  lt_add : Representable (ticket.baseSize.value + step) →
    budget size ticket.leverage balance < ticket.quoteSize.value + step * price
  /-- The margin is at most the share of the balance. -/
  requiredMargin_le : size.unit = .percent → ticket.requiredMargin.value ≤ share size balance

/-! ## Steps of a rounded quotient -/

/-- A positive multiple of a unit is not small beside a price. -/
theorem le_div_of_multiple {m : ℤ} {x p : ℚ} (hm : m ≤ 1000) (hx : ∃ a : ℤ, x = a * 10 ^ (-m))
    (hpos : 0 < x) (hp : 0 < p) (hlt : p < 10 ^ precision) : (10 : ℚ) ^ (-2000 : ℤ) ≤ x / p := by
  obtain ⟨a, rfl⟩ := hx
  have hunit := ten_zpow_pos (-m)
  have ha : 0 < a := by exact_mod_cast pos_of_mul_pos_left hpos hunit.le
  have hone : (1 : ℚ) ≤ a := by exact_mod_cast ha
  rw [le_div_iff₀ hp]
  calc (10 : ℚ) ^ (-2000 : ℤ) * p ≤ 10 ^ (-2000 : ℤ) * 10 ^ precision :=
        mul_le_mul_of_nonneg_left hlt.le (by positivity)
    _ = 10 ^ (-2000 + (precision : ℤ)) := by rw [ten_zpow_add, zpow_natCast]
    _ ≤ 10 ^ (-m) := by
        have hprecision : precision = 28 := rfl
        exact zpow_le_zpow_right₀ (by norm_num) (by omega)
    _ ≤ a * 10 ^ (-m) := le_mul_of_one_le_left hunit.le hone

namespace Countable

variable {m j : ℤ} {n s p : ℚ}

/-- Rounding the quotient changes it by less than what a unit buys. -/
theorem abs_nearest_div_sub_lt (h : Countable m n (s * p)) (hn : 0 < n) (hp : 0 < p)
    (hlt : p < 10 ^ precision) : |nearest (n / p) - n / p| < 10 ^ (-m) / p := by
  have hunit := ten_zpow_pos (-m)
  have hbound := h.lt
  rw [sub_eq_add_neg, ten_zpow_add] at hbound
  -- rounding is off by half a unit of the last digit, and the budget has fewer than that many units
  have hnorm : (10 : ℚ) ^ (27 : ℤ) = 10 ^ 27 := by norm_num
  rw [hnorm] at hbound
  calc |nearest (n / p) - n / p| ≤ n / p / (2 * 10 ^ 27) :=
        abs_nearest_sub_le_of_le (le_div_of_multiple h.le h.budget_eq hn hp hlt)
    _ = n / (2 * 10 ^ 27) / p := by ring
    _ < 10 ^ (-m) / p := by
        refine div_lt_div_of_pos_right ?_ hp
        rw [div_lt_iff₀ (by positivity)]
        linarith

/-- Multiples of the unit that differ lie apart by a unit. -/
theorem add_le_of_lt (h : Countable m n (s * p)) :
    (n < j * (s * p) → n + 10 ^ (-m) ≤ j * (s * p)) ∧
      (j * (s * p) < n → j * (s * p) + 10 ^ (-m) ≤ n) := by
  have hunit := ten_zpow_pos (-m)
  obtain ⟨a, ha⟩ := h.budget_eq
  obtain ⟨b, hb⟩ := h.stepPrice_eq
  -- without the unit these are inequalities between integers
  rw [ha, hb, ← mul_assoc, ← add_one_mul, ← add_one_mul, mul_lt_mul_iff_left₀ hunit,
    mul_lt_mul_iff_left₀ hunit, mul_le_mul_iff_left₀ hunit, mul_le_mul_iff_left₀ hunit]
  exact ⟨fun hlt => by exact_mod_cast Int.add_one_le_of_lt (by exact_mod_cast hlt),
    fun hlt => by exact_mod_cast Int.add_one_le_of_lt (by exact_mod_cast hlt)⟩

/-- The steps that a rounded quotient reaches are worth no more than its numerator. -/
theorem mul_le (h : Countable m n (s * p)) (hn : 0 < n) (hp : 0 < p) (hlt : p < 10 ^ precision)
    (hreach : j * s ≤ nearest (n / p)) : j * (s * p) ≤ n := by
  by_contra hmore
  have hgap := h.add_le_of_lt.1 (not_le.1 hmore)
  have herr := (abs_lt.1 (h.abs_nearest_div_sub_lt hn hp hlt)).2
  -- they lie at least a unit above the quotient, which is farther than rounding goes
  rw [← mul_assoc, ← div_le_iff₀ hp, add_div] at hgap
  linarith

/-- The steps that a rounded quotient does not reach are worth no less than its numerator. -/
theorem le_mul (h : Countable m n (s * p)) (hn : 0 < n) (hp : 0 < p) (hlt : p < 10 ^ precision)
    (hmiss : nearest (n / p) < j * s) : n ≤ j * (s * p) := by
  by_contra hless
  -- as above, with the multiple below the quotient
  have hgap := h.add_le_of_lt.2 (not_le.1 hless)
  have herr := (abs_lt.1 (h.abs_nearest_div_sub_lt hn hp hlt)).1
  rw [← le_sub_iff_add_le, ← mul_assoc, ← le_div_iff₀ hp, sub_div] at hgap
  linarith

/-- Steps that exceed the rounded quotient are worth more than the budget if they can be held: then
the quotient is not rounded away from them. -/
theorem lt_mul (h : Countable m n (s * p)) (hn : 0 < n) (hp : 0 < p) (hlt : p < 10 ^ precision)
    (hrep : Representable (j * s)) (hmiss : nearest (n / p) < j * s) : n < j * (s * p) := by
  refine lt_of_le_of_ne (h.le_mul hn hp hlt hmiss) fun heq => ?_
  have hquot : n / p = j * s := by rw [div_eq_iff hp.ne', mul_assoc, heq]
  rw [hquot, nearest_of_representable hrep] at hmiss
  exact lt_irrefl _ hmiss

/-- What steps within the budget are worth can be held. -/
theorem representable_mul (h : Countable m n (s * p)) (hnonneg : 0 ≤ j * (s * p))
    (hle : j * (s * p) ≤ n) : Representable (j * (s * p)) := by
  have hunit := ten_zpow_pos (-m)
  have hbound := hle.trans_lt h.lt
  obtain ⟨b, hb⟩ := h.stepPrice_eq
  rw [hb, ← mul_assoc] at hnonneg hbound ⊢
  rw [sub_eq_add_neg, ten_zpow_add, mul_lt_mul_iff_left₀ hunit] at hbound
  have hjb : 0 ≤ j * b := by exact_mod_cast nonneg_of_mul_nonneg_left hnonneg hunit
  have hjb' : j * b < 10 ^ 27 := by exact_mod_cast hbound
  have hrep : Representable ((j * b : ℤ) * 10 ^ (-m)) := by
    refine representable_of_le ?_ ?_
    · rw [abs_of_nonneg hjb]
      exact hjb'.le.trans (by decide)
    · have hle := h.le
      have htiny : tinyExponent = -1000026 := rfl
      omega
  exact_mod_cast hrep

end Countable

/-! ## From the amount to the ticket -/

section

variable {order : Order} {book : Book} {rules : TradingRules} {risk : RiskSettings}
  {balance markPrice : Option Decimal} {ticket : Ticket} {event : Event} {size : Size}
  {leverage : Int} {amount price raw base : Decimal} {m : ℤ}

/-- The amount of a limit order that is not sized in units of the asset is divided by the price. -/
theorem rawQuantity_of_limit {conversion : Option Fill} (hunit : order.size.unit ≠ .base)
    (h : rawQuantity order book (some price) leverage balance = .ok (raw, conversion)) :
    ∃ amount, notional order.size leverage balance = .ok amount ∧ amount.div price = .ok raw := by
  rw [rawQuantity, if_neg hunit] at h
  obtain ⟨amount, hamount, h⟩ := bind_eq_ok h
  obtain ⟨quotient, hquotient, h⟩ := bind_eq_ok h
  obtain ⟨rfl, -⟩ := Prod.mk.inj (Except.ok.inj h)
  exact ⟨amount, hamount, liftM_eq_ok hquotient⟩

/-- Only a balance that is there is used. -/
theorem usableBalance_eq_ok {available : Decimal}
    (h : usableBalance amount balance = .ok available) : balance = some available := by
  cases balance with
  | none => cases h
  | some given =>
    obtain ⟨low, -, h⟩ := bind_eq_ok h
    cases low with
    | true => cases h
    | false => rw [Except.ok.inj h]

/-- A share of the balance that turns out finite was computed from finite numbers, step by step. -/
theorem share_value_eq {available product part total : Decimal}
    (hexact : ExactShare size leverage (some available))
    (hproduct : available.mul size.amount = .ok product) (hpart : product.div 100 = .ok part)
    (htotal : part.mul (.ofInt leverage) = .ok total) (hfin : total.isFinite = true) :
    total.value = share size (some available) * leverage := by
  -- finiteness goes back from the result to the balance
  have hpartFin := Step.isFinite_of_mul_eq_ok htotal hfin
  have hproductFin := Step.isFinite_of_div_eq_ok rfl hpart hpartFin
  have hproductRound := (mul_computes (Step.isFinite_of_mul_eq_ok hproduct hproductFin)
    (isFinite_of_mul_eq_ok_right hproduct hproductFin)).rounded hproduct
  have hhundred : (100 : Decimal).value = 100 := value_ofNat 100
  have hpartRound := (div_computes hproductFin (y := 100) rfl
    (by rw [hhundred]; norm_num)).rounded hpart
  rw [hproductRound.eq_of_representable hexact.product, hhundred] at hpartRound
  have htotalRound := (mul_computes hpartFin (y := .ofInt leverage) rfl).rounded htotal
  rw [hpartRound.eq_of_representable hexact.share, value_ofInt] at htotalRound
  exact htotalRound.eq_of_representable hexact.total

/-- A finite amount is the budget, if it was computed without rounding. -/
theorem notional_value_eq (hexact : size.unit = .percent → ExactShare size leverage balance)
    (h : notional size leverage balance = .ok amount) (hfin : amount.isFinite = true) :
    amount.value = budget size leverage balance := by
  unfold notional at h
  unfold budget
  split_ifs at h ⊢ with hunit
  · obtain ⟨available, husable, h⟩ := bind_eq_ok h
    obtain ⟨product, hproduct, h⟩ := bind_eq_ok h
    obtain ⟨part, hpart, htotal⟩ := bind_eq_ok h
    obtain rfl := usableBalance_eq_ok husable
    exact share_value_eq (hexact hunit) (liftM_eq_ok hproduct) (liftM_eq_ok hpart)
      (liftM_eq_ok htotal) hfin
  · cases h
    rfl

/-- The step of a market whose price of a step can be counted is not very small. -/
theorem Countable.step_inContext {n : ℚ} (hcount : Countable m n (rules.step.value * price.value))
    (hstep : rules.step.IsShort) (hprice : 0 < price.value) (hlt : price.value < 10 ^ precision) :
    rules.step.InContext := by
  have hpos := value_pos_of_le_zero_eq_false hstep.isFinite rules.step_pos
  have hle := le_div_of_multiple hcount.le hcount.stepPrice_eq (mul_pos hpos hprice) hprice hlt
  rw [mul_div_cancel_right₀ _ hprice.ne'] at hle
  exact hstep.inContext hle

/-- What the quantity for an amount is worth at the limit price, before that is rounded. -/
theorem worth_between (hstep : rules.step.IsShort) (hprice : price.isFinite = true)
    (hpos : 0 < price.value) (hlt : price.value < 10 ^ precision)
    (hcount : Countable m amount.value (rules.step.value * price.value))
    (hdiv : amount.div price = .ok raw) (hbase : rules.quantity false raw = .ok base) :
    Representable (base.value * price.value) ∧ base.value * price.value ≤ amount.value ∧
      amount.value ≤ base.value * price.value + rules.step.value * price.value ∧
      (Representable (base.value + rules.step.value) →
        amount.value < base.value * price.value + rules.step.value * price.value) := by
  have hsteppos := value_pos_of_le_zero_eq_false hstep.isFinite rules.step_pos
  have hlot : (rules.lot false).step.InContext := hcount.step_inContext hstep hpos hlt
  obtain ⟨k, hwritten, hraw, hlow, hhigh⟩ := TradingRules.exists_isWritten_of_quantity hlot hbase
  have hamount := Step.isFinite_of_div_eq_ok hprice hdiv hraw
  rw [(div_computes hamount hprice hpos.ne').value_eq hdiv] at hlow hhigh
  change k * rules.step.value ≤ _ at hlow
  change _ < (k + 1) * rules.step.value at hhigh
  have hvalue : base.value = k * rules.step.value := hwritten.value_eq
  have hbought : 0 < base.value := hwritten.value_pos hsteppos
  -- at least one step was bought, so there is something to spend
  have hspend : 0 < amount.value := by
    by_contra hneg
    have hmono := nearest_mono (div_nonpos_of_nonpos_of_nonneg (not_lt.1 hneg) hpos.le)
    rw [nearest_zero] at hmono
    linarith
  have hworth : base.value * price.value = (k : ℤ) * (rules.step.value * price.value) := by
    rw [hvalue]
    push_cast
    ring
  have hnext : base.value * price.value + rules.step.value * price.value =
      (k + 1 : ℤ) * (rules.step.value * price.value) := by
    rw [hvalue]
    push_cast
    ring
  have hheld : base.value + rules.step.value = (k + 1 : ℤ) * rules.step.value := by
    rw [hvalue]
    push_cast
    ring
  have hreach : ((k : ℤ) : ℚ) * rules.step.value ≤ nearest (amount.value / price.value) := by
    exact_mod_cast hlow
  have hmiss : nearest (amount.value / price.value) < ((k + 1 : ℤ) : ℚ) * rules.step.value := by
    exact_mod_cast hhigh
  have hle := hcount.mul_le hspend hpos hlt hreach
  rw [hnext, hheld, hworth]
  refine ⟨hcount.representable_mul ?_ hle, hle, hcount.le_mul hspend hpos hlt hmiss,
    fun hrep => hcount.lt_mul hspend hpos hlt hrep hmiss⟩
  rw [← hworth]
  exact (mul_pos hbought hpos).le

/-- What is worth no more than a share of the balance times the leverage binds no more than the
share. -/
theorem margin_le {quote margin : Decimal} {part : ℚ} (hquote : quote.isFinite = true)
    (hleverage : 1 ≤ leverage) (hpart : Representable part) (hle : quote.value ≤ part * leverage)
    (h : quote.div (.ofInt leverage) = .ok margin) : margin.value ≤ part := by
  have hpos : (0 : ℚ) < leverage := by exact_mod_cast hleverage
  have hround := (div_computes hquote (y := .ofInt leverage) rfl
    (by rw [value_ofInt]; exact hpos.ne')).rounded h
  rw [value_ofInt] at hround
  exact hround.value_le hpart ((div_le_iff₀ hpos).2 hle)

/-- Every ticket of a limit order keeps to its budget, for any book, rules and settings. -/
theorem withinBudget_of_prepare (htype : order.type = .limit) (hunit : order.size.unit ≠ .base)
    (hstep : rules.step.IsShort)
    (h : prepare order book rules risk balance markPrice = .ok (.ready ticket, event))
    (hexact : order.size.unit = .percent → ExactShare order.size ticket.leverage balance) :
    ∃ price, ticket.limitPrice = some price ∧ price.isFinite = true ∧
      ∀ m, Countable m (budget order.size ticket.leverage balance)
        (rules.step.value * price.value) →
          WithinBudget order.size balance rules.step.value price.value ticket := by
  obtain ⟨hassemble, -⟩ := prepare_eq_ok h
  obtain ⟨steps⟩ := exists_steps hassemble
  obtain ⟨typed, -, hprice, hlimit, -⟩ := steps.of_limit htype
  have hshown := steps.shown
  have hmoved := TradingRules.isMoved_of_price hprice
  have hraw := steps.raw_eq
  have hbase := steps.baseSize_eq
  rw [hlimit, ← hshown.leverage] at hraw
  rw [htype, ← hshown.baseSize] at hbase
  obtain ⟨amount, hamount, hdiv⟩ := rawQuantity_of_limit hunit hraw
  have hcut := TradingRules.isMoved_of_quantity hbase
  have hamountFin := Step.isFinite_of_div_eq_ok hmoved.isFinite hdiv hcut.raw_isFinite
  have hvalue := notional_value_eq hexact hamount hamountFin
  refine ⟨steps.price, hshown.limitPrice.trans hlimit, hmoved.isFinite, fun m hcount => ?_⟩
  rw [← hvalue] at hcount
  obtain ⟨hrep, hle, hadd, hless⟩ := worth_between hstep hmoved.isFinite hmoved.pos hmoved.lt hcount
    hdiv hbase
  -- what the quantity is worth needs no rounding
  have hquote := hshown.quoteSize
  rw [← hshown.baseSize] at hquote
  have hround := (mul_computes hcut.isFinite hmoved.isFinite).rounded hquote
  have hworth := hround.eq_of_representable hrep
  rw [hvalue, ← hworth] at hle hadd hless
  refine ⟨hle, hadd, hless, fun hpercent => ?_⟩
  have hleverage : 1 ≤ ticket.leverage := by
    rw [hshown.leverage, steps.leverage_eq]
    exact (usedLeverage_bounds order risk).1
  have hmargin := hshown.requiredMargin
  rw [← hshown.leverage] at hmargin
  rw [budget, if_pos hpercent] at hle
  exact margin_le hround.isFinite hleverage (hexact hpercent).share hle hmargin

end

/-! ## Purchases at a limit price -/

namespace Sample

/-- A purchase for a quarter of the balance, at twice the leverage. -/
def quarterOrder : Order where
  symbol := "BTCUSDT"
  side := .buy
  size := ⟨.percent, 25⟩
  leverage := some 2
  type := .limit
  limitPrice := some 63990.07

/-- A market with steps that have two decimals more than their price. -/
def fineRules : TradingRules where
  symbol := .name "BTCUSDT"
  step := 0.00000000000000225
  tick := 1
  step_pos := rfl
  tick_pos := rfl
  marketStep_pos := isPositive_of_none

/-- A book around a price of four. -/
def fineBook : Book where
  symbol := "BTCUSDT"
  bids := [⟨3, 1⟩]
  asks := [⟨5, 1⟩]

/-- A purchase at four, for an amount of twenty-seven digits. -/
def fineOrder : Order where
  symbol := "BTCUSDT"
  side := .buy
  size := ⟨.quote, 400000000000.000000000000005⟩
  type := .limit
  limitPrice := some 4

end Sample

/-- An order for a quarter of the balance stays within its budget, and one step more would not. -/
theorem withinBudget_sample_quarter : ∃ ticket event,
    prepare Sample.quarterOrder Sample.book Sample.rules {} (some 1000) none =
        .ok (.ready ticket, event) ∧ ticket.limitPrice = some 63990.0 ∧
      ticket.quoteSize.value ≤ 500 ∧ 500 < ticket.quoteSize.value + 63.99 ∧
      ticket.requiredMargin.value ≤ 250 := by
  obtain ⟨ticket, event, hrun, hcheck⟩ := exists_ready
    (r := prepare Sample.quarterOrder Sample.book Sample.rules {} (some 1000) none)
    (c := fun ticket => decide (ticket.leverage = 2 ∧ ticket.limitPrice = some 63990.0 ∧
      ticket.baseSize = 0.007)) (by decide +kernel)
  obtain ⟨hleverage, hlimit, hbase⟩ := of_decide_eq_true hcheck
  have hshare : share Sample.quarterOrder.size (some 1000) = (250 : ℤ) := by
    change (1000 : Decimal).value * (25 : Decimal).value / 100 = _
    rw [value_ofNat, value_ofNat]
    norm_num
  have hbudget : budget Sample.quarterOrder.size ticket.leverage (some 1000) = (500 : ℤ) := by
    rw [budget, if_pos (show Sample.quarterOrder.size.unit = .percent from rfl), hshare, hleverage]
    norm_num
  have hexact : ExactShare Sample.quarterOrder.size ticket.leverage (some 1000) := by
    refine ⟨?_, ?_, ?_⟩
    · change Representable ((1000 : Decimal).value * (25 : Decimal).value)
      rw [value_ofNat, value_ofNat]
      exact_mod_cast representable_intCast (m := 25000) (by decide)
    · rw [hshare]
      exact representable_intCast (by decide)
    · rw [hshare, hleverage]
      exact_mod_cast representable_intCast (m := 500) (by decide)
  have hstep : Sample.rules.step.value = 1 * 10 ^ (-3 : ℤ) := rfl
  have hprice : (63990.0 : Decimal).value = 639900 * 10 ^ (-1 : ℤ) := rfl
  have hcount : Countable 2 (500 : ℤ) (Sample.rules.step.value * (63990.0 : Decimal).value) := by
    refine ⟨by decide, ⟨50000, by norm_num⟩, ⟨6399, ?_⟩, by norm_num⟩
    rw [hstep, hprice]
    norm_num
  have htype : Sample.quarterOrder.type = .limit := rfl
  obtain ⟨price, hprice', -, hwithin⟩ := withinBudget_of_prepare htype (by decide)
    ⟨rfl, 1, -3, by decide, rfl⟩ hrun fun _ => hexact
  obtain rfl : 63990.0 = price := Option.some.inj (hlimit.symm.trans hprice')
  obtain ⟨hle, -, hless, hmargin⟩ := hwithin 2 (hbudget ▸ hcount)
  refine ⟨ticket, event, hrun, hlimit, ?_, ?_, ?_⟩
  · rw [hbudget] at hle
    exact_mod_cast hle
  · -- eight steps of a thousandth have few digits
    have hheld : Representable (ticket.baseSize.value + Sample.rules.step.value) := by
      have hvalue : (0.007 : Decimal).value = 7 * 10 ^ (-3 : ℤ) := rfl
      rw [hbase, hvalue, hstep, ← add_mul]
      exact_mod_cast representable_of_le (m := 8) (e := -3) (by decide) (by decide)
    have hlt := hless hheld
    rw [hbudget, hstep, hprice] at hlt
    norm_num at hlt ⊢
    exact hlt
  · have hpercent := hmargin rfl
    rw [hshare] at hpercent
    exact_mod_cast hpercent

/-- The amount buys a number of steps that has a digit more than the precision. Its quotient is
rounded to less, and the order is worth a whole step less than the amount. -/
theorem whole_step_below_fine : ∃ ticket event,
    prepare Sample.fineOrder Sample.fineBook Sample.fineRules {} none none =
        .ok (.ready ticket, event) ∧
      Sample.fineOrder.type = .limit ∧ Sample.fineOrder.size.unit = .quote ∧
      Sample.fineRules.step.IsShort ∧ ticket.limitPrice = some 4 ∧
      Countable 15 Sample.fineOrder.size.amount.value
        (Sample.fineRules.step.value * (4 : Decimal).value) ∧
      Sample.fineOrder.size.amount.value =
        ticket.quoteSize.value + Sample.fineRules.step.value * (4 : Decimal).value := by
  obtain ⟨ticket, event, hrun, hcheck⟩ := exists_ready
    (r := prepare Sample.fineOrder Sample.fineBook Sample.fineRules {} none none)
    (c := fun ticket => decide (ticket.limitPrice = some 4 ∧
      ticket.quoteSize = 399999999999.9999999999999960)) (by decide +kernel)
  obtain ⟨hlimit, hquote⟩ := of_decide_eq_true hcheck
  have hstep : Sample.fineRules.step.value = 225 * 10 ^ (-17 : ℤ) := rfl
  have hamount : Sample.fineOrder.size.amount.value =
      400000000000000000000000005 * 10 ^ (-15 : ℤ) := rfl
  have hworth : (399999999999.9999999999999960 : Decimal).value =
      3999999999999999999999999960 * 10 ^ (-16 : ℤ) := rfl
  have hfour : (4 : Decimal).value = 4 := value_ofNat 4
  refine ⟨ticket, event, hrun, rfl, rfl, ⟨rfl, 225, -17, by decide, rfl⟩, hlimit, ?_, ?_⟩
  · rw [hamount, hstep, hfour]
    exact ⟨by decide, ⟨400000000000000000000000005, by norm_num⟩, ⟨9, by norm_num⟩, by norm_num⟩
  · rw [hquote, hamount, hstep, hfour, hworth]
    norm_num

end Ticket

end OrderTicket
