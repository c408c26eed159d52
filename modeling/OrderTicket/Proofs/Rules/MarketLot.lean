import OrderTicket.Proofs.Rules.Grid
import OrderTicket.Proofs.Rules.Published

/-!
# Lot rules of market orders

A venue may publish lot rules of their own for market orders. What such a filter does not say is
taken from the lot rules of limit orders, apart from the least quantity: once there is a filter for
market orders, one that it does not give is zero.

* `TradingRules.Omits`: what the filter for market orders does not say.
* `TradingRules.marketLot_ofFilters`: the rules hold what that filter says.
* `TradingRules.lot_falls_back`: what is taken from the lot rules of limit orders.
-/

namespace OrderTicket.TradingRules

open Decimal

/-- The filter for market orders is missing, or has nothing but null in a field. -/
def Omits (filters : List (Payload × Payload)) (name : String) : Prop :=
  ∀ filter, filter? filters "MARKET_LOT_SIZE" = some filter →
    filter.field? name = .ok none ∨ filter.field? name = .ok (some .null)

section

variable {info : Payload} {defaultBand : Decimal} {rules : TradingRules} {value : Option Payload}
  {filters : List (Payload × Payload)} {step least most : Option Decimal} {raw q : Decimal}

/-- A number that is not published is zero. -/
theorem amount_of_missing (h : value = none ∨ value = some .null) : amount value = .ok 0 := by
  rcases h with rfl | rfl <;> rfl

/-- A bound that is not published is none. -/
theorem bound?_of_missing (h : value = none ∨ value = some .null) : bound? value = .ok none := by
  rcases h with rfl | rfl <;> rfl

/-- What is read of a filter for market orders. -/
theorem marketLot_ok (h : marketLot filters = .ok (step, least, most)) {filter : Payload}
    (hfilter : filter? filters "MARKET_LOT_SIZE" = some filter) :
    SaysBound filter "stepSize" step ∧ (∃ x, Says filter "minQty" x ∧ least = some x) ∧
      SaysBound filter "maxQty" most := by
  simp only [marketLot, hfilter] at h
  obtain ⟨step', hstep, h⟩ := bind_bound_eq_ok h
  obtain ⟨x, hleast, h⟩ := bind_amount_eq_ok h
  obtain ⟨most', hmost, h⟩ := bind_bound_eq_ok h
  cases h
  exact ⟨hstep, ⟨x, hleast, rfl⟩, hmost⟩

/-- Where there is no filter for market orders, nothing is read. -/
theorem marketLot_of_none (h : marketLot filters = .ok (step, least, most))
    (hnone : filter? filters "MARKET_LOT_SIZE" = none) :
    step = none ∧ least = none ∧ most = none := by
  simp only [marketLot, hnone] at h
  cases h
  exact ⟨rfl, rfl, rfl⟩

/-- The value of a field that the filter does not give. -/
theorem Omits.missing {name : String} {filter : Payload} (h : Omits filters name)
    (hfilter : filter? filters "MARKET_LOT_SIZE" = some filter)
    (hvalue : filter.field? name = .ok value) : value = none ∨ value = some .null := by
  rcases h filter hfilter with hnone | hnull
  · exact .inl (Except.ok.inj (hvalue.symm.trans hnone))
  · exact .inr (Except.ok.inj (hvalue.symm.trans hnull))

/-- A filter that omits its step leaves it open. -/
theorem step_eq_none_of_omits (h : marketLot filters = .ok (step, least, most))
    (homits : Omits filters "stepSize") : step = none := by
  cases hfilter : filter? filters "MARKET_LOT_SIZE" with
  | none => exact (marketLot_of_none h hfilter).1
  | some filter =>
    obtain ⟨⟨value, hvalue, hbound⟩, -⟩ := marketLot_ok h hfilter
    have hnone := bound?_of_missing (homits.missing hfilter hvalue)
    exact Except.ok.inj (hbound.symm.trans hnone)

/-- A filter that omits its largest quantity leaves it open. -/
theorem most_eq_none_of_omits (h : marketLot filters = .ok (step, least, most))
    (homits : Omits filters "maxQty") : most = none := by
  cases hfilter : filter? filters "MARKET_LOT_SIZE" with
  | none => exact (marketLot_of_none h hfilter).2.2
  | some filter =>
    obtain ⟨-, -, value, hvalue, hbound⟩ := marketLot_ok h hfilter
    have hnone := bound?_of_missing (homits.missing hfilter hvalue)
    exact Except.ok.inj (hbound.symm.trans hnone)

/-- The least quantity is zero where the filter does not give it, unlike the step and the largest
quantity. -/
theorem least_eq_zero_of_omits (h : marketLot filters = .ok (step, least, most))
    (hsome : filter? filters "MARKET_LOT_SIZE" ≠ none) (homits : Omits filters "minQty") :
    least = some 0 := by
  obtain ⟨filter, hfilter⟩ := Option.ne_none_iff_exists'.1 hsome
  obtain ⟨-, ⟨x, ⟨value, hvalue, hx⟩, rfl⟩, -⟩ := marketLot_ok h hfilter
  have hzero := amount_of_missing (homits.missing hfilter hvalue)
  rw [Except.ok.inj (hx.symm.trans hzero)]

/-- The rules hold what is read of the filter for market orders. -/
theorem marketLot_ofFilters (hfilters : filtersOf info = .ok filters)
    (h : ofFilters info defaultBand = .ok rules) : marketLot filters =
      .ok (rules.marketStep, rules.marketMinQuantity, rules.marketMaxQuantity) := by
  obtain ⟨filters', hread⟩ := exists_ofFilters h
  obtain rfl := Except.ok.inj (hfilters.symm.trans hread.filters_eq)
  exact hread.marketLot

/-- Lot rules of market orders fall back to those of limit orders field by field. Step and largest
quantity do so wherever the filter for market orders does not give them. The least quantity does so
only where there is no such filter; then no quantity is returned that is less than the one of limit
orders. Otherwise one that is not given is zero. -/
theorem lot_falls_back (hfilters : filtersOf info = .ok filters)
    (h : ofFilters info defaultBand = .ok rules) :
    (Omits filters "stepSize" → (rules.lot true).step = (rules.lot false).step) ∧
      (Omits filters "maxQty" → (rules.lot true).max = (rules.lot false).max) ∧
      (filter? filters "MARKET_LOT_SIZE" = none →
        (rules.lot true).min = (rules.lot false).min ∧
          ∀ raw q, rules.quantity true raw = .ok q → (rules.lot false).min.le q = .ok true) ∧
      (filter? filters "MARKET_LOT_SIZE" ≠ none → Omits filters "minQty" →
        (rules.lot true).min = 0) := by
  have hlot := marketLot_ofFilters hfilters h
  refine ⟨fun homits => ?_, fun homits => ?_, fun hnone => ?_, fun hsome homits => ?_⟩
  · simp only [lot, if_true, step_eq_none_of_omits hlot homits, Option.getD_none]
    rfl
  · simp only [lot, if_true, most_eq_none_of_omits hlot homits, Option.none_or]
    rfl
  · obtain ⟨-, hleast, -⟩ := marketLot_of_none hlot hnone
    have hmin : (rules.lot true).min = (rules.lot false).min := by
      simp only [lot, if_true, hleast, Option.getD_none]
      rfl
    refine ⟨hmin, fun raw q hq => ?_⟩
    obtain ⟨floored, -, -, -, hshort⟩ := quantity_eq_ok hq
    exact hmin ▸ (fallsShort_eq_false hshort).2
  · simp only [lot, if_true, least_eq_zero_of_omits hlot hsome homits, Option.getD_some]

end

namespace Sample

/-- Metadata of a market with some fields in the filter for market orders. -/
def infoWith (fields : List (String × Payload)) : Payload :=
  .object [
    ("symbol", "BTCUSDT"),
    ("filters", .list [
      .object [("filterType", "PRICE_FILTER"), ("tickSize", "0.10")],
      .object [("filterType", "LOT_SIZE"), ("stepSize", "0.001"), ("minQty", "0.001"),
        ("maxQty", "1000")],
      .object (("filterType", "MARKET_LOT_SIZE") :: fields)])]

end Sample

/-- A filter for market orders that gives a least quantity only takes the step and the largest
quantity of limit orders. -/
theorem lot_falls_back_sample : ∃ rules,
    ofFilters (Sample.infoWith [("minQty", "0.01"), ("maxQty", .null)]) 0.05 = .ok rules ∧
      (rules.lot true).step = (rules.lot false).step ∧
      (rules.lot true).max = (rules.lot false).max := by
  have hread : ∃ filters rules,
      filtersOf (Sample.infoWith [("minQty", "0.01"), ("maxQty", .null)]) = .ok filters ∧
        ofFilters (Sample.infoWith [("minQty", "0.01"), ("maxQty", .null)]) 0.05 = .ok rules ∧
        Omits filters "stepSize" ∧ Omits filters "maxQty" := by
    refine ⟨_, _, rfl, rfl, ?_, ?_⟩
    · rintro _ ⟨⟩
      exact .inl rfl
    · rintro _ ⟨⟩
      exact .inr rfl
  obtain ⟨filters, rules, hfilters, hrules, hstep, hmax⟩ := hread
  obtain ⟨hfallsStep, hfallsMax, -⟩ := lot_falls_back hfilters hrules
  exact ⟨rules, hrules, hfallsStep hstep, hfallsMax hmax⟩

/-- A market order of half of the least quantity of limit orders is taken, although the filter for
market orders gives no least quantity. -/
theorem not_falls_back_least : ∃ filters rules,
    filtersOf (Sample.infoWith [("stepSize", "0.0001"), ("maxQty", "120")]) = .ok filters ∧
      ofFilters (Sample.infoWith [("stepSize", "0.0001"), ("maxQty", "120")]) 0.05 = .ok rules ∧
      Omits filters "minQty" ∧ (rules.lot true).min = 0 ∧ (rules.lot false).min = 0.001 ∧
      rules.quantity true 0.0005 = .ok 0.0005 ∧
      (rules.lot false).min.le 0.0005 = .ok false := by
  refine ⟨_, _, rfl, rfl, ?_, rfl, rfl, rfl, rfl⟩
  rintro _ ⟨⟩
  exact .inl rfl

end OrderTicket.TradingRules
