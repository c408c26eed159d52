import OrderTicket.Proofs.Run
import OrderTicket.Rules.Metadata

/-!
# What rules are read from

Rules that were read show what the metadata of their market says: each of their fields is read from
a field of its own, and nothing is put in its place but what the readers of single fields allow. The
two structures of this module say so for the two forms in which venues publish rules. What is needed
of rules that were read is taken from there, so that the readers are gone through only once.

* `TradingRules.Says`, `TradingRules.SaysBound`, `TradingRules.Requires`: what a single field says.
* `TradingRules.OfFilters`, `TradingRules.exists_ofFilters`: rules from published filters.
* `TradingRules.OfUnified`, `TradingRules.ofUnified_ok`: rules from the unified form.
-/

namespace OrderTicket.TradingRules

variable {β : Type} {x info market : Payload} {name : String} {defaultBand : Decimal}
  {rules : TradingRules}

/-! ## Single fields -/

/-- A field says this number, or is missing and the number is zero. -/
def Says (x : Payload) (name : String) (number : Decimal) : Prop :=
  ∃ value, x.field? name = .ok value ∧ amount value = .ok number

/-- A field says this bound, or that there is none. -/
def SaysBound (x : Payload) (name : String) (bound : Option Decimal) : Prop :=
  ∃ value, x.field? name = .ok value ∧ bound? value = .ok bound

/-- A field is there and says this number. -/
def Requires (x : Payload) (name : String) (number : Decimal) : Prop :=
  ∃ value, x.field name = .ok value ∧ amount (some value) = .ok number

/-- What is returned behind the number of a field comes from what the field says. -/
theorem bind_amount_eq_ok {next : Decimal → Except Failure β} {b : β}
    (h : (do next (← amount (← x.field? name))) = .ok b) :
    ∃ number, Says x name number ∧ next number = .ok b := by
  obtain ⟨value, hvalue, h⟩ := bind_eq_ok h
  obtain ⟨number, hnumber, h⟩ := bind_eq_ok h
  exact ⟨number, ⟨value, hvalue, hnumber⟩, h⟩

/-- What is returned behind the bound of a field comes from what the field says. -/
theorem bind_bound_eq_ok {next : Option Decimal → Except Failure β} {b : β}
    (h : (do next (← bound? (← x.field? name))) = .ok b) :
    ∃ bound, SaysBound x name bound ∧ next bound = .ok b := by
  obtain ⟨value, hvalue, h⟩ := bind_eq_ok h
  obtain ⟨bound, hbound, h⟩ := bind_eq_ok h
  exact ⟨bound, ⟨value, hvalue, hbound⟩, h⟩

/-- What is returned behind the number of a required field comes from what the field says. -/
theorem bind_required_eq_ok {next : Decimal → Except Failure β} {b : β}
    (h : (do next (← amount (some (← x.field name)))) = .ok b) :
    ∃ number, Requires x name number ∧ next number = .ok b := by
  obtain ⟨value, hvalue, h⟩ := bind_eq_ok h
  obtain ⟨number, hnumber, h⟩ := bind_eq_ok h
  exact ⟨number, ⟨value, hvalue, hnumber⟩, h⟩

/-! ## Published filters -/

/-- The filters of a market by type, as they are read from its metadata. -/
def filtersOf (info : Payload) : Except Failure (List (Payload × Payload)) := do
  filtersByType (← ((← info.field? "filters").getD (.list [])).items)

/-- Rules that were read from published filters. -/
structure OfFilters (info : Payload) (defaultBand : Decimal) (filters : List (Payload × Payload))
    (rules : TradingRules) : Prop where
  /-- The filters are those of the metadata. -/
  filters_eq : filtersOf info = .ok filters
  /-- The rules are about the symbol of the metadata. -/
  symbol : ∃ symbol, info.field "symbol" = .ok symbol ∧ rules.symbol = .ofPayload symbol
  /-- The bounds of an order's value come from the filters for it. -/
  notional : notionalBounds filters = .ok (rules.minNotional, rules.maxNotional)
  /-- The price band comes from the filter for it, or is the standard one. -/
  bands : TradingRules.bands filters defaultBand = .ok (rules.bandDown, rules.bandUp)
  /-- The lot rules of market orders come from the filter for these. -/
  marketLot : TradingRules.marketLot filters =
    .ok (rules.marketStep, rules.marketMinQuantity, rules.marketMaxQuantity)
  /-- The lot rules come from a filter that must be there. -/
  lot : ∃ filter, filter? filters "LOT_SIZE" = some filter ∧
    Requires filter "stepSize" rules.step ∧ Says filter "minQty" rules.minQuantity ∧
      SaysBound filter "maxQty" rules.maxQuantity
  /-- The price rules come from a filter that must be there. -/
  prices : ∃ filter, filter? filters "PRICE_FILTER" = some filter ∧
    Requires filter "tickSize" rules.tick ∧ Says filter "minPrice" rules.minPrice ∧
      SaysBound filter "maxPrice" rules.maxPrice

/-- Rules that are read from metadata with filters come from these. -/
theorem exists_ofFilters (h : ofFilters info defaultBand = .ok rules) :
    ∃ filters, OfFilters info defaultBand filters rules := by
  obtain ⟨symbol, hsymbol, h⟩ := bind_eq_ok h
  obtain ⟨value, hvalue, h⟩ := bind_eq_ok h
  obtain ⟨items, hitems, h⟩ := bind_eq_ok h
  obtain ⟨filters, hfilters, h⟩ := bind_eq_ok h
  have hread : filtersOf info = .ok filters :=
    (bind_of_eq_ok hvalue).trans ((bind_of_eq_ok hitems).trans hfilters)
  split at h
  · rename_i priceFilter lotFilter hprice hlot
    obtain ⟨⟨minNotional, maxNotional⟩, hnotional, h⟩ := bind_eq_ok h
    obtain ⟨⟨bandDown, bandUp⟩, hbands, h⟩ := bind_eq_ok h
    obtain ⟨⟨marketStep, marketMin, marketMax⟩, hmarketLot, h⟩ := bind_eq_ok h
    obtain ⟨step, hstep, h⟩ := bind_required_eq_ok h
    obtain ⟨tick, htick, h⟩ := bind_required_eq_ok h
    obtain ⟨minQuantity, hminQuantity, h⟩ := bind_amount_eq_ok h
    obtain ⟨maxQuantity, hmaxQuantity, h⟩ := bind_bound_eq_ok h
    obtain ⟨minPrice, hminPrice, h⟩ := bind_amount_eq_ok h
    obtain ⟨maxPrice, hmaxPrice, h⟩ := bind_bound_eq_ok h
    -- the check of the steps changes none of the fields
    have hfields := RuleFields.toRuleFields_of_check h
    obtain ⟨fields, _, _, _⟩ := rules
    subst hfields
    exact ⟨filters, {
      filters_eq := hread
      symbol := ⟨symbol, hsymbol, rfl⟩
      notional := hnotional
      bands := hbands
      marketLot := hmarketLot
      lot := ⟨lotFilter, hlot, hstep, hminQuantity, hmaxQuantity⟩
      prices := ⟨priceFilter, hprice, htick, hminPrice, hmaxPrice⟩ }⟩
  · cases h

/-! ## The unified form -/

/-- Rules that were read from the unified form of a market. -/
structure OfUnified (market : Payload) (defaultBand : Decimal) (rules : TradingRules) : Prop where
  /-- The rules are about the identifier of the market. -/
  symbol : ∃ id, market.field "id" = .ok id ∧ rules.symbol = .ofPayload id
  /-- The steps are the precisions. -/
  steps : ∃ precision, market.field? "precision" = .ok precision ∧
    Says (precision.getD (.object [])) "amount" rules.step ∧
      Says (precision.getD (.object [])) "price" rules.tick
  /-- The bounds of value, quantity and price are in the limits. -/
  limits : ∃ limits costs amounts prices, market.field? "limits" = .ok limits ∧
    inner (limits.getD (.object [])) "cost" = .ok costs ∧
    inner (limits.getD (.object [])) "amount" = .ok amounts ∧
    inner (limits.getD (.object [])) "price" = .ok prices ∧
    (Says costs "min" rules.minNotional ∧ SaysBound costs "max" rules.maxNotional) ∧
    (Says amounts "min" rules.minQuantity ∧ SaysBound amounts "max" rules.maxQuantity) ∧
      Says prices "min" rules.minPrice ∧ SaysBound prices "max" rules.maxPrice
  /-- The price band is the standard one. -/
  bands : rules.bandDown = defaultBand ∧ rules.bandUp = defaultBand
  /-- There are no lot rules for market orders. -/
  marketLot : rules.marketStep = none ∧ rules.marketMinQuantity = none ∧
    rules.marketMaxQuantity = none

/-- Rules that are read from the unified form come from its limits and precisions. -/
theorem ofUnified_ok (h : ofUnified market defaultBand = .ok rules) :
    OfUnified market defaultBand rules := by
  -- the fields are read one after another; the record keeps what each of them says
  obtain ⟨limits, hlimits, h⟩ := bind_eq_ok h
  obtain ⟨precision, hprecision, h⟩ := bind_eq_ok h
  obtain ⟨amounts, hamounts, h⟩ := bind_eq_ok h
  obtain ⟨prices, hprices, h⟩ := bind_eq_ok h
  obtain ⟨costs, hcosts, h⟩ := bind_eq_ok h
  obtain ⟨id, hid, h⟩ := bind_eq_ok h
  obtain ⟨step, hstep, h⟩ := bind_amount_eq_ok h
  obtain ⟨tick, htick, h⟩ := bind_amount_eq_ok h
  obtain ⟨minNotional, hminNotional, h⟩ := bind_amount_eq_ok h
  obtain ⟨maxNotional, hmaxNotional, h⟩ := bind_bound_eq_ok h
  obtain ⟨minQuantity, hminQuantity, h⟩ := bind_amount_eq_ok h
  obtain ⟨maxQuantity, hmaxQuantity, h⟩ := bind_bound_eq_ok h
  obtain ⟨minPrice, hminPrice, h⟩ := bind_amount_eq_ok h
  obtain ⟨maxPrice, hmaxPrice, h⟩ := bind_bound_eq_ok h
  have hfields := RuleFields.toRuleFields_of_check h
  obtain ⟨fields, _, _, _⟩ := rules
  subst hfields
  exact {
    symbol := ⟨id, hid, rfl⟩
    steps := ⟨precision, hprecision, hstep, htick⟩
    limits := ⟨limits, costs, amounts, prices, hlimits, hcosts, hamounts, hprices,
      ⟨hminNotional, hmaxNotional⟩, ⟨hminQuantity, hmaxQuantity⟩, hminPrice, hmaxPrice⟩
    bands := ⟨rfl, rfl⟩
    marketLot := ⟨rfl, rfl, rfl⟩ }

end OrderTicket.TradingRules
