import OrderTicket.Proofs.Rules.Published
import OrderTicket.Proofs.Venue.Listing

/-!
# The shape of a market

A client skips a market whose numbers cannot be used, or in which something is missing. A value of
the wrong kind is another matter: a look into something that has no fields is not excused. Which
kinds of values a market has in its fields decides whether that can happen.

* `Failure.IsExcused`: the failures for which a market is skipped.
* `Client.Shaped`: a market with values of the expected kinds, `Client.offer_excused`.
* `Client.Misshapen`: one with a value of another kind where every market is looked into,
  `Client.offer_of_misshapen`.
-/

namespace OrderTicket

/-- A failure for which a client skips a market. -/
def Failure.IsExcused (failure : Failure) : Prop :=
  Client.isUnusableMetadata failure = true

open Failure

/-! ## Records -/

namespace Payload

variable {x : Payload} {name : String} {P : Failure → Prop}

/-- A value with fields. -/
def IsRecord : Payload → Prop
  | object _ => True
  | _ => False

/-- What stands in a field, if it is there, has a property. -/
def InField (x : Payload) (name : String) (P : Payload → Prop) : Prop :=
  ∀ value, x.field? name = .ok (some value) → P value

/-- Looking for a field of a record does not fail. -/
theorem IsRecord.field?_failsOnly (h : x.IsRecord) : FailsOnly (x.field? name) P := by
  cases x with
  | object fields => exact .ok
  | _ => exact h.elim

/-- Looking for a field of a record finds something or nothing, but does not fail. -/
theorem IsRecord.exists_field? (h : x.IsRecord) (name : String) :
    ∃ value, x.field? name = .ok value := by
  cases x with
  | object fields => exact ⟨_, rfl⟩
  | _ => exact h.elim

/-- A record may lack a field that has to be there. -/
theorem IsRecord.field_excused (h : x.IsRecord) : FailsOnly (x.field name) IsExcused := by
  cases x with
  | object fields =>
    rw [field]
    split
    · exact .ok
    · exact .error rfl
  | _ => exact h.elim

/-- What has something in a field is given. -/
theorem isGiven_of_field? {value : Payload} (h : x.field? name = .ok (some value)) :
    x.isGiven = true := by
  cases x with
  | object fields =>
    cases fields with
    | nil => cases h
    | cons field fields => rfl
  | _ => cases h

/-- A field that is there is found. -/
theorem field?_of_field {value : Payload} (h : x.field name = .ok value) :
    x.field? name = .ok (some value) := by
  cases x with
  | object fields =>
    rw [field] at h
    split at h
    · rename_i found hfound
      obtain rfl : found = value := Except.ok.inj h
      exact congrArg Except.ok hfound
    · cases h
  | _ => cases h

/-- A field that is missing counts as an empty record where a record is expected. -/
theorem inField_isRecord_iff {value : Option Payload} (h : x.field? name = .ok value) :
    x.InField name IsRecord ↔ (value.getD (.object [])).IsRecord := by
  rw [InField, h]
  cases value with
  | none => simp [IsRecord]
  | some value => simp

/-- Only a record has fields. -/
theorem field?_of_not_isRecord (h : ¬ x.IsRecord) : x.field? name = .error .notRecord := by
  cases x with
  | object fields => exact absurd trivial h
  | _ => rfl

end Payload

open Payload

/-! ## Rules -/

/-- A fault of a number is excused. -/
theorem lift_excused {α : Type} (x : Except Decimal.Fault α) :
    FailsOnly (liftM x : Except Failure α) IsExcused :=
  .lift fun _ _ => rfl

namespace RuleFields

/-- A step that is not positive is excused. -/
theorem positive_excused (symbol : MarketId) (what : String) (x : Decimal) :
    FailsOnly (positive symbol what x) IsExcused := by
  unfold positive
  split
  · exact .ok
  · exact .error rfl
  · exact .error rfl

/-- Rules that do not pass the check are excused. -/
theorem check_excused (fields : RuleFields) : FailsOnly fields.check IsExcused := by
  refine .bind (positive_excused _ _ _) fun _ _ => .bind (positive_excused _ _ _) fun _ _ =>
    .bind ?_ fun _ _ => .ok
  cases fields.marketStep with
  | none => exact .ok
  | some step => exact .map (positive_excused _ _ step)

end RuleFields

namespace TradingRules

variable {β : Type} {x : Payload} {name : String} {filters : List (Payload × Payload)}

theorem amount_excused (x : Option Payload) : FailsOnly (amount x) IsExcused := by
  unfold amount
  split
  · exact .ok
  · exact .ok
  · exact lift_excused _

/-- An amount in a field of a record, and what is done with it. -/
theorem bind_amount_excused (h : x.IsRecord) {next : Decimal → Except Failure β}
    (hnext : ∀ amount, FailsOnly (next amount) IsExcused) :
    FailsOnly (do next (← amount (← x.field? name))) IsExcused :=
  .bind h.field?_failsOnly fun _ _ => .bind (amount_excused _) fun amount _ => hnext amount

/-- An amount in a field that must be there, and what is done with it. -/
theorem bind_required_excused (h : x.IsRecord) {next : Decimal → Except Failure β}
    (hnext : ∀ amount, FailsOnly (next amount) IsExcused) :
    FailsOnly (do next (← amount (some (← x.field name)))) IsExcused :=
  .bind h.field_excused fun _ _ => .bind (amount_excused _) fun amount _ => hnext amount

/-- A bound in a field of a record, and what is done with it. -/
theorem bind_bound_excused (h : x.IsRecord) {next : Option Decimal → Except Failure β}
    (hnext : ∀ bound, FailsOnly (next bound) IsExcused) :
    FailsOnly (do next (← bound? (← x.field? name))) IsExcused :=
  .bind h.field?_failsOnly fun _ _ =>
    .bind (.bind (amount_excused _) fun _ _ => .bind (lift_excused _) fun _ _ => .ok)
      fun bound _ => hnext bound

/-- A filter of the expected kind: a record whose type may be the name of an entry. -/
def IsFilter (filter : Payload) : Prop :=
  filter.IsRecord ∧ filter.InField "filterType" (·.isAtom = true)

/-- Metadata that publishes filters of the expected kind. -/
structure HasFilters (info : Payload) : Prop where
  /-- The metadata has fields. -/
  record : info.IsRecord
  /-- The filters are a list of such filters. -/
  filters : info.InField "filters" fun filters =>
    ∃ items, filters = .list items ∧ ∀ item ∈ items, IsFilter item
  /-- The symbol may be the name of an entry. -/
  symbol : info.InField "symbol" (·.isAtom = true)

/-- Filters of the expected kind are sorted by type, or the failure is excused. -/
theorem filtersByType_excused {items : List Payload} (h : ∀ item ∈ items, IsFilter item) :
    FailsOnly (filtersByType items) IsExcused := by
  refine .mapM fun item hitem => ?_
  obtain ⟨hrecord, htype⟩ := h item hitem
  refine .bind hrecord.field_excused fun type hfield => ?_
  rw [if_pos (htype type (field?_of_field hfield))]
  exact .ok

/-- The filters of a table are those of the list that it was made from. -/
theorem snd_mem_of_filtersByType {items : List Payload} (h : filtersByType items = .ok filters) :
    ∀ entry ∈ filters, entry.2 ∈ items := by
  induction items generalizing filters with
  | nil =>
    obtain rfl : [] = filters := Except.ok.inj h
    simp
  | cons item items ih =>
    rw [filtersByType, List.mapM_cons] at h
    obtain ⟨first, hfirst, h⟩ := bind_eq_ok h
    obtain ⟨rest, hrest, h⟩ := bind_eq_ok h
    obtain rfl : first :: rest = filters := Except.ok.inj h
    have hitem : first.2 = item := by
      obtain ⟨type, -, hfirst⟩ := bind_eq_ok hfirst
      split at hfirst
      · rw [← Except.ok.inj hfirst]
      · cases hfirst
    rintro entry hentry
    rcases List.mem_cons.1 hentry with rfl | hentry
    · exact hitem ▸ List.mem_cons_self
    · exact List.mem_cons_of_mem _ (ih hrest entry hentry)

/-- The filter of a type has fields if all filters do. -/
theorem isRecord_of_filter? (h : ∀ entry ∈ filters, entry.2.IsRecord) {type : String}
    {filter : Payload} (hfilter : filter? filters type = some filter) : filter.IsRecord := by
  obtain ⟨entry, hentry, rfl⟩ := Option.map_eq_some_iff.1 hfilter
  exact h entry (List.mem_reverse.1 (List.mem_of_find?_eq_some hentry))

section

variable (h : ∀ entry ∈ filters, entry.2.IsRecord)
include h

/-- The bounds of an order's value are read, or the failure is excused. -/
theorem notionalBounds_excused : FailsOnly (notionalBounds filters) IsExcused := by
  unfold notionalBounds
  -- both ways to the older bound go on to the newer one
  extract_lets newer
  have hnewer (older : Decimal) : FailsOnly (newer older) IsExcused := by
    dsimp only [newer]
    split
    · exact .ok
    · rename_i hfilter
      have hrecord := isRecord_of_filter? h hfilter
      exact bind_amount_excused hrecord fun _ => bind_bound_excused hrecord fun _ => .ok
  split
  · exact hnewer 0
  · rename_i hfilter
    have hrecord := isRecord_of_filter? h hfilter
    exact .bind hrecord.field?_failsOnly fun _ _ => .bind hrecord.field?_failsOnly fun _ _ =>
      .bind (amount_excused _) fun older _ => hnewer older

/-- The price band is read, or the failure is excused. -/
theorem bands_excused (defaultBand : Decimal) :
    FailsOnly (bands filters defaultBand) IsExcused := by
  unfold bands
  split
  · exact .ok
  · rename_i hfilter
    have hrecord := isRecord_of_filter? h hfilter
    exact bind_required_excused hrecord fun _ => .bind (lift_excused _) fun _ _ =>
      bind_required_excused hrecord fun _ => .bind (lift_excused _) fun _ _ => .ok

/-- The lot rules of market orders are read, or the failure is excused. -/
theorem marketLot_excused : FailsOnly (marketLot filters) IsExcused := by
  unfold marketLot
  split
  · exact .ok
  · rename_i hfilter
    have hrecord := isRecord_of_filter? h hfilter
    exact bind_bound_excused hrecord fun _ => bind_amount_excused hrecord fun _ =>
      bind_bound_excused hrecord fun _ => .ok

end

variable {info market : Payload} {defaultBand : Decimal} {rules : TradingRules}

/-- Filters of the expected kind give rules, or a failure that is excused. -/
theorem ofFilters_excused (h : HasFilters info) :
    FailsOnly (ofFilters info defaultBand) IsExcused := by
  refine .bind h.record.field_excused fun symbol _ => .bind h.record.field?_failsOnly
    fun value hvalue => ?_
  obtain ⟨items, hitems, hlist⟩ : ∃ items, (∀ item ∈ items, IsFilter item) ∧
      (value.getD (.list [])).items = .ok items := by
    cases value with
    | none => exact ⟨[], by simp, rfl⟩
    | some filters =>
      obtain ⟨items, rfl, hitems⟩ := h.filters filters hvalue
      exact ⟨items, hitems, rfl⟩
  rw [bind_of_eq_ok hlist]
  refine .bind (filtersByType_excused hitems) fun filters hfilters => ?_
  -- Filters are looked up by their type; whichever is found is one of the published entries.
  have hrecords : ∀ entry ∈ filters, entry.2.IsRecord := fun entry hentry =>
    (hitems _ (snd_mem_of_filtersByType hfilters entry hentry)).1
  split
  · rename_i hprice hlot
    have hprice := isRecord_of_filter? hrecords hprice
    have hlot := isRecord_of_filter? hrecords hlot
    exact .bind (notionalBounds_excused hrecords) fun _ _ =>
      .bind (bands_excused hrecords _) fun _ _ => .bind (marketLot_excused hrecords) fun _ _ =>
      bind_required_excused hlot fun _ => bind_required_excused hprice fun _ =>
      bind_amount_excused hlot fun _ => bind_bound_excused hlot fun _ =>
      bind_amount_excused hprice fun _ => bind_bound_excused hprice fun _ =>
      RuleFields.check_excused _
  · exact .error rfl

/-- A market in unified form with values of the expected kinds. -/
structure HasLimits (market : Payload) : Prop where
  /-- The limits have fields, and what is given in those has fields. -/
  limits : market.InField "limits" fun limits => limits.IsRecord ∧
    ∀ name ∈ ["amount", "price", "cost"],
      limits.InField name fun bounds => bounds.isGiven = true → bounds.IsRecord
  /-- The precisions have fields. -/
  precision : market.InField "precision" IsRecord
  /-- The identifier may be the name of an entry. -/
  id : market.InField "id" (·.isAtom = true)

/-- Looking for a record inside a record does not fail. -/
theorem exists_inner (h : x.IsRecord) (name : String) : ∃ value, inner x name = .ok value := by
  obtain ⟨value, hvalue⟩ := h.exists_field? name
  rw [inner, bind_of_eq_ok hvalue]
  cases value <;> exact ⟨_, rfl⟩

/-- Looking for a record inside a record finds one, if what is given there is one. -/
theorem inner_returns (h : x.IsRecord)
    (hname : x.InField name fun value => value.isGiven = true → value.IsRecord) :
    Returns (inner x name) IsRecord := by
  obtain ⟨value, hvalue⟩ := h.exists_field? name
  rw [inner, bind_of_eq_ok hvalue]
  cases value with
  | none => exact .ok trivial
  | some value =>
    refine .ok ?_
    split
    · exact hname value hvalue ‹_›
    · trivial

/-- A unified form of the expected kind gives rules, or a failure that is excused. -/
theorem ofUnified_excused (hmarket : market.IsRecord) (h : HasLimits market) :
    FailsOnly (ofUnified market defaultBand) IsExcused := by
  refine .bind hmarket.field?_failsOnly fun limits hlimits =>
    .bind hmarket.field?_failsOnly fun precision hprecision => ?_
  -- Missing limits are read as empty ones, so only limits of the wrong kind need the hypothesis.
  have hbounds : (limits.getD (.object [])).IsRecord ∧ ∀ name ∈ ["amount", "price", "cost"],
      (limits.getD (.object [])).InField name fun bounds => bounds.isGiven = true →
        bounds.IsRecord := by
    cases limits with
    | none => exact ⟨trivial, fun name _ value hvalue => by cases hvalue⟩
    | some limits => exact h.limits limits hlimits
  have hsteps : (precision.getD (.object [])).IsRecord := by
    cases precision with
    | none => trivial
    | some precision => exact h.precision precision hprecision
  obtain ⟨amounts, hamounts, hamount⟩ := inner_returns hbounds.1 (hbounds.2 "amount" (by simp))
  obtain ⟨prices, hprices, hprice⟩ := inner_returns hbounds.1 (hbounds.2 "price" (by simp))
  obtain ⟨costs, hcosts, hcost⟩ := inner_returns hbounds.1 (hbounds.2 "cost" (by simp))
  rw [bind_of_eq_ok hamounts, bind_of_eq_ok hprices, bind_of_eq_ok hcosts]
  exact .bind hmarket.field_excused fun _ _ =>
    bind_amount_excused hsteps fun _ => bind_amount_excused hsteps fun _ =>
    bind_amount_excused hcost fun _ => bind_bound_excused hcost fun _ =>
    bind_amount_excused hamount fun _ => bind_bound_excused hamount fun _ =>
    bind_amount_excused hprice fun _ => bind_bound_excused hprice fun _ =>
    RuleFields.check_excused _

/-- Limits without fields stop the reading, as precisions without fields do. -/
theorem ofUnified_of_not_isRecord (hmarket : market.IsRecord)
    (hid : ∃ id, market.field "id" = .ok id)
    (h : ¬ market.InField "limits" IsRecord ∨ ¬ market.InField "precision" IsRecord) :
    ofUnified market defaultBand = .error .notRecord := by
  obtain ⟨limits, hlimits⟩ := hmarket.exists_field? "limits"
  obtain ⟨precision, hprecision⟩ := hmarket.exists_field? "precision"
  obtain ⟨id, hid⟩ := hid
  rw [ofUnified, bind_of_eq_ok hlimits, bind_of_eq_ok hprecision]
  by_cases hlimit : (limits.getD (.object [])).IsRecord
  · obtain ⟨amounts, hamounts⟩ := exists_inner hlimit "amount"
    obtain ⟨prices, hprices⟩ := exists_inner hlimit "price"
    obtain ⟨costs, hcosts⟩ := exists_inner hlimit "cost"
    have hstep : ¬ (precision.getD (.object [])).IsRecord := by
      rw [← inField_isRecord_iff hprecision]
      exact h.resolve_left fun hno => hno ((inField_isRecord_iff hlimits).2 hlimit)
    rw [bind_of_eq_ok hamounts, bind_of_eq_ok hprices, bind_of_eq_ok hcosts, bind_of_eq_ok hid,
      field?_of_not_isRecord hstep]
    rfl
  · rw [inner, field?_of_not_isRecord hlimit]
    rfl

/-- A record whose entries are numbers that can be used, wherever there are any. -/
structure Readable (x : Payload) : Prop where
  /-- The value has fields. -/
  record : x.IsRecord
  /-- The fields can be used as amounts and as bounds. -/
  numbers (name : String) (value : Option Payload) (h : x.field? name = .ok value) :
    (∃ number, amount value = .ok number) ∧ ∃ bound, bound? value = .ok bound

theorem Readable.empty : Readable (.object []) := by
  refine ⟨trivial, fun name value hvalue => ?_⟩
  obtain rfl : none = value := Except.ok.inj hvalue
  exact ⟨⟨0, rfl⟩, ⟨none, rfl⟩⟩

theorem Readable.bind_amount (h : Readable x) (name : String) : ∃ number,
    ∀ next : Decimal → Except Failure β, (do next (← amount (← x.field? name))) = next number := by
  obtain ⟨value, hvalue⟩ := h.record.exists_field? name
  obtain ⟨⟨number, hnumber⟩, -⟩ := h.numbers name value hvalue
  exact ⟨number, fun next => by rw [bind_of_eq_ok hvalue, bind_of_eq_ok hnumber]⟩

theorem Readable.bind_bound (h : Readable x) (name : String) : ∃ bound,
    ∀ next : Option Decimal → Except Failure β,
      (do next (← bound? (← x.field? name))) = next bound := by
  obtain ⟨value, hvalue⟩ := h.record.exists_field? name
  obtain ⟨-, bound, hbound⟩ := h.numbers name value hvalue
  exact ⟨bound, fun next => by rw [bind_of_eq_ok hvalue, bind_of_eq_ok hbound]⟩

/-- Limits with bounds that have no fields stop the reading, if nothing else ends it before. -/
theorem ofUnified_of_bounds (hmarket : market.IsRecord) (hid : ∃ id, market.field "id" = .ok id)
    {limits : Payload} (hlimits : market.field? "limits" = .ok (some limits))
    (hrecord : limits.IsRecord) (hprecision : market.InField "precision" Readable)
    (hreadable : ∀ name ∈ ["amount", "price", "cost"], ∀ bounds, inner limits name = .ok bounds →
      bounds.IsRecord → Readable bounds)
    (hbad : ∃ name ∈ ["amount", "price", "cost"], ∃ bounds, inner limits name = .ok bounds ∧
      ¬ bounds.IsRecord) :
    ofUnified market defaultBand = .error .notRecord := by
  obtain ⟨id, hid⟩ := hid
  obtain ⟨precision, hfield⟩ := hmarket.exists_field? "precision"
  have hsteps : Readable (precision.getD (.object [])) := by
    cases precision with
    | none => exact .empty
    | some precision => exact hprecision precision hfield
  obtain ⟨amounts, hamounts⟩ := exists_inner hrecord "amount"
  obtain ⟨prices, hprices⟩ := exists_inner hrecord "price"
  obtain ⟨costs, hcosts⟩ := exists_inner hrecord "cost"
  rw [ofUnified, bind_of_eq_ok hlimits, bind_of_eq_ok hfield, Option.getD_some,
    bind_of_eq_ok hamounts, bind_of_eq_ok hprices, bind_of_eq_ok hcosts, bind_of_eq_ok hid]
  obtain ⟨step, hstep⟩ := hsteps.bind_amount "amount" (β := TradingRules)
  obtain ⟨tick, htick⟩ := hsteps.bind_amount "price" (β := TradingRules)
  rw [hstep, htick]
  -- costs, amounts and prices are looked into one after another
  by_cases hcost : costs.IsRecord
  · have hcost := hreadable "cost" (by simp) costs hcosts hcost
    obtain ⟨minNotional, hmin⟩ := hcost.bind_amount "min" (β := TradingRules)
    obtain ⟨maxNotional, hmax⟩ := hcost.bind_bound "max" (β := TradingRules)
    rw [hmin, hmax]
    by_cases hamount : amounts.IsRecord
    · have hamount := hreadable "amount" (by simp) amounts hamounts hamount
      obtain ⟨minQuantity, hmin⟩ := hamount.bind_amount "min" (β := TradingRules)
      obtain ⟨maxQuantity, hmax⟩ := hamount.bind_bound "max" (β := TradingRules)
      have hprice : ¬ prices.IsRecord := by
        intro hprice
        obtain ⟨name, hname, bounds, hbounds, hnot⟩ := hbad
        simp only [List.mem_cons, List.not_mem_nil, or_false] at hname
        rcases hname with rfl | rfl | rfl
        · exact hnot (Except.ok.inj (hbounds.symm.trans hamounts) ▸ hamount.record)
        · exact hnot (Except.ok.inj (hbounds.symm.trans hprices) ▸ hprice)
        · exact hnot (Except.ok.inj (hbounds.symm.trans hcosts) ▸ hcost.record)
      rw [hmin, hmax, field?_of_not_isRecord hprice]
      rfl
    · rw [field?_of_not_isRecord hamount]
      rfl
  · rw [field?_of_not_isRecord hcost]
    rfl

/-- A text is no filter. -/
theorem filtersByType_text_cons (s : String) (items : List Payload) :
    filtersByType (.text s :: items) = .error .unusable := by
  rw [filtersByType, List.mapM_cons]
  rfl

/-- An item without fields behind filters with types stops the reading. -/
theorem filtersByType_of_item {first rest : List Payload} {item : Payload}
    (hfirst : ∀ filter ∈ first, ∃ type, filter.field "filterType" = .ok type ∧ type.isAtom = true)
    (hitem : ¬ item.IsRecord) : filtersByType (first ++ item :: rest) = .error .unusable := by
  have hfield : item.field "filterType" = .error .unusable := by
    cases item with
    | object fields => exact absurd trivial hitem
    | _ => rfl
  induction first with
  | nil =>
    rw [List.nil_append, filtersByType, List.mapM_cons, hfield]
    rfl
  | cons filter first ih =>
    obtain ⟨⟨type, htype, hatom⟩, hfirst⟩ := List.forall_mem_cons.1 hfirst
    have hrest := ih hfirst
    rw [filtersByType] at hrest
    rw [List.cons_append, filtersByType, List.mapM_cons, bind_of_eq_ok htype, if_pos hatom, hrest]
    rfl

/-- Filters that are given and no list have no items, or have texts as items. -/
theorem items_bind_filtersByType {value : Payload} (hgiven : value.isGiven = true)
    (hlist : ∀ items, value ≠ .list items) :
    (value.items >>= filtersByType) = .error .unusable := by
  cases value with
  | null => cases hgiven
  | bool value => rfl
  | int value => rfl
  | float value => rfl
  | list items => exact absurd rfl (hlist items)
  | text s =>
    obtain ⟨c, cs, hs⟩ : ∃ c cs, s.toList = c :: cs := by
      refine List.exists_cons_of_ne_nil fun hnil => ?_
      simp [isGiven, String.toList_eq_nil_iff.1 hnil] at hgiven
    rw [items, hs, List.map_cons]
    exact filtersByType_text_cons (.singleton c) (cs.map fun c => text (.singleton c))
  | object fields =>
    obtain ⟨field, rest, rfl⟩ : ∃ field rest, fields = field :: rest := by
      refine List.exists_cons_of_ne_nil fun hnil => ?_
      simp [isGiven, hnil] at hgiven
    exact filtersByType_text_cons field.1 (rest.map fun field => text field.1)

/-- Filters that cannot be read stop the reading, if there is a symbol. -/
theorem ofFilters_of_error (hsymbol : ∃ symbol, info.field "symbol" = .ok symbol)
    {value : Payload} (hvalue : info.field? "filters" = .ok (some value))
    (hread : (value.items >>= filtersByType) = .error .unusable) :
    ofFilters info defaultBand = .error .unusable := by
  obtain ⟨symbol, hsymbol⟩ := hsymbol
  rw [ofFilters, bind_of_eq_ok hsymbol, bind_of_eq_ok hvalue, Option.getD_some]
  cases hitems : value.items with
  | error failure =>
    rw [hitems] at hread
    obtain rfl : failure = .unusable := Except.error.inj hread
    rfl
  | ok items =>
    rw [hitems] at hread
    replace hread : filtersByType items = .error .unusable := hread
    rw [bind_of_eq_ok rfl, hread]
    rfl

end TradingRules

namespace Client

open TradingRules

variable {market : Payload} {band : Decimal} {rules : TradingRules}

/-! ## Markets -/

/-- A market in whose metadata the venue publishes filters. -/
def PublishesFilters (market : Payload) : Prop :=
  ∃ info filters, market.field? "info" = .ok (some info) ∧
    info.field? "filters" = .ok (some filters) ∧ filters.isGiven = true

/-- A market with values of the expected kinds. -/
structure Shaped (market : Payload) : Prop where
  /-- The metadata has fields, if any is given. -/
  info : market.InField "info" fun info => info.isGiven = true → info.IsRecord
  /-- Filters that are published are of the expected kind. -/
  filters (h : PublishesFilters market) : market.InField "info" HasFilters
  /-- If none are, the unified form is. -/
  limits (h : ¬ PublishesFilters market) : HasLimits market

/-- A market with a value of another kind where every market is looked into. -/
inductive Misshapen (market : Payload) : Prop
  /-- The metadata is given and has no fields. -/
  | info (h : ¬ market.InField "info" fun info => info.isGiven = true → info.IsRecord)
  /-- The filters are given and no list. -/
  | filters (info value : Payload) (hinfo : market.field? "info" = .ok (some info))
    (hsymbol : ∃ symbol, info.field "symbol" = .ok symbol)
    (hvalue : info.field? "filters" = .ok (some value)) (hgiven : value.isGiven = true)
    (hlist : ∀ items, value ≠ .list items)
  /-- Behind filters with types there is one without fields. -/
  | item (info item : Payload) (first rest : List Payload)
    (hinfo : market.field? "info" = .ok (some info))
    (hsymbol : ∃ symbol, info.field "symbol" = .ok symbol)
    (hvalue : info.field? "filters" = .ok (some (.list (first ++ item :: rest))))
    (hfirst : ∀ filter ∈ first, ∃ type, filter.field "filterType" = .ok type ∧ type.isAtom = true)
    (hitem : ¬ item.IsRecord)
  /-- There are no filters, and the limits have no fields. -/
  | limits (hfilters : ¬ PublishesFilters market) (h : ¬ market.InField "limits" IsRecord)
  /-- There are no filters, and the precisions have no fields. -/
  | precision (hfilters : ¬ PublishesFilters market) (h : ¬ market.InField "precision" IsRecord)
  /-- There are no filters, and some of the bounds have no fields, where the numbers beside them can
  be used. -/
  | bounds (hfilters : ¬ PublishesFilters market) (limits : Payload)
    (hlimits : market.field? "limits" = .ok (some limits)) (hrecord : limits.IsRecord)
    (hprecision : market.InField "precision" Readable)
    (hreadable : ∀ name ∈ ["amount", "price", "cost"], ∀ bounds, inner limits name = .ok bounds →
      bounds.IsRecord → Readable bounds)
    (h : ∃ name ∈ ["amount", "price", "cost"], ∃ bounds, inner limits name = .ok bounds ∧
      ¬ bounds.IsRecord)

/-- A market whose metadata has fields is read by its filters, if the venue publishes any, and by
its unified form else. -/
theorem offer_eq (band : Decimal) (hmarket : market.IsRecord)
    (hinfo : market.InField "info" fun info => info.isGiven = true → info.IsRecord) :
    (∃ info, market.field? "info" = .ok (some info) ∧ PublishesFilters market ∧
      offer band market = ofFilters info band) ∨
    ¬ PublishesFilters market ∧ offer band market = ofUnified market band := by
  obtain ⟨info, hfield⟩ := hmarket.exists_field? "info"
  rw [offer, bind_of_eq_ok hfield]
  cases info with
  | none =>
    refine .inr ⟨?_, rfl⟩
    rintro ⟨info, filters, hsome, -⟩
    cases hfield.symm.trans hsome
  | some info =>
    by_cases hgiven : info.isGiven = true
    · obtain ⟨filters, hfilters⟩ := (hinfo info hfield hgiven).exists_field? "filters"
      rw [givenOrEmpty, if_pos hgiven, rulesOf, bind_of_eq_ok hfilters]
      -- An empty list of filters counts as none, and the unified fields are read in its place.
      by_cases hany : filters.any isGiven = true
      · cases filters with
        | none => exact absurd hany Bool.false_ne_true
        | some value =>
          exact .inl ⟨info, hfield, ⟨info, value, hfield, hfilters, hany⟩, if_pos hany⟩
      · refine .inr ⟨?_, if_neg hany⟩
        rintro ⟨other, value, hother, hvalue, hvalueGiven⟩
        obtain rfl := Option.some.inj (Except.ok.inj (hfield.symm.trans hother))
        obtain rfl := Except.ok.inj (hfilters.symm.trans hvalue)
        exact hany hvalueGiven
    · rw [givenOrEmpty, if_neg hgiven]
      refine .inr ⟨?_, rfl⟩
      rintro ⟨other, value, hother, hvalue, -⟩
      obtain rfl := Option.some.inj (Except.ok.inj (hfield.symm.trans hother))
      exact hgiven (isGiven_of_field? hvalue)

/-- A market with values of the expected kinds gives rules, or a failure that is excused. -/
theorem offer_excused (hmarket : market.IsRecord) (h : Shaped market) :
    FailsOnly (offer band market) IsExcused := by
  rcases offer_eq band hmarket h.info with
    ⟨info, hinfo, hpublishes, hoffer⟩ | ⟨hnone, hoffer⟩
  · rw [hoffer]
    exact ofFilters_excused (h.filters hpublishes info hinfo)
  · rw [hoffer]
    exact ofUnified_excused hmarket (h.limits hnone)

/-- The rules of a market of the expected kind are about something that may be the name of an
entry. -/
theorem isAtom_of_offer (hmarket : market.IsRecord) (h : Shaped market)
    (hrules : offer band market = .ok rules) : rules.symbol.toPayload.isAtom = true := by
  rcases offer_eq band hmarket h.info with
    ⟨info, hinfo, hpublishes, hoffer⟩ | ⟨hnone, hoffer⟩
  · obtain ⟨filters, hread⟩ := exists_ofFilters (hoffer.symm.trans hrules)
    obtain ⟨symbol, hsymbol, hname⟩ := hread.symbol
    rw [hname, MarketId.toPayload_ofPayload]
    exact (h.filters hpublishes info hinfo).symbol symbol (field?_of_field hsymbol)
  · obtain ⟨id, hid, hname⟩ := (ofUnified_ok (hoffer.symm.trans hrules)).symbol
    rw [hname, MarketId.toPayload_ofPayload]
    exact (h.limits hnone).id id (field?_of_field hid)

/-- A market with a value of another kind in one of those places gives no rules, and its failure is
not excused. -/
theorem offer_of_misshapen (band : Decimal) (hmarket : market.IsRecord)
    (hid : ∃ id, market.field "id" = .ok id) (h : Misshapen market) :
    ∃ failure, offer band market = .error failure ∧ ¬ failure.IsExcused := by
  have hrecord : ¬ (notRecord : Failure).IsExcused := Bool.false_ne_true
  have hunusable : ¬ (unusable : Failure).IsExcused := Bool.false_ne_true
  by_cases hinfo : market.InField "info" fun info => info.isGiven = true → info.IsRecord
  · rcases offer_eq band hmarket hinfo with
      ⟨info, hfield, hpublishes, hoffer⟩ | ⟨hnone, hoffer⟩
    · cases h with
      | info hnot => exact absurd hinfo hnot
      | filters other value hother hsymbol hvalue hgiven hlist =>
        obtain rfl := Option.some.inj (Except.ok.inj (hfield.symm.trans hother))
        exact ⟨_, hoffer.trans (ofFilters_of_error hsymbol hvalue
          (items_bind_filtersByType hgiven hlist)), hunusable⟩
      | item other item first rest hother hsymbol hvalue hfirst hitem =>
        obtain rfl := Option.some.inj (Except.ok.inj (hfield.symm.trans hother))
        exact ⟨_, hoffer.trans (ofFilters_of_error hsymbol hvalue
          (filtersByType_of_item hfirst hitem)), hunusable⟩
      | limits hfilters => exact absurd hpublishes hfilters
      | precision hfilters => exact absurd hpublishes hfilters
      | bounds hfilters => exact absurd hpublishes hfilters
    · cases h with
      | info hnot => exact absurd hinfo hnot
      | filters info value hother hsymbol hvalue hgiven hlist =>
        exact absurd ⟨info, value, hother, hvalue, hgiven⟩ hnone
      | item info item first rest hother hsymbol hvalue hfirst hitem =>
        exact absurd ⟨info, _, hother, hvalue, by simp [isGiven]⟩ hnone
      | limits hfilters hnot =>
        exact ⟨_, hoffer.trans (ofUnified_of_not_isRecord hmarket hid (.inl hnot)), hrecord⟩
      | precision hfilters hnot =>
        exact ⟨_, hoffer.trans (ofUnified_of_not_isRecord hmarket hid (.inr hnot)), hrecord⟩
      | bounds hfilters limits hlimits hfields hprecision hreadable hbad =>
        exact ⟨_, hoffer.trans (ofUnified_of_bounds hmarket hid hlimits hfields hprecision
          hreadable hbad), hrecord⟩
  · -- metadata without fields stops the reading before anything else is looked at
    obtain ⟨info, hfield, hgiven, hnot⟩ : ∃ info, market.field? "info" = .ok (some info) ∧
        info.isGiven = true ∧ ¬ info.IsRecord := by
      simpa [InField] using hinfo
    refine ⟨.notRecord, ?_, hrecord⟩
    rw [offer, bind_of_eq_ok hfield, givenOrEmpty, if_pos hgiven, rulesOf,
      field?_of_not_isRecord hnot]
    rfl

end Client

end OrderTicket
