import OrderTicket.Proofs.Rules.Finite
import OrderTicket.Proofs.Ticket.Legal
import OrderTicket.Proofs.Ticket.Refusals

/-!
# Warnings say what happened

Five steps of a preparation may add a warning each, of a kind of their own, before the preparation
goes on or ends in a rejection. So the warnings of an outcome come in the order of the steps, none
of them twice, and a ticket has the warning of a step exactly if its order was changed there, or if
its fill is bad in that respect.

* `Ticket.Notes`: what a single step adds.
* `Ticket.Reports`: what some steps have added, one after the other.
* `Ticket.Reports.codes_sublist`, `Ticket.Reports.mem_iff`: order and meaning of the warnings.
* `Ticket.Explained`, `Ticket.settle_explained`: outcomes with warnings in order and with reasons,
  and why a step of the preparation leads to such an outcome if what follows does.
* `Ticket.Steps.reports`, `Ticket.assemble_explained`: all steps.
* `Ticket.tells_of_prepare`: what the warnings of every outcome say.
-/

namespace OrderTicket.Ticket

open Decimal

/-- The kinds of warnings, in the order of the steps that add them. -/
def stepCodes : List Warning.Code :=
  [.leverageClamped, .priceAdjusted, .highSlippage, .partialLiquidity, .quantityAdjusted]

/-- The kinds of some warnings. -/
def codes (warnings : List Warning) : List Warning.Code :=
  warnings.map (·.code)

@[simp]
theorem codes_nil : codes [] = [] :=
  rfl

@[simp]
theorem codes_append (warnings more : List Warning) :
    codes (warnings ++ more) = codes warnings ++ codes more :=
  List.map_append

/-! ## What a step adds -/

/-- A step adds one warning of a kind if a condition holds, and none otherwise. -/
structure Notes (notes : List Warning) (code : Warning.Code) (condition : Prop) : Prop where
  /-- The warning, if there is one. -/
  eq_of : condition → codes notes = [code]
  /-- No warning otherwise. -/
  eq_nil_of : ¬condition → codes notes = []

namespace Notes

variable {notes : List Warning} {code : Warning.Code} {condition : Prop}

/-- A step adds at most one kind of warning. -/
theorem codes_sublist (h : Notes notes code condition) : (codes notes).Sublist [code] := by
  by_cases hc : condition
  · rw [h.eq_of hc]
  · rw [h.eq_nil_of hc]
    exact List.nil_sublist _

/-- A step adds its kind of warning exactly if the condition holds. -/
theorem mem_iff (h : Notes notes code condition) : code ∈ codes notes ↔ condition := by
  by_cases hc : condition
  · simp [h.eq_of hc, hc]
  · simp [h.eq_nil_of hc, hc]

/-- A step may add nothing if its condition fails. -/
theorem nil (hc : ¬condition) : Notes [] code condition :=
  ⟨fun h => absurd h hc, fun _ => rfl⟩

/-- A step adds one warning if its condition holds. -/
theorem single {message : String} (hc : condition) : Notes [⟨code, message⟩] code condition :=
  ⟨fun _ => rfl, fun h => absurd hc h⟩

theorem warnIf (b : Bool) (code : Warning.Code) (message : String) :
    Notes (Ticket.warnIf b code message) code (b = true) := by
  cases b with
  | true => exact single rfl
  | false => exact nil (by decide)

end Notes

/-! ## What several steps have added -/

/-- The warnings that some steps have added one after the other, with the condition of each step. -/
inductive Reports : List Warning → List (Warning.Code × Prop) → Prop where
  | nil : Reports [] []
  | snoc {warnings notes : List Warning} {done : List (Warning.Code × Prop)} {code : Warning.Code}
      {condition : Prop} : Reports warnings done → Notes notes code condition →
        Reports (warnings ++ notes) (done ++ [(code, condition)])

namespace Reports

variable {warnings : List Warning} {done : List (Warning.Code × Prop)} {code : Warning.Code}
  {condition : Prop}

/-- No kind of warning comes twice or out of order. -/
theorem codes_sublist (h : Reports warnings done) :
    (codes warnings).Sublist (done.map Prod.fst) := by
  induction h with
  | nil => exact .refl _
  | snoc _ hnotes ih =>
    -- the last step adds its own kind behind the others, or nothing
    rw [codes_append, List.map_append]
    exact ih.append hnotes.codes_sublist

/-- There is a warning of a kind exactly if the condition of its step holds. -/
theorem mem_iff (h : Reports warnings done) (hnodup : (done.map Prod.fst).Nodup)
    (hmem : (code, condition) ∈ done) : code ∈ codes warnings ↔ condition := by
  induction h with
  | nil => cases hmem
  | @snoc warnings notes done code' condition' hreports hnotes ih =>
    rw [List.map_append, List.nodup_append] at hnodup
    obtain ⟨hnodup, -, hapart⟩ := hnodup
    rw [codes_append, List.mem_append]
    rcases List.mem_append.1 hmem with hmem | hmem
    · -- the last step has a kind of its own
      have hother : code ∉ codes notes := fun hin =>
        hapart code (List.mem_map_of_mem hmem) code' (by simp)
          (List.mem_singleton.1 (hnotes.codes_sublist.mem hin))
      rw [ih hnodup hmem, or_iff_left hother]
    · obtain ⟨rfl, rfl⟩ := Prod.mk.inj (List.mem_singleton.1 hmem)
      have hother : code ∉ codes warnings := fun hin =>
        hapart code (hreports.codes_sublist.mem hin) code (by simp) rfl
      rw [hnotes.mem_iff, or_iff_right hother]

end Reports

section

variable {order : Order} {book : Book} {rules : TradingRules} {risk : RiskSettings}
  {balance markPrice : Option Decimal} {ticket : Ticket} {event : Event} {notes : List Warning}

/-! ## The steps that add warnings -/

/-- The first step warns if the used leverage is not the wanted one. -/
theorem leverageWarnings_notes (h : leverageWarnings order risk = .ok notes) :
    Notes notes .leverageClamped (usedLeverage order risk ≠ wantedLeverage order risk) := by
  unfold leverageWarnings at h
  split at h
  · next hsame =>
    obtain rfl := Except.ok.inj h
    exact .nil (not_not.2 hsame)
  · next hdiffers =>
    obtain ⟨wanted, -, h⟩ := bind_eq_ok h
    obtain ⟨cap, -, h⟩ := bind_eq_ok h
    obtain ⟨used, -, h⟩ := bind_eq_ok h
    obtain rfl := Except.ok.inj h
    exact .single hdiffers

/-- A step warns if the limit price is not the typed one. -/
theorem priceWarnings_notes {limitPrice : Option Decimal}
    (h : priceWarnings order rules limitPrice = .ok notes) :
    Notes notes .priceAdjusted (∃ price typed, limitPrice = some price ∧
      order.limitPrice = some typed ∧ price.equal typed = .ok false) := by
  unfold priceWarnings at h
  split at h
  · next price typed htyped =>
    obtain ⟨same, hsame, h⟩ := bind_eq_ok h
    have hsame := liftM_eq_ok hsame
    cases same with
    | true =>
      -- the comparison has one answer only, and it is not the one of the condition
      obtain rfl := Except.ok.inj h
      refine .nil ?_
      rintro ⟨price', typed', hprice, htyped', hdiffers⟩
      obtain rfl := Option.some.inj hprice
      obtain rfl := Option.some.inj (htyped.symm.trans htyped')
      cases hsame.symm.trans hdiffers
    | false =>
      obtain ⟨tick, -, h⟩ := bind_eq_ok h
      obtain rfl := Except.ok.inj h
      exact .single ⟨price, typed, rfl, htyped, hsame⟩
  · next hnone =>
    obtain rfl := Except.ok.inj h
    refine .nil ?_
    rintro ⟨price, typed, rfl, htyped, -⟩
    exact hnone price typed rfl htyped

/-- A step warns if a quantity in units of the asset was cut. -/
theorem quantityWarnings_notes {lot : Lot} {raw used : Decimal}
    (h : quantityWarnings order lot raw used = .ok notes) :
    Notes notes .quantityAdjusted (order.size.unit = .base ∧ used.equal raw = .ok false) := by
  unfold quantityWarnings at h
  split at h
  · next hunit =>
    obtain rfl := Except.ok.inj h
    exact .nil fun hc => hunit hc.1
  · next hunit =>
    obtain ⟨same, hsame, h⟩ := bind_eq_ok h
    have hsame := liftM_eq_ok hsame
    cases same with
    | true =>
      obtain rfl := Except.ok.inj h
      exact .nil fun hc => by cases hsame.symm.trans hc.2
    | false =>
      obtain ⟨step, -, h⟩ := bind_eq_ok h
      obtain rfl := Except.ok.inj h
      exact .single ⟨not_not.1 hunit, hsame⟩

/-- The slippage check adds up to two warnings. -/
theorem slippage_notes {fill? : Option Fill} {overLimit : Bool}
    (h : slippage risk fill? = .ok (overLimit, notes)) :
    ∃ high thin, notes = high ++ thin ∧ Notes high .highSlippage (overLimit = true) ∧
      Notes thin .partialLiquidity (fill?.any (·.exhausted) = true) := by
  cases fill? with
  | none =>
    obtain ⟨rfl, rfl⟩ := Prod.mk.inj (Except.ok.inj h)
    exact ⟨[], [], rfl, .nil (by decide), .nil (by simp)⟩
  | some fill =>
    obtain ⟨above, -, h⟩ := bind_eq_ok h
    obtain ⟨all, hall, h⟩ := bind_eq_ok h
    obtain ⟨rfl, rfl⟩ := Prod.mk.inj (Except.ok.inj h)
    have hall := liftM_eq_ok hall
    cases above with
    | true =>
      obtain ⟨bps, -, hall⟩ := bind_eq_ok hall
      obtain rfl := Except.ok.inj hall
      exact ⟨[_], _, rfl, .single rfl, .warnIf ..⟩
    | false =>
      obtain rfl := Except.ok.inj hall
      exact ⟨[], _, rfl, .nil (by decide), .warnIf ..⟩

/-- There is too much slippage exactly if the check of the fill says so. -/
theorem slippage_overLimit {fill? : Option Fill} {overLimit : Bool}
    (h : slippage risk fill? = .ok (overLimit, notes)) :
    overLimit = true ↔ ∃ fill, fill? = some fill ∧ isOverLimit fill risk = .ok true := by
  cases fill? with
  | none =>
    obtain ⟨rfl, -⟩ := Prod.mk.inj (Except.ok.inj h)
    simp
  | some fill =>
    obtain ⟨above, habove, h⟩ := bind_eq_ok h
    obtain ⟨all, -, h⟩ := bind_eq_ok h
    obtain ⟨rfl, -⟩ := Prod.mk.inj (Except.ok.inj h)
    simp [liftM_eq_ok habove]

/-! ## All steps -/

/-- The warnings of a ticket are those of its steps. -/
theorem Steps.reports (steps : Steps order book rules risk balance markPrice ticket) :
    Reports ticket.warnings
      [(.leverageClamped, usedLeverage order risk ≠ wantedLeverage order risk),
        (.priceAdjusted, ∃ price typed, steps.terms.limitPrice = some price ∧
          order.limitPrice = some typed ∧ price.equal typed = .ok false),
        (.highSlippage, steps.terms.overLimit = true),
        (.partialLiquidity, steps.terms.fill.any (·.exhausted) = true),
        (.quantityAdjusted,
          order.size.unit = .base ∧ steps.baseSize.equal steps.terms.raw = .ok false)] := by
  obtain ⟨high, thin, hnotes, hhigh, hthin⟩ := slippage_notes steps.slippage_eq
  have hreports := ((((Reports.nil.snoc (leverageWarnings_notes steps.leverageNotes_eq)).snoc
    (priceWarnings_notes steps.priceNotes_eq)).snoc hhigh).snoc hthin).snoc
      (quantityWarnings_notes steps.quantityNotes_eq)
  rw [steps.shown.warnings, hnotes]
  simpa using hreports

/-- An outcome with its warnings in the order of the steps, which gives reasons if it is no
ticket. -/
structure Explained (outcome : Outcome) : Prop where
  /-- No kind of warning comes twice or out of order. -/
  inOrder : (codes outcome.warnings).Sublist stepCodes
  /-- If there is no ticket, something stands against the order. -/
  reasons : outcome.ticket? = none → outcome.rejections ≠ []

/-- A step that ends the preparation keeps the warnings so far and gives reasons. So the outcome is
explained if it is after the steps that follow. -/
theorem settle_explained {α : Type} {warnings : List Warning} {done : List (Warning.Code × Prop)}
    {x : Except Failure α} {next : α → Except Failure Outcome} {outcome : Outcome}
    (hreports : Reports warnings done) (hstart : done.map Prod.fst <+: stepCodes)
    (hx : FailsOnly x Failure.HasReasons)
    (hnext : ∀ a, x = .ok a → next a = .ok outcome → Explained outcome)
    (h : settle warnings x next = .ok outcome) : Explained outcome := by
  cases x with
  | ok a => exact hnext a rfl h
  | error failure =>
    cases failure with
    | rejected rejections =>
      obtain rfl := Except.ok.inj h
      exact ⟨hreports.codes_sublist.trans hstart.sublist, fun _ => hx _ rfl⟩
    | _ => cases h

/-- The checks of value and price distance refuse with what they have found. -/
theorem checkBounds_hasReasons {limitPrice : Option Decimal} {baseSize price : Decimal} :
    FailsOnly (checkBounds order book rules markPrice limitPrice baseSize price)
      Failure.HasReasons := by
  refine .bind TradingRules.notionalRejection?_hasCodes.hasReasons_of_nil fun value _ =>
    .bind bandRejections_hasCodes.hasReasons_of_nil fun distance _ => ?_
  -- the checks refuse only with what they have found
  cases value.toList ++ distance with
  | nil => exact .ok
  | cons first rest => exact .error (List.cons_ne_nil first rest)

/-- Whatever comes of an order is explained. -/
theorem assemble_explained {outcome : Outcome}
    (h : assemble order book rules risk balance markPrice = .ok outcome) : Explained outcome := by
  -- step by step; the account grows where a step adds warnings, and is passed on where none does
  refine settle_explained .nil ⟨_, rfl⟩ (FailsOnly.liftM_hasCodes _).hasReasons_of_nil ?_ h
  intro leverageNotes hleverageNotes h
  have hleverage := Reports.nil.snoc (leverageWarnings_notes (liftM_eq_ok hleverageNotes))
  refine settle_explained hleverage ⟨_, rfl⟩ limitPrice?_hasCodes.hasReasons ?_ h
  intro limitPrice _ h
  refine settle_explained hleverage ⟨_, rfl⟩ priceWarnings_hasCodes.hasReasons_of_nil ?_ h
  intro priceNotes hpriceNotes h
  have hprice := hleverage.snoc (priceWarnings_notes hpriceNotes)
  refine settle_explained hprice ⟨_, rfl⟩ rawQuantity_hasCodes.hasReasons ?_ h
  intro raw _ h
  refine settle_explained hprice ⟨_, rfl⟩ marketFill?_hasCodes.hasReasons ?_ h
  intro fill _ h
  refine settle_explained hprice ⟨_, rfl⟩ slippage_hasCodes.hasReasons_of_nil ?_ h
  intro slippageNotes hslippageNotes h
  -- this check is the one step with two kinds of warnings
  obtain ⟨high, thin, hnotes, hhigh, hthin⟩ := slippage_notes hslippageNotes
  have hslippage := (hprice.snoc hhigh).snoc hthin
  rw [List.append_assoc, ← hnotes] at hslippage
  refine settle_explained hslippage ⟨_, rfl⟩ TradingRules.quantity_hasCodes.hasReasons ?_ h
  intro baseSize _ h
  refine settle_explained hslippage ⟨_, rfl⟩ quantityWarnings_hasCodes.hasReasons_of_nil ?_ h
  intro quantityNotes hquantityNotes h
  have hquantity := hslippage.snoc (quantityWarnings_notes hquantityNotes)
  refine settle_explained hquantity ⟨_, rfl⟩ priceOf_hasCodes.hasReasons ?_ h
  intro price _ h
  refine settle_explained hquantity ⟨_, rfl⟩ checkBounds_hasReasons ?_ h
  intro _ _ h
  refine settle_explained hquantity ⟨_, rfl⟩ complete_hasCodes.hasReasons ?_ h
  intro ticket hcomplete h
  -- the ticket is made with all warnings
  obtain ⟨_, _, _, _, _, -, -, -, -, -, rfl⟩ := complete_eq_ok hcomplete
  obtain rfl := Except.ok.inj h
  exact ⟨hquantity.codes_sublist, nofun⟩

/-- A ticket warns of its slippage exactly if the check says that there is too much. -/
theorem Steps.warns_high_iff (steps : Steps order book rules risk balance markPrice ticket) :
    .highSlippage ∈ codes ticket.warnings ↔ steps.terms.overLimit = true :=
  steps.reports.mem_iff (by decide : stepCodes.Nodup) (.tail _ (.tail _ (.head _)))

/-! ## What the conditions say of the ticket -/

/-- A limit price was moved exactly if it has another value than the typed one. -/
theorem Steps.price_moved_iff (steps : Steps order book rules risk balance markPrice ticket) :
    (∃ price typed, steps.terms.limitPrice = some price ∧ order.limitPrice = some typed ∧
      price.equal typed = .ok false) ↔
    order.type = .limit ∧ ∃ typed price, order.limitPrice = some typed ∧
      ticket.limitPrice = some price ∧ price.value ≠ typed.value := by
  cases htype : order.type with
  | market =>
    -- a market order has no limit price to move
    have hnone : steps.terms.limitPrice = none := by
      obtain ⟨-, hnone⟩ | ⟨hlimit, -⟩ := limitPrice?_eq_ok steps.limitPrice_eq
      · exact hnone
      · rw [htype] at hlimit
        cases hlimit
    simp [hnone]
  | limit =>
    obtain ⟨typed, htyped, hprice, hlimit, -⟩ := steps.of_limit htype
    have hmoved := TradingRules.isMoved_of_price hprice
    simp [steps.shown.limitPrice, hlimit, htyped, equal_eq hmoved.isFinite hmoved.raw_isFinite]

/-- A size in units of the asset is the quantity before it is cut. -/
theorem Steps.raw_of_base (steps : Steps order book rules risk balance markPrice ticket)
    (hunit : order.size.unit = .base) : order.size.amount = steps.terms.raw := by
  have hraw := steps.raw_eq
  rw [rawQuantity, if_pos hunit] at hraw
  exact congrArg Prod.fst (Except.ok.inj hraw)

/-- A quantity was cut exactly if it has another value than the typed one. -/
theorem Steps.quantity_cut_iff (steps : Steps order book rules risk balance markPrice ticket) :
    (order.size.unit = .base ∧ steps.baseSize.equal steps.terms.raw = .ok false) ↔
      order.size.unit = .base ∧ ticket.baseSize.value ≠ order.size.amount.value := by
  refine and_congr_right fun hunit => ?_
  have hmoved := TradingRules.isMoved_of_quantity steps.baseSize_eq
  rw [equal_eq hmoved.isFinite hmoved.raw_isFinite, steps.shown.baseSize, steps.raw_of_base hunit]
  simp

/-- There is too much slippage exactly if the market order's slippage exceeds the bound. -/
theorem Steps.overLimit_iff (steps : Steps order book rules risk balance markPrice ticket) :
    steps.terms.overLimit = true ↔ order.type = .market ∧
      ∃ limit, risk.maxSlippageBps.div 100 = .ok limit ∧
        limit.lt ticket.slippagePercent = .ok true := by
  rw [slippage_overLimit steps.slippage_eq, steps.shown.slippagePercent]
  obtain ⟨htype, hfill⟩ | ⟨htype, fill, hfill⟩ := marketFill?_eq_ok steps.fill_eq
  · simp [htype, hfill]
  · rw [htype, hfill]
    constructor
    · -- the fill of the check is the one whose slippage the ticket shows
      rintro ⟨fill', hfill', hover⟩
      obtain rfl := Option.some.inj hfill'
      obtain ⟨limit, hlimit, hover⟩ := bind_eq_ok hover
      exact ⟨rfl, limit, hlimit, hover⟩
    · rintro ⟨-, limit, hlimit, hover⟩
      refine ⟨fill, rfl, ?_⟩
      rw [isOverLimit, hlimit]
      exact hover

/-- What the warnings of a ticket say. -/
structure Tells (order : Order) (risk : RiskSettings) (ticket : Ticket) : Prop where
  /-- The warnings come in the order of the steps, none of them twice. -/
  inOrder : (codes ticket.warnings).Sublist stepCodes
  /-- The leverage is not the wanted one. -/
  leverageClamped : .leverageClamped ∈ codes ticket.warnings ↔
    ticket.leverage ≠ wantedLeverage order risk
  /-- The limit price of a limit order has another value than the typed one. -/
  priceAdjusted : .priceAdjusted ∈ codes ticket.warnings ↔ order.type = .limit ∧
    ∃ typed price, order.limitPrice = some typed ∧ ticket.limitPrice = some price ∧
      price.value ≠ typed.value
  /-- The limit price and the typed one are finite numbers. -/
  prices_isFinite : order.type = .limit → ∃ typed price, order.limitPrice = some typed ∧
    ticket.limitPrice = some price ∧ typed.isFinite = true ∧ price.isFinite = true
  /-- The slippage of a market order is above the bound, which is given in hundredths of a
  percent. -/
  highSlippage : .highSlippage ∈ codes ticket.warnings ↔ order.type = .market ∧
    ∃ limit, risk.maxSlippageBps.div 100 = .ok limit ∧ limit.lt ticket.slippagePercent = .ok true
  /-- The book ends before the order has enough. -/
  partialLiquidity : .partialLiquidity ∈ codes ticket.warnings ↔ ticket.bookExhausted = true
  /-- The quantity has another value than the one in units of the asset that was asked for. -/
  quantityAdjusted : .quantityAdjusted ∈ codes ticket.warnings ↔ order.size.unit = .base ∧
    ticket.baseSize.value ≠ order.size.amount.value
  /-- The quantity and the one that was asked for are finite numbers. -/
  sizes_isFinite : ticket.baseSize.isFinite = true ∧
    (order.size.unit = .base → order.size.amount.isFinite = true)
  /-- The ticket says that the slippage is bad if it warns of the slippage or of the book. -/
  slippageWarning : ticket.slippageWarning = true ↔
    .highSlippage ∈ codes ticket.warnings ∨ .partialLiquidity ∈ codes ticket.warnings
  /-- The ticket says that the slippage is more than bad if it warns of slippage and book. -/
  maxSlippageExceeded : ticket.maxSlippageExceeded = true ↔
    .highSlippage ∈ codes ticket.warnings ∧ .partialLiquidity ∈ codes ticket.warnings

/-- The warnings of every ticket say what happened to its order. -/
theorem Steps.tells (steps : Steps order book rules risk balance markPrice ticket) :
    Tells order risk ticket := by
  have hreports := steps.reports
  have hshown := steps.shown
  -- No code belongs to two steps, so a code among the warnings says that its own step gave it.
  have hnodup : stepCodes.Nodup := by decide
  have hleverage := hreports.mem_iff hnodup (.head _)
  have hprice := hreports.mem_iff hnodup (.tail _ (.head _))
  have hhigh := steps.warns_high_iff
  have hthin := hreports.mem_iff hnodup (.tail _ (.tail _ (.tail _ (.head _))))
  have hquantity := hreports.mem_iff hnodup (.tail _ (.tail _ (.tail _ (.tail _ (.head _)))))
  rw [← hshown.bookExhausted] at hthin
  exact {
    inOrder := hreports.codes_sublist
    leverageClamped := by rw [hleverage, hshown.leverage, steps.leverage_eq]
    priceAdjusted := hprice.trans steps.price_moved_iff
    prices_isFinite := fun htype => by
      obtain ⟨typed, htyped, hmade, hlimit, -⟩ := steps.of_limit htype
      have hmoved := TradingRules.isMoved_of_price hmade
      exact ⟨typed, steps.price, htyped, hshown.limitPrice.trans hlimit, hmoved.raw_isFinite,
        hmoved.isFinite⟩
    highSlippage := hhigh.trans steps.overLimit_iff
    partialLiquidity := hthin
    quantityAdjusted := hquantity.trans steps.quantity_cut_iff
    sizes_isFinite := by
      have hmoved := TradingRules.isMoved_of_quantity steps.baseSize_eq
      rw [hshown.baseSize]
      exact ⟨hmoved.isFinite, fun hunit => (steps.raw_of_base hunit).symm ▸ hmoved.raw_isFinite⟩
    slippageWarning := by rw [hshown.slippageWarning, Bool.or_eq_true, hhigh, hthin]
    maxSlippageExceeded := by
      rw [hshown.maxSlippageExceeded, Bool.and_eq_true, hhigh, hthin, and_comm] }

/-- What the warnings of every outcome say. -/
theorem tells_of_prepare {outcome : Outcome}
    (h : prepare order book rules risk balance markPrice = .ok (outcome, event)) :
    (∀ ticket, outcome = .ready ticket → Tells order risk ticket) ∧
      ∀ rejections warnings, outcome = .refused rejections warnings →
        outcome.ticket? = none ∧ rejections ≠ [] ∧ (codes warnings).Sublist stepCodes := by
  obtain ⟨hassemble, -⟩ := prepare_eq_ok h
  constructor
  · rintro ticket rfl
    obtain ⟨steps⟩ := exists_steps hassemble
    exact steps.tells
  · rintro rejections warnings rfl
    obtain ⟨hinOrder, hreasons⟩ := assemble_explained hassemble
    exact ⟨rfl, hreasons rfl, hinOrder⟩

end

/-! ## A limit order with two warnings -/

/-- A limit order off the grid with too high a leverage is warned of both, and of nothing else. -/
theorem tells_sample_limit : ∃ ticket event,
    prepare Sample.order Sample.book Sample.rules {} none none = .ok (.ready ticket, event) ∧
      Tells Sample.order {} ticket ∧ .leverageClamped ∈ codes ticket.warnings ∧
      .priceAdjusted ∈ codes ticket.warnings ∧ .quantityAdjusted ∉ codes ticket.warnings := by
  obtain ⟨ticket, event, hrun, hcheck⟩ := exists_ready
    (r := prepare Sample.order Sample.book Sample.rules {} none none)
    (c := fun ticket => decide (ticket.leverage = 20 ∧ ticket.limitPrice = some 63990.0))
    (by decide +kernel)
  obtain ⟨hleverage, hlimit⟩ := of_decide_eq_true hcheck
  have htells := (tells_of_prepare hrun).1 ticket rfl
  refine ⟨ticket, event, hrun, htells, htells.leverageClamped.2 ?_, htells.priceAdjusted.2 ?_,
    fun hmem => ?_⟩
  · rw [hleverage]
    decide
  · refine ⟨rfl, _, _, rfl, hlimit, fun heq => ?_⟩
    -- the typed price has a digit more
    have htyped : (63990.07 : Decimal).value = 6399007 * 10 ^ (-2 : ℤ) := rfl
    have hmoved : (63990.0 : Decimal).value = 639900 * 10 ^ (-1 : ℤ) := rfl
    rw [htyped, hmoved] at heq
    norm_num at heq
  · cases (htells.quantityAdjusted.1 hmem).1

end OrderTicket.Ticket
