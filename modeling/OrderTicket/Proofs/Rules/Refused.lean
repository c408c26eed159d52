import OrderTicket.Proofs.Rules.Grid

/-!
# How a number comes to be refused

A market refuses a quantity or a price after it was moved to the grid. From the refusal one goes
back to the comparison that led to it, and to the steps in which the suggested number was computed.

* `Failure.OfNumbers`: failures of the arithmetic, which refuse nothing.
* `bind_eq_rejected`: a step that refuses nothing is not the one that led to a refusal.
* `Suggests`: a refusal for a single reason, with a suggested number.
* `TradingRules.quantity_eq_rejected`, `TradingRules.price_eq_rejected`: the steps to a refusal.
-/

namespace OrderTicket

open Decimal

/-! ## Steps that refuse nothing -/

/-- The failure lies in the numbers: an operation failed, or a step has no count of decimals. -/
def Failure.OfNumbers : Failure → Prop
  | arithmetic _ => True
  | noDecimalPlaces _ => True
  | _ => False

section

variable {value step : Decimal}

/-- A decimal operation fails only by a fault. -/
theorem FailsOnly.liftM_ofNumbers {α : Type} (x : Except Fault α) :
    FailsOnly (liftM x : Except Failure α) Failure.OfNumbers :=
  .lift fun _ _ => trivial

/-- Writing a number with the decimals of a step fails only as numbers do. -/
theorem Step.write_failsOnly : FailsOnly (Step.write value step) Failure.OfNumbers := by
  refine .bind (.bind (.liftM_ofNumbers _) fun x _ => ?_) fun _ _ => .liftM_ofNumbers _
  cases x with
  | finite => exact .ok
  | infinity => exact .error trivial
  | nan => exact .error trivial

theorem TradingRules.floorWritten_failsOnly :
    FailsOnly (TradingRules.floorWritten value step) Failure.OfNumbers :=
  .bind (.liftM_ofNumbers _) fun _ _ => Step.write_failsOnly

theorem TradingRules.ceilWritten_failsOnly :
    FailsOnly (TradingRules.ceilWritten value step) Failure.OfNumbers :=
  .bind (.liftM_ofNumbers _) fun _ _ => Step.write_failsOnly

end

section

variable {rejections : List Rejection}

/-- A refusal comes from what follows a step that refuses nothing. -/
theorem bind_eq_rejected {α β : Type} {x : Except Failure α} {next : α → Except Failure β}
    (hx : FailsOnly x Failure.OfNumbers) (h : x >>= next = .error (.rejected rejections)) :
    ∃ a, x = .ok a ∧ next a = .error (.rejected rejections) := by
  cases x with
  | error failure =>
    obtain rfl : failure = .rejected rejections := Except.error.inj h
    exact (hx _ rfl).elim
  | ok a => exact ⟨a, rfl, h⟩

/-- A decimal operation does not refuse anything, so a refusal comes from what follows it. -/
theorem liftM_bind_eq_rejected {α β : Type} {x : Except Fault α} {next : α → Except Failure β}
    (h : (liftM x : Except Failure α) >>= next = .error (.rejected rejections)) :
    ∃ a, x = .ok a ∧ next a = .error (.rejected rejections) := by
  obtain ⟨a, ha, h⟩ := bind_eq_rejected (.liftM_ofNumbers x) h
  exact ⟨a, liftM_eq_ok ha, h⟩

/-- A check led to the refusal, or it was passed. -/
theorem ite_reject_eq_rejected {check : Except Fault Bool} {refuse go : Except Failure Decimal}
    (h : ((liftM check : Except Failure Bool) >>= fun b => if b = true then refuse else go) =
      .error (.rejected rejections)) :
    (check = .ok true ∧ refuse = .error (.rejected rejections)) ∨
      (check = .ok false ∧ go = .error (.rejected rejections)) := by
  obtain ⟨b, hb, h⟩ := liftM_bind_eq_rejected h
  cases b with
  | true => exact .inl ⟨hb, h⟩
  | false => exact .inr ⟨hb, h⟩

/-- The refusal has a single reason, and suggests a number. -/
def Suggests (rejections : List Rejection) (code : Rejection.Code) (v : Decimal) : Prop :=
  ∃ message, rejections = [⟨code, message, some v⟩]

/-- Rejections suggest one number, for one reason. -/
theorem Suggests.unique {code code' : Rejection.Code} {v v' : Decimal}
    (h : Suggests rejections code v) (h' : Suggests rejections code' v') :
    code = code' ∧ v = v' := by
  obtain ⟨message, rfl⟩ := h
  obtain ⟨message', h'⟩ := h'
  simp only [List.cons.injEq, Rejection.mk.injEq, Option.some.injEq] at h'
  exact ⟨h'.1.1, h'.1.2.2⟩

/-- A refusal suggests the number that it names. -/
theorem suggests_of_reject {α : Type} {code : Rejection.Code} {message : String} {v : Decimal}
    (h : (TradingRules.reject code message v : Except Failure α) = .error (.rejected rejections)) :
    Suggests rejections code v :=
  ⟨message, (Failure.rejected.inj (Except.error.inj h)).symm⟩

end

/-! ## Refusals of quantities and prices -/

namespace TradingRules

section

variable {rules : TradingRules} {market : Bool} {side : Option Side} {lot : Lot}
  {raw rounded bound : Decimal} {rejections : List Rejection}

/-- A quantity that is too large is sent to the largest one, rounded downward. -/
theorem rejectAbove_eq_rejected
    (h : rules.rejectAbove lot raw bound = .error (.rejected rejections)) :
    ∃ v, Suggests rejections .aboveMaxQuantity v ∧ floorWritten bound lot.step = .ok v := by
  obtain ⟨v, hv, h⟩ := bind_eq_rejected floorWritten_failsOnly h
  exact ⟨v, suggests_of_reject h, hv⟩

/-- A quantity that is too small is sent to the least one, rounded upward. -/
theorem rejectBelow_eq_rejected
    (h : rules.rejectBelow lot raw rounded = .error (.rejected rejections)) :
    ∃ least v, Suggests rejections .belowMinQuantity v ∧
      Decimal.max lot.min lot.step = .ok least ∧ ceilWritten least lot.step = .ok v := by
  obtain ⟨least, hleast, h⟩ := liftM_bind_eq_rejected h
  obtain ⟨v, hv, h⟩ := bind_eq_rejected ceilWritten_failsOnly h
  obtain ⟨_, -, h⟩ := liftM_bind_eq_rejected h
  exact ⟨least, v, suggests_of_reject h, hleast, hv⟩

/-- A price that is too low is sent to the least one with the decimals of the tick. -/
theorem rejectLowPrice_eq_rejected
    (h : rules.rejectLowPrice raw = .error (.rejected rejections)) :
    ∃ least v, Suggests rejections .priceOutOfRange v ∧
      Decimal.max rules.minPrice rules.tick = .ok least ∧ Step.write least rules.tick = .ok v := by
  obtain ⟨least, hleast, h⟩ := liftM_bind_eq_rejected h
  obtain ⟨v, hv, h⟩ := bind_eq_rejected Step.write_failsOnly h
  exact ⟨least, v, suggests_of_reject h, hleast, hv⟩

/-- A price that is too high is sent to the largest one, rounded downward. -/
theorem rejectHighPrice_eq_rejected
    (h : rules.rejectHighPrice raw bound = .error (.rejected rejections)) :
    ∃ v, Suggests rejections .priceOutOfRange v ∧ floorWritten bound rules.tick = .ok v := by
  obtain ⟨v, hv, h⟩ := bind_eq_rejected floorWritten_failsOnly h
  exact ⟨v, suggests_of_reject h, hv⟩

/-- A quantity that was cut and is refused was too small, and is sent to the least one. -/
theorem writtenQuantity_eq_rejected {floored : Decimal}
    (h : rules.writtenQuantity lot raw floored = .error (.rejected rejections)) :
    ∃ rounded least v, Suggests rejections .belowMinQuantity v ∧
      Step.write floored lot.step = .ok rounded ∧ fallsShort rounded lot.min = .ok true ∧
      Decimal.max lot.min lot.step = .ok least ∧ ceilWritten least lot.step = .ok v := by
  obtain ⟨rounded, hwrite, h⟩ := bind_eq_rejected Step.write_failsOnly h
  obtain ⟨hshort, h⟩ | ⟨-, h⟩ := ite_reject_eq_rejected h
  · obtain ⟨least, v, hsuggests, hsteps⟩ := rejectBelow_eq_rejected h
    exact ⟨rounded, least, v, hsuggests, hwrite, hshort, hsteps⟩
  · cases h

/-- A quantity is refused because it exceeds the largest quantity before it is written, or because
it falls short of the least one afterward. -/
theorem quantity_eq_rejected (h : rules.quantity market raw = .error (.rejected rejections)) :
    ∃ floored v, Step.floor raw (rules.lot market).step = .ok floored ∧
      ((Suggests rejections .aboveMaxQuantity v ∧ ∃ bound, (rules.lot market).max = some bound ∧
          bound.lt floored = .ok true ∧ floorWritten bound (rules.lot market).step = .ok v) ∨
        (Suggests rejections .belowMinQuantity v ∧ ∃ rounded least,
          Step.write floored (rules.lot market).step = .ok rounded ∧
          fallsShort rounded (rules.lot market).min = .ok true ∧
          Decimal.max (rules.lot market).min (rules.lot market).step = .ok least ∧
          ceilWritten least (rules.lot market).step = .ok v)) := by
  obtain ⟨floored, hfloor, h⟩ := liftM_bind_eq_rejected h
  cases hmax : (rules.lot market).max with
  | none =>
    rw [hmax] at h
    obtain ⟨rounded, least, v, hsuggests, hsteps⟩ := writtenQuantity_eq_rejected h
    exact ⟨floored, v, hfloor, .inr ⟨hsuggests, rounded, least, hsteps⟩⟩
  | some bound =>
    rw [hmax] at h
    obtain ⟨hlt, h⟩ | ⟨-, h⟩ := ite_reject_eq_rejected h
    · obtain ⟨v, hsuggests, hv⟩ := rejectAbove_eq_rejected h
      exact ⟨floored, v, hfloor, .inl ⟨hsuggests, bound, rfl, hlt, hv⟩⟩
    · obtain ⟨rounded, least, v, hsuggests, hsteps⟩ := writtenQuantity_eq_rejected h
      exact ⟨floored, v, hfloor, .inr ⟨hsuggests, rounded, least, hsteps⟩⟩

/-- A price is refused because it falls short of the least price, or because it exceeds the largest
one, after it was moved to the tick. -/
theorem price_eq_rejected (h : rules.price side raw = .error (.rejected rejections)) :
    ∃ rounded v,
      (if side = some .sell then ceilWritten raw rules.tick else floorWritten raw rules.tick) =
        .ok rounded ∧ Suggests rejections .priceOutOfRange v ∧
      ((fallsShort rounded rules.minPrice = .ok true ∧ ∃ least,
          Decimal.max rules.minPrice rules.tick = .ok least ∧
          Step.write least rules.tick = .ok v) ∨
        (fallsShort rounded rules.minPrice = .ok false ∧ ∃ bound, rules.maxPrice = some bound ∧
          bound.lt rounded = .ok true ∧ floorWritten bound rules.tick = .ok v)) := by
  rw [price_eq] at h
  -- moving to the tick refuses nothing, so the refusal is one of the two checks behind it
  have hround : FailsOnly
      (if side = some .sell then ceilWritten raw rules.tick else floorWritten raw rules.tick)
      Failure.OfNumbers := .ite (fun _ => ceilWritten_failsOnly) fun _ => floorWritten_failsOnly
  obtain ⟨rounded, hrounded, h⟩ := bind_eq_rejected hround h
  obtain ⟨hshort, h⟩ | ⟨hshort, h⟩ := ite_reject_eq_rejected h
  · obtain ⟨least, v, hsuggests, hsteps⟩ := rejectLowPrice_eq_rejected h
    exact ⟨rounded, v, hrounded, hsuggests, .inl ⟨hshort, least, hsteps⟩⟩
  · cases hmax : rules.maxPrice with
    | none =>
      rw [hmax] at h
      cases h
    | some bound =>
      rw [hmax] at h
      obtain ⟨hlt, h⟩ | ⟨-, h⟩ := ite_reject_eq_rejected h
      · obtain ⟨v, hsuggests, hv⟩ := rejectHighPrice_eq_rejected h
        exact ⟨rounded, v, hrounded, hsuggests, .inr ⟨hshort, bound, rfl, hlt, hv⟩⟩
      · cases h

end

end TradingRules

end OrderTicket
