import OrderTicket.Proofs.Run
import OrderTicket.Rules.Metadata

/-!
# Metadata that cannot be used

Reading the rules of a market fails only because of what the metadata says: a number that is none, a
field that is missing, a value of the wrong kind, a step that is not positive.

* `Failure.OfMetadata`: these failures.
* `TradingRules.ofFilters_failsOnly`, `TradingRules.ofUnified_failsOnly`: there are no others.
-/

namespace OrderTicket

/-- Failures that lie in metadata. -/
def Failure.OfMetadata : Failure → Prop
  | arithmetic _ => True
  | missingField _ => True
  | notRecord => True
  | unusable => True
  | stepNotPositive .. => True
  | noLotRules _ => True
  | _ => False

open Failure

/-! ## Access -/

namespace Payload

/-- Reading the entries of a table fails only as metadata may. -/
theorem entries_failsOnly (x : Payload) : FailsOnly x.entries OfMetadata := by
  cases x with
  | object => exact .ok
  | _ => exact .error trivial

theorem field?_failsOnly (x : Payload) (name : String) : FailsOnly (x.field? name) OfMetadata :=
  .map x.entries_failsOnly

theorem field_failsOnly (x : Payload) (name : String) : FailsOnly (x.field name) OfMetadata := by
  cases x with
  | object fields =>
    rw [field]
    split
    · exact .ok
    · exact .error trivial
  | _ => exact .error trivial

theorem items_failsOnly (x : Payload) : FailsOnly x.items OfMetadata := by
  cases x with
  | list => exact .ok
  | text => exact .ok
  | object => exact .ok
  | _ => exact .error trivial

theorem has_failsOnly (x : Payload) (name : String) : FailsOnly (x.has name) OfMetadata := by
  cases x with
  | list => exact .ok
  | text => exact .ok
  | object => exact .ok
  | _ => exact .error trivial

end Payload

theorem lift_failsOnly {α : Type} (x : Except Decimal.Fault α) :
    FailsOnly (liftM x : Except Failure α) OfMetadata :=
  .lift fun _ _ => trivial

/-! ## Rules -/

namespace RuleFields

theorem positive_failsOnly (symbol : MarketId) (what : String) (x : Decimal) :
    FailsOnly (positive symbol what x) OfMetadata := by
  unfold positive
  split
  · exact .ok
  · exact .error trivial
  · exact .error trivial

theorem positiveIfGiven_failsOnly (symbol : MarketId) (what : String) (x : Option Decimal) :
    FailsOnly (positiveIfGiven symbol what x) OfMetadata := by
  cases x with
  | none => exact .ok
  | some step => exact .map (positive_failsOnly symbol what step)

/-- The checks of the fields of a rule set fail only as metadata may. -/
theorem check_failsOnly (fields : RuleFields) : FailsOnly fields.check OfMetadata :=
  .bind (positive_failsOnly _ _ _) fun _ _ => .bind (positive_failsOnly _ _ _) fun _ _ =>
    .bind (positiveIfGiven_failsOnly _ _ _) fun _ _ => .ok

end RuleFields

namespace TradingRules

theorem amount_failsOnly (x : Option Payload) : FailsOnly (amount x) OfMetadata := by
  unfold amount
  split
  · exact .ok
  · exact .ok
  · exact lift_failsOnly _

theorem bound?_failsOnly (x : Option Payload) : FailsOnly (bound? x) OfMetadata :=
  .bind (amount_failsOnly x) fun _ _ => .bind (lift_failsOnly _) fun _ _ => .ok

section Field

variable {β : Type} (x : Payload) (name : String)

/-- An amount in a field, and what is done with it. -/
theorem bind_amount {next : Decimal → Except Failure β}
    (h : ∀ amount, FailsOnly (next amount) OfMetadata) :
    FailsOnly (do next (← amount (← x.field? name))) OfMetadata :=
  .bind (x.field?_failsOnly name) fun _ _ => .bind (amount_failsOnly _) fun amount _ => h amount

/-- An amount in a field that must be there, and what is done with it. -/
theorem bind_required {next : Decimal → Except Failure β}
    (h : ∀ amount, FailsOnly (next amount) OfMetadata) :
    FailsOnly (do next (← amount (some (← x.field name)))) OfMetadata :=
  .bind (x.field_failsOnly name) fun _ _ => .bind (amount_failsOnly _) fun amount _ => h amount

/-- A bound in a field, and what is done with it. -/
theorem bind_bound {next : Option Decimal → Except Failure β}
    (h : ∀ bound, FailsOnly (next bound) OfMetadata) :
    FailsOnly (do next (← bound? (← x.field? name))) OfMetadata :=
  .bind (x.field?_failsOnly name) fun _ _ => .bind (bound?_failsOnly _) fun bound _ => h bound

end Field

theorem filtersByType_failsOnly (filters : List Payload) :
    FailsOnly (filtersByType filters) OfMetadata :=
  .mapM fun filter _ => .bind (filter.field_failsOnly _) fun _ _ =>
    .ite (fun _ => .ok) fun _ => .error trivial

theorem notionalBounds_failsOnly (filters : List (Payload × Payload)) :
    FailsOnly (notionalBounds filters) OfMetadata := by
  unfold notionalBounds
  dsimp only
  -- whatever the older filter says, the newer one is read in the same way
  split
  · split
    · exact .ok
    · exact bind_amount _ _ fun _ => bind_bound _ _ fun _ => .ok
  · refine .bind (Payload.field?_failsOnly _ _) fun _ _ =>
      .bind (Payload.field?_failsOnly _ _) fun _ _ => .bind (amount_failsOnly _) fun older _ => ?_
    split
    · exact .ok
    · exact bind_amount _ _ fun _ => bind_bound _ _ fun _ => .ok

theorem bands_failsOnly (filters : List (Payload × Payload)) (defaultBand : Decimal) :
    FailsOnly (bands filters defaultBand) OfMetadata := by
  unfold bands
  split
  · exact .ok
  · exact bind_required _ _ fun _ => .bind (lift_failsOnly _) fun _ _ =>
      bind_required _ _ fun _ => .bind (lift_failsOnly _) fun _ _ => .ok

theorem marketLot_failsOnly (filters : List (Payload × Payload)) :
    FailsOnly (marketLot filters) OfMetadata := by
  unfold marketLot
  split
  · exact .ok
  · exact bind_bound _ _ fun _ => bind_amount _ _ fun _ => bind_bound _ _ fun _ => .ok

/-- Rules from filters fail only because of the metadata. -/
theorem ofFilters_failsOnly (info : Payload) (defaultBand : Decimal) :
    FailsOnly (ofFilters info defaultBand) OfMetadata := by
  unfold ofFilters
  refine .bind (info.field_failsOnly _) fun _ _ => .bind (info.field?_failsOnly _) fun _ _ =>
    .bind (Payload.items_failsOnly _) fun _ _ =>
    .bind (filtersByType_failsOnly _) fun filters _ => ?_
  split
  · exact .bind (notionalBounds_failsOnly _) fun _ _ => .bind (bands_failsOnly _ _) fun _ _ =>
      .bind (marketLot_failsOnly _) fun _ _ =>
      bind_required _ _ fun _ => bind_required _ _ fun _ =>
      bind_amount _ _ fun _ => bind_bound _ _ fun _ =>
      bind_amount _ _ fun _ => bind_bound _ _ fun _ => RuleFields.check_failsOnly _
  · exact .error trivial

theorem inner_failsOnly (x : Payload) (name : String) : FailsOnly (inner x name) OfMetadata := by
  refine .bind (x.field?_failsOnly name) fun value _ => ?_
  cases value <;> exact .ok

/-- Rules from limits and precisions fail only because of the metadata. -/
theorem ofUnified_failsOnly (market : Payload) (defaultBand : Decimal) :
    FailsOnly (ofUnified market defaultBand) OfMetadata :=
  .bind (market.field?_failsOnly _) fun _ _ => .bind (market.field?_failsOnly _) fun _ _ =>
    .bind (inner_failsOnly _ _) fun _ _ => .bind (inner_failsOnly _ _) fun _ _ =>
    .bind (inner_failsOnly _ _) fun _ _ => .bind (market.field_failsOnly _) fun _ _ =>
    bind_amount _ _ fun _ => bind_amount _ _ fun _ =>
    bind_amount _ _ fun _ => bind_bound _ _ fun _ =>
    bind_amount _ _ fun _ => bind_bound _ _ fun _ =>
    bind_amount _ _ fun _ => bind_bound _ _ fun _ => RuleFields.check_failsOnly _

end TradingRules

end OrderTicket
