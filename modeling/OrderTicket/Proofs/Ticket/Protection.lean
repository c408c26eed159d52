import OrderTicket.Proofs.Book.Sides
import OrderTicket.Proofs.Command.Sound
import OrderTicket.Proofs.Rules.Price
import OrderTicket.Proofs.Ticket.Legal

/-!
# Where protections trigger

The trigger of a protection is computed from the entry with rounding and then moved to the tick like
the order that closes the position. For profit targets that is away from the entry, for stops it is
toward the entry. So a trigger never lies beyond the entry, and that of a target lies on its side of
it unless the distance is too small for the precision. But a stop that is to lie less than a tick
away is moved to the entry itself.

* `Ticket.direction`, `Ticket.away`: how far a trigger lies on its side of the entry.
* `Ticket.Placed`: where a trigger lies.
* `Ticket.trigger_budget`: how much the computation of a trigger is rounded.
* `Ticket.closing_bounds`: how far a price is moved for the closing order.
* `Ticket.protects_of_read`: where the triggers of a ticket lie.
-/

namespace OrderTicket

open Decimal

namespace Ticket

/-- The direction from the entry in which a protection lies: stops of buys and targets of sells lie
below, the others above. -/
def direction (side : Side) (isStop : Bool) : ℚ :=
  if isStop then -side.sign else side.sign

/-- How far a trigger lies on its side of the entry. -/
def away (side : Side) (isStop : Bool) (entry trigger : ℚ) : ℚ :=
  direction side isStop * (trigger - entry)

/-- How far a trigger is to lie away from the entry. -/
def distance (entry percent : ℚ) : ℚ :=
  entry * (percent / 100)

/-- A bound of all rounding errors on the way to a trigger. -/
def slack (entry percent : ℚ) : ℚ :=
  entry * (1 + percent / 100) / 10 ^ 26 + 1 / 10 ^ 99

/-- No step on the way to the trigger has to round. -/
structure NoRounding (side : Side) (isStop : Bool) (entry percent : ℚ) : Prop where
  /-- The percentage as a fraction can be held. -/
  fraction : Representable (percent / 100)
  /-- The factor of the entry can be held. -/
  factor : Representable (1 + direction side isStop * (percent / 100))
  /-- The product of the entry and its factor can be held. -/
  raw : Representable (entry * (1 + direction side isStop * (percent / 100)))

/-- Where the trigger of a protection lies. -/
structure Placed (side : Side) (isStop : Bool) (tick entry percent trigger : ℚ) : Prop where
  /-- It does not lie beyond the entry. -/
  nonneg : 0 ≤ away side isStop entry trigger
  /-- It is a number of ticks away. -/
  multiple : ∃ n : ℕ, away side isStop entry trigger = n * tick
  /-- A target lies less than a tick farther away than asked for. -/
  target : isStop = false → distance entry percent - slack entry percent ≤
      away side isStop entry trigger ∧
    away side isStop entry trigger < distance entry percent + tick + slack entry percent
  /-- A target lies on its side of the entry. -/
  target_pos : isStop = false → slack entry percent < distance entry percent →
    0 < away side isStop entry trigger
  /-- A stop lies less than a tick closer than asked for. -/
  stop : isStop = true → distance entry percent - tick - slack entry percent <
      away side isStop entry trigger ∧
    away side isStop entry trigger ≤ distance entry percent + slack entry percent
  /-- A stop lies on its side of the entry if it is to lie at least a tick away. -/
  stop_pos : isStop = true → (tick + slack entry percent ≤ distance entry percent ∨
      NoRounding side isStop entry percent ∧ tick ≤ distance entry percent) →
    0 < away side isStop entry trigger
  /-- A stop that is to lie less than a tick away is the entry itself. -/
  stop_eq : isStop = true → distance entry percent + slack entry percent < tick → trigger = entry

/-- The direction of a protection, by the same condition as its factor. -/
theorem direction_eq (side : Side) (isStop : Bool) :
    direction side isStop = if isStop = decide (side = .buy) then -1 else 1 := by
  cases side <;> cases isStop <;> simp [direction, Side.sign]

/-- A protection lies on one of two sides of the entry. -/
theorem direction_cases (side : Side) (isStop : Bool) :
    direction side isStop = 1 ∨ direction side isStop = -1 := by
  rw [direction_eq]
  split_ifs
  · exact .inr rfl
  · exact .inl rfl

theorem abs_direction (side : Side) (isStop : Bool) : |direction side isStop| = 1 := by
  rcases direction_cases side isStop with h | h <;> simp [h]

/-- How far a stop lies on its side of the entry. -/
theorem away_stop (side : Side) (entry trigger : ℚ) :
    away side true entry trigger = side.sign * entry - side.sign * trigger := by
  rw [away, direction, if_pos rfl]
  ring

/-- How far a profit target lies on its side of the entry. -/
theorem away_target (side : Side) (entry trigger : ℚ) :
    away side false entry trigger = side.sign * trigger - side.sign * entry := by
  rw [away, direction, if_neg (by decide)]
  ring

/-- The distance of a trigger does not depend on the side that it belongs on. -/
theorem abs_away (side : Side) (isStop : Bool) (entry trigger : ℚ) :
    |away side isStop entry trigger| = |trigger - entry| := by
  rw [away, abs_mul, abs_direction, one_mul]

/-! ## Before the trigger is moved -/

section Raw

variable {σ x E : ℚ} {fraction factor raw : Decimal}

/-- Relative to one more than the fraction, the factor is a few units of the last digit off. -/
theorem factor_bounds (hσ : |σ| = 1) (hx : 0 ≤ x) (hf : Rounded x fraction)
    (hg : Rounded (1 + σ * fraction.value) factor) :
    |factor.value - (1 + σ * x)| ≤ (1 + x) * (3 / 10 ^ 27) ∧ |factor.value| ≤ (1 + x) * 2 := by
  have hferr := hf.abs_sub_le
  have hgerr := hg.abs_sub_le
  rw [abs_of_nonneg hx] at hferr
  have hfabs : |fraction.value| ≤ x + |fraction.value - x| := by
    have := abs_add_le x (fraction.value - x)
    rwa [add_sub_cancel, abs_of_nonneg hx] at this
  have hgabs : |1 + σ * fraction.value| ≤ 1 + |fraction.value| := by
    have := abs_add_le 1 (σ * fraction.value)
    rwa [abs_mul, hσ, one_mul, abs_one] at this
  -- both steps contribute about one and a half units
  have hfraction : |fraction.value - x| ≤ (1 + x) * (3 / 2 / 10 ^ 27) := by
    norm_num at hferr ⊢
    linarith
  have hround : |factor.value - (1 + σ * fraction.value)| ≤ (1 + x) * (3 / 2 / 10 ^ 27) := by
    norm_num at hgerr hfraction ⊢
    linarith
  constructor
  · have hsplit : factor.value - (1 + σ * x) =
        (factor.value - (1 + σ * fraction.value)) + σ * (fraction.value - x) := by ring
    calc |factor.value - (1 + σ * x)|
        ≤ |factor.value - (1 + σ * fraction.value)| + |σ * (fraction.value - x)| := by
          rw [hsplit]
          exact abs_add_le _ _
      _ ≤ (1 + x) * (3 / 2 / 10 ^ 27) + (1 + x) * (3 / 2 / 10 ^ 27) := by
          rw [abs_mul, hσ, one_mul]
          exact add_le_add hround hfraction
      _ = (1 + x) * (3 / 10 ^ 27) := by ring
  · have hfactor := abs_add_le (1 + σ * fraction.value)
      (factor.value - (1 + σ * fraction.value))
    rw [add_sub_cancel] at hfactor
    norm_num at hround hfraction
    linarith

/-- The three steps to the trigger keep close to the exact value. -/
theorem abs_trigger_sub_le (hσ : |σ| = 1) (hx : 0 ≤ x) (hE : 0 ≤ E) (hf : Rounded x fraction)
    (hg : Rounded (1 + σ * fraction.value) factor) (hr : Rounded (E * factor.value) raw) :
    |raw.value - E * (1 + σ * x)| ≤ E * (1 + x) * (5 / 10 ^ 27) + 1 / 10 ^ 100 := by
  obtain ⟨hclose, hlarge⟩ := factor_bounds hσ hx hf hg
  have hrerr := hr.abs_sub_le
  rw [abs_mul, abs_of_nonneg hE, mul_div_assoc] at hrerr
  have hsplit : raw.value - E * (1 + σ * x) =
      (raw.value - E * factor.value) + E * (factor.value - (1 + σ * x)) := by ring
  calc |raw.value - E * (1 + σ * x)|
      ≤ |raw.value - E * factor.value| + |E * (factor.value - (1 + σ * x))| := by
        rw [hsplit]
        exact abs_add_le _ _
    _ ≤ (E * (|factor.value| / 10 ^ 27) + 1 / 10 ^ 100) + E * ((1 + x) * (3 / 10 ^ 27)) := by
        rw [abs_mul, abs_of_nonneg hE]
        exact add_le_add hrerr (mul_le_mul_of_nonneg_left hclose hE)
    _ ≤ (E * ((1 + x) * 2 / 10 ^ 27) + 1 / 10 ^ 100) + E * ((1 + x) * (3 / 10 ^ 27)) := by
        gcongr
    _ = E * (1 + x) * (5 / 10 ^ 27) + 1 / 10 ^ 100 := by ring

/-- What is left over of the budget is enough for a rounded quotient of the result. -/
theorem trigger_budget (hσ : σ = 1 ∨ σ = -1) (hx : 0 ≤ x) (hE : 0 ≤ E) (hf : Rounded x fraction)
    (hg : Rounded (1 + σ * fraction.value) factor) (hr : Rounded (E * factor.value) raw) :
    |raw.value - E * (1 + σ * x)| + raw.value / 10 ^ 27 ≤ E * (1 + x) / 10 ^ 26 + 1 / 10 ^ 99 := by
  have hclose := abs_trigger_sub_le (by rcases hσ with rfl | rfl <;> simp) hx hE hf hg hr
  have hraw := (abs_le.1 hclose).2
  have hle : E * (1 + σ * x) ≤ E * (1 + x) := by
    refine mul_le_mul_of_nonneg_left ?_ hE
    rcases hσ with rfl | rfl <;> linarith
  have hlarge : 0 ≤ E * (1 + x) := by positivity
  norm_num at hclose hraw ⊢
  linarith

/-- The trigger does not lie beyond the entry before it is moved. -/
theorem sign_mul_trigger_nonneg (hσ : σ = 1 ∨ σ = -1) (hx : 0 ≤ x) (hE : 0 ≤ E)
    (hentry : Representable E) (hf : Rounded x fraction)
    (hg : Rounded (1 + σ * fraction.value) factor) (hr : Rounded (E * factor.value) raw) :
    0 ≤ σ * (raw.value - E) := by
  have hone : Representable 1 := representable_intCast (m := 1) (by decide)
  have hfraction := hf.le_value representable_zero hx
  rcases hσ with rfl | rfl
  · have hfactor := hg.le_value hone (by linarith)
    have hraw := hr.le_value hentry (le_mul_of_one_le_right hE hfactor)
    linarith
  · have hfactor := hg.value_le hone (by linarith)
    have hraw := hr.value_le hentry (mul_le_of_le_one_right hE hfactor)
    linarith

/-- Steps that need no rounding lead to the exact value. -/
theorem trigger_eq (hx : Representable x) (hfactor : Representable (1 + σ * x))
    (hraw : Representable (E * (1 + σ * x))) (hf : Rounded x fraction)
    (hg : Rounded (1 + σ * fraction.value) factor) (hr : Rounded (E * factor.value) raw) :
    raw.value = E * (1 + σ * x) := by
  rw [hf.eq_of_representable hx] at hg
  rw [hg.eq_of_representable hfactor] at hr
  exact hr.eq_of_representable hraw

end Raw

/-! ## After it is moved -/

section

variable {order : Order} {book : Book} {rules : TradingRules} {risk : RiskSettings}
  {balance markPrice : Option Decimal} {ticket : Ticket} {event : Event} {side : Side}
  {isStop : Bool} {entry percent raw trigger : Decimal}

/-- A price for the order that closes a position is moved in the direction of the position, by less
than a tick. Where it is moved up, the quotient by the tick is rounded first. -/
theorem closing_bounds (htick : rules.tick.InContext)
    (h : rules.price (some side.opposite) raw = .ok trigger) :
    side.sign * raw.value - raw.value / 10 ^ 27 ≤ side.sign * trigger.value ∧
      side.sign * trigger.value < side.sign * raw.value + rules.tick.value := by
  cases side with
  | buy =>
    have hle := TradingRules.sub_le_of_price_sell htick h
    have hlt := TradingRules.sub_lt_of_price_sell htick h
    simp only [Side.sign]
    constructor <;> linarith
  | sell =>
    obtain ⟨-, k, hwritten, hdown, -⟩ := TradingRules.price_isWritten htick h
    obtain ⟨hlow, hhigh⟩ := hdown (by decide)
    rw [add_one_mul, ← hwritten.value_eq] at hhigh
    rw [← hwritten.value_eq] at hlow
    have hsmall : 0 ≤ raw.value / 10 ^ 27 :=
      div_nonneg (TradingRules.raw_pos_of_price htick h).le (by positivity)
    simp only [Side.sign]
    constructor <;> linarith

/-- The factor of the entry is rounded once. -/
theorem rounded_factor {fraction factor : Decimal} (hf : fraction.isFinite = true)
    (h : (if isStop = decide (side = .buy) then
        Decimal.sub 1 fraction else Decimal.add 1 fraction) = .ok factor) :
    Rounded (1 + direction side isStop * fraction.value) factor := by
  have hone : (1 : Decimal).value = 1 := value_ofNat 1
  rw [direction_eq]
  split_ifs at h ⊢
  · have hg := (sub_computes rfl hf).rounded h
    rwa [hone, sub_eq_add_neg, ← neg_one_mul] at hg
  · have hg := (add_computes rfl hf).rounded h
    rwa [hone, ← one_mul fraction.value] at hg

/-- The trigger before it is moved to the tick. -/
theorem raw_of_protectivePrice (hentry : entry.isFinite = true) (hpos : 0 ≤ entry.value)
    (hrep : Representable entry.value) (hfin : percent.isFinite = true)
    (hpercent : 0 ≤ percent.value)
    (h : protectivePrice rules side isStop entry percent = .ok trigger) :
    ∃ raw : Decimal, rules.price (some side.opposite) raw = .ok trigger ∧
      0 ≤ away side isStop entry.value raw.value ∧
      |away side isStop entry.value raw.value - distance entry.value percent.value| +
        raw.value / 10 ^ 27 ≤ slack entry.value percent.value ∧
      (NoRounding side isStop entry.value percent.value →
        away side isStop entry.value raw.value = distance entry.value percent.value) := by
  obtain ⟨fraction, factor, raw, hfraction, hfactor, hraw, hprice⟩ := protectivePrice_eq_ok h
  have hhundred : (100 : Decimal).value = 100 := value_ofNat 100
  have hf := (div_computes hfin (y := 100) rfl (by rw [hhundred]; norm_num)).rounded hfraction
  rw [hhundred] at hf
  have hg := rounded_factor hf.isFinite hfactor
  have hr := (mul_computes hentry hg.isFinite).rounded hraw
  have hx : 0 ≤ percent.value / 100 := div_nonneg hpercent (by norm_num)
  have hcases := direction_cases side isStop
  -- the distance is the exact trigger, seen from the entry
  have hdistance : distance entry.value percent.value = direction side isStop *
      (entry.value * (1 + direction side isStop * (percent.value / 100)) - entry.value) := by
    rw [distance]
    rcases hcases with h | h <;> rw [h] <;> ring
  refine ⟨raw, hprice, sign_mul_trigger_nonneg hcases hx hpos hrep hf hg hr, ?_, fun hno => ?_⟩
  · rw [hdistance, away, ← mul_sub, sub_sub_sub_cancel_right, abs_mul, abs_direction, one_mul]
    exact trigger_budget hcases hx hpos hf hg hr
  · rw [hdistance, away, trigger_eq hno.fraction hno.factor hno.raw hf hg hr]

/-- A price that does not lie beyond the entry is not moved beyond it. -/
theorem away_nonneg_of_price (htick : rules.tick.InContext)
    (hentry : ∀ side', rules.price side' entry = .ok entry)
    (hprice : rules.price (some side.opposite) raw = .ok trigger)
    (h : 0 ≤ away side isStop entry.value raw.value) :
    0 ≤ away side isStop entry.value trigger.value := by
  -- prices are moved in order, and the entry is not moved
  unfold away at h ⊢
  rcases direction_cases side isStop with hd | hd <;> rw [hd] at h ⊢
  · linarith [TradingRules.price_mono htick (by linarith) (hentry _) hprice]
  · linarith [TradingRules.price_mono htick (by linarith) hprice (hentry _)]

/-- Prices on the grid are a number of ticks apart. -/
theorem exists_away_eq (htick : rules.tick.InContext) {side₀ side₁ : Option Side}
    {raw₀ raw₁ : Decimal} (hentry : rules.price side₀ raw₀ = .ok entry)
    (htrigger : rules.price side₁ raw₁ = .ok trigger)
    (hnonneg : 0 ≤ away side isStop entry.value trigger.value) :
    ∃ n : ℕ, away side isStop entry.value trigger.value = n * rules.tick.value := by
  obtain ⟨-, k, hwritten, -⟩ := TradingRules.price_isWritten htick hentry
  obtain ⟨-, k', hwritten', -⟩ := TradingRules.price_isWritten htick htrigger
  refine ⟨((k' : ℤ) - k).natAbs, ?_⟩
  rw [← abs_of_nonneg hnonneg, abs_away, hwritten.value_eq, hwritten'.value_eq, ← sub_mul, abs_mul,
    abs_of_pos (TradingRules.tick_value_pos htick), Nat.cast_natAbs]
  push_cast
  rfl

/-- Less than a tick away is no tick away. -/
theorem eq_entry_of_lt_tick {tick E T : ℚ} (htick : 0 < tick)
    (hmultiple : ∃ n : ℕ, away side isStop E T = n * tick) (hlt : away side isStop E T < tick) :
    T = E := by
  obtain ⟨n, hn⟩ := hmultiple
  rw [hn, mul_lt_iff_lt_one_left htick] at hlt
  obtain rfl : n = 0 := Nat.lt_one_iff.1 (by exact_mod_cast hlt)
  have hzero := abs_away side isStop E T
  rw [hn, Nat.cast_zero, zero_mul, abs_zero] at hzero
  exact sub_eq_zero.1 (abs_eq_zero.1 hzero.symm)

/-- A target that lies close to a distance is moved away from the entry by less than a tick. -/
theorem target_bounds {E d ε : ℚ} (htick : rules.tick.InContext)
    (hprice : rules.price (some side.opposite) raw = .ok trigger)
    (hclose : |away side false E raw.value - d| + raw.value / 10 ^ 27 ≤ ε) :
    d - ε ≤ away side false E trigger.value ∧
      away side false E trigger.value < d + rules.tick.value + ε := by
  obtain ⟨hlow, hhigh⟩ := closing_bounds htick hprice
  obtain ⟨hfar, hnear⟩ := abs_le.1 (le_sub_iff_add_le.2 hclose)
  have hdigit : 0 ≤ raw.value / 10 ^ 27 :=
    div_nonneg (TradingRules.raw_pos_of_price htick hprice).le (by positivity)
  rw [away_target] at hfar hnear ⊢
  constructor <;> linarith

/-- A stop is moved toward the entry by less than a tick. -/
theorem stop_bounds {E d ε : ℚ} (htick : rules.tick.InContext)
    (hprice : rules.price (some side.opposite) raw = .ok trigger)
    (hclose : |away side true E raw.value - d| + raw.value / 10 ^ 27 ≤ ε) :
    d - rules.tick.value - ε < away side true E trigger.value ∧
      away side true E trigger.value ≤ d + ε := by
  obtain ⟨hlow, hhigh⟩ := closing_bounds htick hprice
  obtain ⟨hfar, hnear⟩ := abs_le.1 (le_sub_iff_add_le.2 hclose)
  have hdigit : 0 ≤ raw.value / 10 ^ 27 :=
    div_nonneg (TradingRules.raw_pos_of_price htick hprice).le (by positivity)
  rw [away_stop] at hfar hnear ⊢
  constructor <;> linarith

/-- A stop that was computed without rounding is not moved by a whole tick. -/
theorem away_stop_pos {E d : ℚ} (htick : rules.tick.InContext)
    (hprice : rules.price (some side.opposite) raw = .ok trigger)
    (hexact : away side true E raw.value = d) (hle : rules.tick.value ≤ d) :
    0 < away side true E trigger.value := by
  have hhigh := (closing_bounds htick hprice).2
  rw [away_stop] at hexact ⊢
  linarith

/-- Where the trigger of a protection lies, if the entry is a price on the grid. -/
theorem placed_of_protectivePrice (htick : rules.tick.InContext)
    (hentry : ∀ side', rules.price side' entry = .ok entry) (hfin : percent.isFinite = true)
    (hpercent : 0 ≤ percent.value)
    (h : protectivePrice rules side isStop entry percent = .ok trigger) :
    Placed side isStop rules.tick.value entry.value percent.value trigger.value := by
  have hpos := TradingRules.tick_value_pos htick
  -- The entry is a multiple of the tick, so the distance of the trigger is one as well.
  obtain ⟨-, k, hwritten, -⟩ := TradingRules.price_isWritten htick (hentry none)
  have hrep := hwritten.representable htick hpos
  rw [← hwritten.value_eq] at hrep
  obtain ⟨raw, hprice, hside, hclose, hexact⟩ := raw_of_protectivePrice hwritten.isFinite
    (hwritten.value_pos hpos).le hrep hfin hpercent h
  have hnonneg := away_nonneg_of_price htick hentry hprice hside
  have hmultiple := exists_away_eq htick (hentry none) hprice hnonneg
  cases isStop with
  | false =>
    have hbounds := target_bounds htick hprice hclose
    exact {
      nonneg := hnonneg
      multiple := hmultiple
      target := fun _ => hbounds
      target_pos := fun _ hlt => (sub_pos.2 hlt).trans_le hbounds.1
      stop := nofun
      stop_pos := nofun
      stop_eq := nofun }
  | true =>
    have hbounds := stop_bounds htick hprice hclose
    exact {
      nonneg := hnonneg
      multiple := hmultiple
      target := nofun
      target_pos := nofun
      stop := fun _ => hbounds
      stop_pos := by
        rintro - (hle | ⟨hno, hle⟩)
        · linarith [hbounds.1]
        · exact away_stop_pos htick hprice (hexact hno) hle
      stop_eq := fun _ hlt => eq_entry_of_lt_tick hpos hmultiple (hbounds.2.trans_lt hlt) }

/-- Where the triggers of a ticket lie, whatever command the order was read from. A target lies on
its side of the entry, and so does a stop that is to lie at least a tick away; a stop that is to lie
closer is the entry itself. -/
theorem protects_of_read {settings : CommandSettings} {text : String} {reading : Command.Reading}
    (hread : Command.read settings text = .ok reading) (horder : reading.order = some order)
    (htick : rules.tick.InContext)
    (h : prepare order book rules risk balance markPrice = .ok (.ready ticket, event)) :
    (∀ trigger, ticket.stopLossPrice = some trigger → ∃ percent, order.stopLoss = some percent ∧
      Placed order.side true rules.tick.value ticket.estimatedPrice.value percent.value
        trigger.value) ∧
    ∀ trigger, ticket.takeProfitPrice = some trigger → ∃ percent, order.takeProfit = some percent ∧
      Placed order.side false rules.tick.value ticket.estimatedPrice.value percent.value
        trigger.value := by
  obtain ⟨hassemble, -⟩ := prepare_eq_ok h
  obtain ⟨steps⟩ := exists_steps hassemble
  obtain ⟨_, _, _, stop, target, -, -, -, hstop, htarget, hticket⟩ :=
    complete_eq_ok steps.complete_eq
  obtain ⟨_, _, hmoved⟩ := exists_of_priceOf steps.limitPrice_eq steps.price_eq
  -- The price shown went through the grid, which therefore leaves it where it is.
  have hkeep := TradingRules.price_keeps htick hmoved
  rw [hticket]
  constructor
  · rintro trigger rfl
    obtain ⟨percent, hpercent, hmade⟩ := protectivePrice?_eq_ok hstop
    have htyped := Command.typed_of_read hread horder (.inl hpercent)
    exact ⟨percent, hpercent,
      placed_of_protectivePrice htick hkeep htyped.isFinite htyped.pos.le hmade⟩
  · rintro trigger rfl
    obtain ⟨percent, hpercent, hmade⟩ := protectivePrice?_eq_ok htarget
    have htyped := Command.typed_of_read hread horder (.inr hpercent)
    exact ⟨percent, hpercent,
      placed_of_protectivePrice htick hkeep htyped.isFinite htyped.pos.le hmade⟩

end

/-! ## Purchases at a low price -/

/-- A command whose order is seen to get a ticket with some property has such a ticket. -/
theorem exists_ready_of_read {r : Except Decimal.Fault Command.Reading}
    {f : Order → Except Failure (Outcome × Event)} {c : Order → Ticket → Bool}
    (h : r.toOption.any (fun reading => reading.order.any fun order =>
      (f order).toOption.any fun result => result.1.ticket?.any (c order)) = true) :
    ∃ reading order ticket event, r = .ok reading ∧ reading.order = some order ∧
      f order = .ok (.ready ticket, event) ∧ c order ticket = true := by
  cases r with
  | error fault => cases h
  | ok reading =>
    cases horder : reading.order with
    | none => simp [Except.toOption, horder] at h
    | some order =>
      simp only [Except.toOption, Option.any_some, horder] at h
      obtain ⟨ticket, event, hrun, hcheck⟩ := exists_ready h
      exact ⟨reading, order, ticket, event, rfl, horder, hrun, hcheck⟩

namespace Sample

/-- A book at prices of about a hundred ticks. -/
def lowBook : Book where
  symbol := "BTCUSDT"
  bids := [⟨10.4, 50⟩]
  asks := [⟨10.5, 50⟩]

end Sample

/-- A typed purchase has its stop below the entry and its profit target above. -/
theorem protects_sample_purchase : ∃ reading order ticket event stop target,
    Command.read {} "/buy BTCUSDT 1 sl2% tp3%" = .ok reading ∧ reading.order = some order ∧
      prepare order Sample.lowBook Sample.rules {} none none = .ok (.ready ticket, event) ∧
      ticket.stopLossPrice = some stop ∧ ticket.takeProfitPrice = some target ∧
      stop.value < ticket.estimatedPrice.value ∧ ticket.estimatedPrice.value < target.value := by
  obtain ⟨reading, order, ticket, event, hread, horder, hrun, hcheck⟩ := exists_ready_of_read
    (r := Command.read {} "/buy BTCUSDT 1 sl2% tp3%")
    (f := fun order => prepare order Sample.lowBook Sample.rules {} none none)
    (c := fun order ticket => decide (order.side = .buy ∧ order.stopLoss = some 2 ∧
      order.takeProfit = some 3 ∧ ticket.estimatedPrice = 10.5 ∧
      ticket.stopLossPrice.isSome = true ∧ ticket.takeProfitPrice.isSome = true))
    (by decide +kernel)
  obtain ⟨hside, hstop, htarget, hprice, hhasStop, hhasTarget⟩ := of_decide_eq_true hcheck
  obtain ⟨stop, hstopPrice⟩ := Option.isSome_iff_exists.1 hhasStop
  obtain ⟨target, htargetPrice⟩ := Option.isSome_iff_exists.1 hhasTarget
  obtain ⟨hstops, htargets⟩ := protects_of_read hread horder Sample.rules_inContext.tick hrun
  obtain ⟨percent, hpercent, hplaced⟩ := hstops stop hstopPrice
  obtain ⟨percent', hpercent', hplaced'⟩ := htargets target htargetPrice
  obtain rfl : 2 = percent := Option.some.inj (hstop.symm.trans hpercent)
  obtain rfl : 3 = percent' := Option.some.inj (htarget.symm.trans hpercent')
  have hentry : ticket.estimatedPrice.value = 105 * 10 ^ (-1 : ℤ) := by rw [hprice]; rfl
  have htick : Sample.rules.tick.value = 1 * 10 ^ (-1 : ℤ) := rfl
  refine ⟨reading, order, ticket, event, stop, target, hread, horder, hrun, hstopPrice,
    htargetPrice, ?_, ?_⟩
  · -- two percent are more than two ticks
    have hpos := hplaced.stop_pos rfl (.inl ?_)
    · rw [hside, away_stop] at hpos
      simpa [Side.sign] using hpos
    · rw [hentry, htick, value_ofNat]
      norm_num [slack, distance]
  · have hpos := hplaced'.target_pos rfl ?_
    · rw [hside, away_target] at hpos
      simpa [Side.sign] using hpos
    · rw [hentry, value_ofNat]
      norm_num [slack, distance]

/-- A stop half a percent below an entry of about a hundred ticks is the entry itself, so it would
trigger at once. -/
theorem not_below_entry_purchase : ∃ reading order ticket event,
    Command.read {} "/buy BTCUSDT 1 sl0.5%" = .ok reading ∧ reading.order = some order ∧
      prepare order Sample.lowBook Sample.rules {} none none = .ok (.ready ticket, event) ∧
      order.side = .buy ∧ ticket.stopLossPrice = some ticket.estimatedPrice := by
  obtain ⟨reading, order, ticket, event, hread, horder, hrun, hcheck⟩ := exists_ready_of_read
    (r := Command.read {} "/buy BTCUSDT 1 sl0.5%")
    (f := fun order => prepare order Sample.lowBook Sample.rules {} none none)
    (c := fun order ticket => decide (order.side = .buy ∧
      ticket.stopLossPrice = some ticket.estimatedPrice)) (by decide +kernel)
  obtain ⟨hside, hstop⟩ := of_decide_eq_true hcheck
  exact ⟨reading, order, ticket, event, hread, horder, hrun, hside, hstop⟩

end Ticket

end OrderTicket
