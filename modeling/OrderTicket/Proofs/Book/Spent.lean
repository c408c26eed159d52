import OrderTicket.Proofs.Book.Bought
import OrderTicket.Proofs.Book.Closed

/-!
# Walks for an amount

A walk for an amount of the quote currency divides what is left of it by the price of each level,
and the quotient has to be rounded. The rounded quotient still tells whether the level is worth the
rest of the amount: what the level falls short by is at least a unit of the last decimal, and that
is more than rounding can hide. So the amount is spent exactly, and only the quantity that it comes
to may be rounded, at the level that serves the rest.

* `affordable_le_iff`: the rounded quotient decides like the exact one.
* `Fill.Spent`: what a walk for an amount does.
* `Fill.advance_spent`, `Fill.walk_spent`: one level, and all of them.
* `Fill.Spends`, `Book.fill_spends`: the fill of an order for an amount.
-/

namespace OrderTicket

open Decimal

variable {a b : ℕ} {level : Level} {levels rest : List Level}

/-- Whether a level is worth an amount can be read off the rounded quotient. -/
theorem affordable_le_iff (hab : a + b ≤ 1000) (hlevel : level.Scaled a b)
    {amount affordable : Decimal} (hplaces : Decimal.HasPlaces (a + b) amount.value)
    (hquantity : level.quantity.value < 10 ^ (27 - b : ℤ))
    (hnotional : level.quantity.value * level.price.value < 10 ^ (27 - (a + b : ℕ) : ℤ))
    (h : Rounded (amount.value / level.price.value) affordable) :
    affordable.value ≤ level.quantity.value ↔
      amount.value ≤ level.quantity.value * level.price.value := by
  have hpos := hlevel.price_pos
  have hrepresentable : Representable level.quantity.value :=
    hlevel.quantity.representable (by omega) (by rwa [abs_of_pos hlevel.quantity_pos])
  refine ⟨fun hle => ?_, fun hle => h.value_le hrepresentable ((div_le_iff₀ hpos).2 hle)⟩
  by_contra hlt
  rw [not_le] at hlt
  -- what the level falls short by is more than the last digit of its value
  have hcost : Decimal.HasPlaces (a + b) (level.quantity.value * level.price.value) :=
    add_comm b a ▸ hlevel.quantity.mul hlevel.price
  have hshort := (hplaces.sub hcost).le_of_pos (sub_pos.2 hlt)
  rw [sub_eq_add_neg, ten_zpow_add, show (27 : ℤ) = (precision - 1 : ℕ) from rfl, zpow_natCast]
    at hnotional
  have hdigit : level.quantity.value * level.price.value / 10 ^ (precision - 1) <
      10 ^ (-(a + b : ℕ) : ℤ) := by
    rwa [div_lt_iff₀' (by positivity)]
  have hgap : level.quantity.value + level.quantity.value / 10 ^ (precision - 1) ≤
      amount.value / level.price.value := by
    rw [le_div_iff₀ hpos, add_mul, div_mul_eq_mul_div]
    linarith
  have hlow : (10 : ℚ) ^ ((precision : ℤ) - 1 + tinyExponent) ≤ level.quantity.value := by
    refine le_trans (zpow_le_zpow_right₀ (by norm_num) ?_)
      (hlevel.quantity.le_of_pos hlevel.quantity_pos)
    have hp : precision = 28 := rfl
    have ht : tinyExponent = -1000026 := rfl
    omega
  exact absurd hle (not_le.2 (h.lt_value hrepresentable hlow hgap))

namespace Fill

/-! ## One level -/

/-- A walk for an amount before and after it takes what it can from a level. What it took leaves
room for other levels, unless the quantity had to be rounded. -/
structure Paid (a b : ℕ) (level : Level) (rest : List Level) (start next : Progress) : Prop
    extends Passed (quantityFor start.remaining.value (level :: rest)) level start next where
  /-- The amount is spent, or as much of it as the level is worth. -/
  remaining : Exactly (start.remaining.value -
    min start.remaining.value (level.quantity.value * level.price.value)) next.remaining
  /-- What was spent leaves room for what the others are worth. -/
  notional_room : Decimal.Scaled (a + b) (10 ^ (27 - (a + b : ℕ) : ℤ) - totalNotional rest)
    next.notional
  /-- The quantity does not become less, or very large. -/
  quantity : Between start.quantity.value (10 ^ 27) next.quantity
  /-- It is not very small. -/
  quantity_low : (10 : ℚ) ^ (-1027 : ℤ) ≤ next.quantity.value
  /-- It is exact if the level gives a quantity with few decimals. -/
  quantity_room : Decimal.HasPlaces b (min (start.remaining.value / level.price.value)
      level.quantity.value) →
    next.quantity.value = start.quantity.value +
        min (start.remaining.value / level.price.value) level.quantity.value ∧
      Decimal.Scaled b (10 ^ (27 - b : ℤ) - totalQuantity rest) next.quantity

variable {progress start next last : Progress}

/-- What an amount comes to at the price of a level is not very small, and not very large. -/
theorem afford_bounds (hab : a + b ≤ 1000) (hlevels : ∀ other ∈ level :: rest, other.Scaled a b)
    (hnotional : totalNotional (level :: rest) < 10 ^ (27 - (a + b : ℕ) : ℤ)) {amount : Decimal}
    (hamount : Decimal.Scaled (a + b) (10 ^ (27 - (a + b : ℕ) : ℤ)) amount)
    (hpos : 0 < amount.value) :
    (10 : ℚ) ^ (-1027 : ℤ) ≤ amount.value / level.price.value ∧
      amount.value / level.price.value < 10 ^ maxExponent := by
  have hprice := price_bounds hab hlevels hnotional List.mem_cons_self
  have hpos' := (ten_zpow_pos (-1000)).trans_le hprice.low_le
  rw [le_div_iff₀ hpos', div_lt_iff₀ hpos']
  -- an amount is at least a unit of its last decimal, and prices lie within fixed powers of ten
  constructor
  · calc (10 : ℚ) ^ (-1027 : ℤ) * level.price.value
        ≤ 10 ^ (-1027 : ℤ) * 10 ^ 27 :=
          mul_le_mul_of_nonneg_left hprice.le_high (ten_zpow_pos _).le
      _ = 10 ^ (-1000 : ℤ) := by
          rw [show (-1000 : ℤ) = -1027 + (27 : ℕ) from rfl, ten_zpow_add, zpow_natCast]
      _ ≤ 10 ^ (-(a + b : ℕ) : ℤ) := zpow_le_zpow_right₀ (by norm_num) (by omega)
      _ ≤ amount.value := hamount.hasPlaces.le_of_pos hpos
  · calc amount.value < 10 ^ (27 - (a + b : ℕ) : ℤ) := hamount.lt_limit
      _ ≤ 10 ^ (maxExponent + -1000) := zpow_le_zpow_right₀ (by norm_num) (by
          have hm : maxExponent = 999999 := rfl
          omega)
      _ = 10 ^ maxExponent * 10 ^ (-1000 : ℤ) := ten_zpow_add _ _
      _ ≤ 10 ^ maxExponent * level.price.value :=
          mul_le_mul_of_nonneg_left hprice.low_le (ten_zpow_pos _).le

/-- What is taken from a level for an amount: only the quantity may be rounded. -/
theorem take_spent (hab : a + b ≤ 1000) (hlevels : ∀ other ∈ level :: rest, other.Scaled a b)
    (hroom : progress.Room a b (level :: rest)) {remaining : Decimal}
    (hremaining : Decimal.Scaled (a + b) (10 ^ (27 - (a + b : ℕ) : ℤ)) remaining)
    (hpos : 0 < remaining.value) :
    Returns (take .notional remaining level) fun r =>
      Rounded (min (remaining.value / level.price.value) level.quantity.value) r.1 ∧
        Exactly (min remaining.value (level.quantity.value * level.price.value)) r.2.1 ∧
        Exactly (remaining.value -
          min remaining.value (level.quantity.value * level.price.value)) r.2.2 := by
  have hlevel := hlevels level List.mem_cons_self
  obtain ⟨hquantity, hnotional⟩ := hroom.head_lt hlevels
  obtain ⟨hlow, hhigh⟩ := afford_bounds hab hlevels hroom.total_lt.2 hremaining hpos
  have hcost : 0 < level.quantity.value * level.price.value :=
    mul_pos hlevel.quantity_pos hlevel.price_pos
  have hcostPlaces : Decimal.HasPlaces (a + b) (level.quantity.value * level.price.value) :=
    add_comm b a ▸ hlevel.quantity.mul hlevel.price
  have hdiv : Returns (remaining.div level.price)
      (Rounded (remaining.value / level.price.value)) := by
    refine (div_computes hremaining.isFinite hlevel.price_isFinite hlevel.price_pos.ne').exists_ok
      ?_
    rwa [abs_of_pos ((ten_zpow_pos _).trans_le hlow)]
  refine .bind hdiv fun affordable hround => ?_
  refine .bind (le_returns hround.isFinite hlevel.quantity_isFinite) fun enough henough => ?_
  rw [affordable_le_iff hab hlevel hremaining.hasPlaces hquantity hnotional hround] at henough
  cases enough with
  | true =>
    -- the level serves the rest of the amount
    have hle := henough.1 rfl
    rw [min_eq_left hle, min_eq_left ((div_le_iff₀ hlevel.price_pos).2 hle), sub_self]
    exact .ok ⟨hround, ⟨hremaining.isFinite, rfl⟩, ⟨rfl, by simp⟩⟩
  | false =>
    -- the level gives all that it has
    have hlt : level.quantity.value * level.price.value < remaining.value := by simpa using henough
    rw [min_eq_right hlt.le, min_eq_right ((lt_div_iff₀ hlevel.price_pos).2 hlt).le]
    have hspent : Returns (level.quantity.mul level.price)
        (Exactly (level.quantity.value * level.price.value)) :=
      (mul_computes hlevel.quantity_isFinite hlevel.price_isFinite).exactly (a + b) hcostPlaces hab
        (by rwa [abs_of_pos hcost])
    refine .bind hspent fun spent hspent => ?_
    have hleft : Returns (remaining.sub spent)
        (Exactly (remaining.value - level.quantity.value * level.price.value)) := by
      rw [← hspent.value_eq]
      refine (sub_computes hremaining.isFinite hspent.isFinite).exactly (a + b) ?_ hab ?_ <;>
        rw [hspent.value_eq]
      · exact hremaining.hasPlaces.sub hcostPlaces
      · rw [abs_of_pos (sub_pos.2 hlt)]
        exact (sub_lt_self _ hcost).trans hremaining.lt_limit
    refine .bind hleft fun left hleft => .ok ⟨?_, hspent, hleft⟩
    exact .self hlevel.quantity_isFinite
      (hlevel.quantity.representable (by omega) (by rwa [abs_of_pos hlevel.quantity_pos]))

/-- What a level adds to the quantity is rounded at most, and so is the sum. -/
theorem add_taken (hab : a + b ≤ 1000) (hlevels : ∀ other ∈ level :: rest, other.Scaled a b)
    (hroom : progress.Room a b (level :: rest)) {amount : ℚ} {taken : Decimal}
    (hlow : (10 : ℚ) ^ (-1027 : ℤ) ≤ amount) (hle : amount ≤ level.quantity.value)
    (htaken : Rounded amount taken) :
    Returns (progress.quantity.add taken) fun sum =>
      Between progress.quantity.value (10 ^ 27) sum ∧ (10 : ℚ) ^ (-1027 : ℤ) ≤ sum.value ∧
        (Decimal.HasPlaces b amount → sum.value = progress.quantity.value + amount ∧
          Decimal.Scaled b (10 ^ (27 - b : ℤ) - totalQuantity rest) sum) := by
  obtain ⟨hlevel, hrest⟩ := List.forall_mem_cons.1 hlevels
  have htotal := (stocked_of_scaled hrest).totalQuantity_nonneg
  have hplaces : b ≤ 1000 := by omega
  have hquantity := hroom.quantity
  have hlimit := hquantity.lt_limit
  rw [totalQuantity_cons] at hlimit
  have hpower : (10 : ℚ) ^ (27 - b : ℤ) ≤ 10 ^ 27 := by
    rw [← zpow_natCast]
    exact zpow_le_zpow_right₀ (by norm_num) (by omega)
  have hrepresentable {x : ℚ} (hx : Decimal.HasPlaces b x) (hnonneg : 0 ≤ x)
      (hlt : x < 10 ^ (27 - b : ℤ)) : Representable x :=
    hx.representable hplaces (by rwa [abs_of_nonneg hnonneg])
  have hunit := ten_zpow_pos (-1027)
  have hnonneg := hquantity.nonneg
  -- the rounded quantity stays between the same bounds
  have hlow' := htaken.le_value (representable_zpow (by decide)) hlow
  have hle' := htaken.value_le
    (hrepresentable hlevel.quantity hlevel.quantity_pos.le (hroom.head_lt hlevels).1) hle
  have hcomputes := add_computes hquantity.isFinite htaken.isFinite
  have hlt : |progress.quantity.value + taken.value| < 10 ^ (27 - b : ℤ) := by
    rw [abs_of_nonneg (by linarith)]
    linarith
  obtain ⟨sum, hsum, hround⟩ := hcomputes.exists_ok (lt_maxExponent_of_places hlt)
  have hstart := hrepresentable hquantity.hasPlaces hnonneg (by linarith [hlevel.quantity_pos])
  refine ⟨sum, hsum, ⟨hround.isFinite, hround.le_value hstart (by linarith), ?_⟩,
    hround.le_value (representable_zpow (by decide)) (by linarith), fun hamount => ?_⟩
  · exact hround.value_le (bound_pow (by decide)).representable (by linarith)
  · -- with few decimals there is nothing to round
    have hexact : taken.value = amount :=
      htaken.eq_of_representable (hrepresentable hamount (by linarith)
        (hle.trans_lt (hroom.head_lt hlevels).1))
    have hsumPlaces := hquantity.hasPlaces.add hamount
    rw [hexact] at hround
    have hvalue := hround.eq_of_representable
      (hrepresentable hsumPlaces (by linarith) (by linarith))
    exact ⟨hvalue, hround.isFinite, hvalue ▸ hsumPlaces, by linarith, by linarith⟩

/-- To take from one more level in a walk for an amount spends what the level costs. -/
theorem advance_spent (hab : a + b ≤ 1000) (hlevels : ∀ other ∈ level :: rest, other.Scaled a b)
    (hroom : progress.Room a b (level :: rest))
    (hremaining : Decimal.Scaled (a + b) (10 ^ (27 - (a + b : ℕ) : ℤ)) progress.remaining)
    (hpos : 0 < progress.remaining.value) :
    Returns (progress.advance .notional level) (Paid a b level rest progress) := by
  obtain ⟨hlevel, hrest⟩ := List.forall_mem_cons.1 hlevels
  refine .bind (take_spent hab hlevels hroom hremaining hpos) fun (taken, spent, left) hserved => ?_
  obtain ⟨htaken, hspent, hleft⟩ := hserved
  -- what is taken is not so small that rounding it could lose it
  have hlow : (10 : ℚ) ^ (-1027 : ℤ) ≤
      min (progress.remaining.value / level.price.value) level.quantity.value := by
    refine le_min (afford_bounds hab hlevels hroom.total_lt.2 hremaining hpos).1 ?_
    exact (zpow_le_zpow_right₀ (by norm_num) (by omega)).trans
      (hlevel.quantity.le_of_pos hlevel.quantity_pos)
  refine .bind (add_taken hab hlevels hroom hlow (min_le_right _ _) htaken)
    fun sum ⟨hsum, hsumLow, hsumRoom⟩ => ?_
  have hcost : 0 ≤ level.quantity.value * level.price.value :=
    (mul_pos hlevel.quantity_pos hlevel.price_pos).le
  have hnotional := hroom.notional
  rw [totalNotional_cons] at hnotional
  refine .bind (hnotional.add_returns hab hspent
    (hremaining.hasPlaces.min (add_comm b a ▸ hlevel.quantity.mul hlevel.price))
    (le_min hpos.le hcost) (min_le_right _ _) (totalNotional_nonneg (positive_of_scaled hrest)))
    fun value ⟨hvalue, hvalueRoom⟩ => .ok ?_
  refine ⟨⟨?_, rfl, rfl⟩, hleft, hvalueRoom, hsum, hsumLow, hsumRoom⟩
  rw [min_quantityFor _ (positive_of_scaled hlevels), min_div_mul hlevel.toPositive]
  exact hvalue

/-! ## All levels -/

/-- A walk for an amount before and after it goes along levels. -/
structure Spent (b : ℕ) (levels : List Level) (start last : Progress) : Prop
    extends Traversed (quantityFor start.remaining.value levels) levels start last where
  /-- The amount is spent, or as much of it as the levels are worth. -/
  remaining : Exactly
    (start.remaining.value - min start.remaining.value (totalNotional levels)) last.remaining
  /-- What was spent is finite. -/
  notional_isFinite : last.notional.isFinite = true
  /-- The quantity does not become less, or very large. -/
  quantity : Between start.quantity.value (10 ^ 27) last.quantity
  /-- It is not very small if something was spent. -/
  quantity_low : 0 < start.remaining.value → levels ≠ [] →
    (10 : ℚ) ^ (-1027 : ℤ) ≤ last.quantity.value
  /-- It is exact if the amount comes to a quantity with few decimals. -/
  quantity_eq : Decimal.HasPlaces b (quantityFor start.remaining.value levels) →
    last.quantity.value = start.quantity.value + quantityFor start.remaining.value levels

/-- Nothing changes where nothing is left to spend. -/
theorem Spent.zero (hlevels : ∀ level ∈ levels, level.Positive) (h : Exactly 0 start.remaining)
    (hnotional : start.notional.isFinite = true)
    (hquantity : Between start.quantity.value (10 ^ 27) start.quantity) :
    Spent b levels start start := by
  have hzero := quantityFor_zero hlevels
  have htotal := totalNotional_nonneg hlevels
  refine ⟨?_, ⟨h.isFinite, ?_⟩, hnotional, hquantity, fun hpos => ?_, fun _ => ?_⟩ <;>
    rw [h.value_eq] at *
  · rw [hzero]
    exact .zero (stocked_of_positive hlevels) start
  · rw [min_eq_left htotal, sub_zero]
  · exact absurd hpos (lt_irrefl 0)
  · rw [hzero, add_zero]

/-- Nothing is bought where there are no levels. -/
theorem Spent.nil (h : start.remaining.isFinite = true)
    (hpos : 0 ≤ start.remaining.value) (hnotional : start.notional.isFinite = true)
    (hquantity : Between start.quantity.value (10 ^ 27) start.quantity) :
    Spent b [] start start :=
  ⟨.nil _ _, ⟨h, by simp [hpos]⟩, hnotional, hquantity, fun _ h => absurd rfl h,
    fun _ => by simp⟩

/-- A walk goes along a level and then along the others. -/
theorem Spent.cons (hlevels : ∀ other ∈ level :: rest, other.Scaled a b)
    (hpos : 0 < start.remaining.value) (hfirst : Paid a b level rest start next)
    (hothers : Spent b rest next last) : Spent b (level :: rest) start last := by
  have hpositive := positive_of_scaled hlevels
  obtain ⟨hlevel, hrest⟩ := List.forall_mem_cons.1 hlevels
  have hneeded := quantityFor_pos hpositive (List.cons_ne_nil _ _) hpos
  have hgiven := min_quantityFor start.remaining.value hpositive
  -- what is left of the amount comes to what is left of the quantity
  have hleft := quantityFor_sub_min start.remaining.value hpositive
  rw [← hfirst.remaining.value_eq] at hleft
  refine ⟨.cons hneeded hfirst.toPassed (hleft ▸ hothers.toTraversed),
    ⟨hothers.remaining.isFinite, ?_⟩, hothers.notional_isFinite,
    hothers.quantity.mono hfirst.quantity.low_le le_rfl,
    fun _ _ => hfirst.quantity_low.trans hothers.quantity.low_le, fun hplaces => ?_⟩
  · rw [hothers.remaining.value_eq, hfirst.remaining.value_eq, totalNotional_cons,
      min_add_eq (totalNotional_nonneg (positive_of_scaled hrest))]
    ring
  · have hmin := hplaces.min hlevel.quantity
    rw [hothers.quantity_eq (hleft ▸ hplaces.sub hmin),
      (hfirst.quantity_room (hgiven ▸ hmin)).1, ← hleft, hgiven]
    ring

/-- A walk spends an amount, or as much of it as the levels are worth. -/
theorem walk_spent (hab : a + b ≤ 1000) (hlevels : ∀ level ∈ levels, level.Scaled a b)
    (hroom : progress.Room a b levels)
    (hremaining : Decimal.Scaled (a + b) (10 ^ (27 - (a + b : ℕ) : ℤ)) progress.remaining) :
    Returns (walk .notional levels progress) (Spent b levels progress) := by
  -- on the levels that are left, as long as the quantity is exact
  induction levels generalizing progress with
  | nil =>
    exact .ok (.nil hremaining.isFinite hremaining.nonneg hroom.notional.isFinite
      (hroom.quantity_between hlevels))
  | cons level rest ih =>
    obtain ⟨hlevel, hrest⟩ := List.forall_mem_cons.1 hlevels
    have hpositive := positive_of_scaled hlevels
    refine .bind (le_zero_returns hremaining.isFinite) fun done hdone => ?_
    cases done with
    | true =>
      have hzero := le_antisymm (hdone.1 rfl) hremaining.nonneg
      exact .ok (.zero hpositive ⟨hremaining.isFinite, hzero⟩ hroom.notional.isFinite
        (hroom.quantity_between hlevels))
    | false =>
      have hpos : 0 < progress.remaining.value := by simpa using hdone
      have hcost : Decimal.HasPlaces (a + b) (level.quantity.value * level.price.value) :=
        add_comm b a ▸ hlevel.quantity.mul hlevel.price
      refine .bind (advance_spent hab hlevels hroom hremaining hpos) fun next hfirst => ?_
      suffices hothers : Returns (walk .notional rest next) (Spent b rest next) from
        hothers.mono fun last hlast => hlast.cons hlevels hpos hfirst
      rcases le_or_gt progress.remaining.value (level.quantity.value * level.price.value)
        with hle | hlt
      · -- the level served the rest, and the walk ends here
        have hdone : Exactly 0 next.remaining :=
          ⟨hfirst.remaining.isFinite, by rw [hfirst.remaining.value_eq, min_eq_left hle, sub_self]⟩
        rw [walk_of_done hdone.isFinite hdone.value_eq.le]
        exact .ok (.zero (positive_of_scaled hrest) hdone hfirst.notional_room.isFinite
          ⟨hfirst.quantity.isFinite, le_rfl, hfirst.quantity.le_high⟩)
      · -- the level gave all that it has, which is exact
        have hgiven := min_eq_right ((lt_div_iff₀ hlevel.price_pos).2 hlt).le
        have hquantity := (hfirst.quantity_room (by rw [hgiven]; exact hlevel.quantity)).2
        refine ih hrest ⟨hquantity, hfirst.notional_room⟩
          ⟨hfirst.remaining.isFinite, ?_, ?_, ?_⟩ <;>
          rw [hfirst.remaining.value_eq, min_eq_right hlt.le]
        · exact hremaining.hasPlaces.sub hcost
        · exact (sub_pos.2 hlt).le
        · exact (sub_lt_self _ (mul_pos hlevel.quantity_pos hlevel.price_pos)).trans
            hremaining.lt_limit

/-! ## Fills for an amount -/

/-- The fill of an order that spends an amount, or as much of it as the levels are worth. -/
structure Spends (amount : ℚ) (levels : List Level) (fill : Fill) : Prop where
  /-- The amount is spent to the last digit. -/
  notional : Exactly (min amount (totalNotional levels)) fill.notional
  /-- The side ends before the order has spent it if it is worth less. -/
  exhausted : fill.exhausted = true ↔ totalNotional levels < amount
  /-- No fewer levels are worth the amount. -/
  isLeast_levelsTaken : amount ≤ totalNotional levels →
    IsLeast {k | amount ≤ totalNotional (levels.take k)} fill.levelsTaken
  /-- If they are not worth it, all are taken from. -/
  levelsTaken_eq : totalNotional levels < amount → fill.levelsTaken = levels.length

variable {side : Side} {best : Level} {requested : Decimal} {fill : Fill}

/-- A walk for an amount ends in a fill. -/
theorem along_spent (side : Side) (hab : a + b ≤ 1000)
    (hlevels : ∀ level ∈ best :: rest, level.Scaled a b) (hpos : 0 < requested.value)
    (hplaces : Decimal.HasPlaces (a + b) requested.value)
    (hlt : requested.value < 10 ^ (27 - (a + b : ℕ) : ℤ))
    (hquantity : totalQuantity (best :: rest) < 10 ^ (27 - b : ℤ))
    (hnotional : totalNotional (best :: rest) < 10 ^ (27 - (a + b : ℕ) : ℤ)) :
    Returns (along side .notional requested best rest) fun fill => ∃ progress,
      Spent b (best :: rest) ⟨requested, 0, 0, best.price, 0⟩ progress ∧
        Closes best.price progress fill := by
  have hpositive := positive_of_scaled hlevels
  obtain ⟨progress, hwalk, hspent⟩ := walk_spent hab hlevels
    (room_start requested best.price hquantity hnotional)
    ⟨isFinite_of_pos hpos, hplaces, hpos.le, hlt⟩
  -- what is spent lies below the limit of what is not rounded
  have hvalue : progress.notional.value = min requested.value (totalNotional (best :: rest)) := by
    rw [hspent.notional, worth_inTurn_quantityFor hpositive hpos.le]
    simp
  have hbetween : Between 0 (10 ^ 27) progress.notional := by
    refine ⟨hspent.notional_isFinite, hvalue ▸ le_min hpos.le (totalNotional_nonneg hpositive), ?_⟩
    rw [hvalue, ← zpow_natCast]
    exact (min_le_left _ _).trans
      (hlt.le.trans (zpow_le_zpow_right₀ (by norm_num) (by omega)))
  have hlow := hspent.quantity_low hpos (List.cons_ne_nil _ _)
  exact (along_closes hwalk hspent.remaining.isFinite
    ⟨hspent.quantity.isFinite, hlow, hspent.quantity.le_high⟩ hbetween
    (price_bounds hab hlevels hnotional List.mem_cons_self)).mono
    fun fill hfill => ⟨progress, hspent, hfill⟩

/-- A fill for an amount spends it, and takes from as many levels as are needed for it. -/
theorem Closes.spends {progress : Progress} (h : Closes best.price progress fill)
    (hlevels : ∀ level ∈ best :: rest, level.Positive) (hpos : 0 < requested.value)
    (hspent : Spent b (best :: rest) ⟨requested, 0, 0, best.price, 0⟩ progress) :
    fill.Spends requested.value (best :: rest) := by
  have hcount : fill.levelsTaken =
      levelsFor (quantityFor requested.value (best :: rest)) (best :: rest) := by
    rw [h.levelsTaken, hspent.levelsTaken, zero_add]
  refine ⟨⟨h.notional ▸ hspent.notional_isFinite, ?_⟩, ?_, fun hle => ?_, fun hlt => ?_⟩
  · rw [h.notional, hspent.notional, worth_inTurn_quantityFor hlevels hpos.le]
    simp
  · rw [h.exhausted, hspent.remaining.value_eq, sub_pos, min_lt_iff]
    exact or_iff_right (lt_irrefl _)
  · -- the same levels are worth the amount and hold the quantity that it comes to
    simp only [hcount, le_totalNotional_take_iff hlevels hpos hle]
    exact isLeast_levelsFor (quantityFor_le_totalQuantity hlevels hpos hle)
  · rw [hcount, quantityFor_of_total_lt hlevels hlt, levelsFor_totalQuantity hlevels]

end Fill

namespace Book

/-- An order for an amount spends it to the last digit, or as much of it as the side is worth, if
prices and quantities have few decimals and the totals are not large. The quantity that it gets may
be rounded. -/
theorem fill_spends {symbol : String} {depth timestamp : Payload} {book : Book}
    (hbook : ofDepth symbol depth timestamp = .ok book) (side : Side)
    (hne : book.levels side ≠ []) {requested : Decimal} (hpos : 0 < requested.value) {a b : ℕ}
    (hab : a + b ≤ 1000) (hlevels : ∀ level ∈ book.levels side, level.HasPlaces a b)
    (hplaces : Decimal.HasPlaces (a + b) requested.value)
    (hquantity : OrderTicket.totalQuantity (book.levels side) < 10 ^ (27 - b : ℤ))
    (hnotional : requested.value + totalNotional (book.levels side) <
      10 ^ (27 - (a + b : ℕ) : ℤ)) :
    ∃ fill, book.fill side none (some requested) = .ok fill ∧
      fill.Spends requested.value (book.levels side) := by
  have hscaled := scaled_levels hbook hlevels
  obtain ⟨best, rest, hside⟩ := List.exists_cons_of_ne_nil hne
  change Returns (book.fillFor side .notional requested) _
  rw [fillFor_of_cons hpos hside]
  rw [hside] at hscaled hquantity hnotional ⊢
  have hpositive := positive_of_scaled hscaled
  have htotal := totalNotional_nonneg hpositive
  exact ((Fill.along_spent side hab hscaled hpos hplaces (by linarith) hquantity
    (by linarith)).mono fun fill ⟨_, hspent, hfill⟩ => hfill.spends hpositive hpos hspent).lift

/-- What is left after the first level does not come to a quantity with few decimals. -/
theorem fill_spends_purchase : ∃ book, ofDepth "BTCUSDT" Sample.depth .null = .ok book ∧
    ∃ fill, book.fill .buy none (some 250) = .ok fill ∧ fill.Spends 250 Sample.asks := by
  obtain ⟨book, hbook, hasks⟩ := Sample.exists_book
  have hpos : 0 < Decimal.value 250 := by simp
  have hplaces : Decimal.HasPlaces (1 + 0) (Decimal.value 250) := ⟨2500, by norm_num⟩
  have hfill := fill_spends hbook .buy (by simp [hasks, Sample.asks]) hpos (by decide)
    (hasks ▸ Sample.asks_hasPlaces) hplaces (by norm_num [hasks, Sample.asks])
    (by norm_num [hasks, Sample.asks, Sample.value_price])
  rw [hasks, value_ofNat] at hfill
  exact ⟨book, hbook, hfill⟩

end Book

end OrderTicket
