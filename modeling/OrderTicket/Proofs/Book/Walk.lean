import OrderTicket.Book.Fill
import OrderTicket.Proofs.Decimal.Bounds

/-!
# Walking a book of a usual size

This module shows that the fill of an order never fails if the book has a usual size, however many
levels it has. Every level adds a rounding error to the sums of quantity and value, and the average
price divides one sum by the other. A walk keeps the quantity below the exact sum of the levels that
it passed, and the value below the largest price times the quantity, up to a factor that grows with
the levels (`drift`).

* `Level.Usual`, `Book.Usual`: levels and books of a usual size.
* `Fill.Progress.Bounded`: what a walk keeps, `Fill.advance_returns` and `Fill.walk_returns`.
* `Book.fillFor_returns`: the fill of an order.
-/

namespace OrderTicket

open Decimal

/-- A level of a usual size. -/
structure Level.Usual (level : Level) : Prop where
  /-- The price. -/
  price : Between (1 / 10 ^ 8) (10 ^ 8) level.price
  /-- The quantity. -/
  quantity : Between (1 / 10 ^ 8) (10 ^ 8) level.quantity

namespace Fill

/-! ## One level -/

/-- What is taken from a level, what it costs, and what is still needed. -/
structure Served (level : Level) (remaining taken spent rest : Decimal) : Prop where
  /-- The level has that much. -/
  between_taken : Between 0 level.quantity.value taken
  /-- The cost is that of a usual price. -/
  between_spent : Between 0 (10 ^ 17) spent
  /-- It is at most that of the highest price, up to rounding. -/
  spent_le : spent.value ≤ 2 * 10 ^ 8 * taken.value + 1 / 10 ^ 90
  /-- What is still needed has a usual size. -/
  between_rest : Between (-10 ^ 17) (10 ^ 11) rest
  /-- Where much is needed, much is taken. -/
  large : 1 / 10 ^ 18 ≤ remaining.value → 1 / 10 ^ 26 ≤ taken.value

/-- A cost that is a rounded product is at most that of the highest price. -/
theorem spent_le_of_rounded {level : Level} {taken spent : Decimal} (h : level.Usual)
    (htaken : 0 ≤ taken.value) (hround : Rounded (taken.value * level.price.value) spent) :
    spent.value ≤ 2 * 10 ^ 8 * taken.value + 1 / 10 ^ 90 := by
  have hprice : taken.value * level.price.value ≤ taken.value * 10 ^ 8 :=
    mul_le_mul_of_nonneg_left h.price.le_high htaken
  have hspent := (hround.bounds (mul_nonneg htaken (le_trans (by norm_num) h.price.low_le))).2
  norm_num at hprice hspent ⊢
  linarith

/-- What is still needed after something was taken may be less than nothing by rounding. -/
theorem rest_returns {remaining taken : Decimal} (hremaining : Between 0 (10 ^ 11) remaining)
    (htaken : Between 0 (10 ^ 17) taken) :
    Returns (remaining.sub taken) (Between (-10 ^ 17) (10 ^ 11)) := by
  have hnonneg := hremaining.low_le
  have hhigh := htaken.le_high
  refine ((sub_computes hremaining.isFinite htaken.isFinite).returns (bound_pow (by decide)).neg
    (bound_pow (by decide)) (by linarith) ?_).mono fun _ h => h.2
  exact (sub_le_self _ htaken.low_le).trans hremaining.le_high

/-- A level serves what is left of a quantity. -/
theorem take_quantity_returns {level : Level} {remaining : Decimal} (h : level.Usual)
    (hremaining : Between 0 (10 ^ 11) remaining) :
    Returns (take .quantity remaining level) fun r => Served level remaining r.1 r.2.1 r.2.2 := by
  have hquantity := h.quantity
  have hprice : Between 0 (10 ^ 8) level.price := h.price.mono (by norm_num) le_rfl
  refine .bind (min_returns hremaining.isFinite hquantity.isFinite) fun taken ⟨hfin, hvalue⟩ => ?_
  have htaken : Between 0 level.quantity.value taken := by
    refine ⟨hfin, ?_, hvalue ▸ min_le_right _ _⟩
    rw [hvalue]
    exact le_min hremaining.low_le (le_trans (by norm_num) hquantity.low_le)
  have hspent : Returns (taken.mul level.price) fun r =>
      Rounded (taken.value * level.price.value) r ∧ Between 0 (10 ^ 17) r :=
    mul_returns (htaken.mono le_rfl hquantity.le_high) hprice (by decide) (by norm_num)
  refine .bind hspent fun spent ⟨hround, hspent⟩ => ?_
  have hsmall : Between 0 (10 ^ 17) taken :=
    htaken.mono le_rfl (hquantity.le_high.trans (by norm_num))
  -- where much is needed, the lesser of what is needed and what is offered is large
  refine .bind (rest_returns hremaining hsmall) fun rest hrest => .ok ⟨htaken, hspent,
    spent_le_of_rounded h htaken.low_le hround, hrest, fun hlarge => ?_⟩
  rw [hvalue]
  exact le_min (le_trans (by norm_num) hlarge) (le_trans (by norm_num) hquantity.low_le)

/-- An amount of the quote currency either ends at the level, or takes all of it. -/
theorem take_notional_returns {level : Level} {remaining : Decimal} (h : level.Usual)
    (hremaining : Between 0 (10 ^ 11) remaining) :
    Returns (take .notional remaining level) fun r => Served level remaining r.1 r.2.1 r.2.2 := by
  have hquantity := h.quantity
  have hprice : Between 0 (10 ^ 8) level.price := h.price.mono (by norm_num) le_rfl
  have hpos : 0 < level.price.value := lt_of_lt_of_le (by norm_num) h.price.low_le
  have hdiv : Returns (remaining.div level.price) fun r =>
      Rounded (remaining.value / level.price.value) r ∧ Between 0 (10 ^ 19) r :=
    div_returns hremaining h.price (by norm_num) (by decide) (by norm_num)
  refine .bind hdiv fun affordable ⟨hround, haffordable⟩ => ?_
  refine .bind (le_returns haffordable.isFinite hquantity.isFinite) fun enough henough => ?_
  -- the level ends the walk and the amount is spent as it is, or all of the level is taken
  cases enough with
  | true =>
    refine .ok ⟨⟨haffordable.isFinite, haffordable.low_le, henough.1 rfl⟩,
      hremaining.mono le_rfl (by norm_num), ?_, ⟨rfl, ?_, ?_⟩, fun hlarge => ?_⟩
    · -- the quotient was rounded, so it may be worth a little less than what is spent
      have hquot := div_nonneg hremaining.low_le hpos.le
      have hlow := (hround.bounds hquot).1
      have hfew : remaining.value / level.price.value ≤ 2 * affordable.value + 2 / 10 ^ 100 := by
        norm_num at hlow hquot ⊢
        linarith
      have hcost : remaining.value ≤ (2 * affordable.value + 2 / 10 ^ 100) * level.price.value := by
        rwa [← div_le_iff₀ hpos]
      have hmost : (2 * affordable.value + 2 / 10 ^ 100) * level.price.value ≤
          (2 * affordable.value + 2 / 10 ^ 100) * 10 ^ 8 := by
        refine mul_le_mul_of_nonneg_left h.price.le_high ?_
        have := haffordable.low_le
        positivity
      norm_num at hcost hmost ⊢
      linarith
    · simp
    · simp
    · refine hround.le_value (bound_inv_pow (by decide)).representable ?_
      rw [le_div_iff₀ hpos]
      have hhigh := h.price.le_high
      norm_num at hlarge hhigh ⊢
      linarith
  | false =>
    have hall : Between 0 (10 ^ 8) level.quantity := hquantity.mono (by norm_num) le_rfl
    have hspent : Returns (level.quantity.mul level.price) fun r =>
        Rounded (level.quantity.value * level.price.value) r ∧ Between 0 (10 ^ 17) r :=
      mul_returns hall hprice (by decide) (by norm_num)
    refine .bind hspent fun spent ⟨hround, hspent⟩ => ?_
    exact .bind (rest_returns hremaining hspent) fun rest hrest => .ok
      ⟨⟨hquantity.isFinite, hall.low_le, le_rfl⟩, hspent, spent_le_of_rounded h hall.low_le hround,
        hrest, fun _ => le_trans (by norm_num) hquantity.low_le⟩

/-- A level serves what is left, of a quantity or of an amount. -/
theorem take_returns {level : Level} {remaining : Decimal} (target : FillTarget) (h : level.Usual)
    (hremaining : Between 0 (10 ^ 11) remaining) :
    Returns (take target remaining level) fun r => Served level remaining r.1 r.2.1 r.2.2 := by
  cases target with
  | quantity => exact take_quantity_returns h hremaining
  | notional => exact take_notional_returns h hremaining

/-! ## A walk -/

/-- The factor by which rounding may have driven sums apart after some levels. -/
def drift (levels : ℕ) : ℚ :=
  1 + levels / 10 ^ 26

theorem one_le_drift (levels : ℕ) : 1 ≤ drift levels := by
  have hnonneg : (0 : ℚ) ≤ levels / 10 ^ 26 := by positivity
  rw [drift]
  linarith

/-- The errors of a walk do not double its sums, unless it is very long. -/
theorem drift_le_two {levels : ℕ} (h : levels ≤ 10 ^ 20) : drift levels ≤ 2 := by
  have hcast : (levels : ℚ) ≤ 10 ^ 20 := by exact_mod_cast h
  rw [drift]
  linarith

/-- The drift of a walk grows enough with each level for the errors of two roundings, one of each
sum. -/
theorem drift_step {levels : ℕ} (h : levels ≤ 10 ^ 20) :
    drift levels * (1 + 2 / 10 ^ 27) ≤ drift (levels + 1) * (1 - 2 / 10 ^ 27) := by
  have hcast : (levels : ℚ) ≤ 10 ^ 20 := by exact_mod_cast h
  simp only [drift]
  push_cast
  linarith

/-- What a walk keeps. The levels that it passed have the quantity `passed` together. -/
structure Progress.Bounded (passed : ℚ) (progress : Progress) : Prop where
  /-- What is still needed has a usual size. -/
  remaining : Between (-10 ^ 17) (10 ^ 11) progress.remaining
  /-- The quantity is that of the levels, up to rounding. -/
  quantity : Between 0 (passed * drift progress.levelsTaken) progress.quantity
  /-- The value is that of the highest price, up to rounding. -/
  notional : Between 0 (2 * 10 ^ 8 * progress.quantity.value * drift progress.levelsTaken)
    progress.notional

/-- A walk starts with nothing. -/
theorem bounded_start {requested : Decimal} (price : Decimal) (h : Between 0 (10 ^ 11) requested) :
    Progress.Bounded 0 ⟨requested, 0, 0, price, 0⟩ := by
  have hzero : Between 0 0 0 := ⟨rfl, by simp, by simp⟩
  exact ⟨h.mono (by norm_num) le_rfl, hzero.mono le_rfl (by simp), hzero.mono le_rfl (by simp)⟩

section Step

variable {level : Level} {progress : Progress} {passed : ℚ} {taken spent rest : Decimal}

/-- The sum of quantities stays below the exact sum. -/
theorem quantity_step {sum : Decimal} (h : progress.Bounded passed) (hlevel : level.Usual)
    (htaken : taken.value ≤ level.quantity.value) (hlevels : progress.levelsTaken ≤ 10 ^ 20)
    (hsum : sum.value ≤ (progress.quantity.value + taken.value) * (1 + 2 / 10 ^ 27)) :
    sum.value ≤ (passed + level.quantity.value) * drift (progress.levelsTaken + 1) := by
  have hone := one_le_drift progress.levelsTaken
  have hlow := hlevel.quantity.low_le
  have hnonneg : 0 ≤ passed := by
    have hprod := h.quantity.low_le.trans h.quantity.le_high
    exact nonneg_of_mul_nonneg_left hprod (by linarith)
  have hpos : 0 ≤ passed + level.quantity.value := by
    norm_num at hlow
    linarith
  -- without the last rounding, the old factor still bounds the sum
  have hexact : progress.quantity.value + taken.value ≤
      (passed + level.quantity.value) * drift progress.levelsTaken := by
    have hlevel' : level.quantity.value ≤ level.quantity.value * drift progress.levelsTaken :=
      le_mul_of_one_le_right (le_trans (by norm_num) hlow) hone
    linarith [h.quantity.le_high, add_mul passed level.quantity.value (drift progress.levelsTaken)]
  have hdrift : drift progress.levelsTaken * (1 + 2 / 10 ^ 27) ≤
      drift (progress.levelsTaken + 1) := by
    refine (drift_step hlevels).trans ?_
    have hnext := one_le_drift (progress.levelsTaken + 1)
    norm_num
    linarith
  calc sum.value
      ≤ (progress.quantity.value + taken.value) * (1 + 2 / 10 ^ 27) := hsum
    _ ≤ (passed + level.quantity.value) * drift progress.levelsTaken * (1 + 2 / 10 ^ 27) :=
        mul_le_mul_of_nonneg_right hexact (by norm_num)
    _ = (passed + level.quantity.value) * (drift progress.levelsTaken * (1 + 2 / 10 ^ 27)) := by
        ring
    _ ≤ (passed + level.quantity.value) * drift (progress.levelsTaken + 1) :=
        mul_le_mul_of_nonneg_left hdrift hpos

/-- The sum of values stays below the highest price times the sum of quantities. -/
theorem notional_step {sum value : Decimal} (h : progress.Bounded passed)
    (hspent : Between 0 (10 ^ 17) spent)
    (hspent_le : spent.value ≤ 2 * 10 ^ 8 * taken.value + 1 / 10 ^ 90)
    (hlevels : progress.levelsTaken ≤ 10 ^ 20) (htaken : 0 ≤ taken.value)
    (hlarge : 1 / 10 ^ 26 ≤ progress.quantity.value + taken.value)
    (hsum : (progress.quantity.value + taken.value) * (1 - 2 / 10 ^ 27) ≤ sum.value)
    (hvalue : Rounded (progress.notional.value + spent.value) value) :
    value.value ≤ 2 * 10 ^ 8 * sum.value * drift (progress.levelsTaken + 1) := by
  set Q := progress.quantity.value + taken.value with hQ
  set d := drift progress.levelsTaken with hd
  have hone : 1 ≤ d := one_le_drift _
  have hnext := one_le_drift (progress.levelsTaken + 1)
  -- without the last rounding, the old factor bounds the sum, up to an absolute error
  have hexact : progress.notional.value + spent.value ≤ 2 * 10 ^ 8 * Q * d + 1 / 10 ^ 90 := by
    have htaken' : taken.value ≤ taken.value * d := le_mul_of_one_le_right htaken hone
    have hle := h.notional.le_high
    rw [hQ]
    linarith [mul_add (2 * 10 ^ 8 * d) progress.quantity.value taken.value]
  have hround := (hvalue.bounds (add_nonneg h.notional.low_le hspent.low_le)).2
  -- the absolute errors are small beside the least quantity
  have hsmall : 1 / 10 ^ 26 ≤ Q * d :=
    hlarge.trans (le_mul_of_one_le_right (le_trans (by norm_num) hlarge) hone)
  have hrel : value.value ≤ 2 * 10 ^ 8 * Q * d * (1 + 2 / 10 ^ 27) := by
    norm_num at hexact hround hsmall ⊢
    linarith
  calc value.value
      ≤ 2 * 10 ^ 8 * Q * d * (1 + 2 / 10 ^ 27) := hrel
    _ = 2 * 10 ^ 8 * Q * (d * (1 + 2 / 10 ^ 27)) := by ring
    _ ≤ 2 * 10 ^ 8 * Q * (drift (progress.levelsTaken + 1) * (1 - 2 / 10 ^ 27)) := by
        refine mul_le_mul_of_nonneg_left (drift_step hlevels) ?_
        have hpos : 0 ≤ Q := le_trans (by norm_num) hlarge
        positivity
    _ = 2 * 10 ^ 8 * (Q * (1 - 2 / 10 ^ 27)) * drift (progress.levelsTaken + 1) := by ring
    _ ≤ 2 * 10 ^ 8 * sum.value * drift (progress.levelsTaken + 1) := by
        refine mul_le_mul_of_nonneg_right ?_ (by linarith)
        exact mul_le_mul_of_nonneg_left hsum (by norm_num)

/-- To take from one more level keeps the bounds of a walk. Afterwards the quantity is not very
small, if either it was not before, or enough is still needed. -/
theorem advance_returns (target : FillTarget) (h : progress.Bounded passed) (hlevel : level.Usual)
    (hneeded : 0 ≤ progress.remaining.value) (hpassed : passed ≤ 10 ^ 12)
    (hlevels : progress.levelsTaken ≤ 10 ^ 20)
    (hlarge : 1 / 10 ^ 26 ≤ progress.quantity.value ∨ 1 / 10 ^ 18 ≤ progress.remaining.value) :
    Returns (progress.advance target level) fun next =>
      next.Bounded (passed + level.quantity.value) ∧
      next.levelsTaken = progress.levelsTaken + 1 ∧ 1 / 10 ^ 26 ≤ next.quantity.value := by
  have hremaining : Between 0 (10 ^ 11) progress.remaining :=
    ⟨h.remaining.isFinite, hneeded, h.remaining.le_high⟩
  refine .bind (take_returns target hlevel hremaining) fun (taken, spent, rest) hserved => ?_
  have htaken := hserved.between_taken
  have hspent := hserved.between_spent
  have htwo := drift_le_two hlevels
  have hquantity : progress.quantity.value ≤ 2 * 10 ^ 12 := by
    have hprod : passed * drift progress.levelsTaken ≤ 10 ^ 12 * 2 :=
      mul_le_mul hpassed htwo (by linarith [one_le_drift progress.levelsTaken]) (by norm_num)
    linarith [h.quantity.le_high]
  have hnotional : progress.notional.value ≤ 10 ^ 22 := by
    have hprod : 2 * 10 ^ 8 * progress.quantity.value * drift progress.levelsTaken ≤
        2 * 10 ^ 8 * (2 * 10 ^ 12) * 2 := by
      have hnonneg := h.quantity.low_le
      have hone := one_le_drift progress.levelsTaken
      gcongr
    norm_num at hprod ⊢
    linarith [h.notional.le_high]
  -- either the quantity was not very small before, or the level adds enough to it
  have hsumlarge : 1 / 10 ^ 26 ≤ progress.quantity.value + taken.value := by
    rcases hlarge with hlarge | hlarge
    · linarith [htaken.low_le]
    · linarith [hserved.large hlarge, h.quantity.low_le]
  have hadd : Returns (progress.quantity.add taken) fun r =>
      Rounded (progress.quantity.value + taken.value) r ∧ Between (1 / 10 ^ 26) (10 ^ 13) r := by
    refine (add_computes h.quantity.isFinite htaken.isFinite).returns (bound_inv_pow (by decide))
      (bound_pow (by decide)) hsumlarge ?_
    have hhigh := htaken.le_high.trans hlevel.quantity.le_high
    norm_num at hhigh ⊢
    linarith
  refine .bind hadd fun sum ⟨hround, hsum⟩ => ?_
  have hadd' : Returns (progress.notional.add spent) fun r =>
      Rounded (progress.notional.value + spent.value) r ∧ Between 0 (10 ^ 23) r := by
    refine (add_computes h.notional.isFinite hspent.isFinite).returns bound_zero
      (bound_pow (by decide)) (add_nonneg h.notional.low_le hspent.low_le) ?_
    have hhigh := hspent.le_high
    norm_num at hnotional hhigh ⊢
    linarith
  refine .bind hadd' fun value ⟨hround', hvalue⟩ => .ok ⟨?_, rfl, hsum.low_le⟩
  obtain ⟨hlow, hhigh⟩ := hround.relative (le_trans (by norm_num) hsumlarge)
  have hquantity' := quantity_step h hlevel htaken.le_high hlevels hhigh
  have hnotional' :=
    notional_step h hspent hserved.spent_le hlevels htaken.low_le hsumlarge hlow hround'
  exact ⟨hserved.between_rest, ⟨hsum.isFinite, le_trans (by norm_num) hsum.low_le, hquantity'⟩,
    ⟨hvalue.isFinite, hvalue.low_le, hnotional'⟩⟩

end Step

section Walk

variable {levels : List Level}

/-- The quantities of usual levels have no negative sum. -/
theorem sum_nonneg (h : ∀ level ∈ levels, level.Usual) :
    0 ≤ (levels.map fun level => level.quantity.value).sum := by
  refine List.sum_nonneg fun x hx => ?_
  obtain ⟨level, hmem, rfl⟩ := List.mem_map.1 hx
  exact le_trans (by norm_num) (h level hmem).quantity.low_le

/-- A side with a usual total has so few levels that rounding does not drive the sums apart. -/
theorem length_le (h : ∀ level ∈ levels, level.Usual)
    (htotal : (levels.map fun level => level.quantity.value).sum ≤ 10 ^ 12) :
    levels.length ≤ 10 ^ 20 := by
  have hsum := List.card_nsmul_le_sum (levels.map fun level => level.quantity.value) (1 / 10 ^ 8)
    fun x hx => by
      obtain ⟨level, hmem, rfl⟩ := List.mem_map.1 hx
      exact (h level hmem).quantity.low_le
  rw [List.length_map, nsmul_eq_mul] at hsum
  have hcast : (levels.length : ℚ) ≤ 10 ^ 20 := by linarith
  exact_mod_cast hcast

/-- A walk keeps its bounds to the end. Something was taken before, or is taken from the first
level. -/
theorem walk_returns (target : FillTarget) {progress : Progress} {passed : ℚ}
    (h : progress.Bounded passed) (hlevels : ∀ level ∈ levels, level.Usual)
    (htotal : passed + (levels.map fun level => level.quantity.value).sum ≤ 10 ^ 12)
    (hcount : progress.levelsTaken + levels.length ≤ 10 ^ 20)
    (hlarge : 1 / 10 ^ 26 ≤ progress.quantity.value ∨
      levels ≠ [] ∧ 1 / 10 ^ 18 ≤ progress.remaining.value) :
    Returns (walk target levels progress) fun last => last.levelsTaken ≤ 10 ^ 20 ∧
      1 / 10 ^ 26 ≤ last.quantity.value ∧ ∃ passed ≤ 10 ^ 12, last.Bounded passed := by
  -- on the levels that are left; what was passed so far goes along
  induction levels generalizing progress passed with
  | nil =>
    have hlarge := hlarge.resolve_right fun hne => hne.1 rfl
    exact .ok ⟨by simpa using hcount, hlarge, passed, by simpa using htotal, h⟩
  | cons level rest ih =>
    obtain ⟨hlevel, hrest⟩ := List.forall_mem_cons.1 hlevels
    rw [List.map_cons, List.sum_cons] at htotal
    rw [List.length_cons] at hcount
    have hnonneg := sum_nonneg hrest
    have hlow := hlevel.quantity.low_le
    have hpassed : passed ≤ 10 ^ 12 := by
      norm_num at hlow htotal ⊢
      linarith
    refine .bind (le_zero_returns h.remaining.isFinite) fun done hdone => ?_
    cases done with
    | true =>
      -- nothing is needed any more, so this is not the first level
      have hlarge := hlarge.resolve_right fun hneeded => by
        have hle := hdone.1 rfl
        have hge := hneeded.2
        norm_num at hge
        linarith
      exact .ok ⟨by omega, hlarge, passed, hpassed, h⟩
    | false =>
      have hneeded : 0 < progress.remaining.value := by simpa using hdone
      refine .bind (advance_returns target h hlevel hneeded.le hpassed (by omega)
        (hlarge.imp_right fun hlarge => hlarge.2)) fun next ⟨hnext, htaken, hquantity⟩ => ?_
      exact ih hnext hrest (by linarith) (by omega) (.inl hquantity)

end Walk

/-! ## Fills -/

/-- A fill of a usual size. -/
structure Usual (fill : Fill) : Prop where
  /-- The quantity. -/
  quantity : Between 0 (10 ^ 13) fill.quantity
  /-- The average price. -/
  averagePrice : Between 0 (10 ^ 9) fill.averagePrice
  /-- The slippage. -/
  slippagePercent : Between 0 (10 ^ 19) fill.slippagePercent

/-- The average price is close to the prices of the levels, since both sums drift equally far. -/
theorem average_returns {progress : Progress} {passed : ℚ} (h : progress.Bounded passed)
    (hlevels : progress.levelsTaken ≤ 10 ^ 20) (hlarge : 1 / 10 ^ 26 ≤ progress.quantity.value) :
    Returns (progress.notional.div progress.quantity) (Between 0 (10 ^ 9)) := by
  have hpos : 0 < progress.quantity.value := lt_of_lt_of_le (by norm_num) hlarge
  have hnotional := h.notional
  have hle : progress.notional.value ≤ 2 * 10 ^ 8 * progress.quantity.value * 2 := by
    refine hnotional.le_high.trans (mul_le_mul_of_nonneg_left (drift_le_two hlevels) ?_)
    positivity
  refine ((div_computes hnotional.isFinite h.quantity.isFinite hpos.ne').returns bound_zero
    (bound_pow (by decide)) (div_nonneg hnotional.low_le hpos.le) ?_).mono fun _ h => h.2
  rw [div_le_iff₀ hpos]
  norm_num at hle ⊢
  linarith

/-- The distance of an average price from the best one. -/
theorem distance_returns {average best : Decimal} (haverage : Between 0 (10 ^ 9) average)
    (hbest : Between (1 / 10 ^ 8) (10 ^ 8) best) :
    Returns (average.sub best) (Between (-10 ^ 9) (10 ^ 9)) := by
  have hlow := haverage.low_le
  have hhigh := haverage.le_high
  have hlow' := hbest.low_le
  have hhigh' := hbest.le_high
  refine ((sub_computes haverage.isFinite hbest.isFinite).returns (bound_pow (by decide)).neg
    (bound_pow (by decide)) ?_ ?_).mono fun _ h => h.2 <;>
  · norm_num at hhigh hlow' hhigh' ⊢
    linarith

/-- A fill along levels of a usual size. -/
theorem along_returns (side : Side) (target : FillTarget) {requested : Decimal} {best : Level}
    {rest : List Level} (hrequested : Between (1 / 10 ^ 18) (10 ^ 11) requested)
    (hlevels : ∀ level ∈ best :: rest, level.Usual)
    (htotal : ((best :: rest).map fun level => level.quantity.value).sum ≤ 10 ^ 12) :
    Returns (along side target requested best rest) Usual := by
  have hstart := bounded_start best.price (hrequested.mono (by norm_num) le_rfl)
  have hcount := length_le hlevels htotal
  have hbest := (hlevels best List.mem_cons_self).price
  refine .bind (walk_returns target hstart hlevels (by rwa [zero_add]) (by simpa using hcount)
    (.inr ⟨by simp, hrequested.low_le⟩)) fun last ⟨htaken, hlarge, passed, hpassed, hlast⟩ => ?_
  refine .bind (average_returns hlast htaken hlarge) fun average haverage => ?_
  refine .bind (distance_returns haverage hbest) fun difference hdifference => ?_
  have habs : Returns difference.abs fun r => Rounded |difference.value| r ∧ Between 0 (10 ^ 9) r :=
    (abs_computes hdifference.isFinite).returns bound_zero (bound_pow (by decide)) (abs_nonneg _)
      (abs_le.2 ⟨hdifference.low_le, hdifference.le_high⟩)
  refine .bind habs fun distance ⟨_, hdistance⟩ => ?_
  have hdiv : Returns (distance.div best.price) fun r =>
      Rounded (distance.value / best.price.value) r ∧ Between 0 (10 ^ 17) r :=
    div_returns hdistance hbest (by norm_num) (by decide) (by norm_num)
  refine .bind hdiv fun ratio ⟨_, hratio⟩ => ?_
  have hhundred : Between 0 (10 ^ 2) 100 := ⟨rfl, by simp, by norm_num⟩
  have hmul : Returns (ratio.mul 100) fun r =>
      Rounded (ratio.value * value 100) r ∧ Between 0 (10 ^ 19) r :=
    mul_returns hratio hhundred (by decide) (by norm_num)
  refine .bind hmul fun slippage ⟨_, hslippage⟩ => ?_
  refine .bind (lt_returns rfl hlast.remaining.isFinite) fun exhausted _ =>
    .ok ⟨?_, haverage, hslippage⟩
  -- the quantity is that of the levels, and the drift is at most two
  refine hlast.quantity.mono le_rfl ?_
  have htwo := drift_le_two htaken
  calc passed * drift last.levelsTaken ≤ 10 ^ 12 * 2 :=
        mul_le_mul hpassed htwo (by linarith [one_le_drift last.levelsTaken]) (by norm_num)
    _ ≤ 10 ^ 13 := by norm_num

end Fill

/-- A book of a usual size. The order of its levels does not matter. -/
structure Book.Usual (book : Book) : Prop where
  /-- The levels of both sides. -/
  level : ∀ side, ∀ level ∈ book.levels side, level.Usual
  /-- The total quantity of each side. -/
  total : ∀ side, ((book.levels side).map fun level => level.quantity.value).sum ≤ 10 ^ 12

/-- An order for a usual quantity or notional has a fill, unless there is nothing to take from. -/
theorem Book.fillFor_returns {book : Book} (h : book.Usual) (side : Side) (target : FillTarget)
    {requested : Decimal} (hrequested : Between (1 / 10 ^ 18) (10 ^ 11) requested)
    (hne : book.levels side ≠ []) : Returns (book.fillFor side target requested) Fill.Usual := by
  have hpos : 0 < requested.value := lt_of_lt_of_le (by norm_num) hrequested.low_le
  have hle : requested.le 0 = .ok false := by
    rw [le_zero_eq hrequested.isFinite, decide_eq_false (not_le.2 hpos)]
  have hlevels := h.level side
  have htotal := h.total side
  unfold Book.fillFor
  rw [hle]
  cases hside : book.levels side with
  | nil => exact absurd hside hne
  | cons best rest =>
    rw [hside] at hlevels htotal
    exact (Fill.along_returns side target hrequested hlevels htotal).lift

/-- An empty side fills nothing, and says that the book is empty. -/
theorem Book.fillFor_of_nil {book : Book} (side : Side) (target : FillTarget) {requested : Decimal}
    (hrequested : Between (1 / 10 ^ 18) (10 ^ 11) requested) (hnil : book.levels side = []) :
    book.fillFor side target requested = .error (.emptyBook side book.symbol) := by
  have hpos : 0 < requested.value := lt_of_lt_of_le (by norm_num) hrequested.low_le
  have hle : requested.le 0 = .ok false := by
    rw [le_zero_eq hrequested.isFinite, decide_eq_false (not_le.2 hpos)]
  unfold Book.fillFor
  rw [hle, hnil]
  rfl

end OrderTicket
