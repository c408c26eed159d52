import OrderTicket.Proofs.Book.Allocation
import OrderTicket.Proofs.Book.Sides
import OrderTicket.Proofs.Decimal.Exact

/-!
# Walks without rounding

A walk for a quantity along levels whose prices and quantities have few decimals, and whose totals
are not large, does not round anything: it takes from one level after another what is needed,
exactly.

* `Level.HasPlaces`: levels with few decimals.
* `Fill.Progress.Room`, `Fill.Progress.Scaled`: what a walk keeps.
* `Fill.Passed`, `Fill.Traversed`: what a walk records of a level, and of all of them, when a
  quantity is taken; `Fill.Advanced`, `Fill.Walked`: what the walk for a quantity does.
* `Fill.advance_exact`, `Fill.walk_exact`: one level, and all of them.
-/

namespace OrderTicket

open Decimal

/-- A level whose price has at most `a` decimals, and whose quantity has at most `b`. -/
structure Level.HasPlaces (a b : ℕ) (level : Level) : Prop where
  /-- The price is finite. -/
  price_isFinite : level.price.isFinite = true
  /-- The quantity is finite. -/
  quantity_isFinite : level.quantity.isFinite = true
  /-- The decimals of the price. -/
  price : Decimal.HasPlaces a level.price.value
  /-- The decimals of the quantity. -/
  quantity : Decimal.HasPlaces b level.quantity.value

/-- A level with few decimals that has something to offer. -/
structure Level.Scaled (a b : ℕ) (level : Level) : Prop
    extends level.HasPlaces a b, level.Positive

/-- A number that is not negative, has few decimals and lies below a limit. -/
structure Decimal.Scaled (places : ℕ) (limit : ℚ) (x : Decimal) : Prop where
  /-- The number is finite. -/
  isFinite : x.isFinite = true
  /-- It has few decimals. -/
  hasPlaces : Decimal.HasPlaces places x.value
  /-- It is not negative. -/
  nonneg : 0 ≤ x.value
  /-- It is below the limit. -/
  lt_limit : x.value < limit

variable {a b : ℕ} {level : Level} {levels rest : List Level}

theorem positive_of_scaled (h : ∀ level ∈ levels, level.Scaled a b) :
    ∀ level ∈ levels, level.Positive :=
  fun level hlevel => (h level hlevel).toPositive

theorem stocked_of_scaled (h : ∀ level ∈ levels, level.Scaled a b) : Stocked levels :=
  stocked_of_positive (positive_of_scaled h)

/-- What a level offers is part of what all levels offer. -/
theorem notional_le_total (h : ∀ level ∈ levels, level.Scaled a b) (hlevel : level ∈ levels) :
    level.quantity.value * level.price.value ≤ totalNotional levels :=
  List.single_le_sum (fun x hx => by
    obtain ⟨other, hother, rfl⟩ := List.mem_map.1 hx
    exact mul_nonneg (h other hother).quantity_pos.le (h other hother).price_pos.le) _
    (List.mem_map_of_mem hlevel)

/-- The prices of a side are not large, since every quantity is at least a unit of its last
decimal. -/
theorem price_lt_limit (h : ∀ level ∈ levels, level.Scaled a b) (hlevel : level ∈ levels)
    (htotal : totalNotional levels < 10 ^ (27 - (a + b : ℕ) : ℤ)) :
    level.price.value < 10 ^ (27 - a : ℤ) := by
  have hpos := (h level hlevel).price_pos
  have hunit := (h level hlevel).quantity.le_of_pos (h level hlevel).quantity_pos
  have hlimit : (10 : ℚ) ^ (27 - (a + b : ℕ) : ℤ) = 10 ^ (-b : ℤ) * 10 ^ (27 - a : ℤ) := by
    rw [← ten_zpow_add]
    congr 1
    push_cast
    ring
  refine lt_of_mul_lt_mul_left ?_ (ten_zpow_pos (-b : ℤ)).le
  calc (10 : ℚ) ^ (-b : ℤ) * level.price.value
      ≤ level.quantity.value * level.price.value := mul_le_mul_of_nonneg_right hunit hpos.le
    _ ≤ totalNotional levels := notional_le_total h hlevel
    _ < 10 ^ (-b : ℤ) * 10 ^ (27 - a : ℤ) := hlimit ▸ htotal

/-- The bounds that all prices lie in: a unit of the last decimal, and the precision. -/
theorem price_bounds (hab : a + b ≤ 1000) (hlevels : ∀ level ∈ levels, level.Scaled a b)
    (hnotional : totalNotional levels < 10 ^ (27 - (a + b : ℕ) : ℤ))
    (hlevel : level ∈ levels) : Between (10 ^ (-1000 : ℤ)) (10 ^ 27) level.price := by
  have hscaled := hlevels level hlevel
  have hlow := hscaled.price.le_of_pos hscaled.price_pos
  have hhigh := price_lt_limit hlevels hlevel hnotional
  refine ⟨hscaled.price_isFinite, le_trans ?_ hlow, hhigh.le.trans ?_⟩
  · exact zpow_le_zpow_right₀ (by norm_num) (by omega)
  · rw [← zpow_natCast]
    exact zpow_le_zpow_right₀ (by norm_num) (by omega)

/-- The prices of levels with few decimals are representable. -/
theorem price_representable (hab : a + b ≤ 1000) (hlevels : ∀ level ∈ levels, level.Scaled a b)
    (hnotional : totalNotional levels < 10 ^ (27 - (a + b : ℕ) : ℤ))
    (hlevel : level ∈ levels) : Representable level.price.value := by
  have hscaled := hlevels level hlevel
  refine hscaled.price.representable (by omega) ?_
  rw [abs_of_pos hscaled.price_pos]
  exact price_lt_limit hlevels hlevel hnotional

/-- What is added to a number is added exactly, and leaves room up to the limit of what is not
rounded, if there was room for it. -/
theorem Decimal.Scaled.add_returns {places : ℕ} {more room v : ℚ} {x y : Decimal}
    (hplaces : places ≤ 1000)
    (hx : Decimal.Scaled places (10 ^ (27 - places : ℤ) - (more + room)) x)
    (hy : Exactly v y) (hv : Decimal.HasPlaces places v) (hnonneg : 0 ≤ v) (hle : v ≤ more)
    (hroom : 0 ≤ room) :
    Returns (x.add y) fun r =>
      r.value = x.value + v ∧ Decimal.Scaled places (10 ^ (27 - places : ℤ) - room) r := by
  have hsum := hx.hasPlaces.add hv
  have hpos := add_nonneg hx.nonneg hnonneg
  have hlt := hx.lt_limit
  have hcomputes := add_computes hx.isFinite hy.isFinite
  rw [hy.value_eq] at hcomputes
  refine (hcomputes.exactly places hsum hplaces ?_).mono fun r hr => ?_
  · rw [abs_of_nonneg hpos]
    linarith
  · refine ⟨hr.value_eq, hr.isFinite, ?_, ?_, ?_⟩ <;> rw [hr.value_eq]
    · exact hsum
    · exact hpos
    · linarith

namespace Fill

/-! ## One level -/

/-- Sums of a walk that were not rounded and will not have to be on the levels that are left. -/
structure Progress.Room (a b : ℕ) (levels : List Level) (progress : Progress) : Prop where
  /-- The quantity leaves room for the quantity of the levels. -/
  quantity : Decimal.Scaled b (10 ^ (27 - b : ℤ) - totalQuantity levels) progress.quantity
  /-- The value leaves room for the value of the levels. -/
  notional : Decimal.Scaled (a + b) (10 ^ (27 - (a + b : ℕ) : ℤ) - totalNotional levels)
    progress.notional

/-- The levels alone stay below the limits. -/
theorem Progress.Room.total_lt {progress : Progress} (h : progress.Room a b levels) :
    totalQuantity levels < 10 ^ (27 - b : ℤ) ∧
      totalNotional levels < 10 ^ (27 - (a + b : ℕ) : ℤ) :=
  ⟨by linarith [h.quantity.nonneg, h.quantity.lt_limit],
    by linarith [h.notional.nonneg, h.notional.lt_limit]⟩

/-- Each level alone stays below the limits. -/
theorem Progress.Room.head_lt {progress : Progress}
    (hlevels : ∀ other ∈ level :: rest, other.Scaled a b) (h : progress.Room a b (level :: rest)) :
    level.quantity.value < 10 ^ (27 - b : ℤ) ∧
      level.quantity.value * level.price.value < 10 ^ (27 - (a + b : ℕ) : ℤ) := by
  obtain ⟨hquantity, hnotional⟩ := h.total_lt
  obtain ⟨-, hrest⟩ := List.forall_mem_cons.1 hlevels
  rw [totalQuantity_cons] at hquantity
  rw [totalNotional_cons] at hnotional
  exact ⟨by linarith [(stocked_of_scaled hrest).totalQuantity_nonneg],
    by linarith [totalNotional_nonneg (positive_of_scaled hrest)]⟩

/-- Where a walk for a quantity stands that has not rounded anything and will not have to. -/
structure Progress.Scaled (a b : ℕ) (levels : List Level) (progress : Progress) : Prop
    extends progress.Room a b levels where
  /-- What is still needed. -/
  remaining : Decimal.Scaled b (10 ^ (27 - b : ℤ)) progress.remaining

/-- What a walk records when it takes from a level what is needed, or all that the level has. -/
structure Passed (needed : ℚ) (level : Level) (start next : Progress) : Prop where
  /-- It costs the price of the level. -/
  notional : next.notional.value =
    start.notional.value + min needed level.quantity.value * level.price.value
  /-- This is the last price so far. -/
  worstPrice : next.worstPrice = level.price
  /-- The level counts. -/
  levelsTaken : next.levelsTaken = start.levelsTaken + 1

/-- A walk for a quantity before and after it takes what it can from a level. -/
structure Advanced (level : Level) (start next : Progress) : Prop
    extends Passed start.remaining.value level start next where
  /-- The level gives what is needed, or all that it has. -/
  remaining : next.remaining.value =
    start.remaining.value - min start.remaining.value level.quantity.value
  /-- That much is added to the quantity. -/
  quantity : next.quantity.value =
    start.quantity.value + min start.remaining.value level.quantity.value

variable {progress start next last : Progress}

/-- How much is taken from a level is not rounded, only what it costs may be. -/
theorem exists_take (hb : b ≤ 1000) (hfinite : level.quantity.isFinite = true)
    (hlevel : Decimal.HasPlaces b level.quantity.value) (hpos : 0 < level.quantity.value)
    {remaining : Decimal} (hremaining : Decimal.Scaled b (10 ^ (27 - b : ℤ)) remaining) :
    ∃ taken left, Exactly (min remaining.value level.quantity.value) taken ∧
      Exactly (remaining.value - min remaining.value level.quantity.value) left ∧
      take .quantity remaining level =
        (taken.mul level.price).map fun spent => (taken, spent, left) := by
  have hplaces := hremaining.hasPlaces.min hlevel
  have hnonneg : 0 ≤ min remaining.value level.quantity.value := le_min hremaining.nonneg hpos.le
  obtain ⟨taken, hmin, htaken⟩ := min_returns hremaining.isFinite hfinite
  -- the difference has no more decimals than both numbers, so it is not rounded
  have hrest : Returns (remaining.sub taken)
      (Exactly (remaining.value - min remaining.value level.quantity.value)) := by
    rw [← htaken.2]
    refine (sub_computes hremaining.isFinite htaken.1).exactly b ?_ hb ?_
    · rw [htaken.2]
      exact hremaining.hasPlaces.sub hplaces
    · rw [htaken.2, abs_of_nonneg (sub_nonneg.2 (min_le_left _ _))]
      exact (sub_le_self _ hnonneg).trans_lt hremaining.lt_limit
  obtain ⟨left, hsub, hleft⟩ := hrest
  refine ⟨taken, left, ⟨htaken.1, htaken.2⟩, hleft, ?_⟩
  show Decimal.min remaining level.quantity >>= _ = _
  rw [hmin]
  show taken.mul level.price >>= (fun spent => remaining.sub taken >>= fun left =>
    pure (taken, spent, left)) = _
  rw [hsub]
  cases taken.mul level.price <;> rfl

/-- What is taken from a level is not rounded. -/
theorem take_exact (hab : a + b ≤ 1000) (hlevel : level.Scaled a b) {remaining : Decimal}
    (hremaining : Decimal.Scaled b (10 ^ (27 - b : ℤ)) remaining)
    (hnotional : level.quantity.value * level.price.value < 10 ^ (27 - (a + b : ℕ) : ℤ)) :
    Returns (take .quantity remaining level) fun r =>
      Exactly (min remaining.value level.quantity.value) r.1 ∧
        Exactly (min remaining.value level.quantity.value * level.price.value) r.2.1 ∧
        Exactly (remaining.value - min remaining.value level.quantity.value) r.2.2 := by
  obtain ⟨taken, left, htaken, hleft, htake⟩ := exists_take (by omega) hlevel.quantity_isFinite
    hlevel.quantity hlevel.quantity_pos hremaining
  have hnonneg : 0 ≤ min remaining.value level.quantity.value :=
    le_min hremaining.nonneg hlevel.quantity_pos.le
  have hspent : Returns (taken.mul level.price)
      (Exactly (min remaining.value level.quantity.value * level.price.value)) := by
    rw [← htaken.value_eq]
    refine (mul_computes htaken.isFinite hlevel.price_isFinite).exactly (a + b) ?_ hab ?_
    · rw [htaken.value_eq, add_comm]
      exact (hremaining.hasPlaces.min hlevel.quantity).mul hlevel.price
    · rw [htaken.value_eq, abs_of_nonneg (mul_nonneg hnonneg hlevel.price_pos.le)]
      exact (mul_le_mul_of_nonneg_right (min_le_right _ _) hlevel.price_pos.le).trans_lt hnotional
  rw [htake]
  exact .map (hspent.mono fun spent hspent => ⟨htaken, hspent, hleft⟩)

/-- To take from one more level in a walk for a quantity needs no rounding. -/
theorem advance_exact (hab : a + b ≤ 1000) (hlevels : ∀ other ∈ level :: rest, other.Scaled a b)
    (h : progress.Scaled a b (level :: rest)) :
    Returns (progress.advance .quantity level) fun next =>
      next.Scaled a b rest ∧ Advanced level progress next := by
  obtain ⟨hlevel, hrest⟩ := List.forall_mem_cons.1 hlevels
  have hroom := (stocked_of_scaled hrest).totalQuantity_nonneg
  have hroom' := totalNotional_nonneg (positive_of_scaled hrest)
  have hquantity := h.quantity
  have hnotional := h.notional
  rw [totalQuantity_cons] at hquantity
  rw [totalNotional_cons] at hnotional
  refine .bind (take_exact hab hlevel h.remaining (h.head_lt hlevels).2)
    fun (taken, spent, left) hserved => ?_
  obtain ⟨htaken, hspent, hleft⟩ := hserved
  -- how much is taken, in value and in cost
  have hplaces := h.remaining.hasPlaces.min hlevel.quantity
  have hnonneg : 0 ≤ min progress.remaining.value level.quantity.value :=
    le_min h.remaining.nonneg hlevel.quantity_pos.le
  have hle : min progress.remaining.value level.quantity.value ≤ level.quantity.value :=
    min_le_right _ _
  have hcostPlaces : Decimal.HasPlaces (a + b)
      (min progress.remaining.value level.quantity.value * level.price.value) :=
    add_comm b a ▸ hplaces.mul hlevel.price
  refine .bind (hquantity.add_returns (by omega) htaken hplaces hnonneg hle hroom)
    fun sum ⟨hsum, hsumScaled⟩ => ?_
  refine .bind (hnotional.add_returns hab hspent hcostPlaces
    (mul_nonneg hnonneg hlevel.price_pos.le)
    (mul_le_mul_of_nonneg_right hle hlevel.price_pos.le) hroom')
    fun value ⟨hvalue, hvalueScaled⟩ => .ok ⟨⟨⟨hsumScaled, hvalueScaled⟩, ?_⟩, ?_⟩
  · refine ⟨hleft.isFinite, ?_, ?_, ?_⟩ <;> simp only [hleft.value_eq]
    · exact h.remaining.hasPlaces.sub hplaces
    · exact sub_nonneg.2 (min_le_left _ _)
    · exact (sub_le_self _ hnonneg).trans_lt h.remaining.lt_limit
  · exact ⟨⟨hvalue, rfl, rfl⟩, hleft.value_eq, hsum⟩

/-! ## All levels -/

/-- What a walk records when it takes a quantity from levels in turn. -/
structure Traversed (needed : ℚ) (levels : List Level) (start last : Progress) : Prop where
  /-- What is taken from the levels is added to the value. -/
  notional : last.notional.value = start.notional.value + worth levels (inTurn needed levels)
  /-- The price is that of the last level that is needed. -/
  worstPrice : last.worstPrice =
    (((levels.take (levelsFor needed levels)).getLast?).map (·.price)).getD start.worstPrice
  /-- The levels that are needed count. -/
  levelsTaken : last.levelsTaken = start.levelsTaken + levelsFor needed levels

theorem Traversed.nil (needed : ℚ) (start : Progress) : Traversed needed [] start start := by
  constructor <;> simp [worth, levelsFor]

/-- Nothing changes where nothing is needed. -/
theorem Traversed.zero (hstocked : Stocked levels) (start : Progress) :
    Traversed 0 levels start start := by
  constructor <;> simp [worth, weighted_inTurn_zero hstocked, levelsFor_of_nonpos le_rfl]

/-- A quantity is taken from a level, and what is needed then from the others. -/
theorem Traversed.cons {needed : ℚ} (hneeded : 0 < needed) (hfirst : Passed needed level start next)
    (hothers : Traversed (needed - min needed level.quantity.value) rest next last) :
    Traversed needed (level :: rest) start last := by
  have hcount := @levelsFor_cons level rest _ hneeded
  refine ⟨?_, ?_, ?_⟩
  · rw [hothers.notional, hfirst.notional, worth, worth, inTurn, weighted_cons]
    ring
  · rw [hcount, List.take_succ_cons, List.getLast?_cons, hothers.worstPrice, hfirst.worstPrice]
    cases (rest.take _).getLast? <;> rfl
  · rw [hcount, hothers.levelsTaken, hfirst.levelsTaken]
    ring

/-- A walk stops where nothing is needed any more. -/
theorem walk_of_done {target : FillTarget} (h : progress.remaining.isFinite = true)
    (hle : progress.remaining.value ≤ 0) : walk target levels progress = .ok progress := by
  cases levels with
  | nil => rfl
  | cons level rest =>
    rw [walk, le_zero_eq h, decide_eq_true hle]
    rfl

/-- A walk for a quantity before and after it goes along levels. -/
structure Walked (levels : List Level) (start last : Progress) : Prop
    extends Traversed start.remaining.value levels start last where
  /-- The levels give what is needed, or all that they have. -/
  remaining : last.remaining.value =
    start.remaining.value - min start.remaining.value (totalQuantity levels)
  /-- That much is added to the quantity. -/
  quantity : last.quantity.value =
    start.quantity.value + min start.remaining.value (totalQuantity levels)

theorem Walked.nil (h : 0 ≤ start.remaining.value) : Walked [] start start :=
  ⟨.nil _ _, by simp [h], by simp [h]⟩

/-- Nothing changes where nothing is needed. -/
theorem Walked.of_done (hstocked : Stocked levels) (h : start.remaining.value = 0) :
    Walked levels start start :=
  ⟨h ▸ .zero hstocked start, by simp [h, hstocked.totalQuantity_nonneg],
    by simp [h, hstocked.totalQuantity_nonneg]⟩

/-- A walk goes along a level and then along the others. -/
theorem Walked.cons (hstocked : Stocked (level :: rest)) (hneeded : 0 < start.remaining.value)
    (hfirst : Advanced level start next) (hothers : Walked rest next last) :
    Walked (level :: rest) start last := by
  have hrest := hstocked.tail.totalQuantity_nonneg
  refine ⟨.cons hneeded hfirst.toPassed (hfirst.remaining ▸ hothers.toTraversed), ?_, ?_⟩
  · rw [totalQuantity_cons, min_add_eq hrest, hothers.remaining, hfirst.remaining]
    ring
  · rw [totalQuantity_cons, min_add_eq hrest, hothers.quantity, hfirst.quantity, hfirst.remaining]
    ring

/-- Sums that leave room for levels leave it also if nothing more is added. -/
theorem Progress.Room.done (hlevels : ∀ level ∈ levels, level.Scaled a b)
    (h : progress.Room a b levels) : progress.Room a b [] := by
  have htotal := (stocked_of_scaled hlevels).totalQuantity_nonneg
  have htotal' := totalNotional_nonneg (positive_of_scaled hlevels)
  refine ⟨⟨h.quantity.isFinite, h.quantity.hasPlaces, h.quantity.nonneg, ?_⟩,
    ⟨h.notional.isFinite, h.notional.hasPlaces, h.notional.nonneg, ?_⟩⟩
  · rw [totalQuantity_nil]
    linarith [h.quantity.lt_limit]
  · rw [totalNotional_nil]
    linarith [h.notional.lt_limit]

/-- A quantity with room above it is not very large. -/
theorem Progress.Room.quantity_between (hlevels : ∀ level ∈ levels, level.Scaled a b)
    (h : progress.Room a b levels) :
    Between progress.quantity.value (10 ^ 27) progress.quantity := by
  have htotal := (stocked_of_scaled hlevels).totalQuantity_nonneg
  have hle : (10 : ℚ) ^ (27 - b : ℤ) ≤ 10 ^ 27 := by
    rw [← zpow_natCast]
    exact zpow_le_zpow_right₀ (by norm_num) (by omega)
  exact ⟨h.quantity.isFinite, le_rfl, by linarith [h.quantity.lt_limit]⟩

/-- A value with room above it is not very large. -/
theorem Progress.Room.notional_between (hlevels : ∀ level ∈ levels, level.Scaled a b)
    (h : progress.Room a b levels) : Between 0 (10 ^ 27) progress.notional := by
  have htotal := totalNotional_nonneg (positive_of_scaled hlevels)
  have hle : (10 : ℚ) ^ (27 - (a + b : ℕ) : ℤ) ≤ 10 ^ 27 := by
    rw [← zpow_natCast]
    exact zpow_le_zpow_right₀ (by norm_num) (by omega)
  exact ⟨h.notional.isFinite, h.notional.nonneg, by linarith [h.notional.lt_limit]⟩

/-- A walk rounds nothing. -/
theorem walk_exact (hab : a + b ≤ 1000) (hlevels : ∀ level ∈ levels, level.Scaled a b)
    (h : progress.Scaled a b levels) :
    Returns (walk .quantity levels progress) fun last =>
      last.Scaled a b [] ∧ Walked levels progress last := by
  -- on the levels that are left
  induction levels generalizing progress with
  | nil => exact .ok ⟨h, .nil h.remaining.nonneg⟩
  | cons level rest ih =>
    have hstocked := stocked_of_scaled hlevels
    obtain ⟨hlevel, hrest⟩ := List.forall_mem_cons.1 hlevels
    refine .bind (le_zero_returns h.remaining.isFinite) fun done hdone => ?_
    cases done with
    | true =>
      exact .ok ⟨⟨h.toRoom.done hlevels, h.remaining⟩,
        .of_done hstocked (le_antisymm (hdone.1 rfl) h.remaining.nonneg)⟩
    | false =>
      have hneeded : 0 < progress.remaining.value := by simpa using hdone
      refine .bind (advance_exact hab hlevels h) fun next ⟨hnext, hfirst⟩ => ?_
      exact (ih hrest hnext).mono fun last hlast =>
        ⟨hlast.1, hlast.2.cons hstocked hneeded hfirst⟩

end Fill

end OrderTicket
