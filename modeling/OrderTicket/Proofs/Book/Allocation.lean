import Mathlib.Algebra.BigOperators.Ring.List
import Mathlib.Algebra.Order.BigOperators.Group.List
import Mathlib.Order.Bounds.Basic
import Mathlib.Tactic.Linarith
import OrderTicket.Book.Fill
import OrderTicket.Decimal.Value

/-!
# Taking from levels

What an order can take from the levels of a side, and what taking from one level after another comes
to. No number is rounded here. Among all ways of taking the same quantity, taking from the best
levels first is the best one: what another way leaves on a better level it has to take from a worse
one.

* `Allocation`: amounts that levels can give, `weighted` and `worth`: what they come to.
* `inTurn`: the amounts that are taken from one level after another, `levelsFor`: from how many.
* `weighted_inTurn_le`: no allocation of the same quantity has a lower weighted sum, if the levels
  are in the order of their weights.
* `isLeast_levelsFor`: fewer levels do not hold the quantity.
-/

namespace OrderTicket

/-- The total quantity of levels. -/
def totalQuantity (levels : List Level) : ℚ :=
  (levels.map (·.quantity.value)).sum

/-- The value of all that levels offer. -/
def totalNotional (levels : List Level) : ℚ :=
  (levels.map fun level => level.quantity.value * level.price.value).sum

/-- Amounts that levels can give, one for each level. -/
def Allocation (levels : List Level) (amounts : List ℚ) : Prop :=
  List.Forall₂ (fun level amount => 0 ≤ amount ∧ amount ≤ level.quantity.value) levels amounts

/-- The sum of amounts, each times a weight of its level. -/
def weighted (weight : Level → ℚ) (levels : List Level) (amounts : List ℚ) : ℚ :=
  (List.zipWith (fun level amount => amount * weight level) levels amounts).sum

/-- What amounts cost, or bring in. -/
def worth (levels : List Level) (amounts : List ℚ) : ℚ :=
  weighted (·.price.value) levels amounts

/-- The amounts taken from levels in turn until nothing is needed any more. -/
def inTurn : ℚ → List Level → List ℚ
  | _, [] => []
  | needed, level :: rest =>
    min needed level.quantity.value :: inTurn (needed - min needed level.quantity.value) rest

/-- The number of levels that something is taken from. -/
def levelsFor : ℚ → List Level → ℕ
  | _, [] => 0
  | needed, level :: rest =>
    if needed ≤ 0 then 0 else levelsFor (needed - level.quantity.value) rest + 1

variable {weight : Level → ℚ} {level : Level} {levels rest : List Level} {amount needed : ℚ}
  {amounts : List ℚ}

@[simp]
theorem totalQuantity_nil : totalQuantity [] = 0 :=
  rfl

@[simp]
theorem totalQuantity_cons :
    totalQuantity (level :: rest) = level.quantity.value + totalQuantity rest := by
  simp [totalQuantity]

@[simp]
theorem totalNotional_nil : totalNotional [] = 0 :=
  rfl

@[simp]
theorem totalNotional_cons :
    totalNotional (level :: rest) =
      level.quantity.value * level.price.value + totalNotional rest := by
  simp [totalNotional]

@[simp]
theorem weighted_nil : weighted weight [] amounts = 0 :=
  rfl

@[simp]
theorem weighted_cons :
    weighted weight (level :: rest) (amount :: amounts) =
      amount * weight level + weighted weight rest amounts := by
  simp [weighted]

/-- The negative of the weights gives the negative of the weighted sum. -/
theorem weighted_neg (weight : Level → ℚ) (levels : List Level) (amounts : List ℚ) :
    weighted (fun level => -weight level) levels amounts = -weighted weight levels amounts := by
  induction levels generalizing amounts with
  | nil => simp
  | cons level rest ih =>
    cases amounts with
    | nil => simp [weighted]
    | cons amount amounts =>
      rw [weighted_cons, weighted_cons, ih, mul_neg, neg_add]

/-- Levels that hold no negative quantity. -/
def Stocked (levels : List Level) : Prop :=
  ∀ level ∈ levels, 0 ≤ level.quantity.value

theorem Stocked.head (h : Stocked (level :: rest)) : 0 ≤ level.quantity.value :=
  h level List.mem_cons_self

theorem Stocked.tail (h : Stocked (level :: rest)) : Stocked rest :=
  fun level hlevel => h level (List.mem_cons_of_mem _ hlevel)

/-- The total quantity of stocked levels is not negative. -/
theorem Stocked.totalQuantity_nonneg (h : Stocked levels) : 0 ≤ totalQuantity levels :=
  List.sum_nonneg fun x hx => by
    obtain ⟨level, hlevel, rfl⟩ := List.mem_map.1 hx
    exact h level hlevel

/-- A level with a positive price and quantity. -/
structure Level.Positive (level : Level) : Prop where
  /-- The price is positive. -/
  price_pos : 0 < level.price.value
  /-- The quantity is positive. -/
  quantity_pos : 0 < level.quantity.value

theorem stocked_of_positive (h : ∀ level ∈ levels, level.Positive) : Stocked levels :=
  fun level hlevel => (h level hlevel).quantity_pos.le

/-- The total quantity of positive levels is positive if there are any. -/
theorem totalQuantity_pos (h : ∀ other ∈ level :: rest, other.Positive) :
    0 < totalQuantity (level :: rest) := by
  obtain ⟨hlevel, hrest⟩ := List.forall_mem_cons.1 h
  rw [totalQuantity_cons]
  exact add_pos_of_pos_of_nonneg hlevel.quantity_pos
    (stocked_of_positive hrest).totalQuantity_nonneg

/-- The total value of positive levels is not negative. -/
theorem totalNotional_nonneg (h : ∀ level ∈ levels, level.Positive) : 0 ≤ totalNotional levels :=
  List.sum_nonneg fun x hx => by
    obtain ⟨level, hlevel, rfl⟩ := List.mem_map.1 hx
    exact (mul_pos (h level hlevel).quantity_pos (h level hlevel).price_pos).le

/-- An allocation does not take a negative quantity. -/
theorem Allocation.sum_nonneg (h : Allocation levels amounts) : 0 ≤ amounts.sum := by
  induction h with
  | nil => simp
  | cons hamount _ ih =>
    rw [List.sum_cons]
    exact add_nonneg hamount.1 ih

/-- What levels give is worth at least the lowest weight. -/
theorem Allocation.le_weighted (h : Allocation levels amounts) {floor : ℚ}
    (hfloor : ∀ level ∈ levels, floor ≤ weight level) :
    floor * amounts.sum ≤ weighted weight levels amounts := by
  induction h with
  | nil => simp
  | cons hamount _ ih =>
    obtain ⟨hhead, hrest⟩ := List.forall_mem_cons.1 hfloor
    rw [List.sum_cons, weighted_cons, mul_add, mul_comm floor]
    exact add_le_add (mul_le_mul_of_nonneg_left hhead hamount.1) (ih hrest)

/-- Amounts can be scaled down. -/
theorem Allocation.scale (h : Allocation levels amounts) {c : ℚ} (hc : 0 ≤ c) (hc' : c ≤ 1) :
    Allocation levels (amounts.map (c * ·)) := by
  induction h with
  | nil => exact .nil
  | cons hamount _ ih =>
    exact .cons ⟨mul_nonneg hc hamount.1,
      (mul_le_of_le_one_left hamount.1 hc').trans hamount.2⟩ ih

/-- The weighted sum of scaled amounts is scaled as they are. -/
theorem weighted_scale (weight : Level → ℚ) (levels : List Level) (amounts : List ℚ) (c : ℚ) :
    weighted weight levels (amounts.map (c * ·)) = c * weighted weight levels amounts := by
  induction levels generalizing amounts with
  | nil => simp
  | cons level rest ih =>
    cases amounts with
    | nil => simp [weighted]
    | cons amount amounts =>
      rw [List.map_cons, weighted_cons, weighted_cons, ih, mul_add, mul_assoc]

/-! ## Levels in turn -/

/-- What is taken from two stocks together is taken from the first one, and the rest from the
second. -/
theorem min_add_eq {stock others : ℚ} (hothers : 0 ≤ others) :
    min needed (stock + others) = min needed stock + min (needed - min needed stock) others := by
  -- either the first stock is enough, or it gives everything
  rcases le_total needed stock with hle | hle
  · rw [min_eq_left hle, sub_self, min_eq_left hothers, min_eq_left (by linarith), add_zero]
  · rw [min_eq_right hle, ← min_add_add_left, add_sub_cancel]

/-- Levels in turn give what is needed, or all that they have. -/
theorem sum_inTurn (h : Stocked levels) (hneeded : 0 ≤ needed) :
    (inTurn needed levels).sum = min needed (totalQuantity levels) := by
  induction levels generalizing needed with
  | nil => simp [inTurn, hneeded]
  | cons level rest ih =>
    rw [inTurn, List.sum_cons, totalQuantity_cons, min_add_eq h.tail.totalQuantity_nonneg,
      ih h.tail (sub_nonneg.2 (min_le_left needed _))]

/-- To take from stocked levels in turn is an allocation. -/
theorem allocation_inTurn (h : Stocked levels) (hneeded : 0 ≤ needed) :
    Allocation levels (inTurn needed levels) := by
  induction levels generalizing needed with
  | nil => exact .nil
  | cons level rest ih =>
    exact .cons ⟨le_min hneeded h.head, min_le_right _ _⟩
      (ih h.tail (sub_nonneg.2 (min_le_left needed _)))

/-- Nothing is taken if nothing is needed. -/
theorem weighted_inTurn_zero (h : Stocked levels) :
    weighted weight levels (inTurn 0 levels) = 0 := by
  induction levels with
  | nil => rfl
  | cons level rest ih =>
    rw [inTurn, min_eq_left h.head, sub_self, weighted_cons, zero_mul, ih h.tail, add_zero]

/-- Of all allocations of at least the same quantity, the one in turn has the lowest weighted sum,
if the lower weights come first and weights count from a level below them. -/
theorem weighted_inTurn_sub_le (h : Stocked levels)
    (hsorted : levels.Pairwise fun first later => weight first ≤ weight later) {floor : ℚ}
    (hfloor : ∀ level ∈ levels, floor ≤ weight level) (hneeded : 0 ≤ needed)
    (hamounts : Allocation levels amounts) (hsum : (inTurn needed levels).sum ≤ amounts.sum) :
    weighted weight levels (inTurn needed levels) - floor * (inTurn needed levels).sum ≤
      weighted weight levels amounts - floor * amounts.sum := by
  induction hamounts generalizing needed floor with
  | nil => simp [inTurn]
  | @cons level amount rest amounts hamount hrest ih =>
    rw [List.pairwise_cons] at hsorted
    have hleft : 0 ≤ needed - min needed level.quantity.value :=
      sub_nonneg.2 (min_le_left needed _)
    rw [inTurn, List.sum_cons, List.sum_cons] at hsum
    -- the other levels give at least as much, since the first one gives no more than it can
    have hothers :
        (inTurn (needed - min needed level.quantity.value) rest).sum ≤ amounts.sum := by
      rcases le_total needed level.quantity.value with hle | hle
      · rw [min_eq_left hle, sub_self, sum_inTurn h.tail le_rfl,
          min_eq_left h.tail.totalQuantity_nonneg]
        exact Allocation.sum_nonneg hrest
      · rw [min_eq_right hle] at hsum ⊢
        linarith [hamount.2]
    -- for the other levels, weights count from that of the first one
    have hih := ih h.tail hsorted.2 hsorted.1 hleft hothers
    have hmore := mul_nonneg (sub_nonneg.2 (hfloor level List.mem_cons_self)) (sub_nonneg.2 hsum)
    rw [inTurn, List.sum_cons, List.sum_cons, weighted_cons, weighted_cons]
    linarith

/-- Taking from the levels of the lowest weights first has the lowest weighted sum. -/
theorem weighted_inTurn_le (h : Stocked levels)
    (hsorted : levels.Pairwise fun first later => weight first ≤ weight later)
    (hneeded : 0 ≤ needed) (hamounts : Allocation levels amounts)
    (hsum : amounts.sum = (inTurn needed levels).sum) :
    weighted weight levels (inTurn needed levels) ≤ weighted weight levels amounts := by
  cases levels with
  | nil => simp
  | cons level rest =>
    have hfloor : ∀ other ∈ level :: rest, weight level ≤ weight other :=
      List.forall_mem_cons.2 ⟨le_rfl, (List.pairwise_cons.1 hsorted).1⟩
    have hle := weighted_inTurn_sub_le h hsorted hfloor hneeded hamounts hsum.ge
    rwa [hsum, sub_le_sub_iff_right] at hle

/-- A larger quantity has no lower average weight: a part of it is one way of taking the smaller
quantity. -/
theorem weighted_inTurn_div_mono (h : Stocked levels)
    (hsorted : levels.Pairwise fun first later => weight first ≤ weight later) {more : ℚ}
    (hpos : 0 < min needed (totalQuantity levels)) (hle : needed ≤ more) :
    weighted weight levels (inTurn needed levels) / min needed (totalQuantity levels) ≤
      weighted weight levels (inTurn more levels) / min more (totalQuantity levels) := by
  have hneeded : 0 ≤ needed := (lt_min_iff.1 hpos).1.le
  have hmin : min needed (totalQuantity levels) ≤ min more (totalQuantity levels) :=
    min_le_min_right _ hle
  have hpos' := hpos.trans_le hmin
  -- the part of the larger quantity that is as large as the smaller one
  have hscale := (allocation_inTurn h (hneeded.trans hle)).scale
    (div_nonneg hpos.le hpos'.le) (div_le_one_of_le₀ hmin hpos'.le)
  have hsum : ((inTurn more levels).map
      (min needed (totalQuantity levels) / min more (totalQuantity levels) * ·)).sum =
        (inTurn needed levels).sum := by
    rw [List.sum_map_mul_left, List.map_id', sum_inTurn h (hneeded.trans hle),
      sum_inTurn h hneeded, div_mul_cancel₀ _ hpos'.ne']
  have hbest := weighted_inTurn_le h hsorted hneeded hscale hsum
  rw [weighted_scale, div_mul_comm] at hbest
  rwa [div_le_iff₀ hpos]

/-! ## The levels that are needed -/

/-- No level is needed where nothing is needed. -/
theorem levelsFor_of_nonpos (hneeded : needed ≤ 0) : levelsFor needed levels = 0 := by
  cases levels <;> simp [levelsFor, hneeded]

theorem levelsFor_le_length : levelsFor needed levels ≤ levels.length := by
  induction levels generalizing needed with
  | nil => exact le_rfl
  | cons level rest ih =>
    rw [levelsFor]
    split
    · exact Nat.zero_le _
    · exact Nat.succ_le_succ ih

/-- More levels are needed for more. -/
theorem levelsFor_mono {more : ℚ} (hle : needed ≤ more) :
    levelsFor needed levels ≤ levelsFor more levels := by
  induction levels generalizing needed more with
  | nil => exact le_rfl
  | cons level rest ih =>
    rcases le_or_gt needed 0 with hzero | hpos
    · rw [levelsFor_of_nonpos hzero]
      exact Nat.zero_le _
    · rw [levelsFor, levelsFor, if_neg (not_le.2 hpos), if_neg (not_le.2 (hpos.trans_le hle))]
      exact Nat.succ_le_succ (ih (sub_le_sub_right hle _))

/-- What one level leaves needed decides how many more are. -/
theorem levelsFor_cons (hneeded : 0 < needed) :
    levelsFor needed (level :: rest) =
      levelsFor (needed - min needed level.quantity.value) rest + 1 := by
  rw [levelsFor, if_neg (not_le.2 hneeded)]
  rcases le_total needed level.quantity.value with hle | hle
  · rw [min_eq_left hle, levelsFor_of_nonpos (sub_nonpos.2 hle),
      levelsFor_of_nonpos (sub_self needed).le]
  · rw [min_eq_right hle]

/-- Something is taken from a first level, and from a last one. -/
theorem exists_last_levelsFor (hneeded : 0 < needed) (hne : levels ≠ []) :
    ∃ last, (levels.take (levelsFor needed levels)).getLast? = some last ∧
      levels[levelsFor needed levels - 1]? = some last := by
  have hle : levelsFor needed levels ≤ levels.length := levelsFor_le_length
  have hpos : 0 < levelsFor needed levels := by
    obtain ⟨level, rest, rfl⟩ := List.exists_cons_of_ne_nil hne
    rw [levelsFor_cons hneeded]
    exact Nat.succ_pos _
  have hlt : levelsFor needed levels - 1 < levels.length := by omega
  refine ⟨levels[levelsFor needed levels - 1], ?_, List.getElem?_eq_getElem hlt⟩
  rw [List.getLast?_take, if_neg hpos.ne', List.getElem?_eq_getElem hlt]
  rfl

/-- The levels that something is taken from are the fewest that hold what is needed. -/
theorem isLeast_levelsFor (h : needed ≤ totalQuantity levels) :
    IsLeast {k | needed ≤ totalQuantity (levels.take k)} (levelsFor needed levels) := by
  -- on the levels: the first one counts, and the others serve what it leaves
  induction levels generalizing needed with
  | nil => exact ⟨by simpa [levelsFor] using h, fun k _ => by simp [levelsFor]⟩
  | cons level rest ih =>
    by_cases hneeded : needed ≤ 0
    · rw [levelsFor_of_nonpos hneeded]
      exact ⟨by simpa using hneeded, fun k _ => k.zero_le⟩
    · rw [levelsFor, if_neg hneeded]
      rw [totalQuantity_cons] at h
      have hothers : needed - level.quantity.value ≤ totalQuantity rest := sub_le_iff_le_add'.2 h
      obtain ⟨hmem, hleast⟩ := ih hothers
      -- without the first level no number of levels is enough, so both numbers are one more
      refine ⟨?_, fun k hk => ?_⟩
      · change needed ≤ totalQuantity ((level :: rest).take _)
        rw [List.take_succ_cons, totalQuantity_cons]
        exact sub_le_iff_le_add'.1 hmem
      · cases k with
        | zero => exact absurd (by simpa using hk) hneeded
        | succ k =>
          change needed ≤ totalQuantity ((level :: rest).take _) at hk
          rw [List.take_succ_cons, totalQuantity_cons] at hk
          exact Nat.succ_le_succ (hleast (sub_le_iff_le_add'.2 hk))

/-- All levels are needed if they do not hold enough. -/
theorem levelsFor_of_lt (hstocked : Stocked levels) (h : totalQuantity levels < needed) :
    levelsFor needed levels = levels.length := by
  induction levels generalizing needed with
  | nil => rfl
  | cons level rest ih =>
    have hpos := hstocked.totalQuantity_nonneg.trans_lt h
    rw [totalQuantity_cons] at h
    rw [levelsFor, if_neg (not_le.2 hpos), ih hstocked.tail (by linarith), List.length_cons]

/-- Where no level is needed nothing is taken. -/
theorem inTurn_of_getLast?_eq_none (h : Stocked levels) (hneeded : 0 ≤ needed)
    (hnone : (levels.take (levelsFor needed levels)).getLast? = none) :
    weighted weight levels (inTurn needed levels) = 0 ∧ (inTurn needed levels).sum = 0 := by
  cases levels with
  | nil => exact ⟨rfl, rfl⟩
  | cons level rest =>
    have hzero : needed = 0 := by
      refine le_antisymm (not_lt.1 fun hpos => ?_) hneeded
      simp [levelsFor_cons hpos] at hnone
    rw [hzero, sum_inTurn h le_rfl, min_eq_left h.totalQuantity_nonneg]
    exact ⟨weighted_inTurn_zero h, rfl⟩

/-- What is taken in turn is worth at most the weight of the last level that it is taken from. -/
theorem weighted_inTurn_le_last (h : Stocked levels)
    (hsorted : levels.Pairwise fun first later => weight first ≤ weight later)
    (hneeded : 0 ≤ needed) {last : Level}
    (hlast : (levels.take (levelsFor needed levels)).getLast? = some last) :
    weighted weight levels (inTurn needed levels) ≤ weight last * (inTurn needed levels).sum := by
  induction levels generalizing needed last with
  | nil => simp at hlast
  | cons level rest ih =>
    rw [List.pairwise_cons] at hsorted
    rcases hneeded.eq_or_lt with rfl | hpos
    · simp [levelsFor_of_nonpos le_rfl] at hlast
    rw [levelsFor_cons hpos, List.take_succ_cons, List.getLast?_cons, Option.some.injEq] at hlast
    have hleft : 0 ≤ needed - min needed level.quantity.value :=
      sub_nonneg.2 (min_le_left needed _)
    have htaken : 0 ≤ min needed level.quantity.value := le_min hneeded h.head
    rw [inTurn, weighted_cons, List.sum_cons, mul_add, mul_comm (weight last)]
    cases hrest : (rest.take
        (levelsFor (needed - min needed level.quantity.value) rest)).getLast? with
    | some other =>
      -- the last level is one of the others, which all have at least the weight of the first one
      obtain rfl : other = last := by simpa [hrest] using hlast
      have hmem : other ∈ rest := List.mem_of_mem_take (List.mem_of_getLast? hrest)
      exact add_le_add (mul_le_mul_of_nonneg_left (hsorted.1 other hmem) htaken)
        (ih h.tail hsorted.2 hleft hrest)
    | none =>
      -- nothing is taken from the others
      obtain rfl : level = last := by simpa [hrest] using hlast
      obtain ⟨hweight, hsum⟩ := inTurn_of_getLast?_eq_none h.tail hleft hrest
      rw [hweight, hsum, mul_zero]

end OrderTicket
