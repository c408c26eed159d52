import Mathlib.Tactic.FieldSimp
import OrderTicket.Proofs.Book.Allocation

/-!
# What an amount comes to

An amount of the quote currency is spent on one level after another, as a quantity is taken from
them. No number is rounded here. The quantity that an amount comes to is worth that amount again,
and the worth of a quantity comes to that quantity.

* `quantityFor`: the quantity that an amount comes to.
* `worth_inTurn_quantityFor`, `quantityFor_worth`: the two ways of taking from levels undo each
  other.
* `le_totalNotional_take_iff`: the same levels are needed for an amount and for its quantity.
-/

namespace OrderTicket

/-- The quantity that an amount of the quote currency comes to when it is spent on levels in
turn. -/
def quantityFor : ℚ → List Level → ℚ
  | _, [] => 0
  | amount, level :: rest =>
    if amount ≤ level.quantity.value * level.price.value then amount / level.price.value
    else
      level.quantity.value + quantityFor (amount - level.quantity.value * level.price.value) rest

variable {level : Level} {levels rest : List Level} {amount needed : ℚ}

/-- Levels are worth something. -/
theorem worth_nonneg (h : ∀ level ∈ levels, level.Positive) (hneeded : 0 ≤ needed) :
    0 ≤ worth levels (inTurn needed levels) := by
  have hle : 0 * (inTurn needed levels).sum ≤ worth levels (inTurn needed levels) :=
    (allocation_inTurn (stocked_of_positive h) hneeded).le_weighted
      fun level hlevel => (h level hlevel).price_pos.le
  rwa [zero_mul] at hle

@[simp]
theorem quantityFor_nil : quantityFor amount [] = 0 :=
  rfl

/-- An amount that a level is worth is spent there. -/
theorem quantityFor_of_le (h : amount ≤ level.quantity.value * level.price.value) :
    quantityFor amount (level :: rest) = amount / level.price.value := by
  rw [quantityFor, if_pos h]

/-- Of a larger amount the rest is spent on the other levels. -/
theorem quantityFor_of_lt (h : level.quantity.value * level.price.value < amount) :
    quantityFor amount (level :: rest) =
      level.quantity.value +
        quantityFor (amount - level.quantity.value * level.price.value) rest := by
  rw [quantityFor, if_neg (not_le.2 h)]

/-- No amount comes to no quantity. -/
theorem quantityFor_zero (h : ∀ level ∈ levels, level.Positive) : quantityFor 0 levels = 0 := by
  cases levels with
  | nil => rfl
  | cons level rest =>
    have hlevel := h level List.mem_cons_self
    rw [quantityFor_of_le (mul_pos hlevel.quantity_pos hlevel.price_pos).le, zero_div]

/-- The quantity that an amount comes to is not negative. -/
theorem quantityFor_nonneg (h : ∀ level ∈ levels, level.Positive) (hamount : 0 ≤ amount) :
    0 ≤ quantityFor amount levels := by
  induction levels generalizing amount with
  | nil => exact le_rfl
  | cons level rest ih =>
    obtain ⟨hlevel, hrest⟩ := List.forall_mem_cons.1 h
    rcases le_or_gt amount (level.quantity.value * level.price.value) with hle | hlt
    · rw [quantityFor_of_le hle]
      exact div_nonneg hamount hlevel.price_pos.le
    · rw [quantityFor_of_lt hlt]
      exact add_nonneg hlevel.quantity_pos.le (ih hrest (sub_nonneg.2 hlt.le))

/-- The quantity that a positive amount comes to is positive if there are levels. -/
theorem quantityFor_pos (h : ∀ level ∈ levels, level.Positive) (hne : levels ≠ [])
    (hamount : 0 < amount) : 0 < quantityFor amount levels := by
  obtain ⟨level, rest, rfl⟩ := List.exists_cons_of_ne_nil hne
  obtain ⟨hlevel, hrest⟩ := List.forall_mem_cons.1 h
  rcases le_or_gt amount (level.quantity.value * level.price.value) with hle | hlt
  · rw [quantityFor_of_le hle]
    exact div_pos hamount hlevel.price_pos
  · rw [quantityFor_of_lt hlt]
    exact add_pos_of_pos_of_nonneg hlevel.quantity_pos
      (quantityFor_nonneg hrest (sub_nonneg.2 hlt.le))

/-- Of what an amount comes to, the first level gives what it can. -/
theorem min_quantityFor (amount : ℚ) (h : ∀ other ∈ level :: rest, other.Positive) :
    min (quantityFor amount (level :: rest)) level.quantity.value =
      min (amount / level.price.value) level.quantity.value := by
  obtain ⟨hlevel, hrest⟩ := List.forall_mem_cons.1 h
  rcases le_or_gt amount (level.quantity.value * level.price.value) with hle | hlt
  · rw [quantityFor_of_le hle]
  · rw [quantityFor_of_lt hlt, min_eq_right
      (le_add_of_nonneg_right (quantityFor_nonneg hrest (sub_nonneg.2 hlt.le))),
      min_eq_right ((lt_div_iff₀ hlevel.price_pos).2 hlt).le]

/-- What is taken from a level for an amount costs the amount, or what the level is worth. -/
theorem min_div_mul (h : level.Positive) :
    min (amount / level.price.value) level.quantity.value * level.price.value =
      min amount (level.quantity.value * level.price.value) := by
  rw [min_mul_of_nonneg _ _ h.price_pos.le, div_mul_cancel₀ _ h.price_pos.ne']

/-- The levels behind the first one give what the rest of the amount comes to. -/
theorem quantityFor_sub_min (amount : ℚ) (h : ∀ other ∈ level :: rest, other.Positive) :
    quantityFor amount (level :: rest) -
        min (quantityFor amount (level :: rest)) level.quantity.value =
      quantityFor (amount - min amount (level.quantity.value * level.price.value)) rest := by
  obtain ⟨hlevel, hrest⟩ := List.forall_mem_cons.1 h
  rcases le_or_gt amount (level.quantity.value * level.price.value) with hle | hlt
  · rw [quantityFor_of_le hle, min_eq_left ((div_le_iff₀ hlevel.price_pos).2 hle), min_eq_left hle,
      sub_self, sub_self, quantityFor_zero hrest]
  · rw [quantityFor_of_lt hlt, min_eq_right hlt.le, min_eq_right
      (le_add_of_nonneg_right (quantityFor_nonneg hrest (sub_nonneg.2 hlt.le))),
      add_sub_cancel_left]

/-- Levels are not worth more than they are. -/
theorem quantityFor_of_total_lt (h : ∀ level ∈ levels, level.Positive)
    (hlt : totalNotional levels < amount) : quantityFor amount levels = totalQuantity levels := by
  induction levels generalizing amount with
  | nil => rfl
  | cons level rest ih =>
    obtain ⟨hlevel, hrest⟩ := List.forall_mem_cons.1 h
    have htotal := totalNotional_nonneg hrest
    rw [totalNotional_cons] at hlt
    rw [quantityFor_of_lt (by linarith), totalQuantity_cons, ih hrest (by linarith)]

/-! ## Amounts and quantities -/

/-- The first level gives a quantity that it holds. -/
theorem worth_inTurn_of_le (hrest : Stocked rest) (hle : needed ≤ level.quantity.value) :
    worth (level :: rest) (inTurn needed (level :: rest)) = needed * level.price.value := by
  rw [worth, inTurn, weighted_cons, min_eq_left hle, sub_self, weighted_inTurn_zero hrest, add_zero]

/-- The first level gives all that it holds of a larger quantity. -/
theorem worth_inTurn_of_ge (hle : level.quantity.value ≤ needed) :
    worth (level :: rest) (inTurn needed (level :: rest)) =
      level.quantity.value * level.price.value +
        worth rest (inTurn (needed - level.quantity.value) rest) := by
  rw [worth, inTurn, weighted_cons, min_eq_right hle, worth]

/-- The quantity that an amount comes to is worth that amount, or all that the levels are worth. -/
theorem worth_inTurn_quantityFor (h : ∀ level ∈ levels, level.Positive) (hamount : 0 ≤ amount) :
    worth levels (inTurn (quantityFor amount levels) levels) =
      min amount (totalNotional levels) := by
  induction levels generalizing amount with
  | nil => simp [worth, hamount]
  | cons level rest ih =>
    obtain ⟨hlevel, hrest⟩ := List.forall_mem_cons.1 h
    -- the first level gives what it can, and the others what the rest of the amount comes to
    have hothers := ih hrest (sub_nonneg.2
      (min_le_left amount (level.quantity.value * level.price.value)))
    rw [worth] at hothers
    rw [worth, inTurn, weighted_cons, quantityFor_sub_min amount h, min_quantityFor amount h,
      min_div_mul hlevel, hothers, totalNotional_cons, min_add_eq (totalNotional_nonneg hrest)]

/-- The worth of a quantity comes to that quantity. -/
theorem quantityFor_worth (h : ∀ level ∈ levels, level.Positive) (hneeded : 0 ≤ needed)
    (hle : needed ≤ totalQuantity levels) :
    quantityFor (worth levels (inTurn needed levels)) levels = needed := by
  induction levels generalizing needed with
  | nil => exact le_antisymm hneeded hle
  | cons level rest ih =>
    obtain ⟨hlevel, hrest⟩ := List.forall_mem_cons.1 h
    rw [totalQuantity_cons] at hle
    rcases le_or_gt needed level.quantity.value with hfits | hlt
    · rw [worth_inTurn_of_le (stocked_of_positive hrest) hfits,
        quantityFor_of_le (mul_le_mul_of_nonneg_right hfits hlevel.price_pos.le),
        mul_div_cancel_right₀ _ hlevel.price_pos.ne']
    · have hleft := sub_pos.2 hlt
      have hih := ih hrest hleft.le (sub_le_iff_le_add'.2 hle)
      -- what is taken from the other levels is worth something, else it would come to nothing
      have hworth : 0 < worth rest (inTurn (needed - level.quantity.value) rest) := by
        refine (worth_nonneg hrest hleft.le).lt_of_ne fun hzero => ?_
        rw [← hzero, quantityFor_zero hrest] at hih
        exact hleft.ne hih
      rw [worth_inTurn_of_ge hlt.le, quantityFor_of_lt (lt_add_of_pos_right _ hworth),
        add_sub_cancel_left, hih, add_sub_cancel]

/-! ## The levels that are needed -/

/-- Some first levels are worth an amount if and only if they hold the quantity that it comes to. -/
theorem le_totalNotional_take_iff (h : ∀ level ∈ levels, level.Positive) (hamount : 0 < amount)
    (hle : amount ≤ totalNotional levels) (k : ℕ) :
    amount ≤ totalNotional (levels.take k) ↔
      quantityFor amount levels ≤ totalQuantity (levels.take k) := by
  -- on the levels, with one less of them to take: the amount loses what the first one is worth
  induction levels generalizing amount k with
  | nil => exact absurd hle (not_le.2 hamount)
  | cons level rest ih =>
    cases k with
    | zero =>
      rw [List.take_zero, totalNotional_nil, totalQuantity_nil]
      exact iff_of_false (not_le.2 hamount)
        (not_le.2 (quantityFor_pos h (List.cons_ne_nil _ _) hamount))
    | succ k =>
      obtain ⟨hlevel, hrest⟩ := List.forall_mem_cons.1 h
      have hsome : ∀ other ∈ rest.take k, other.Positive := fun other hother =>
        hrest other (List.mem_of_mem_take hother)
      rw [totalNotional_cons] at hle
      rw [List.take_succ_cons, totalNotional_cons, totalQuantity_cons]
      -- the first level alone is worth the amount, or both sides lose all of it
      rcases le_or_gt amount (level.quantity.value * level.price.value) with hfits | hlt
      · have hquantity := (stocked_of_positive hsome).totalQuantity_nonneg
        have hnotional := totalNotional_nonneg hsome
        rw [quantityFor_of_le hfits]
        have hdiv := (div_le_iff₀ hlevel.price_pos).2 hfits
        exact iff_of_true (by linarith) (by linarith)
      · have hih := ih hrest (sub_pos.2 hlt) (sub_le_iff_le_add'.2 hle) k
        rw [quantityFor_of_lt hlt, add_le_add_iff_left, ← hih, sub_le_iff_le_add']

/-- What the levels are worth does not come to more than they hold. -/
theorem quantityFor_le_totalQuantity (h : ∀ level ∈ levels, level.Positive) (hamount : 0 < amount)
    (hle : amount ≤ totalNotional levels) : quantityFor amount levels ≤ totalQuantity levels := by
  have hiff := le_totalNotional_take_iff h hamount hle levels.length
  rw [List.take_length] at hiff
  exact hiff.1 hle

/-- All levels are needed for all that they hold. -/
theorem levelsFor_totalQuantity (h : ∀ level ∈ levels, level.Positive) :
    levelsFor (totalQuantity levels) levels = levels.length := by
  induction levels with
  | nil => rfl
  | cons level rest ih =>
    obtain ⟨hlevel, hrest⟩ := List.forall_mem_cons.1 h
    have htotal := (stocked_of_positive hrest).totalQuantity_nonneg
    rw [totalQuantity_cons, levelsFor, if_neg (by linarith [hlevel.quantity_pos]),
      add_sub_cancel_left, ih hrest, List.length_cons]

end OrderTicket
