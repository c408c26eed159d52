import OrderTicket.Proofs.Book.Best

/-!
# What a side offers at its prices

How much is offered at which prices decides everything about a side but the number of its levels:
where an order of a quantity ends, and what it is worth. So levels of the same price can be taken
together or apart, and the order of levels does not matter as long as the side is sorted.

* `offered`: what levels offer, counted by a function of the price; `held`: the quantity at some
  prices.
* `Fill.Reached`, `Fill.reached_of_last`: the price at which an order ends, in terms of what is
  held.
* `Fill.Reached.eq`, `Fill.Reached.within_iff`: there is one such price, and it lies within a limit
  exactly if enough is held within it.
* `Fill.sign_mul_worth`: what an order is worth.
-/

namespace OrderTicket

/-- What levels offer, with a function of its price for each unit. -/
def offered (f : ℚ → ℚ) (levels : List Level) : ℚ :=
  (levels.map fun level => level.quantity.value * f level.price.value).sum

/-- The quantity of the levels at some prices. -/
def held (p : ℚ → Prop) [DecidablePred p] (levels : List Level) : ℚ :=
  totalQuantity (levels.filter fun level => p level.price.value)

section Offered

variable {f : ℚ → ℚ} {p q : ℚ → Prop} [DecidablePred p] [DecidablePred q] {level : Level}
  {levels rest other : List Level}

@[simp]
theorem offered_nil : offered f [] = 0 :=
  rfl

@[simp]
theorem offered_cons :
    offered f (level :: rest) = level.quantity.value * f level.price.value + offered f rest := by
  simp [offered]

theorem offered_append (f : ℚ → ℚ) (levels other : List Level) :
    offered f (levels ++ other) = offered f levels + offered f other := by
  simp [offered]

/-- What is offered does not depend on the order of the levels. -/
theorem offered_perm (f : ℚ → ℚ) (h : levels.Perm other) : offered f levels = offered f other :=
  (h.map _).sum_eq

/-- Without weights the total quantity is offered. -/
theorem offered_one (levels : List Level) : offered (fun _ => 1) levels = totalQuantity levels := by
  simp [offered, totalQuantity]

/-- With the prices as weights the total value is offered. -/
theorem offered_id (levels : List Level) : offered (fun v => v) levels = totalNotional levels :=
  rfl

@[simp]
theorem held_nil : held p [] = 0 :=
  rfl

@[simp]
theorem held_cons :
    held p (level :: rest) = (if p level.price.value then level.quantity.value else 0) +
      held p rest := by
  by_cases h : p level.price.value <;> simp [held, h]

/-- A quantity held at some prices is what is offered with weights of one at these prices. -/
theorem held_eq_offered (p : ℚ → Prop) [DecidablePred p] (levels : List Level) :
    held p levels = offered (fun v => if p v then 1 else 0) levels := by
  induction levels with
  | nil => rfl
  | cons level rest ih => rw [held_cons, offered_cons, ih, mul_ite, mul_one, mul_zero]

theorem held_congr (h : ∀ v, p v ↔ q v) (levels : List Level) : held p levels = held q levels := by
  simp only [held, h]

theorem held_nonneg (h : Stocked levels) : 0 ≤ held p levels :=
  Stocked.totalQuantity_nonneg fun level hlevel => h level (List.mem_of_mem_filter hlevel)

/-- No less is held at more prices. -/
theorem held_mono (h : Stocked levels) (hpq : ∀ v, p v → q v) : held p levels ≤ held q levels := by
  induction levels with
  | nil => exact le_rfl
  | cons level rest ih =>
    rw [held_cons, held_cons]
    refine add_le_add ?_ (ih h.tail)
    by_cases hp : p level.price.value
    · rw [if_pos hp, if_pos (hpq _ hp)]
    · rw [if_neg hp]
      split
      · exact h.head
      · exact le_rfl

/-- Nothing is held at prices that no level has. -/
theorem held_eq_zero (h : ∀ level ∈ levels, ¬ p level.price.value) : held p levels = 0 := by
  rw [held, List.filter_eq_nil_iff.2 (by simpa using h), totalQuantity_nil]

end Offered

namespace Fill

variable {side : Side} {level last best best' : Level} {levels levels' rest rest' : List Level}
  {needed price price' limit : ℚ}

/-! ## Where an order ends -/

/-- The last level that is needed is one of the others, or they are not needed. -/
theorem last_cases (hneeded : 0 < needed)
    (hlast : ((level :: rest).take (levelsFor needed (level :: rest))).getLast? = some last) :
    (level.quantity.value < needed ∧
        (rest.take (levelsFor (needed - level.quantity.value) rest)).getLast? = some last) ∨
      (last = level ∧ (needed ≤ level.quantity.value ∨ rest = [])) := by
  rw [levelsFor, if_neg (not_le.2 hneeded), List.take_succ_cons, List.getLast?_cons,
    Option.some.injEq] at hlast
  cases hrest : (rest.take (levelsFor (needed - level.quantity.value) rest)).getLast? with
  | some other =>
    rw [hrest, Option.getD_some] at hlast
    refine .inl ⟨not_le.1 fun hle => ?_, congrArg some hlast⟩
    rw [levelsFor_of_nonpos (sub_nonpos.2 hle), List.take_zero] at hrest
    cases hrest
  | none =>
    rw [hrest, Option.getD_none] at hlast
    refine .inr ⟨hlast.symm, or_iff_not_imp_left.2 fun hlt => by_contra fun hne => ?_⟩
    obtain ⟨other, hother, -⟩ := exists_last_levelsFor (sub_pos.2 (not_le.1 hlt)) hne
    rw [hrest] at hother
    cases hother

/-- The price at which an order of a quantity ends. -/
structure Reached (side : Side) (needed : ℚ) (levels : List Level) (price : ℚ) : Prop where
  /-- At better prices there is less than it takes. -/
  before_lt : held (fun v => side.sign * v < side.sign * price) levels <
    min needed (totalQuantity levels)
  /-- With that price there is enough. -/
  le_within : min needed (totalQuantity levels) ≤
    held (fun v => side.sign * v ≤ side.sign * price) levels

/-- The price at which an order ends is that of the last level that it needs. -/
theorem reached_of_last (hlevels : ∀ level ∈ levels, level.Positive)
    (hsorted : Sorted side levels) (hneeded : 0 < needed)
    (hlast : (levels.take (levelsFor needed levels)).getLast? = some last) :
    Reached side needed levels last.price.value := by
  -- on the levels: the last one is the first one, or it is the last of the others
  induction levels generalizing needed with
  | nil => simp at hlast
  | cons level rest ih =>
    obtain ⟨hlevel, hrest⟩ := List.forall_mem_cons.1 hlevels
    obtain ⟨hfirst, hothers⟩ := List.pairwise_cons.1 hsorted
    have hstock := hlevel.quantity_pos
    have hstocked := stocked_of_positive hrest
    have htotal := hstocked.totalQuantity_nonneg
    rcases last_cases hneeded hlast with ⟨hlt, hlast⟩ | ⟨rfl, hend⟩
    · -- the first level gives all that it has, at a price that is no worse
      have hle := hfirst last (List.mem_of_mem_take (List.mem_of_getLast? hlast))
      have hmin : min needed (totalQuantity (level :: rest)) =
          level.quantity.value + min (needed - level.quantity.value) (totalQuantity rest) := by
        rw [totalQuantity_cons, min_add_eq htotal, min_eq_right hlt.le]
      obtain ⟨hbefore, hwithin⟩ := ih hrest hothers (sub_pos.2 hlt) hlast
      refine ⟨?_, ?_⟩
      · rw [hmin, held_cons]
        refine add_lt_add_of_le_of_lt ?_ hbefore
        split
        · exact le_rfl
        · exact hstock.le
      · rw [hmin, held_cons, if_pos hle]
        exact add_le_add_right hwithin _
    · -- nothing comes before the first level
      refine ⟨?_, ?_⟩
      · rw [held_eq_zero (p := fun v => side.sign * v < side.sign * last.price.value)
          (List.forall_mem_cons.2
            ⟨lt_irrefl _, fun other hother => not_lt.2 (hfirst other hother)⟩)]
        exact lt_min hneeded (totalQuantity_pos hlevels)
      · rw [held_cons, if_pos le_rfl]
        rcases hend with hle | rfl
        · exact (min_le_left _ _).trans (hle.trans (le_add_of_nonneg_right (held_nonneg hstocked)))
        · exact (min_le_right _ _).trans (by simp)

/-- Sides that offer the same have no other price for the same quantity. -/
theorem Reached.eq (h : Reached side needed levels price) (h' : Reached side needed levels' price')
    (hstocked : Stocked levels') (hsame : ∀ f, offered f levels = offered f levels') :
    price = price' := by
  have htotal : totalQuantity levels = totalQuantity levels' := by
    rw [← offered_one, hsame, offered_one]
  have hheld (p : ℚ → Prop) [DecidablePred p] : held p levels = held p levels' := by
    rw [held_eq_offered, hsame, held_eq_offered]
  have hwithin := h.le_within
  have hwithin' := h'.le_within
  have hbefore := h.before_lt
  have hbefore' := h'.before_lt
  rw [hheld, htotal] at hwithin hbefore
  -- a better price would already hold enough before the other one is reached
  have hsign : side.sign * price = side.sign * price' := by
    refine le_antisymm (not_lt.1 fun hlt => ?_) (not_lt.1 fun hlt => ?_)
    · exact absurd (hwithin'.trans (held_mono hstocked fun v hv => hv.trans_lt hlt))
        (not_le.2 hbefore)
    · exact absurd (hwithin.trans (held_mono hstocked fun v hv => hv.trans_lt hlt))
        (not_le.2 hbefore')
  cases side with
  | buy => simpa [Side.sign] using hsign
  | sell => simpa [Side.sign] using hsign

/-- An order that the side can fill ends within a limit exactly if the side holds enough within
it. -/
theorem Reached.within_iff (h : Reached side needed levels price) (hstocked : Stocked levels)
    (hle : needed ≤ totalQuantity levels) :
    side.sign * price ≤ side.sign * limit ↔
      needed ≤ held (fun v => side.sign * v ≤ side.sign * limit) levels := by
  have hwithin := h.le_within
  have hbefore := h.before_lt
  rw [min_eq_left hle] at hwithin hbefore
  constructor
  · intro hlimit
    exact hwithin.trans (held_mono hstocked fun v hv => hv.trans hlimit)
  · intro hheld
    by_contra hlimit
    have hless := held_mono (p := fun v => side.sign * v ≤ side.sign * limit) hstocked
      fun v hv => hv.trans_lt (not_le.1 hlimit)
    exact absurd (hheld.trans hless) (not_le.2 hbefore)

/-- An order for no more than the first level has ends at its price. -/
theorem reached_head (hlevels : ∀ level ∈ best :: rest, level.Positive)
    (hsorted : Sorted side (best :: rest)) (hneeded : 0 < needed)
    (hle : needed ≤ best.quantity.value) : Reached side needed (best :: rest) best.price.value := by
  refine reached_of_last hlevels hsorted hneeded ?_
  rw [levelsFor, if_neg (not_le.2 hneeded), levelsFor_of_nonpos (sub_nonpos.2 hle)]
  rfl

/-- Sides that offer the same have the same best price. -/
theorem best_eq (hlevels : ∀ level ∈ best :: rest, level.Positive)
    (hlevels' : ∀ level ∈ best' :: rest', level.Positive) (hsorted : Sorted side (best :: rest))
    (hsorted' : Sorted side (best' :: rest'))
    (hsame : ∀ f, offered f (best :: rest) = offered f (best' :: rest')) :
    best.price.value = best'.price.value := by
  -- both sides are asked for what the first levels have both
  have hpos : 0 < min best.quantity.value best'.quantity.value :=
    lt_min (hlevels best List.mem_cons_self).quantity_pos
      (hlevels' best' List.mem_cons_self).quantity_pos
  exact (reached_head hlevels hsorted hpos (min_le_left _ _)).eq
    (reached_head hlevels' hsorted' hpos (min_le_right _ _)) (stocked_of_positive hlevels') hsame

/-! ## What an order is worth -/

/-- An order is worth the price at which it ends, but for what it saves at better prices. -/
theorem sign_mul_worth (hlevels : ∀ level ∈ levels, level.Positive)
    (hsorted : Sorted side levels) (hneeded : 0 < needed)
    (hlast : (levels.take (levelsFor needed levels)).getLast? = some last) :
    side.sign * worth levels (inTurn needed levels) =
      side.sign * last.price.value * min needed (totalQuantity levels) -
        offered (fun v => max 0 (side.sign * last.price.value - side.sign * v)) levels := by
  -- on the levels, as for the price at which the order ends
  induction levels generalizing needed with
  | nil => simp at hlast
  | cons level rest ih =>
    obtain ⟨hlevel, hrest⟩ := List.forall_mem_cons.1 hlevels
    obtain ⟨hfirst, hothers⟩ := List.pairwise_cons.1 hsorted
    have hstocked := stocked_of_positive hrest
    have htotal := hstocked.totalQuantity_nonneg
    rw [worth, inTurn, weighted_cons, ← worth, totalQuantity_cons, min_add_eq htotal, offered_cons,
      mul_add]
    rcases last_cases hneeded hlast with ⟨hlt, hlast⟩ | ⟨rfl, hend⟩
    · have hle := hfirst last (List.mem_of_mem_take (List.mem_of_getLast? hlast))
      rw [min_eq_right hlt.le, ih hrest hothers (sub_pos.2 hlt) hlast,
        max_eq_right (sub_nonneg.2 hle)]
      ring
    · -- nothing is taken from the others, and nothing is saved there
      have hzero : worth rest (inTurn (needed - min needed last.quantity.value) rest) = 0 ∧
          min (needed - min needed last.quantity.value) (totalQuantity rest) = 0 := by
        rcases hend with hle | rfl
        · rw [min_eq_left hle, sub_self, min_eq_left htotal]
          exact ⟨weighted_inTurn_zero hstocked, rfl⟩
        · exact ⟨rfl, min_eq_right (sub_nonneg.2 (min_le_left _ _))⟩
      have hsaved : offered (fun v => max 0 (side.sign * last.price.value - side.sign * v)) rest =
          0 := by
        refine List.sum_eq_zero fun x hx => ?_
        obtain ⟨other, hother, rfl⟩ := List.mem_map.1 hx
        exact mul_eq_zero_of_right _ (max_eq_left (sub_nonpos.2 (hfirst other hother)))
      rw [hzero.1, hzero.2, hsaved, sub_self, max_self]
      ring

/-- Sides that offer the same are worth the same. -/
theorem worth_eq {last' : Level} (hlevels : ∀ level ∈ levels, level.Positive)
    (hlevels' : ∀ level ∈ levels', level.Positive) (hsorted : Sorted side levels)
    (hsorted' : Sorted side levels') (hsame : ∀ f, offered f levels = offered f levels')
    (hneeded : 0 < needed)
    (hlast : (levels.take (levelsFor needed levels)).getLast? = some last)
    (hlast' : (levels'.take (levelsFor needed levels')).getLast? = some last') :
    last.price.value = last'.price.value ∧
      worth levels (inTurn needed levels) = worth levels' (inTurn needed levels') := by
  have hprice := (reached_of_last hlevels hsorted hneeded hlast).eq
    (reached_of_last hlevels' hsorted' hneeded hlast') (stocked_of_positive hlevels') hsame
  have htotal : totalQuantity levels = totalQuantity levels' := by
    rw [← offered_one, hsame, offered_one]
  have hworth := sign_mul_worth hlevels hsorted hneeded hlast
  rw [hprice, htotal, hsame, ← sign_mul_worth hlevels' hsorted' hneeded hlast'] at hworth
  refine ⟨hprice, ?_⟩
  cases side with
  | buy => simpa [Side.sign] using hworth
  | sell => simpa [Side.sign] using hworth

end Fill

end OrderTicket
