import OrderTicket.Book.Basic
import OrderTicket.Proofs.Decimal.Order

/-!
# The sides of a book

What is true of the sides of every book that was made from depth data. All levels that are kept have
a positive price and quantity, and each side has its best price first.

* `Side.sign`: which prices are better for an order.
* `Book.pos_of_mem_levels`: prices and quantities are positive.
* `Book.pairwise_levels`: the best levels come first.
-/

namespace OrderTicket

open Decimal

/-- A level whose price and quantity are finite. -/
structure Level.Finite (level : Level) : Prop where
  /-- The price is finite. -/
  price : level.price.isFinite = true
  /-- The quantity is finite. -/
  quantity : level.quantity.isFinite = true

/-- A factor that turns better prices into lower numbers: a buyer wants to pay little, a seller to
receive much. -/
def Side.sign : Side → ℚ
  | .buy => 1
  | .sell => -1

/-- The sign of a side has magnitude one. -/
theorem Side.abs_sign (side : Side) : |side.sign| = 1 := by
  cases side <;> simp [Side.sign]

theorem Side.sign_mul_sign (side : Side) : side.sign * side.sign = 1 := by
  cases side <;> simp [Side.sign]

/-- Each result of a list of computations is that of one of them. -/
theorem exists_of_mem_mapM {ε α β : Type} {f : α → Except ε β} {xs : List α} {ys : List β}
    (h : xs.mapM f = .ok ys) {y : β} (hy : y ∈ ys) : ∃ x ∈ xs, f x = .ok y := by
  induction xs generalizing ys with
  | nil =>
    obtain rfl : [] = ys := Except.ok.inj h
    cases hy
  | cons x xs ih =>
    rw [List.mapM_cons] at h
    obtain ⟨first, hfirst, h⟩ := bind_eq_ok h
    obtain ⟨rest, hrest, h⟩ := bind_eq_ok h
    obtain rfl : first :: rest = ys := Except.ok.inj h
    rcases List.mem_cons.1 hy with rfl | hy
    · exact ⟨x, List.mem_cons_self, hfirst⟩
    · obtain ⟨other, hother, hresult⟩ := ih hrest hy
      exact ⟨other, List.mem_cons_of_mem _ hother, hresult⟩

namespace Book

variable {symbol : String} {depth timestamp : Payload} {book : Book} {side : Side} {level : Level}
  {levels : List Level}

/-! ## Levels that are kept -/

/-- A level that depth data may contribute to a book. -/
structure Kept (level : Level) : Prop where
  /-- The price is above zero. -/
  price : level.price.le 0 = .ok false
  /-- The quantity is not below zero. -/
  quantity : level.quantity.lt 0 = .ok false
  /-- The quantity is not zero. -/
  not_zero : level.quantity.equal 0 = .ok false

/-- A level that is kept has a positive price if that is finite. -/
theorem Kept.price_pos (h : Kept level) (hfinite : level.price.isFinite = true) :
    0 < level.price.value :=
  value_pos_of_le_zero_eq_false hfinite h.price

theorem Kept.quantity_pos (h : Kept level) (hfinite : level.quantity.isFinite = true) :
    0 < level.quantity.value := by
  have hlt := h.quantity
  have hne := h.not_zero
  rw [lt_eq hfinite rfl, value_ofNat, Nat.cast_zero, Except.ok.injEq,
    decide_eq_false_iff_not] at hlt
  rw [equal_eq hfinite rfl, value_ofNat, Nat.cast_zero, Except.ok.injEq,
    decide_eq_false_iff_not] at hne
  exact lt_of_le_of_ne (not_lt.1 hlt) (Ne.symm hne)

/-- An entry that is read as a level is kept. -/
theorem kept_of_level? {entry : Payload} (h : level? symbol entry = .ok (some level)) :
    Kept level := by
  obtain ⟨_, _, h⟩ := bind_eq_ok h
  obtain ⟨price, _, h⟩ := bind_eq_ok h
  obtain ⟨_, _, h⟩ := bind_eq_ok h
  obtain ⟨quantity, _, h⟩ := bind_eq_ok h
  -- each of the three checks must let the level through
  obtain ⟨low, hlow, h⟩ := bind_eq_ok h
  cases low with
  | true => cases h
  | false =>
    obtain ⟨negative, hnegative, h⟩ := bind_eq_ok h
    cases negative with
    | true => cases h
    | false =>
      obtain ⟨zero, hzero, h⟩ := bind_eq_ok h
      cases zero with
      | true => cases h
      | false =>
        obtain rfl := Option.some.inj (Except.ok.inj h)
        exact ⟨liftM_eq_ok hlow, liftM_eq_ok hnegative, liftM_eq_ok hzero⟩

/-- The levels of a side that is read are kept ones. -/
theorem kept_of_readSide {entries : Option Payload} (h : readSide symbol entries = .ok levels)
    (hlevel : level ∈ levels) : Kept level := by
  cases entries with
  | none =>
    obtain rfl : [] = levels := Except.ok.inj h
    cases hlevel
  | some entries =>
    obtain ⟨items, _, h⟩ := bind_eq_ok h
    obtain ⟨results, hresults, h⟩ := bind_eq_ok h
    obtain rfl : results.filterMap id = levels := Except.ok.inj h
    obtain ⟨result, hmem, hresult⟩ := List.mem_filterMap.1 hlevel
    obtain ⟨entry, -, hentry⟩ := exists_of_mem_mapM hresults hmem
    exact kept_of_level? (hentry.trans (congrArg _ hresult))

/-! ## The order of a side -/

/-- The order of the levels of a side. -/
def priority : Side → Level → Level → Bool
  | .buy => priceLe
  | .sell => fun a b => priceLe b a

/-- A side of a book is what the depth data holds, in the order of that side. -/
theorem exists_levels (h : ofDepth symbol depth timestamp = .ok book) (side : Side) :
    ∃ entries levels, readSide symbol entries = .ok levels ∧
      book.levels side = levels.mergeSort (priority side) := by
  unfold ofDepth at h
  -- a timestamp of the data is looked up first
  split at h
  case' h_1 => obtain ⟨_, _, h⟩ := bind_eq_ok h
  all_goals
    obtain ⟨_, _, h⟩ := bind_eq_ok h
    obtain ⟨bidEntries, _, h⟩ := bind_eq_ok h
    obtain ⟨bids, hbids, h⟩ := bind_eq_ok h
    obtain ⟨askEntries, _, h⟩ := bind_eq_ok h
    obtain ⟨asks, hasks, h⟩ := bind_eq_ok h
    obtain rfl := Except.ok.inj h
    cases side with
    | buy => exact ⟨askEntries, asks, hasks, rfl⟩
    | sell => exact ⟨bidEntries, bids, hbids, rfl⟩

/-- All levels of a book have a positive price and quantity. -/
theorem pos_of_mem_levels (h : ofDepth symbol depth timestamp = .ok book)
    (hlevel : level ∈ book.levels side) (hprice : level.price.isFinite = true)
    (hquantity : level.quantity.isFinite = true) :
    0 < level.price.value ∧ 0 < level.quantity.value := by
  obtain ⟨entries, levels, hread, hlevels⟩ := exists_levels h side
  rw [hlevels, List.mem_mergeSort] at hlevel
  have hkept := kept_of_readSide hread hlevel
  exact ⟨hkept.price_pos hprice, hkept.quantity_pos hquantity⟩

theorem priceLe_eq {a b : Level} (ha : a.price.isFinite = true) (hb : b.price.isFinite = true) :
    priceLe a b = decide (a.price.value ≤ b.price.value) := by
  have hle := le_eq ha hb
  rw [Decimal.le, order] at hle
  rw [priceLe]
  cases horder : order? a.price b.price with
  | none =>
    rw [horder] at hle
    cases hle
  | some o =>
    rw [horder] at hle
    rw [← Except.ok.inj hle]
    cases o <;> rfl

/-- A side is sorted by the values of its prices, with the sign of the side. -/
theorem priority_eq {a b : Level} (side : Side) (ha : a.price.isFinite = true)
    (hb : b.price.isFinite = true) :
    priority side a b = decide (side.sign * a.price.value ≤ side.sign * b.price.value) := by
  cases side with
  | buy => simp [priority, Side.sign, priceLe_eq ha hb]
  | sell => simp [priority, Side.sign, priceLe_eq hb ha]

/-- The levels of a side come in the order of their prices, the best one first. -/
theorem pairwise_levels (h : ofDepth symbol depth timestamp = .ok book)
    (hfinite : ∀ level ∈ book.levels side, level.price.isFinite = true) :
    (book.levels side).Pairwise fun better worse =>
      side.sign * better.price.value ≤ side.sign * worse.price.value := by
  obtain ⟨entries, levels, -, hlevels⟩ := exists_levels h side
  simp only [hlevels, List.mem_mergeSort] at hfinite
  -- sorting the levels sorts their prices, and those have a total order
  have hmap : (levels.mergeSort (priority side)).map (fun level => side.sign * level.price.value) =
      (levels.map fun level => side.sign * level.price.value).mergeSort fun x y => decide (x ≤ y) :=
    List.map_mergeSort fun a ha b hb => priority_eq side (hfinite a ha) (hfinite b hb)
  have hsorted : ((levels.map fun level => side.sign * level.price.value).mergeSort
      fun x y => decide (x ≤ y)).Pairwise fun x y => decide (x ≤ y) = true :=
    List.pairwise_mergeSort
      (fun x y z hxy hyz => by simpa using (of_decide_eq_true hxy).trans (of_decide_eq_true hyz))
      (fun x y => by simpa using le_total x y) _
  rw [hlevels, ← List.pairwise_map (R := fun x y : ℚ => x ≤ y), hmap]
  exact hsorted.imp of_decide_eq_true

end Book

end OrderTicket
