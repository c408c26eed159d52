import OrderTicket.Proofs.Book.Spent

/-!
# Orders for a quantity and for its value

An order for a quantity that a side holds costs some amount of the quote currency. An order for that
amount gets the quantity back, and every other figure of the fill is the same too. The walk for the
amount divides where the other one multiplies, but on every level that it empties both are exact,
and on the last one the quotient is the quantity that was multiplied, which needs no rounding.

* `hasPlaces_worth`: the value of a quantity has few decimals.
* `Fill.Closes.takes_of_spent`: a fill for an amount that comes to a quantity with few decimals.
* `Book.fill_inverse`: the two fills agree.
-/

namespace OrderTicket

open Decimal

variable {a b : ℕ} {levels : List Level} {needed : ℚ}

/-- Taking a quantity of few decimals from levels of few decimals costs an amount of few
decimals. -/
theorem hasPlaces_worth (hlevels : ∀ level ∈ levels, level.HasPlaces a b)
    (hneeded : Decimal.HasPlaces b needed) :
    Decimal.HasPlaces (a + b) (worth levels (inTurn needed levels)) := by
  induction levels generalizing needed with
  | nil => exact .zero _
  | cons level rest ih =>
    obtain ⟨hlevel, hrest⟩ := List.forall_mem_cons.1 hlevels
    have htaken := hneeded.min hlevel.quantity
    rw [worth, inTurn, weighted_cons]
    exact (add_comm b a ▸ htaken.mul hlevel.price).add (ih hrest (hneeded.sub htaken))

/-- The value of a quantity is part of what the levels are worth. -/
theorem worth_le_totalNotional (h : ∀ level ∈ levels, level.Positive) (hneeded : 0 ≤ needed)
    (hle : needed ≤ totalQuantity levels) :
    worth levels (inTurn needed levels) ≤ totalNotional levels := by
  have hworth := worth_inTurn_quantityFor h (worth_nonneg h hneeded)
  rw [quantityFor_worth h hneeded hle] at hworth
  exact hworth ▸ min_le_right _ _

/-- The value of something is something. -/
theorem worth_pos (h : ∀ level ∈ levels, level.Positive) (hneeded : 0 < needed)
    (hle : needed ≤ totalQuantity levels) : 0 < worth levels (inTurn needed levels) := by
  refine (worth_nonneg h hneeded.le).lt_of_ne fun hzero => ?_
  have hquantity := quantityFor_worth h hneeded.le hle
  rw [← hzero, quantityFor_zero h] at hquantity
  exact hneeded.ne hquantity

namespace Fill

variable {best : Level} {rest : List Level} {requested : Decimal} {progress : Progress}
  {fill : Fill}

/-- A fill for an amount that comes to a quantity with few decimals takes that quantity. -/
theorem Closes.takes_of_spent (h : Closes best.price progress fill)
    (hlevels : ∀ level ∈ best :: rest, level.Positive) (hpos : 0 < requested.value)
    (hspent : Spent b (best :: rest) ⟨requested, 0, 0, best.price, 0⟩ progress)
    (hplaces : Decimal.HasPlaces b (quantityFor requested.value (best :: rest)))
    (hle : requested.value ≤ totalNotional (best :: rest)) :
    fill.Takes (quantityFor requested.value (best :: rest)) (best :: rest) := by
  have hquantity := quantityFor_le_totalQuantity hlevels hpos hle
  refine h.takes (quantityFor_pos hlevels (List.cons_ne_nil _ _) hpos) hspent.toTraversed
    ⟨hspent.quantity.isFinite, ?_⟩ hspent.notional_isFinite ?_
  · rw [hspent.quantity_eq hplaces, min_eq_left hquantity]
    simp
  · -- nothing of the amount is left
    rw [hspent.remaining.value_eq, min_eq_left hle, sub_self]
    exact iff_of_false (lt_irrefl _) (not_lt.2 hquantity)

/-- A walk for the value of a quantity takes that quantity. -/
theorem along_takes_of_worth (side : Side) (hab : a + b ≤ 1000)
    (hlevels : ∀ level ∈ best :: rest, level.Scaled a b) (hneeded : 0 < needed)
    (hplaces : Decimal.HasPlaces b needed) (hle : needed ≤ totalQuantity (best :: rest))
    (hquantity : totalQuantity (best :: rest) < 10 ^ (27 - b : ℤ))
    (hnotional : totalNotional (best :: rest) < 10 ^ (27 - (a + b : ℕ) : ℤ))
    (hworth : requested.value = worth (best :: rest) (inTurn needed (best :: rest))) :
    Returns (along side .notional requested best rest) (Takes needed (best :: rest)) := by
  have hpositive := positive_of_scaled hlevels
  have hpos : 0 < requested.value := hworth ▸ worth_pos hpositive hneeded hle
  have hfits : requested.value ≤ totalNotional (best :: rest) :=
    hworth ▸ worth_le_totalNotional hpositive hneeded.le hle
  have hamountPlaces : Decimal.HasPlaces (a + b) requested.value :=
    hworth ▸ hasPlaces_worth (fun level hlevel => (hlevels level hlevel).toHasPlaces) hplaces
  have hback : quantityFor requested.value (best :: rest) = needed :=
    hworth ▸ quantityFor_worth hpositive hneeded.le hle
  refine (along_spent side hab hlevels hpos hamountPlaces (by linarith) hquantity hnotional).mono
    fun fill ⟨_, hspent, hfill⟩ => ?_
  rw [← hback] at hplaces ⊢
  exact hfill.takes_of_spent hpositive hpos hspent hplaces hfits

end Fill

namespace Book

/-- An order for what a quantity costs gets that quantity, and its fill is equal to that of an order
for the quantity. -/
theorem fill_inverse {symbol : String} {depth timestamp : Payload} {book : Book}
    (hbook : ofDepth symbol depth timestamp = .ok book) (side : Side) {requested : Decimal}
    (hpos : 0 < requested.value) {a b : ℕ} (hab : a + b ≤ 1000)
    (hlevels : ∀ level ∈ book.levels side, level.HasPlaces a b)
    (hplaces : Decimal.HasPlaces b requested.value)
    (hquantity : OrderTicket.totalQuantity (book.levels side) + requested.value <
      10 ^ (27 - b : ℤ))
    (hnotional : totalNotional (book.levels side) < 10 ^ (27 - (a + b : ℕ) : ℤ))
    (hle : requested.value ≤ OrderTicket.totalQuantity (book.levels side)) :
    ∃ bought spent, book.fill side (some requested) none = .ok bought ∧
      book.fill side none (some bought.notional) = .ok spent ∧
      spent.quantity.equal requested = .ok true ∧ spent.Agrees bought ∧
      spent.levelsTaken = bought.levelsTaken ∧ spent.exhausted = false := by
  have hne : book.levels side ≠ [] := by
    intro hnil
    rw [hnil, totalQuantity_nil] at hle
    exact absurd hpos (not_lt.2 hle)
  have hscaled := scaled_levels hbook hlevels
  have hpositive := positive_of_scaled hscaled
  obtain ⟨bought, hbought, htakes⟩ :=
    fill_takes hbook side hne hpos hab hlevels hplaces hquantity hnotional
  have hworth := htakes.notional.value_eq
  have hamount : 0 < bought.notional.value := hworth ▸ worth_pos hpositive hpos hle
  -- the second walk takes the same quantity, since each level divides what it multiplied before
  have hspends : Returns (book.fill side none (some bought.notional))
      (Fill.Takes requested.value (book.levels side)) := by
    obtain ⟨best, rest, hside⟩ := List.exists_cons_of_ne_nil hne
    change Returns (book.fillFor side .notional bought.notional) _
    rw [fillFor_of_cons hamount hside]
    rw [hside] at hscaled hworth hquantity hnotional hle ⊢
    exact (Fill.along_takes_of_worth side hab hscaled hpos hplaces hle (by linarith) hnotional
      hworth).lift
  obtain ⟨spent, hspent, htakes'⟩ := hspends
  -- a fill depends only on what was taken, not on what was asked for
  obtain ⟨hagrees, hcount⟩ :=
    htakes'.agrees htakes fun level hlevel => (hlevels level hlevel).price_isFinite
  refine ⟨bought, spent, hbought, hspent, ?_, hagrees, hcount, ?_⟩
  · have hsum := htakes'.quantity
    rw [min_eq_left hle] at hsum
    exact hsum.equal ⟨isFinite_of_pos hpos, rfl⟩
  · rw [Bool.eq_false_iff]
    exact fun hexhausted => absurd (htakes'.exhausted.1 hexhausted) (not_lt.2 hle)

/-- Four units cost the better ask and a part of the worse one. -/
theorem fill_inverse_purchase : ∃ book, ofDepth "BTCUSDT" Sample.depth .null = .ok book ∧
    ∃ bought spent, book.fill .buy (some 4) none = .ok bought ∧
      book.fill .buy none (some bought.notional) = .ok spent ∧
      spent.quantity.equal 4 = .ok true ∧ spent.Agrees bought ∧
      spent.levelsTaken = bought.levelsTaken ∧ spent.exhausted = false := by
  obtain ⟨book, hbook, hasks⟩ := Sample.exists_book
  have hpos : 0 < Decimal.value 4 := by simp
  have hplaces : Decimal.HasPlaces 0 (Decimal.value 4) := ⟨4, by norm_num⟩
  exact ⟨book, hbook, fill_inverse hbook .buy hpos (by decide) (hasks ▸ Sample.asks_hasPlaces)
    hplaces (by norm_num [hasks, Sample.asks])
    (by norm_num [hasks, Sample.asks, Sample.value_price])
    (by norm_num [hasks, Sample.asks])⟩

end Book

end OrderTicket
