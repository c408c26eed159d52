import OrderTicket.Book.Depth
import OrderTicket.Proofs.Book.Faithful
import OrderTicket.Proofs.Book.Offered

/-!
# The depth within a limit

The quantity that stays within a limit is added up level by level, up to the first one that is worse
than the limit. Since a side is sorted no later level is within the limit, and since the quantities
have few decimals nothing is rounded, so the sum is the quantity that the side holds within the
limit. The limit may be infinite.

* `Side.Within`: prices within a limit.
* `Book.quantityUpTo_returns`: the sum is what is held within the limit.
* `Book.quantityWithin_eq`: what is advised, from the limit and the sum.
-/

namespace OrderTicket

open Decimal

/-- A price that is no worse than a limit. -/
def Side.Within (side : Side) (limit : Decimal) (price : ℚ) : Prop :=
  side.Before ((price : WithTop ℚ) : WithBot (WithTop ℚ)) limit.place

instance (side : Side) (limit : Decimal) (price : ℚ) : Decidable (side.Within limit price) :=
  inferInstanceAs (Decidable (side.Before _ _))

section Within

variable {side : Side} {limit : Decimal} {price worse : ℚ}

/-- A price is within a finite limit if it is not beyond it with the sign of the side. -/
theorem Side.within_iff (hlimit : limit.isFinite = true) :
    side.Within limit price ↔ side.sign * price ≤ side.sign * limit.value := by
  rw [Side.Within, place_of_isFinite hlimit]
  cases side with
  | buy => simp [Side.Before, Side.sign]
  | sell => simp [Side.Before, Side.sign]

/-- A price that is better than one within the limit is within it. -/
theorem Side.Within.of_le (h : side.Within limit worse)
    (hle : side.sign * price ≤ side.sign * worse) : side.Within limit price := by
  refine Side.Before.trans ?_ h
  cases side with
  | buy => simpa [Side.Before, Side.sign] using hle
  | sell => simpa [Side.Before, Side.sign] using hle

end Within

namespace Book

variable {a b : ℕ} {side : Side} {level best : Level} {levels rest : List Level}
  {limit total price : Decimal} {book : Book} {bps : Decimal}

/-- A price is worse than a limit if it is not within it. -/
theorem isWorse_eq (side : Side) (hprice : price.isFinite = true) (hlimit : limit.IsNumber) :
    isWorse side price limit = .ok (decide (¬ side.Within limit price.value)) := by
  have hnumber := isNumber_of_isFinite hprice
  cases side with
  | buy =>
    show limit.lt price = _
    simp [lt_eq_place hlimit hnumber, place_of_isFinite hprice, Side.Within, Side.Before]
  | sell =>
    show price.lt limit = _
    simp [lt_eq_place hnumber hlimit, place_of_isFinite hprice, Side.Within, Side.Before]

/-- No price can be compared with a NaN. -/
theorem isWorse_of_not_isNumber (side : Side) (price : Decimal) (hlimit : ¬ limit.IsNumber) :
    isWorse side price limit = .error .invalidOperation := by
  cases limit with
  | finite n c e => exact absurd trivial hlimit
  | infinity n => exact absurd trivial hlimit
  | nan n s p => cases side <;> cases price <;> rfl

/-- A sum of quantities up to a limit. -/
structure SumsTo (b : ℕ) (total : Decimal) (more : ℚ) (sum : Decimal) : Prop
    extends Decimal.Scaled b (10 ^ (27 - b : ℤ)) sum where
  /-- So much is added. -/
  value_eq : sum.value = total.value + more
  /-- Where nothing is added the number is the same. -/
  eq_of_zero : more = 0 → sum = total

/-- The levels before the first one that is worse than the limit hold what the side holds within
it. -/
theorem quantityUpTo_returns (hb : b ≤ 1000) (hlevels : ∀ level ∈ levels, level.Scaled a b)
    (hsorted : Fill.Sorted side levels) (hlimit : limit.IsNumber)
    (htotal : Decimal.Scaled b (10 ^ (27 - b : ℤ) - OrderTicket.totalQuantity levels) total) :
    Returns (quantityUpTo side limit levels total)
      (SumsTo b total (held (side.Within limit) levels)) := by
  -- on the levels that are left
  induction levels generalizing total with
  | nil =>
    rw [totalQuantity_nil, sub_zero] at htotal
    exact .ok ⟨htotal, by simp, fun _ => rfl⟩
  | cons level rest ih =>
    obtain ⟨hlevel, hrest⟩ := List.forall_mem_cons.1 hlevels
    obtain ⟨hfirst, hothers⟩ := List.pairwise_cons.1 hsorted
    have hstocked := stocked_of_scaled hrest
    refine .bind ⟨_, isWorse_eq side hlevel.price_isFinite hlimit, rfl⟩ fun worse hworse => ?_
    subst hworse
    by_cases hwithin : side.Within limit level.price.value
    · rw [decide_eq_false (not_not.2 hwithin), held_cons, if_pos hwithin]
      rw [totalQuantity_cons] at htotal
      refine .bind (htotal.add_returns hb ⟨hlevel.quantity_isFinite, rfl⟩ hlevel.quantity
        hlevel.quantity_pos.le le_rfl hstocked.totalQuantity_nonneg) fun next hnext => ?_
      obtain ⟨hnext, hscaled⟩ := hnext
      refine (ih hrest hothers hscaled).mono fun sum hsum => ⟨hsum.toScaled, ?_, fun hzero => ?_⟩
      · rw [hsum.value_eq, hnext, add_assoc]
      · linarith [hlevel.quantity_pos, held_nonneg (p := side.Within limit) hstocked]
    · -- neither is any later level within the limit
      have hzero : held (side.Within limit) (level :: rest) = 0 :=
        held_eq_zero (List.forall_mem_cons.2 ⟨hwithin, fun other hother hbetter =>
          hwithin (hbetter.of_le (hfirst other hother))⟩)
      have hroom := (stocked_of_scaled hlevels).totalQuantity_nonneg
      rw [decide_eq_true hwithin, hzero]
      exact .ok ⟨⟨htotal.isFinite, htotal.hasPlaces, htotal.nonneg, by linarith [htotal.lt_limit]⟩,
        (add_zero _).symm, fun _ => rfl⟩

/-- What is advised is the sum up to the limit; with rules, cut to the step of market orders. -/
theorem quantityWithin_eq (hside : book.levels side = best :: rest)
    (hlimit : priceLimit side best.price bps = .ok limit)
    (htotal : quantityUpTo side limit (best :: rest) 0 = .ok total) (rules : Option TradingRules) :
    book.quantityWithin side bps rules = match rules with
      | none => .ok total
      | some rules => TradingRules.floorWritten total (rules.lot true).step := by
  unfold quantityWithin
  rw [hside]
  show (liftM (priceLimit side best.price bps) : Except Failure Decimal) >>= _ = _
  rw [hlimit]
  show (liftM (quantityUpTo side limit (best :: rest) 0) : Except Failure Decimal) >>= _ = _
  rw [htotal]
  cases rules <;> rfl

end Book

end OrderTicket
