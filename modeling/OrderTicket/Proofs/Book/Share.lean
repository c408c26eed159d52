import OrderTicket.Book.Depth
import OrderTicket.Proofs.Book.Closed
import OrderTicket.Proofs.Decimal.Overflow

/-!
# Shares of the depth and exhausted fills

Three computations tell how much a side holds: the depth adds up its levels, the share divides an
order by that sum, and a fill has something left to take when the levels end. They agree on whether
a side has enough for an order. Quantities have few decimals, so the sum and the walk do not round
them, and an order for more than the sum is so much larger that the rounded quotient is above one.
Prices may have any number of decimals. What an order is worth may then be rounded, and only prices
that are extremely small or large make a fill or the depth overflow.

* `ReturnsUnless`: a computation returns something, except under a condition.
* `Book.totalQuantity_returns`: the sum.
* `Book.shareOf`, `Book.hundred_lt_shareOf_iff`: the rounded share.
* `Fill.walk_counts`, `Fill.along_counts`: how much a fill takes.
* `Book.Moderate`, `Book.share_agrees`: share, fill and depth agree.
-/

namespace OrderTicket

open Decimal

/-- The computation returns something with a property; only under a condition it may fail instead,
and then in one way. -/
def ReturnsUnless {ε α : Type} (condition : Prop) (failure : ε) (x : Except ε α) (P : α → Prop) :
    Prop :=
  Returns x P ∨ condition ∧ x = .error failure

namespace ReturnsUnless

variable {ε α β : Type} {condition : Prop} {failure : ε} {x : Except ε α} {P : α → Prop}
  {Q : β → Prop}

theorem of_returns (h : Returns x P) : ReturnsUnless condition failure x P :=
  .inl h

theorem mono {P' : α → Prop} (h : ReturnsUnless condition failure x P)
    (himp : ∀ a, P a → P' a) : ReturnsUnless condition failure x P' :=
  h.imp_left fun hx => hx.mono himp

theorem bind {next : α → Except ε β} (h : ReturnsUnless condition failure x P)
    (hnext : ∀ a, P a → ReturnsUnless condition failure (next a) Q) :
    ReturnsUnless condition failure (x >>= next) Q := by
  rcases h with ⟨a, rfl, ha⟩ | ⟨hcondition, rfl⟩
  · exact hnext a ha
  · exact .inr ⟨hcondition, rfl⟩

theorem map {f : α → β} (h : ReturnsUnless condition failure x fun a => Q (f a)) :
    ReturnsUnless condition failure (x.map f) Q := by
  rcases h with hreturns | ⟨hcondition, rfl⟩
  · exact .inl hreturns.map
  · exact .inr ⟨hcondition, rfl⟩

/-- What is returned has the property. -/
theorem of_eq_ok {a : α} (h : ReturnsUnless condition failure x P) (hx : x = .ok a) : P a := by
  subst hx
  rcases h with ⟨other, hother, ha⟩ | ⟨-, hfailed⟩
  · rwa [Except.ok.inj hother]
  · cases hfailed

/-- The faults of decimal operations as failures. -/
theorem lift {fault : Fault} {x : Except Fault α} (h : ReturnsUnless condition fault x P) :
    ReturnsUnless condition (.arithmetic fault) (liftM x : Except Failure α) P := by
  rcases h with hreturns | ⟨hcondition, rfl⟩
  · exact .inl hreturns.lift
  · exact .inr ⟨hcondition, rfl⟩

end ReturnsUnless

variable {condition : Prop} {b m : ℕ} {level best : Level} {levels rest : List Level}

/-- An operation only fails if its exact result is too large, and otherwise rounds it. -/
theorem Decimal.Computes.returnsUnless {result : Except Fault Decimal} {v : ℚ} {n : ℤ}
    (h : Computes result v) (hn : 0 ≤ n) (hn' : n < maxExponent)
    (hle : ¬ condition → |v| ≤ 10 ^ n) :
    ReturnsUnless condition .overflow result fun r =>
      Exactly (nearest v) r ∧ (¬ condition → |r.value| ≤ 10 ^ n) := by
  cases hr : result with
  | ok r =>
    have hexact := h.exactly_nearest hr
    refine .inl ⟨r, rfl, hexact, fun hcondition => ?_⟩
    rw [hexact.value_eq]
    exact abs_nearest_le (le_trans (by decide) hn) (hle hcondition)
  | error fault =>
    obtain ⟨rfl, hlarge⟩ := h.eq_error_iff.1 hr
    refine .inr ⟨by_contra fun hcondition => ?_, rfl⟩
    have hlt : |v| < 10 ^ maxExponent :=
      (hle hcondition).trans_lt (zpow_lt_zpow_right₀ (by norm_num) hn')
    exact absurd (hlt.trans_le pow_maxExponent_le_overflowThreshold) (not_lt.2 hlarge)

/-- A finite, positive level whose quantity has at most `b` decimals. -/
structure Level.Counted (b : ℕ) (level : Level) : Prop extends level.Finite, level.Positive where
  /-- The decimals of the quantity. -/
  places : Decimal.HasPlaces b level.quantity.value

theorem stocked_of_counted (h : ∀ level ∈ levels, level.Counted b) : Stocked levels :=
  stocked_of_positive fun level hlevel => (h level hlevel).toPositive

/-! ## The sum -/

/-- Adding up quantities with few decimals rounds nothing. -/
theorem foldlM_add_returns (hb : b ≤ 1000) (hlevels : ∀ level ∈ levels, level.Counted b)
    {start : Decimal} (hstart : Decimal.Scaled b (10 ^ (27 - b : ℤ) - totalQuantity levels) start) :
    Returns ((levels.map (·.quantity)).foldlM Decimal.add start) fun total =>
      Exactly (start.value + totalQuantity levels) total := by
  induction levels generalizing start with
  | nil => exact .ok ⟨hstart.isFinite, by simp⟩
  | cons level rest ih =>
    obtain ⟨hlevel, hrest⟩ := List.forall_mem_cons.1 hlevels
    rw [totalQuantity_cons] at hstart
    rw [List.map_cons, List.foldlM_cons]
    refine .bind (hstart.add_returns hb ⟨hlevel.quantity, rfl⟩ hlevel.places
      hlevel.quantity_pos.le le_rfl (stocked_of_counted hrest).totalQuantity_nonneg)
      fun next ⟨hnext, hscaled⟩ => ?_
    refine (ih hrest hscaled).mono fun total htotal => ⟨htotal.isFinite, ?_⟩
    rw [htotal.value_eq, hnext, totalQuantity_cons, add_assoc]

theorem scaled_zero {limit : ℚ} (hlimit : 0 < limit) : Decimal.Scaled b limit 0 := by
  have hzero : Decimal.value 0 = 0 := by simp
  exact ⟨rfl, hzero ▸ .zero b, hzero.ge, hzero ▸ hlimit⟩

/-- The total quantity of a side is summed without rounding. -/
theorem Book.totalQuantity_returns {book : Book} {side : Side} (hb : b ≤ 1000)
    (hlevels : ∀ level ∈ book.levels side, level.Counted b)
    (htotal : OrderTicket.totalQuantity (book.levels side) < 10 ^ (27 - b : ℤ)) :
    Returns (book.totalQuantity side) (Exactly (OrderTicket.totalQuantity (book.levels side))) := by
  have hsum := foldlM_add_returns hb hlevels (scaled_zero (sub_pos.2 htotal))
  rwa [value_ofNat, Nat.cast_zero, zero_add] at hsum

/-! ## The share -/

/-- The share of an order in a total, in percent and with every step rounded. -/
def shareOf (quantity total : ℚ) : ℚ :=
  nearest (nearest (quantity / total) * 100)

section ShareOf

variable {quantity more total : ℚ}

/-- A larger order has no smaller share. -/
theorem shareOf_mono (htotal : 0 < total) (hle : quantity ≤ more) :
    shareOf quantity total ≤ shareOf more total := by
  refine nearest_mono (mul_le_mul_of_nonneg_right ?_ (by norm_num))
  exact nearest_mono (div_le_div_of_nonneg_right hle htotal.le)

/-- The share is above a hundred percent exactly if the order is larger than the total: an order
that is larger is so by a unit of the last decimal at least. -/
theorem hundred_lt_shareOf_iff (hquantity : Decimal.HasPlaces b quantity)
    (hplaces : Decimal.HasPlaces b total) (htotal : 0 < total)
    (hlt : total < 10 ^ (27 - b : ℤ)) : 100 < shareOf quantity total ↔ total < quantity := by
  constructor
  · intro hshare
    by_contra hle
    -- a share of at most one is rounded to at most one
    have hone : Representable 1 := ⟨1, 0, by decide, by decide, by norm_num⟩
    have hratio := nearest_mono (div_le_one_of_le₀ (not_lt.1 hle) htotal.le)
    rw [nearest_of_representable hone] at hratio
    have hhundred : Representable 100 := ⟨100, 0, by decide, by decide, by norm_num⟩
    have hpercent : nearest (quantity / total) * 100 ≤ 100 := by linarith
    have hbound := nearest_mono hpercent
    rw [nearest_of_representable hhundred] at hbound
    exact absurd hshare (not_lt.2 hbound)
  · intro hmore
    have hunit : (10 : ℚ) ^ (-b : ℤ) ≤ quantity - total :=
      (hquantity.sub hplaces).le_of_pos (sub_pos.2 hmore)
    have hratio : 1 + (10 : ℚ) ^ (-27 : ℤ) ≤ quantity / total := by
      rw [le_div_iff₀ htotal, add_mul, one_mul]
      have hpart : (10 : ℚ) ^ (-27 : ℤ) * total ≤ 10 ^ (-b : ℤ) := by
        calc (10 : ℚ) ^ (-27 : ℤ) * total
            ≤ 10 ^ (-27 : ℤ) * 10 ^ (27 - b : ℤ) :=
              mul_le_mul_of_nonneg_left hlt.le (ten_zpow_pos _).le
          _ = 10 ^ (-b : ℤ) := by
              rw [← ten_zpow_add]
              congr 1
              ring
      linarith
    -- a unit above one is representable, and so is a hundred times as much
    have hnext : Representable (1 + (10 : ℚ) ^ (-27 : ℤ)) :=
      ⟨10 ^ 27 + 1, -27, by decide, by decide, by norm_num⟩
    have hnext' : Representable ((1 + (10 : ℚ) ^ (-27 : ℤ)) * 100) :=
      ⟨10 ^ 27 + 1, -25, by decide, by decide, by norm_num⟩
    have hrounded := nearest_mono hratio
    rw [nearest_of_representable hnext] at hrounded
    have hpercent :=
      nearest_mono (mul_le_mul_of_nonneg_right hrounded (by norm_num : (0 : ℚ) ≤ 100))
    rw [nearest_of_representable hnext'] at hpercent
    refine lt_of_lt_of_le ?_ hpercent
    norm_num

end ShareOf

/-- The total of counted quantities has as few decimals as they have. -/
theorem hasPlaces_totalQuantity (h : ∀ level ∈ levels, level.Counted b) :
    Decimal.HasPlaces b (totalQuantity levels) := by
  induction levels with
  | nil => exact .zero b
  | cons level rest ih =>
    obtain ⟨hlevel, hrest⟩ := List.forall_mem_cons.1 h
    rw [totalQuantity_cons]
    exact hlevel.places.add (ih hrest)

/-- The total of counted quantities is positive if there are levels. -/
theorem totalQuantity_pos_of_counted (h : ∀ level ∈ levels, level.Counted b) (hne : levels ≠ []) :
    0 < totalQuantity levels := by
  obtain ⟨best, rest, rfl⟩ := List.exists_cons_of_ne_nil hne
  exact totalQuantity_pos fun level hlevel => (h level hlevel).toPositive

/-- The share that is computed. -/
theorem Book.share_returns {book : Book} {side : Side} (hb : b ≤ 1000)
    (hlevels : ∀ level ∈ book.levels side, level.Counted b) (hne : book.levels side ≠ [])
    (htotal : OrderTicket.totalQuantity (book.levels side) < 10 ^ (27 - b : ℤ))
    {quantity : Decimal} (hpos : 0 < quantity.value) (hlt : quantity.value < 10 ^ (27 - b : ℤ)) :
    Returns (book.share side quantity)
      (Exactly (shareOf quantity.value (OrderTicket.totalQuantity (book.levels side)))) := by
  have hstock := totalQuantity_pos_of_counted hlevels hne
  have hunit := (hasPlaces_totalQuantity hlevels).le_of_pos hstock
  refine .bind (totalQuantity_returns hb hlevels htotal) fun total hexact => ?_
  refine .bind (equal_returns hexact.isFinite rfl) fun zero hzero => ?_
  obtain rfl : zero = false := by
    rw [Bool.eq_false_iff, ne_eq, hzero, hexact.value_eq]
    simpa using hstock.ne'
  -- the total is at least a unit of its last decimal, so the quotient cannot overflow
  have hratio : |quantity.value / total.value| ≤ 10 ^ ((27 - b : ℤ) + b) := by
    rw [hexact.value_eq]
    exact Fill.abs_div_le ((abs_of_pos hpos).trans_le hlt.le) hunit
  rw [sub_add_cancel] at hratio
  refine .bind ((div_computes (isFinite_of_pos hpos) hexact.isFinite
    (hexact.value_eq ▸ hstock.ne')).returns_nearest (by decide) (by decide) hratio)
    fun ratio ⟨hratioExact, hratioLe⟩ => ?_
  refine ((mul_computes hratioExact.isFinite rfl).returns_nearest (by decide) (by decide)
    (Fill.abs_mul_hundred_le hratioLe)).mono fun share hshare => ?_
  have hvalue := hshare.1
  rwa [hratioExact.value_eq, hexact.value_eq, value_ofNat] at hvalue

/-! ## The walk -/

namespace Fill

variable {progress start next last : Progress}

/-- Where a walk for a quantity stands. Quantities are not rounded, but what they are worth may be;
it is not large unless some price is. -/
structure Progress.Counts (condition : Prop) (b m : ℕ) (levels : List Level)
    (progress : Progress) : Prop where
  /-- What is still needed. -/
  remaining : Decimal.Scaled b (10 ^ (27 - b : ℤ)) progress.remaining
  /-- The quantity leaves room for that of the levels. -/
  quantity : Decimal.Scaled b (10 ^ (27 - b : ℤ) - totalQuantity levels) progress.quantity
  /-- Its value is finite. -/
  notional_isFinite : progress.notional.isFinite = true
  /-- Every level adds a limited amount to it. -/
  notional_le : ¬ condition → |progress.notional.value| ≤ progress.levelsTaken * 10 ^ (m + 27 : ℤ)

/-- A walk before and after it takes a quantity. -/
structure Progress.Took (wanted : ℚ) (start last : Progress) : Prop where
  /-- Less is needed. -/
  remaining : last.remaining.value = start.remaining.value - wanted
  /-- More was taken. -/
  quantity : last.quantity.value = start.quantity.value + wanted

theorem Progress.Took.zero (progress : Progress) : progress.Took 0 progress := by
  constructor <;> simp

/-- What two walks take one after another is taken by both together. -/
theorem Progress.Took.trans {wanted more : ℚ} (h : start.Took wanted next)
    (h' : next.Took more last) : start.Took (wanted + more) last := by
  refine ⟨?_, ?_⟩
  · rw [h'.remaining, h.remaining]
    ring
  · rw [h'.quantity, h.quantity]
    ring

/-- A sum of limited amounts is rounded to no more than their limit. -/
theorem abs_nearest_add_le {v w : ℚ} {count : ℕ} {e : ℤ} (he : tinyExponent ≤ e)
    (hcount : count + 1 ≤ 10 ^ 27) (hv : |v| ≤ count * 10 ^ e) (hw : |w| ≤ 10 ^ e) :
    |v + w| ≤ 10 ^ (27 + e) ∧ |nearest (v + w)| ≤ (count + 1 : ℕ) * 10 ^ e := by
  have hsum : |v + w| ≤ (count + 1 : ℕ) * 10 ^ e := by
    rw [Nat.cast_add, Nat.cast_one, add_mul, one_mul]
    exact (abs_add_le v w).trans (add_le_add hv hw)
  have hcast : ((count + 1 : ℕ) : ℚ) ≤ 10 ^ (27 : ℕ) := by exact_mod_cast hcount
  refine ⟨hsum.trans ?_, ?_⟩
  · rw [ten_zpow_add, ← zpow_natCast] at *
    exact mul_le_mul_of_nonneg_right hcast (ten_zpow_pos e).le
  · -- so few amounts have a limit that is representable
    have hlimit : Representable (((count + 1 : ℕ) : ℤ) * 10 ^ e) := by
      refine representable_of_le ?_ he
      rw [abs_of_nonneg (Int.natCast_nonneg _)]
      exact_mod_cast hcount.trans (by decide)
    have hround := nearest_mono hsum
    rw [nearest_abs, ← Int.cast_natCast, nearest_of_representable hlimit] at hround
    exact hround

/-- To take from one more level counts what is taken, and overflows only where a price may be very
large. -/
theorem advance_counts (hb : b ≤ 1000) (hm : (m : ℤ) + 54 < maxExponent)
    (hlevels : ∀ other ∈ level :: rest, other.Counted b)
    (hprice : ¬ condition → level.price.value ≤ 10 ^ (m : ℤ))
    (hcount : progress.levelsTaken + 1 ≤ 10 ^ 27)
    (h : progress.Counts condition b m (level :: rest)) :
    ReturnsUnless condition .overflow (progress.advance .quantity level) fun next =>
      next.Counts condition b m rest ∧ next.levelsTaken = progress.levelsTaken + 1 ∧
        progress.Took (min progress.remaining.value level.quantity.value) next := by
  obtain ⟨hlevel, hrest⟩ := List.forall_mem_cons.1 hlevels
  obtain ⟨taken, left, htaken, hleft, htake⟩ :=
    exists_take hb hlevel.quantity hlevel.places hlevel.quantity_pos h.remaining
  have hplaces := h.remaining.hasPlaces.min hlevel.places
  have hnonneg : 0 ≤ min progress.remaining.value level.quantity.value :=
    le_min h.remaining.nonneg hlevel.quantity_pos.le
  have hroom := (stocked_of_counted hrest).totalQuantity_nonneg
  have hquantity := h.quantity
  rw [totalQuantity_cons] at hquantity
  have htakenLe : min progress.remaining.value level.quantity.value ≤ 10 ^ (27 : ℤ) :=
    (min_le_left _ _).trans (h.remaining.lt_limit.le.trans
      (zpow_le_zpow_right₀ (by norm_num) (by omega)))
  -- only the worth of what is taken may be rounded
  have hspent : ReturnsUnless condition .overflow (take .quantity progress.remaining level)
      fun r => r.1 = taken ∧ r.2.2 = left ∧ r.2.1.isFinite = true ∧
        (¬ condition → |r.2.1.value| ≤ 10 ^ (m + 27 : ℤ)) := by
    rw [htake]
    refine .map (((mul_computes htaken.isFinite hlevel.price).returnsUnless (n := m + 27) (by omega)
      (by omega) fun hcondition => ?_).mono fun spent ⟨hspent, hle⟩ =>
        ⟨rfl, rfl, hspent.isFinite, hle⟩)
    rw [htaken.value_eq, abs_of_nonneg (mul_nonneg hnonneg hlevel.price_pos.le), add_comm,
      ten_zpow_add]
    exact mul_le_mul htakenLe (hprice hcondition) hlevel.price_pos.le (ten_zpow_pos _).le
  refine .bind hspent fun (taken', spent, left') hserved => ?_
  obtain ⟨rfl, rfl, hspentFinite, hspentLe⟩ := hserved
  refine .bind (.of_returns
    (hquantity.add_returns hb htaken hplaces hnonneg (min_le_right _ _) hroom))
    fun sum ⟨hsum, hsumScaled⟩ => ?_
  have hbound (hcondition : ¬ condition) := abs_nearest_add_le (by
    have ht : tinyExponent = -1000026 := rfl
    omega) hcount (h.notional_le hcondition) (hspentLe hcondition)
  refine .bind ((add_computes h.notional_isFinite hspentFinite).returnsUnless (n := 27 + (m + 27))
    (by omega) (by omega) fun hcondition => (hbound hcondition).1) fun value ⟨hvalue, _⟩ =>
    .of_returns (.ok ⟨⟨?_, hsumScaled, hvalue.isFinite, fun hcondition => ?_⟩, rfl, ?_, ?_⟩)
  · refine ⟨hleft.isFinite, ?_, ?_, ?_⟩ <;> simp only [hleft.value_eq]
    · exact h.remaining.hasPlaces.sub hplaces
    · exact sub_nonneg.2 (min_le_left _ _)
    · exact (sub_le_self _ hnonneg).trans_lt h.remaining.lt_limit
  · rw [hvalue.value_eq]
    exact (hbound hcondition).2
  · exact hleft.value_eq
  · exact hsum

/-- All levels. -/
theorem walk_counts (hb : b ≤ 1000) (hm : (m : ℤ) + 54 < maxExponent)
    (hlevels : ∀ level ∈ levels, level.Counted b)
    (hprices : ¬ condition → ∀ level ∈ levels, level.price.value ≤ 10 ^ (m : ℤ))
    (hcount : progress.levelsTaken + levels.length ≤ 10 ^ 27)
    (h : progress.Counts condition b m levels) :
    ReturnsUnless condition .overflow (walk .quantity levels progress) fun last =>
      last.Counts condition b m [] ∧ last.levelsTaken ≤ 10 ^ 27 ∧
        progress.Took (min progress.remaining.value (totalQuantity levels)) last := by
  -- on the levels that are left
  induction levels generalizing progress with
  | nil =>
    rw [totalQuantity_nil, min_eq_right h.remaining.nonneg]
    exact .of_returns (.ok ⟨h, hcount, .zero _⟩)
  | cons level rest ih =>
    have hstocked := stocked_of_counted hlevels
    obtain ⟨hlevel, hrest⟩ := List.forall_mem_cons.1 hlevels
    rw [List.length_cons] at hcount
    refine .bind (.of_returns (le_zero_returns h.remaining.isFinite)) fun done hdone => ?_
    cases done with
    | true =>
      have hzero : progress.remaining.value = 0 := le_antisymm (hdone.1 rfl) h.remaining.nonneg
      have hmin : min progress.remaining.value (totalQuantity (level :: rest)) = 0 := by
        rw [hzero, min_eq_left hstocked.totalQuantity_nonneg]
      have hroom : Decimal.Scaled b (10 ^ (27 - b : ℤ) - totalQuantity []) progress.quantity := by
        refine ⟨h.quantity.isFinite, h.quantity.hasPlaces, h.quantity.nonneg, ?_⟩
        rw [totalQuantity_nil]
        linarith [h.quantity.lt_limit, hstocked.totalQuantity_nonneg]
      rw [hmin]
      exact .of_returns (.ok ⟨⟨h.remaining, hroom, h.notional_isFinite, h.notional_le⟩, by omega,
        .zero _⟩)
    | false =>
      refine .bind (advance_counts hb hm hlevels
        (fun hcondition => hprices hcondition level List.mem_cons_self) (by omega) h)
        fun next ⟨hnext, htaken, htook⟩ => ?_
      refine (ih hrest (fun hcondition other hother => hprices hcondition other
        (List.mem_cons_of_mem _ hother)) (by omega) hnext).mono fun last ⟨hlast, hle, htook'⟩ =>
        ⟨hlast, hle, ?_⟩
      rw [totalQuantity_cons, min_add_eq (stocked_of_counted hrest).totalQuantity_nonneg,
        ← htook.remaining]
      exact htook.trans htook'

/-- A side has no more levels than units of the last decimal. -/
theorem length_le_of_counted (hlevels : ∀ level ∈ levels, level.Counted b)
    (htotal : totalQuantity levels < 10 ^ (27 - b : ℤ)) : levels.length ≤ 10 ^ 27 := by
  have hsum := List.card_nsmul_le_sum (levels.map (·.quantity.value)) (10 ^ (-b : ℤ)) fun x hx => by
    obtain ⟨level, hlevel, rfl⟩ := List.mem_map.1 hx
    exact (hlevels level hlevel).places.le_of_pos (hlevels level hlevel).quantity_pos
  rw [List.length_map, nsmul_eq_mul] at hsum
  have hlt := hsum.trans_lt htotal
  rw [sub_eq_add_neg, ten_zpow_add, mul_lt_mul_iff_left₀ (ten_zpow_pos _)] at hlt
  exact_mod_cast hlt.le

/-- How much a fill takes, and whether the side ends before it has enough. -/
structure Counts (needed : ℚ) (levels : List Level) (fill : Fill) : Prop where
  /-- It takes what is needed, or all that there is. -/
  quantity : Exactly (min needed (totalQuantity levels)) fill.quantity
  /-- The side ends exactly if it holds less. -/
  exhausted : fill.exhausted = true ↔ totalQuantity levels < needed

/-- A fill for a quantity returns unless a price is extreme. -/
theorem along_counts (side : Side) (hb : b ≤ 1000) (hm : 2 * (m : ℤ) + 1100 < maxExponent)
    (hlevels : ∀ level ∈ best :: rest, level.Counted b)
    (hprices : ¬ condition → ∀ level ∈ best :: rest,
      Between (10 ^ (-m : ℤ)) (10 ^ (m : ℤ)) level.price)
    (htotal : totalQuantity (best :: rest) < 10 ^ (27 - b : ℤ)) {requested : Decimal}
    (hpos : 0 < requested.value) (hplaces : Decimal.HasPlaces b requested.value)
    (hrequested : requested.value < 10 ^ (27 - b : ℤ)) :
    ReturnsUnless condition .overflow (along side .quantity requested best rest)
      (Counts requested.value (best :: rest)) := by
  have hbest := hlevels best List.mem_cons_self
  have hstart : Progress.Counts condition b m (best :: rest) ⟨requested, 0, 0, best.price, 0⟩ :=
    ⟨⟨isFinite_of_pos hpos, hplaces, hpos.le, hrequested⟩, scaled_zero (sub_pos.2 htotal), rfl,
      fun _ => by simp⟩
  refine .bind (walk_counts hb (by omega) hlevels
    (fun hcondition level hlevel => (hprices hcondition level hlevel).le_high)
    (by simpa using length_le_of_counted hlevels htotal) hstart)
    fun last ⟨hlast, hcount, htook⟩ => ?_
  have hquantity : Exactly (min requested.value (totalQuantity (best :: rest))) last.quantity :=
    ⟨hlast.quantity.isFinite, by simpa using htook.quantity⟩
  have hunit : (10 : ℚ) ^ (-1000 : ℤ) ≤ last.quantity.value := by
    refine (zpow_le_zpow_right₀ (by norm_num) (by omega)).trans
      (hlast.quantity.hasPlaces.le_of_pos ?_)
    rw [hquantity.value_eq]
    exact lt_min hpos (totalQuantity_pos_of_counted hlevels (List.cons_ne_nil best rest))
  have hnotional (hcondition : ¬ condition) : |last.notional.value| ≤ 10 ^ (m + 54 : ℤ) := by
    refine (hlast.notional_le hcondition).trans ?_
    have hcast : (last.levelsTaken : ℚ) ≤ 10 ^ (27 : ℤ) := by exact_mod_cast hcount
    rw [(by ring : (m + 54 : ℤ) = 27 + (m + 27)), ten_zpow_add 27]
    exact mul_le_mul_of_nonneg_right hcast (ten_zpow_pos _).le
  have hbestLe (hcondition : ¬ condition) : |best.price.value| ≤ 10 ^ (m : ℤ) :=
    (abs_of_pos hbest.price_pos).trans_le (hprices hcondition best List.mem_cons_self).le_high
  have hbestGe (hcondition : ¬ condition) : (10 : ℚ) ^ (-m : ℤ) ≤ best.price.value :=
    (hprices hcondition best List.mem_cons_self).low_le
  -- each operation needs a bound on the result of the one before, unless a price is extreme
  refine .bind ((div_computes hlast.notional_isFinite hquantity.isFinite
    ((ten_zpow_pos _).trans_le hunit).ne').returnsUnless (n := m + 54 + 1000) (by omega) (by omega)
    fun hcondition => abs_div_le (hnotional hcondition) hunit) fun average ⟨haverage, hle⟩ => ?_
  refine .bind ((sub_computes haverage.isFinite hbest.price).returnsUnless (n := m + 54 + 1000 + 1)
    (by omega) (by omega) fun hcondition => abs_sub_le_pow (hle hcondition) (hbestLe hcondition)
    (by omega)) fun difference ⟨hdifference, hle⟩ => ?_
  refine .bind ((abs_computes hdifference.isFinite).returnsUnless (n := m + 54 + 1000 + 1)
    (by omega) (by omega) fun hcondition => (abs_abs _).trans_le (hle hcondition))
    fun distance ⟨hdistance, hle⟩ => ?_
  refine .bind ((div_computes hdistance.isFinite hbest.price hbest.price_pos.ne').returnsUnless
    (n := m + 54 + 1000 + 1 + m) (by omega) (by omega)
    fun hcondition => abs_div_le (hle hcondition) (hbestGe hcondition))
    fun ratio ⟨hratio, hle⟩ => ?_
  refine .bind ((mul_computes hratio.isFinite rfl).returnsUnless (n := m + 54 + 1000 + 1 + m + 2)
    (by omega) (by omega) fun hcondition => abs_mul_hundred_le (hle hcondition)) fun percent _ => ?_
  refine .bind (.of_returns (lt_returns rfl hlast.remaining.isFinite)) fun exhausted hexhausted =>
    .of_returns (.ok ⟨hquantity, ?_⟩)
  rw [hexhausted, htook.remaining, value_ofNat, Nat.cast_zero, sub_pos, min_lt_iff]
  exact or_iff_right (lt_irrefl _)

end Fill

namespace Book

variable {book : Book} {side : Side}

/-! ## The depth -/

/-- The depth of a side that has levels; its spread may be too large for extreme prices. -/
theorem depth_returnsUnless (hb : b ≤ 1000) (hm : 2 * (m : ℤ) + 1100 < maxExponent)
    (hpositive : ∀ side, ∀ level ∈ book.levels side,
      level.price.isFinite = true ∧ 0 < level.price.value)
    (hlevels : ∀ level ∈ book.levels side, level.Counted b) (hne : book.levels side ≠ [])
    (hprices : ¬ condition → ∀ side, ∀ level ∈ book.levels side,
      Between (10 ^ (-m : ℤ)) (10 ^ (m : ℤ)) level.price)
    (htotal : OrderTicket.totalQuantity (book.levels side) < 10 ^ (27 - b : ℤ)) :
    ReturnsUnless condition .overflow (book.depth side) fun depth =>
      Exactly (OrderTicket.totalQuantity (book.levels side)) depth.quantity := by
  have hstock := totalQuantity_pos_of_counted hlevels hne
  refine .bind (.of_returns (totalQuantity_returns hb hlevels htotal)) fun total hexact => ?_
  have hlength : 0 < (book.levels side).length := List.length_pos_iff.2 hne
  have hone : (10 : ℚ) ^ (-0 : ℤ) ≤ (Decimal.ofInt (book.levels side).length).value := by
    rw [value_ofInt, neg_zero, zpow_zero]
    exact_mod_cast hlength
  have hle : |total.value| ≤ 10 ^ (27 : ℤ) := by
    rw [hexact.value_eq, abs_of_pos hstock]
    exact htotal.le.trans (zpow_le_zpow_right₀ (by norm_num) (by omega))
  rw [if_neg hlength.ne']
  refine .bind ((div_computes hexact.isFinite rfl
    ((ten_zpow_pos _).trans_le hone).ne').returnsUnless (n := 27) (by decide) (by decide)
    fun _ => Fill.abs_div_le hle hone) fun average _ => ?_
  dsimp only
  -- the spread is only computed if both sides have levels
  split
  next bid ask hbid hask =>
    obtain ⟨bidLevel, hbidLevel, rfl⟩ := Option.map_eq_some_iff.1 hbid
    obtain ⟨askLevel, haskLevel, rfl⟩ := Option.map_eq_some_iff.1 hask
    have hbidMem : bidLevel ∈ book.levels .sell := List.mem_of_mem_head? hbidLevel
    have haskMem : askLevel ∈ book.levels .buy := List.mem_of_mem_head? haskLevel
    obtain ⟨hbidFinite, hbidPos⟩ := hpositive .sell bidLevel hbidMem
    obtain ⟨haskFinite, haskPos⟩ := hpositive .buy askLevel haskMem
    have hbidLe (hcondition : ¬ condition) : |bidLevel.price.value| ≤ 10 ^ (m : ℤ) :=
      (abs_of_pos hbidPos).trans_le (hprices hcondition .sell bidLevel hbidMem).le_high
    have haskLe (hcondition : ¬ condition) : |askLevel.price.value| ≤ 10 ^ (m : ℤ) :=
      (abs_of_pos haskPos).trans_le (hprices hcondition .buy askLevel haskMem).le_high
    refine .bind ((sub_computes haskFinite hbidFinite).returnsUnless (n := m + 1) (by omega)
      (by omega) fun hcondition =>
        Fill.abs_sub_le_pow (haskLe hcondition) (hbidLe hcondition) le_rfl)
      fun spread ⟨hspread, hspreadLe⟩ => ?_
    refine .bind ((div_computes hspread.isFinite hbidFinite hbidPos.ne').returnsUnless
      (n := m + 1 + m) (by omega) (by omega) fun hcondition =>
        Fill.abs_div_le (hspreadLe hcondition) (hprices hcondition .sell bidLevel hbidMem).low_le)
      fun ratio ⟨hratio, hratioLe⟩ => ?_
    refine .bind ((mul_computes hratio.isFinite rfl).returnsUnless (n := m + 1 + m + 4) (by omega)
      (by omega) fun hcondition => ?_) fun bps _ => .of_returns (.ok hexact)
    rw [abs_mul, value_ofNat, ten_zpow_add]
    exact mul_le_mul (hratioLe hcondition) (by norm_num) (abs_nonneg _) (ten_zpow_pos _).le
  next => exact .of_returns (.ok hexact)

/-! ## Agreement -/

/-- Prices that are not extreme: nothing that is computed from them overflows. -/
def Moderate (book : Book) : Prop :=
  ∀ side, ∀ level ∈ book.levels side,
    Between (10 ^ (-499000 : ℤ)) (10 ^ (499000 : ℤ)) level.price

/-- A share of an order that the fill and the depth agree with. -/
structure AgreesOn (book : Book) (side : Side) (requested share : Decimal) : Prop where
  /-- The share is finite. -/
  isFinite : share.isFinite = true
  /-- Smaller orders have no larger one. -/
  mono : ∀ less : Decimal, 0 < less.value → less.value ≤ requested.value →
    Returns (book.share side less) fun s => s.isFinite = true ∧ s.value ≤ share.value
  /-- The fill runs out of levels exactly if the share is above a hundred percent. -/
  fill : ReturnsUnless (¬ book.Moderate) (.arithmetic .overflow)
    (book.fill side (some requested) none) fun fill => 100 < share.value ↔ fill.exhausted = true
  /-- The depth has the quantity of all levels. -/
  depth : ReturnsUnless (¬ book.Moderate) .overflow (book.depth side) fun depth =>
    Exactly (OrderTicket.totalQuantity (book.levels side)) depth.quantity
  /-- A fill that runs out of levels has that quantity, too. -/
  quantity : ∀ fill depth, book.fill side (some requested) none = .ok fill →
    book.depth side = .ok depth → fill.exhausted = true →
    depth.quantity.equal fill.quantity = .ok true

/-- The fill of an order, unless a price is extreme. -/
theorem fill_returnsUnless (hb : b ≤ 1000) (hlevels : ∀ level ∈ book.levels side, level.Counted b)
    (hne : book.levels side ≠ [])
    (htotal : OrderTicket.totalQuantity (book.levels side) < 10 ^ (27 - b : ℤ))
    {requested : Decimal} (hpos : 0 < requested.value)
    (hplaces : Decimal.HasPlaces b requested.value)
    (hrequested : requested.value < 10 ^ (27 - b : ℤ)) :
    ReturnsUnless (¬ book.Moderate) (.arithmetic .overflow) (book.fill side (some requested) none)
      (Fill.Counts requested.value (book.levels side)) := by
  obtain ⟨best, rest, hside⟩ := List.exists_cons_of_ne_nil hne
  show ReturnsUnless _ _ (book.fillFor side .quantity requested) _
  rw [fillFor_of_cons hpos hside]
  have hmoderate (hcondition : ¬ ¬ book.Moderate) := not_not.1 hcondition side
  rw [hside] at hlevels htotal hmoderate ⊢
  exact (Fill.along_counts (m := 499000) side hb (by decide) hlevels hmoderate htotal hpos hplaces
    hrequested).lift

/-- Share, fill and depth agree on whether a side has enough, if its quantities and the order have
few decimals and are not large. -/
theorem share_agrees {symbol : String} {depth timestamp : Payload}
    (hbook : ofDepth symbol depth timestamp = .ok book)
    (hfinite : ∀ side, ∀ level ∈ book.levels side, level.Finite) (side : Side)
    (hne : book.levels side ≠ []) (hb : b ≤ 1000)
    (hlevels : ∀ level ∈ book.levels side, Decimal.HasPlaces b level.quantity.value)
    {requested : Decimal} (hpos : 0 < requested.value)
    (hplaces : Decimal.HasPlaces b requested.value)
    (htotal : OrderTicket.totalQuantity (book.levels side) + requested.value <
      10 ^ (27 - b : ℤ)) :
    ∃ share, book.share side requested = .ok share ∧ book.AgreesOn side requested share := by
  have hpositive (side : Side) (level : Level) (hlevel : level ∈ book.levels side) :
      0 < level.price.value ∧ 0 < level.quantity.value :=
    pos_of_mem_levels hbook hlevel (hfinite side level hlevel).price
      (hfinite side level hlevel).quantity
  have hcounted : ∀ level ∈ book.levels side, level.Counted b := fun level hlevel =>
    ⟨hfinite side level hlevel, ⟨(hpositive side level hlevel).1, (hpositive side level hlevel).2⟩,
      hlevels level hlevel⟩
  have hstock := totalQuantity_pos_of_counted hcounted hne
  have hlt : OrderTicket.totalQuantity (book.levels side) < 10 ^ (27 - b : ℤ) := by linarith
  have hrequested : requested.value < 10 ^ (27 - b : ℤ) := by linarith
  obtain ⟨share, hshare, hexact⟩ := share_returns hb hcounted hne hlt hpos hrequested
  -- rounding keeps the quotient on its side of one, so the share tells what the walk finds out
  have hiff : 100 < share.value ↔
      OrderTicket.totalQuantity (book.levels side) < requested.value := by
    rw [hexact.value_eq]
    exact hundred_lt_shareOf_iff hplaces (hasPlaces_totalQuantity hcounted) hstock hlt
  have hfill := fill_returnsUnless hb hcounted hne hlt hpos hplaces hrequested
  have hdepth : ReturnsUnless (¬ book.Moderate) .overflow (book.depth side) fun depth =>
      Exactly (OrderTicket.totalQuantity (book.levels side)) depth.quantity :=
    depth_returnsUnless (m := 499000) hb (by decide) (fun side level hlevel =>
      ⟨(hfinite side level hlevel).price, (hpositive side level hlevel).1⟩) hcounted hne
      (fun hcondition => not_not.1 hcondition) hlt
  refine ⟨share, hshare, hexact.isFinite, fun less hless hle => ?_, ?_, hdepth, ?_⟩
  · refine (share_returns hb hcounted hne hlt hless (hle.trans_lt hrequested)).mono fun s hs =>
      ⟨hs.isFinite, ?_⟩
    rw [hs.value_eq, hexact.value_eq]
    exact shareOf_mono hstock hle
  · exact hfill.mono fun fill hcounts => hiff.trans hcounts.exhausted.symm
  -- a fill that ends early has taken the whole side, which the depth adds up
  · intro fill depth hfilled hsummed hexhausted
    have hcounts := hfill.of_eq_ok hfilled
    have htaken := hcounts.quantity
    rw [min_eq_right (hcounts.exhausted.1 hexhausted).le] at htaken
    exact (hdepth.of_eq_ok hsummed).equal htaken

/-! ## A small book and one with distant prices -/

namespace Sample

/-- The levels of the sample book have prices of moderate size. -/
theorem levels_between (hbook : ofDepth "BTCUSDT" depth .null = .ok book) (side : Side) :
    ∀ level ∈ book.levels side, Between (10 ^ (-3 : ℤ)) (10 ^ (3 : ℤ)) level.price ∧
      level.quantity.isFinite = true := by
  obtain rfl := Except.ok.inj (hbook.symm.trans ofDepth_depth)
  have hbid : Between (10 ^ (-3 : ℤ)) (10 ^ (3 : ℤ)) (.finite false 995 (-1)) := by
    refine ⟨rfl, ?_, ?_⟩ <;> norm_num [value, magnitude]
  have hask : Between (10 ^ (-3 : ℤ)) (10 ^ (3 : ℤ)) (.finite false 1005 (-1)) := by
    refine ⟨rfl, ?_, ?_⟩ <;> norm_num [value_price]
  have hworse : Between (10 ^ (-3 : ℤ)) (10 ^ (3 : ℤ)) 101 := by
    refine ⟨rfl, ?_, ?_⟩ <;> norm_num
  intro level hlevel
  cases side with
  | buy =>
    have hmem := List.mem_mergeSort.1 hlevel
    simp only [List.mem_cons, List.not_mem_nil, or_false] at hmem
    rcases hmem with rfl | rfl
    · exact ⟨hworse, rfl⟩
    · exact ⟨hask, rfl⟩
  | sell =>
    obtain rfl := List.mem_singleton.1 (List.mem_mergeSort.1 hlevel)
    exact ⟨hbid, rfl⟩

theorem moderate (hbook : ofDepth "BTCUSDT" depth .null = .ok book) : book.Moderate := by
  intro side level hlevel
  refine (levels_between hbook side level hlevel).1.mono ?_ ?_ <;>
    exact zpow_le_zpow_right₀ (by norm_num) (by norm_num)

/-- Depth data with prices at both ends of the exponents. -/
def distantDepth : Payload :=
  .object [("bids", .list [.list ["1E-999999", "1"]]),
    ("asks", .list [.list ["1", "1"], .list ["1E+999999", "1"]])]

/-- The book. -/
def distantBook : Book where
  symbol := "BTCUSDT"
  bids := [⟨.finite false 1 (-999999), 1⟩]
  asks := [⟨1, 1⟩, ⟨.finite false 1 999999, 1⟩]

theorem ofDepth_distantDepth : ofDepth "BTCUSDT" distantDepth .null = .ok distantBook := by
  have hsides : ofDepth "BTCUSDT" distantDepth .null = .ok ⟨Text.upper "BTCUSDT",
      [⟨.finite false 1 (-999999), 1⟩].mergeSort (priority .sell),
      [⟨1, 1⟩, ⟨.finite false 1 999999, 1⟩].mergeSort (priority .buy), .null⟩ := rfl
  have hupper : Text.upper "BTCUSDT" = "BTCUSDT" := by decide +kernel
  have hsorted : priority .buy ⟨1, 1⟩ ⟨.finite false 1 999999, 1⟩ = true := rfl
  rw [hsides, hupper]
  simp [distantBook, List.mergeSort, hsorted]

end Sample

/-- The share of the sample book for nine agrees with its levels. -/
theorem share_agrees_purchase : ∃ book, ofDepth "BTCUSDT" Sample.depth .null = .ok book ∧
    book.Moderate ∧ ∃ share, book.share .buy 9 = .ok share ∧ book.AgreesOn .buy 9 share := by
  obtain ⟨book, hbook, hasks⟩ := Sample.exists_book
  have hbetween := Sample.levels_between hbook
  refine ⟨book, hbook, Sample.moderate hbook, share_agrees (b := 0) hbook
    (fun side level hlevel =>
      ⟨(hbetween side level hlevel).1.isFinite, (hbetween side level hlevel).2⟩)
    .buy (by simp [hasks, Sample.asks]) (by decide) ?_ (by norm_num) ⟨9, by norm_num⟩
    (by norm_num [hasks, Sample.asks])⟩
  rw [hasks]
  exact fun level hlevel => (Sample.asks_hasPlaces level hlevel).quantity

/-- Prices that are far apart make the slippage and the spread overflow, although the quantities are
small and no product on the walk is rounded. Then the share tells that the side has too little, but
there is no fill to tell so, and no depth. -/
theorem not_agrees_distant :
    ofDepth "BTCUSDT" Sample.distantDepth .null = .ok Sample.distantBook ∧
      (∀ side, ∀ level ∈ Sample.distantBook.levels side, level.Finite) ∧
      (∀ level ∈ Sample.distantBook.levels .buy, Decimal.HasPlaces 0 level.quantity.value) ∧
      OrderTicket.totalQuantity (Sample.distantBook.levels .buy) + 3 < 10 ^ 27 ∧
      (∀ level ∈ Sample.distantBook.levels .buy, level.quantity.mul level.price = .ok level.price) ∧
      Sample.distantBook.share .buy 3 = .ok (.finite false 1500 (-1)) ∧
      ¬ (100 < (Decimal.finite false 1500 (-1)).value ↔ ∃ fill,
        Sample.distantBook.fill .buy (some 3) none = .ok fill ∧ fill.exhausted = true) ∧
      Sample.distantBook.fill .buy (some 3) none = .error (.arithmetic .overflow) ∧
      Sample.distantBook.depth .buy = .error .overflow := by
  have hfill : Sample.distantBook.fill .buy (some 3) none = .error (.arithmetic .overflow) := rfl
  refine ⟨Sample.ofDepth_distantDepth, ?_, ?_, ?_, ?_, rfl, ?_, hfill, rfl⟩
  · intro side
    cases side with
    | buy => exact List.forall_mem_cons.2 ⟨⟨rfl, rfl⟩, List.forall_mem_singleton.2 ⟨rfl, rfl⟩⟩
    | sell => exact List.forall_mem_singleton.2 ⟨rfl, rfl⟩
  · have hone : Decimal.HasPlaces 0 (Decimal.value 1) := ⟨1, by norm_num⟩
    exact List.forall_mem_cons.2 ⟨hone, List.forall_mem_singleton.2 hone⟩
  · norm_num [Sample.distantBook, levels]
  · exact List.forall_mem_cons.2 ⟨rfl, List.forall_mem_singleton.2 rfl⟩
  · intro hagrees
    obtain ⟨fill, hfilled, -⟩ := hagrees.1 (by norm_num [value, magnitude])
    rw [hfill] at hfilled
    cases hfilled

end Book

end OrderTicket
