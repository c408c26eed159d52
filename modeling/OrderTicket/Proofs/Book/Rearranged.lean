import OrderTicket.Proofs.Book.Within
import OrderTicket.Proofs.Decimal.Alike
import OrderTicket.Proofs.Rules.Grid

/-!
# The order of depth data does not matter

Entries of depth data can come in any order, an entry without quantity can be left out, and an entry
can be split into several of the same price. Books of such data may have different levels, but their
sides offer the same at every price, and nothing else matters to the price halfway between bid and
ask, to fills and to the advised size. Only the number of levels that a fill takes from can differ.

* `Book.Rearranged`: entries that offer the same.
* `Book.SameOffer`: sides of books that do.
* `Book.SameOffer.agrees`, `Book.quantityWithin_alike`, `Book.midPrice?_alike`: what is computed
  from such sides.
* `Book.Interchangeable`, `Book.interchangeable_of_rearranged`: books of such data.
-/

namespace OrderTicket

open Decimal

theorem Level.IsEmpty.value_eq_zero {level : Level} (h : level.IsEmpty) :
    level.quantity.value = 0 := by
  unfold Level.IsEmpty at h
  cases hquantity : level.quantity with
  | finite n c e =>
    rw [hquantity, place_of_isFinite rfl] at h
    exact WithTop.coe_injective (WithBot.coe_injective h)
  | infinity => rfl
  | nan => rfl

namespace Book

/-- Entries of depth data that offer the same at every price. -/
inductive Rearranged : List Level → List Level → Prop where
  /-- In another order. -/
  | perm {levels other : List Level} (h : levels.Perm other) : Rearranged levels other
  /-- With an entry more that has no quantity. -/
  | insert {level : Level} {levels : List Level} (h : level.IsEmpty) :
      Rearranged levels (level :: levels)
  /-- With an entry split into parts of the same price. -/
  | split {level : Level} {parts levels : List Level}
      (hprice : ∀ part ∈ parts, part.price.Equals level.price)
      (hquantity : OrderTicket.totalQuantity parts = level.quantity.value) :
      Rearranged (level :: levels) (parts ++ levels)
  /-- The other way around. -/
  | symm {levels other : List Level} (h : Rearranged levels other) : Rearranged other levels
  /-- One after another. -/
  | trans {levels between other : List Level} (h : Rearranged levels between)
      (h' : Rearranged between other) : Rearranged levels other

/-- Entries that are rearranged offer the same. -/
theorem Rearranged.offered_eq {levels other : List Level} (h : Rearranged levels other)
    (f : ℚ → ℚ) : offered f levels = offered f other := by
  induction h with
  | perm h => exact offered_perm f h
  | insert h => rw [offered_cons, h.value_eq_zero, zero_mul, zero_add]
  | @split level parts levels hprice hquantity =>
    have hparts : offered f parts = OrderTicket.totalQuantity parts * f level.price.value := by
      clear hquantity
      induction parts with
      | nil => simp
      | cons part parts ih =>
        obtain ⟨hpart, hrest⟩ := List.forall_mem_cons.1 hprice
        rw [offered_cons, totalQuantity_cons, ih hrest, hpart.value_eq, add_mul]
    rw [offered_cons, offered_append, hparts, hquantity]
  | symm _ ih => exact ih.symm
  | trans _ _ ih ih' => exact ih.trans ih'

/-! ## Sides that offer the same -/

variable {a b : ℕ} {side : Side} {best best' : Level}
  {levels levels' rest rest' quoted : List Level}
  {book other : Book} {bps limit limit' : Decimal} {needed : ℚ}

/-- A sorted side of positive levels. -/
structure IsSide (side : Side) (levels : List Level) : Prop where
  /-- Prices and quantities are finite. -/
  finite : ∀ level ∈ levels, level.Finite
  /-- Prices and quantities are positive. -/
  positive : ∀ level ∈ levels, level.Positive
  /-- The best price comes first. -/
  sorted : Fill.Sorted side levels

/-- Sides that offer the same at every price. -/
structure SameOffer (side : Side) (levels levels' : List Level) : Prop where
  /-- The one side is sorted and positive. -/
  left : IsSide side levels
  /-- The other side is sorted and positive. -/
  right : IsSide side levels'
  /-- Both sides offer the same, however prices are weighted. -/
  offered_eq : ∀ f, offered f levels = offered f levels'

namespace SameOffer

theorem total_eq (h : SameOffer side levels levels') :
    OrderTicket.totalQuantity levels = OrderTicket.totalQuantity levels' := by
  rw [← offered_one, h.offered_eq, offered_one]

theorem notional_eq (h : SameOffer side levels levels') :
    totalNotional levels = totalNotional levels' := by
  rw [← offered_id, h.offered_eq, offered_id]

/-- Sides that offer the same hold the same at any prices. -/
theorem held_eq (h : SameOffer side levels levels') (p : ℚ → Prop) [DecidablePred p] :
    held p levels = held p levels' := by
  rw [held_eq_offered, h.offered_eq, held_eq_offered]

/-- Sides that offer the same have equal best prices, or are both empty. -/
theorem cases (h : SameOffer side levels levels') :
    (levels = [] ∧ levels' = []) ∨ ∃ best rest best' rest', levels = best :: rest ∧
      levels' = best' :: rest' ∧ best.price.Equals best'.price := by
  have htotal := h.total_eq
  obtain ⟨hleft, hright, hsame⟩ := h
  cases levels with
  | nil =>
    cases levels' with
    | nil => exact .inl ⟨rfl, rfl⟩
    | cons best' rest' => exact absurd htotal (totalQuantity_pos hright.positive).ne
  | cons best rest =>
    cases levels' with
    | nil => exact absurd htotal (totalQuantity_pos hleft.positive).ne'
    | cons best' rest' =>
      exact .inr ⟨best, rest, best', rest', rfl, rfl, (hleft.finite best List.mem_cons_self).price,
        (hright.finite best' List.mem_cons_self).price,
        Fill.best_eq hleft.positive hright.positive hleft.sorted hright.sorted hsame⟩

/-- Sides that offer the same have equal best prices. -/
theorem head (h : SameOffer side levels levels') :
    Option.Rel Equals (levels.head?.map (·.price)) (levels'.head?.map (·.price)) := by
  obtain ⟨rfl, rfl⟩ | ⟨best, rest, best', rest', rfl, rfl, hbest⟩ := h.cases
  · exact .none
  · exact .some hbest

/-- Orders for the same quantity get equal fills. -/
theorem agrees (h : SameOffer side levels levels') {fill fill' : Fill} (hneeded : 0 < needed)
    (hfill : fill.Takes needed levels) (hfill' : fill'.Takes needed levels') :
    fill.Agrees fill' := by
  obtain ⟨best, hhead, hbest⟩ := Option.map_eq_some_iff.1 hfill.bestPrice
  obtain ⟨best', hhead', hbest'⟩ := Option.map_eq_some_iff.1 hfill'.bestPrice
  obtain ⟨last, hlast, hworst⟩ := Option.map_eq_some_iff.1 hfill.worstPrice
  obtain ⟨last', hlast', hworst'⟩ := Option.map_eq_some_iff.1 hfill'.worstPrice
  -- the best price, the worst price and the worth of the order are those of both sides
  have hfirst : fill.bestPrice.Equals fill'.bestPrice := by
    have hrel := h.head
    rw [hfill.bestPrice, hfill'.bestPrice] at hrel
    cases hrel with
    | some hequals => exact hequals
  obtain ⟨hprice, hworth⟩ := Fill.worth_eq h.left.positive h.right.positive h.left.sorted
    h.right.sorted h.offered_eq hneeded hlast hlast'
  have hfinite := (h.left.finite last (List.mem_of_mem_take (List.mem_of_getLast? hlast))).price
  have hfinite' := (h.right.finite last' (List.mem_of_mem_take (List.mem_of_getLast? hlast'))).price
  rw [hworst] at hprice hfinite
  rw [hworst'] at hprice hfinite'
  have hquantity := hfill.quantity
  have hnotional := hfill.notional
  have haverage := hfill.averagePrice
  have hslippage := hfill.slippagePercent
  have hexhausted := hfill.exhausted
  rw [h.total_eq] at hquantity hexhausted
  rw [hworth] at hnotional
  rw [hworth, h.total_eq] at haverage
  rw [hfirst.value_eq, haverage.value_eq, ← hfill'.averagePrice.value_eq] at hslippage
  refine ⟨hquantity.equal hfill'.quantity, hnotional.equal hfill'.notional,
    haverage.equal hfill'.averagePrice, hfirst.equal, Equals.equal ⟨hfinite, hfinite', hprice⟩,
    hslippage.equal hfill'.slippagePercent, ?_⟩
  rw [Bool.eq_iff_iff, hexhausted, hfill'.exhausted]

end SameOffer

/-! ## What is computed from them -/

/-- Levels with few decimals whose totals are not large. -/
structure ExactRange (a b : ℕ) (levels : List Level) : Prop where
  /-- Prices and quantities together have few decimals. -/
  places_le : a + b ≤ 1000
  /-- The decimals of the levels. -/
  hasPlaces : ∀ level ∈ levels, level.HasPlaces a b
  /-- The total quantity is not large. -/
  quantity_lt : OrderTicket.totalQuantity levels < 10 ^ (27 - b : ℤ)
  /-- The total value is not large. -/
  notional_lt : totalNotional levels < 10 ^ (27 - (a + b : ℕ) : ℤ)

/-- The quantity up to a limit is summed without rounding. -/
theorem ExactRange.quantityUpTo_returns (h : ExactRange a b levels) (hside : IsSide side levels)
    (hlimit : limit.IsNumber) :
    Returns (quantityUpTo side limit levels 0)
      (SumsTo b 0 (held (side.Within limit) levels)) := by
  have hscaled : ∀ level ∈ levels, level.Scaled a b := fun level hlevel =>
    ⟨h.hasPlaces level hlevel, hside.positive level hlevel⟩
  have hplaces := h.places_le
  exact Book.quantityUpTo_returns (by omega) hscaled hside.sorted hlimit
    (Fill.room_start 0 0 h.quantity_lt h.notional_lt).quantity

/-- The price halfway between equal prices. -/
theorem midPrice?_alike (hbid : Option.Rel Equals book.bestBid? other.bestBid?)
    (hask : Option.Rel Equals book.bestAsk? other.bestAsk?) :
    Alike (Option.Rel Equals) book.midPrice? other.midPrice? := by
  unfold midPrice?
  generalize book.bestBid? = bid, other.bestBid? = bid' at hbid
  generalize book.bestAsk? = ask, other.bestAsk? = ask' at hask
  cases hbid with
  | none => exact .ok hask
  | @some bid bid' hbid =>
    cases hask with
    | none => exact .ok (.some hbid)
    | @some ask ask' hask =>
      -- both steps round an exact result, and the exact results are equal
      have hsum := add_computes hbid.isFinite_left hask.isFinite_left
      rw [hbid.value_eq, hask.value_eq] at hsum
      refine .bind (hsum.alike (add_computes hbid.isFinite_right hask.isFinite_right))
        fun sum sum' hsum => ?_
      have htwo : Decimal.value 2 ≠ 0 := by simp
      have hhalf := div_computes hsum.isFinite_left (y := 2) rfl htwo
      rw [hsum.value_eq] at hhalf
      exact .bind (hhalf.alike (div_computes hsum.isFinite_right rfl htwo))
        fun mid mid' hmid => .ok (.some hmid)

/-- The price limits of equal prices. -/
theorem priceLimit_alike {best best' : Decimal} (h : best.Equals best') (side : Side)
    (bps : Decimal) : Alike Same (priceLimit side best bps) (priceLimit side best' bps) := by
  refine .bind_left fun tolerance => ?_
  cases side with
  | buy => exact .bind_left fun factor => mul_alike h factor
  | sell => exact .bind_left fun factor => mul_alike h factor

/-- Cutting equal numbers to a step. -/
theorem floorWritten_congr {value value' step : Decimal} (hpos : 0 < value.value)
    (h : value.value = value'.value) (hstep : step.IsPositive) :
    TradingRules.floorWritten value step = TradingRules.floorWritten value' step := by
  have hdiv : value.divTrunc step = value'.divTrunc step := by
    cases step with
    | finite n c e =>
      have hstep := value_pos_of_le_zero_eq_false rfl hstep
      rw [divTrunc_eq_of_pos hpos hstep, divTrunc_eq_of_pos (h ▸ hpos) hstep, h]
    | infinity n =>
      obtain ⟨c, e, -, rfl⟩ := exists_of_pos hpos
      obtain ⟨c', e', -, rfl⟩ := exists_of_pos (h ▸ hpos)
      rfl
    | nan n s p => cases hstep
  unfold TradingRules.floorWritten Step.floor
  rw [hdiv]

/-- The sums up to limits that operations do not tell apart. Where nothing is added they are the
same number. -/
theorem quantityUpTo_alike (h : SameOffer side (best :: rest) (best' :: rest'))
    (hrange : ExactRange a b (best :: rest)) (hrange' : ExactRange a b (best' :: rest'))
    (hlimit : limit.Same limit') :
    Alike (fun sum sum' => sum.Equals sum' ∧ (sum = sum' ∨ 0 < sum.value))
      (quantityUpTo side limit (best :: rest) 0) (quantityUpTo side limit' (best' :: rest') 0) := by
  by_cases hnumber : limit.IsNumber
  · have hplace : limit'.IsNumber ∧ limit.place = limit'.place := by
      rcases hlimit with rfl | hequals
      · exact ⟨hnumber, rfl⟩
      · refine ⟨isNumber_of_isFinite hequals.isFinite_right, ?_⟩
        rw [place_of_isFinite hequals.isFinite_left, place_of_isFinite hequals.isFinite_right,
          hequals.value_eq]
    have hheld : held (side.Within limit) (best :: rest) =
        held (side.Within limit') (best' :: rest') := by
      rw [h.held_eq]
      exact held_congr (fun v => by rw [Side.Within, Side.Within, hplace.2]) _
    obtain ⟨sum, hsum, hspec⟩ := hrange.quantityUpTo_returns h.left hnumber
    obtain ⟨sum', hsum', hspec'⟩ := hrange'.quantityUpTo_returns h.right hplace.1
    rw [hsum, hsum']
    refine .ok ⟨⟨hspec.isFinite, hspec'.isFinite, ?_⟩, ?_⟩
    · rw [hspec.value_eq, hspec'.value_eq, hheld]
    · rcases (held_nonneg (p := side.Within limit)
        (stocked_of_positive h.left.positive)).eq_or_lt with hzero | hpos
      · refine .inl ?_
        rw [hspec.eq_of_zero hzero.symm, hspec'.eq_of_zero (hheld ▸ hzero.symm)]
      · refine .inr ?_
        rwa [hspec.value_eq, value_ofNat, Nat.cast_zero, zero_add]
  · -- a NaN cannot be compared with any price
    obtain rfl := hlimit.resolve_right fun hequals =>
      hnumber (isNumber_of_isFinite hequals.isFinite_left)
    rw [quantityUpTo, quantityUpTo, isWorse_of_not_isNumber side _ hnumber,
      isWorse_of_not_isNumber side _ hnumber]
    exact .error _

/-- The advised sizes for the same slippage, with the same rules. -/
theorem quantityWithin_alike (h : SameOffer side (book.levels side) (other.levels side))
    (hrange : ExactRange a b (book.levels side)) (hrange' : ExactRange a b (other.levels side))
    (bps : Decimal) (rules : Option TradingRules) :
    Alike Same (book.quantityWithin side bps rules) (other.quantityWithin side bps rules) := by
  unfold quantityWithin
  obtain ⟨hside, hside'⟩ | ⟨best, rest, best', rest', hside, hside', hbest⟩ := h.cases
  · rw [hside, hside']
    exact .ok (.inl rfl)
  · rw [hside, hside'] at h
    rw [hside] at hrange ⊢
    rw [hside'] at hrange' ⊢
    refine .bind (priceLimit_alike hbest side bps).lift fun limit limit' hlimit => ?_
    refine .bind (quantityUpTo_alike h hrange hrange' hlimit).lift fun sum sum' hsum => ?_
    obtain ⟨hequals, hsame⟩ := hsum
    cases rules with
    | none => exact .ok (.inr hequals)
    | some rules =>
      show Alike Same (TradingRules.floorWritten _ _) (TradingRules.floorWritten _ _)
      -- cutting to the step sees the value only, unless the sum is zero and then the same zero
      rcases hsame with rfl | hpos
      · exact .refl fun _ => .inl rfl
      · rw [floorWritten_congr hpos hequals.value_eq (rules.lot_step_pos true)]
        exact .refl fun _ => .inl rfl

/-! ## Books -/

/-- Books that orders do not tell apart. -/
structure Interchangeable (book other : Book) : Prop where
  /-- The prices halfway between bid and ask are equal. -/
  midPrice : Alike (Option.Rel Equals) book.midPrice? other.midPrice?
  /-- Fills for a quantity agree. -/
  fill : ∀ (side : Side) (a b : ℕ) (requested : Decimal), ExactRange a b (book.levels side) →
    (∀ level ∈ other.levels side, level.HasPlaces a b) → book.levels side ≠ [] →
    0 < requested.value → Decimal.HasPlaces b requested.value →
    OrderTicket.totalQuantity (book.levels side) + requested.value < 10 ^ (27 - b : ℤ) →
    ∃ fill fill', book.fill side (some requested) none = .ok fill ∧
      other.fill side (some requested) none = .ok fill' ∧ fill.Agrees fill'
  /-- The advised sizes are the same. -/
  quantityWithin : ∀ (side : Side) (a b : ℕ) (bps : Decimal) (rules : Option TradingRules),
    ExactRange a b (book.levels side) → (∀ level ∈ other.levels side, level.HasPlaces a b) →
    Alike Same (book.quantityWithin side bps rules) (other.quantityWithin side bps rules)

/-- A side with few decimals has totals that are not large if it offers what such a side does. -/
theorem SameOffer.exactRange (h : SameOffer side levels levels') (hrange : ExactRange a b levels)
    (hplaces : ∀ level ∈ levels', level.HasPlaces a b) : ExactRange a b levels' :=
  ⟨hrange.places_le, hplaces, h.total_eq ▸ hrange.quantity_lt, h.notional_eq ▸ hrange.notional_lt⟩

section Books

variable {symbol symbol' : String} {depth depth' timestamp timestamp' : Payload}
  {bids asks bids' asks' : List Level}

/-- A side that holds finite entries. -/
theorem isSide_of_holds (hbook : ofDepth symbol depth timestamp = .ok book)
    (h : Holds side quoted (book.levels side)) (hfinite : ∀ level ∈ quoted, level.Finite) :
    IsSide side (book.levels side) := by
  have hlevels : ∀ level ∈ book.levels side, level.Finite := fun level hlevel =>
    hfinite level (List.mem_of_mem_filter (h.perm.mem_iff.1 hlevel))
  refine ⟨hlevels, fun level hlevel => ?_, pairwise_levels hbook fun level hlevel =>
    (hlevels level hlevel).price⟩
  obtain ⟨hprice, hquantity⟩ := pos_of_mem_levels hbook hlevel (hlevels level hlevel).price
    (hlevels level hlevel).quantity
  exact ⟨hprice, hquantity⟩

/-- A side offers what its entries do: those that are left out have no quantity. -/
theorem Holds.offered_eq (h : Holds side quoted levels) (f : ℚ → ℚ) :
    offered f levels = offered f quoted := by
  rw [offered_perm f h.perm]
  clear h
  induction quoted with
  | nil => rfl
  | cons level rest ih =>
    by_cases hempty : level.IsEmpty
    · rw [List.filter_cons_of_neg (by simpa using hempty), ih, offered_cons, hempty.value_eq_zero,
        zero_mul, zero_add]
    · rw [List.filter_cons_of_pos (by simpa using hempty), offered_cons, offered_cons, ih]

/-- Books of data that was rearranged have sides that offer the same. -/
theorem sameOffer_of_rearranged {quoted quoted' : List Level}
    (hbook : ofDepth symbol depth timestamp = .ok book)
    (hother : ofDepth symbol' depth' timestamp' = .ok other)
    (h : Holds side quoted (book.levels side)) (h' : Holds side quoted' (other.levels side))
    (hfinite : ∀ level ∈ quoted, level.Finite) (hfinite' : ∀ level ∈ quoted', level.Finite)
    (hrearranged : Rearranged quoted quoted') :
    SameOffer side (book.levels side) (other.levels side) := by
  refine ⟨isSide_of_holds hbook h hfinite, isSide_of_holds hother h' hfinite', fun f => ?_⟩
  rw [h.offered_eq, h'.offered_eq, hrearranged.offered_eq]

/-- Books of depth data with finite entries do not depend on the order of the entries, on entries
without quantity, and on how entries of the same price are split. -/
theorem interchangeable_of_rearranged (hbook : ofDepth symbol depth timestamp = .ok book)
    (hother : ofDepth symbol' depth' timestamp' = .ok other) (hquotes : DepthQuotes depth bids asks)
    (hquotes' : DepthQuotes depth' bids' asks') (hfinite : ∀ level ∈ bids ++ asks, level.Finite)
    (hfinite' : ∀ level ∈ bids' ++ asks', level.Finite) (hbids : Rearranged bids bids')
    (hasks : Rearranged asks asks') : Interchangeable book other := by
  obtain ⟨hbidSide, haskSide⟩ := holds_of_ofDepth hquotes hbook
  obtain ⟨hbidSide', haskSide'⟩ := holds_of_ofDepth hquotes' hother
  obtain ⟨hfiniteBids, hfiniteAsks⟩ := List.forall_mem_append.1 hfinite
  obtain ⟨hfiniteBids', hfiniteAsks'⟩ := List.forall_mem_append.1 hfinite'
  -- all that follows needs only that each side offers the same as before
  have hsame (side : Side) : SameOffer side (book.levels side) (other.levels side) := by
    cases side with
    | buy =>
      exact sameOffer_of_rearranged hbook hother haskSide haskSide' hfiniteAsks hfiniteAsks' hasks
    | sell =>
      exact sameOffer_of_rearranged hbook hother hbidSide hbidSide' hfiniteBids hfiniteBids' hbids
  refine ⟨midPrice?_alike (hsame .sell).head (hsame .buy).head, ?_, ?_⟩
  · intro side a b requested hrange hplaces' hne hpos hplaces hquantity
    have hrange' := (hsame side).exactRange hrange hplaces'
    -- sides that offer the same are both empty or both not
    have hne' : other.levels side ≠ [] := by
      obtain ⟨hnil, -⟩ | ⟨_, _, best, rest, -, hcons, -⟩ := (hsame side).cases
      · exact absurd hnil hne
      · exact hcons ▸ List.cons_ne_nil best rest
    obtain ⟨fill, hfill, htakes⟩ := fill_takes hbook side hne hpos hrange.places_le
      hrange.hasPlaces hplaces hquantity hrange.notional_lt
    obtain ⟨fill', hfill', htakes'⟩ := fill_takes hother side hne' hpos hrange'.places_le
      hrange'.hasPlaces hplaces ((hsame side).total_eq ▸ hquantity) hrange'.notional_lt
    exact ⟨fill, fill', hfill, hfill', (hsame side).agrees hpos htakes htakes'⟩
  · intro side a b bps rules hrange hplaces'
    exact quantityWithin_alike (hsame side) hrange ((hsame side).exactRange hrange hplaces') bps
      rules

end Books

/-! ## A book with a split ask -/

namespace Sample

/-- What the small book says, with the better ask split in two and an ask without quantity. -/
def splitDepth : Payload :=
  .object [("bids", .list [.list ["99.5", "2"]]), ("asks", .list [.list ["100.50", "1"],
    .list ["101", "3"], .list ["102", "0"], .list ["100.5", "1"]])]

/-- The only bid of both. -/
def bid : Level :=
  ⟨.finite false 995 (-1), 2⟩

/-- The asks, with the worse one first. -/
def asksAsGiven : List Level :=
  [⟨101, 3⟩, ⟨.finite false 1005 (-1), 2⟩]

/-- The asks, one of them split. -/
def splitAsks : List Level :=
  [⟨.finite false 10050 (-2), 1⟩, ⟨101, 3⟩, ⟨102, 0⟩, ⟨.finite false 1005 (-1), 1⟩]

theorem depth_quotes : DepthQuotes depth [bid] asksAsGiven := by
  refine ⟨⟨_, rfl, _, rfl, ?_⟩, ⟨_, rfl, _, rfl, ?_⟩⟩
  · exact .cons ⟨⟨_, rfl, rfl⟩, ⟨_, rfl, rfl⟩, trivial, trivial⟩ .nil
  · refine .cons ?_ (.cons ?_ .nil) <;> exact ⟨⟨_, rfl, rfl⟩, ⟨_, rfl, rfl⟩, trivial, trivial⟩

theorem splitDepth_quotes : DepthQuotes splitDepth [bid] splitAsks := by
  refine ⟨⟨_, rfl, _, rfl, ?_⟩, ⟨_, rfl, _, rfl, ?_⟩⟩
  · exact .cons ⟨⟨_, rfl, rfl⟩, ⟨_, rfl, rfl⟩, trivial, trivial⟩ .nil
  · refine .cons ?_ (.cons ?_ (.cons ?_ (.cons ?_ .nil))) <;>
      exact ⟨⟨_, rfl, rfl⟩, ⟨_, rfl, rfl⟩, trivial, trivial⟩

/-- The parts of the asks offer what the asks do. -/
theorem splitAsks_rearranged : Rearranged asksAsGiven splitAsks := by
  have hparts : ∀ part ∈ [(⟨.finite false 10050 (-2), 1⟩ : Level), ⟨.finite false 1005 (-1), 1⟩],
      part.price.Equals (.finite false 1005 (-1)) := by
    refine List.forall_mem_cons.2 ⟨⟨rfl, rfl, ?_⟩, List.forall_mem_singleton.2 ⟨rfl, rfl, rfl⟩⟩
    norm_num [value, magnitude]
  have hempty : Level.IsEmpty ⟨102, 0⟩ := place_zero
  refine .trans (.perm (List.Perm.swap _ _ _)) (.trans (.split hparts ?_) ?_)
  · norm_num
  · exact .trans (.insert hempty) (.perm (by decide))

end Sample

/-- The book of the sample depth and that of the split depth are interchangeable. -/
theorem interchangeable_of_rearranged_split : ∃ book other,
    ofDepth "BTCUSDT" Sample.depth .null = .ok book ∧
      ofDepth "BTCUSDT" Sample.splitDepth .null = .ok other ∧ Interchangeable book other := by
  obtain ⟨book, hbook, -⟩ := Sample.exists_book
  obtain ⟨other, hother⟩ : ∃ other, ofDepth "BTCUSDT" Sample.splitDepth .null = .ok other :=
    ⟨_, rfl⟩
  have hfinite : ∀ level ∈ [Sample.bid] ++ Sample.asksAsGiven, level.Finite := by
    refine List.forall_mem_cons.2 ⟨⟨rfl, rfl⟩, List.forall_mem_cons.2 ⟨⟨rfl, rfl⟩, ?_⟩⟩
    exact List.forall_mem_singleton.2 ⟨rfl, rfl⟩
  have hfinite' : ∀ level ∈ [Sample.bid] ++ Sample.splitAsks, level.Finite := by
    refine List.forall_mem_cons.2 ⟨⟨rfl, rfl⟩, List.forall_mem_cons.2 ⟨⟨rfl, rfl⟩, ?_⟩⟩
    refine List.forall_mem_cons.2 ⟨⟨rfl, rfl⟩, List.forall_mem_cons.2 ⟨⟨rfl, rfl⟩, ?_⟩⟩
    exact List.forall_mem_singleton.2 ⟨rfl, rfl⟩
  exact ⟨book, other, hbook, hother, interchangeable_of_rearranged hbook hother Sample.depth_quotes
    Sample.splitDepth_quotes hfinite hfinite' (.perm (.refl _)) Sample.splitAsks_rearranged⟩

end Book

end OrderTicket
