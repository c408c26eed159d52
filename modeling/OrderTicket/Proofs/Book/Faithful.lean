import OrderTicket.Proofs.Book.Sides
import OrderTicket.Proofs.Decimal.Line

/-!
# Books and depth data

A book holds what the depth data says, and nothing else. Data with an entry that cannot rest in a
book is refused; otherwise each side has exactly the entries with a quantity, in the order of their
prices, and entries of the same price keep the order in which they came.

* `Book.Quotes`, `Book.DepthQuotes`: what an entry of depth data says, and what all of it says.
* `Level.Refused`, `Level.IsEmpty`: the entries that are refused, and those that are left out.
* `Book.readSide_of_quotes`: how one side is read.
* `Book.filter_mergeSort`: sorting keeps the order of what it does not tell apart.
* `Book.Holds`, `Book.ofDepth_faithful`: the sides of a book.
-/

namespace OrderTicket

open Decimal

/-- A level that cannot rest in a book: its price is not positive, or its quantity negative. -/
def Level.Refused (level : Level) : Prop :=
  level.price.place ≤ 0 ∨ level.quantity.place < 0

/-- A level without quantity. -/
def Level.IsEmpty (level : Level) : Prop :=
  level.quantity.place = 0

instance (level : Level) : Decidable level.Refused :=
  inferInstanceAs (Decidable (_ ∨ _))

instance (level : Level) : Decidable level.IsEmpty :=
  inferInstanceAs (Decidable (_ = _))

/-! ## The order of a side -/

/-- The order of the prices of a side: the lowest ask comes first, and so does the highest bid. -/
def Side.Before : Side → WithBot (WithTop ℚ) → WithBot (WithTop ℚ) → Prop
  | .buy, place, other => place ≤ other
  | .sell, place, other => other ≤ place

namespace Side.Before

variable {side : Side} {first second third : WithBot (WithTop ℚ)}

instance : Decidable (side.Before first second) :=
  match side with
  | .buy => inferInstanceAs (Decidable (first ≤ second))
  | .sell => inferInstanceAs (Decidable (second ≤ first))

theorem refl (side : Side) (first : WithBot (WithTop ℚ)) : side.Before first first := by
  cases side <;> exact le_rfl

theorem trans (h : side.Before first second) (h' : side.Before second third) :
    side.Before first third := by
  cases side with
  | buy => exact le_trans h h'
  | sell => exact le_trans h' h

theorem total (side : Side) (first second : WithBot (WithTop ℚ)) :
    side.Before first second ∨ side.Before second first := by
  cases side <;> exact le_total _ _

end Side.Before

namespace Book

variable {symbol : String} {depth timestamp entry : Payload} {level : Level}
  {entries : List Payload} {levels bids asks : List Level} {book : Book} {side : Side}

/-! ## What depth data says -/

/-- What an entry says: the numbers that its first two items stand for, none of them a NaN. -/
structure Quotes (entry : Payload) (level : Level) : Prop where
  /-- The first item is the price. -/
  price : ∃ item, entry.item 0 = .ok item ∧ item.number = .ok level.price
  /-- The second item is the quantity. -/
  quantity : ∃ item, entry.item 1 = .ok item ∧ item.number = .ok level.quantity
  /-- The price has a place in the order. -/
  price_isNumber : level.price.IsNumber
  /-- The quantity has a place in the order. -/
  quantity_isNumber : level.quantity.IsNumber

/-- What a side says, entry by entry; a side that is missing says nothing. -/
def SideQuotes : Option Payload → List Level → Prop
  | none, levels => levels = []
  | some side, levels => ∃ entries, side.items = .ok entries ∧ List.Forall₂ Quotes entries levels

/-- What depth data says about both sides. -/
structure DepthQuotes (depth : Payload) (bids asks : List Level) : Prop where
  /-- What buyers offer. -/
  bids : ∃ side, depth.field? "bids" = .ok side ∧ SideQuotes side bids
  /-- What sellers offer. -/
  asks : ∃ side, depth.field? "asks" = .ok side ∧ SideQuotes side asks

/-- An entry is refused, left out or kept. -/
theorem level?_of_quotes (symbol : String) (h : Quotes entry level) :
    level? symbol entry =
      if level.Refused then .error (.badLevel symbol entry)
      else .ok (if level.IsEmpty then none else some level) := by
  obtain ⟨first, hfirst, hprice⟩ := h.price
  obtain ⟨second, hsecond, hquantity⟩ := h.quantity
  have hle := le_eq_place h.price_isNumber (y := 0) trivial
  have hlt := lt_eq_place h.quantity_isNumber (y := 0) trivial
  have hequal := equal_eq_place h.quantity_isNumber (y := 0) trivial
  rw [place_zero] at hle hlt hequal
  -- the checks come one after another
  have hread : level? symbol entry =
      if level.price.place ≤ 0 then .error (.badLevel symbol entry)
      else if level.quantity.place < 0 then .error (.badLevel symbol entry)
      else if level.quantity.place = 0 then .ok none else .ok (some level) := by
    simp only [level?, hfirst, hsecond, hprice, hquantity, hle, hlt, hequal, Failure.liftM_eq, bind,
      Except.bind, Except.mapError, pure, Except.pure, decide_eq_true_eq]
    split_ifs <;> rfl
  have hrefused : level.Refused ↔ level.price.place ≤ 0 ∨ level.quantity.place < 0 := Iff.rfl
  have hempty : level.IsEmpty ↔ level.quantity.place = 0 := Iff.rfl
  rw [hread]
  grind

/-- Where no entry is refused, those with a quantity are kept. -/
theorem mapM_level? (symbol : String) (h : List.Forall₂ Quotes entries levels)
    (hkept : ∀ level ∈ levels, ¬ level.Refused) :
    ∃ results, entries.mapM (level? symbol) = .ok results ∧
      results.filterMap id = levels.filter fun level => ¬ level.IsEmpty := by
  induction h with
  | nil => exact ⟨[], rfl, rfl⟩
  | @cons entry level entries levels hentry _ ih =>
    obtain ⟨hlevel, hrest⟩ := List.forall_mem_cons.1 hkept
    obtain ⟨results, hresults, hfilter⟩ := ih hrest
    refine ⟨(if level.IsEmpty then none else some level) :: results, ?_, ?_⟩
    · rw [List.mapM_cons, level?_of_quotes symbol hentry, if_neg hlevel, hresults]
      rfl
    · by_cases hempty : level.IsEmpty
      · rw [if_pos hempty, List.filterMap_cons_none rfl, List.filter_cons_of_neg (by simpa),
          hfilter]
      · rw [if_neg hempty, List.filterMap_cons_some (f := id) rfl,
          List.filter_cons_of_pos (by simpa), hfilter]

/-- The first entry that is refused is named. -/
theorem mapM_level?_eq_error (symbol : String) (h : List.Forall₂ Quotes entries levels)
    (hrefused : ∃ level ∈ levels, level.Refused) :
    ∃ entry level, Quotes entry level ∧ level.Refused ∧
      entries.mapM (level? symbol) = .error (.badLevel symbol entry) := by
  induction h with
  | nil =>
    obtain ⟨level, hlevel, -⟩ := hrefused
    cases hlevel
  | @cons entry level entries levels hentry _ ih =>
    rw [List.mapM_cons, level?_of_quotes symbol hentry]
    by_cases hlevel : level.Refused
    · rw [if_pos hlevel]
      exact ⟨entry, level, hentry, hlevel, rfl⟩
    · obtain ⟨other, hmem, hother⟩ := hrefused
      have hrest := (List.mem_cons.1 hmem).resolve_left fun heq => hlevel (heq ▸ hother)
      obtain ⟨bad, quoted, hbad, hquoted, herror⟩ := ih ⟨other, hrest, hother⟩
      refine ⟨bad, quoted, hbad, hquoted, ?_⟩
      rw [if_neg hlevel, herror]
      rfl

/-- A side is the entries with a quantity, if none is refused. -/
theorem readSide_of_quotes (symbol : String) {side : Option Payload} (h : SideQuotes side levels)
    (hkept : ∀ level ∈ levels, ¬ level.Refused) :
    readSide symbol side = .ok (levels.filter fun level => ¬ level.IsEmpty) := by
  cases side with
  | none =>
    obtain rfl : levels = [] := h
    rfl
  | some side =>
    obtain ⟨entries, hentries, hquotes⟩ := h
    obtain ⟨results, hresults, hfilter⟩ := mapM_level? symbol hquotes hkept
    rw [readSide, hentries]
    change (entries.mapM (level? symbol) >>= _) = _
    rw [hresults, ← hfilter]
    rfl

/-- A side with an entry that is to be refused fails, and names such an entry. -/
theorem readSide_eq_error (symbol : String) {side : Option Payload} (h : SideQuotes side levels)
    (hrefused : ∃ level ∈ levels, level.Refused) :
    ∃ entry level, Quotes entry level ∧ level.Refused ∧
      readSide symbol side = .error (.badLevel symbol entry) := by
  cases side with
  | none =>
    obtain rfl : levels = [] := h
    obtain ⟨level, hlevel, -⟩ := hrefused
    cases hlevel
  | some side =>
    obtain ⟨entries, hentries, hquotes⟩ := h
    obtain ⟨entry, level, hentry, hlevel, herror⟩ := mapM_level?_eq_error symbol hquotes hrefused
    refine ⟨entry, level, hentry, hlevel, ?_⟩
    rw [readSide, hentries]
    change (entries.mapM (level? symbol) >>= _) = _
    rw [herror]
    rfl

/-- Bids are read before asks, and both are sorted. -/
theorem exists_ofDepth_eq (symbol : String) (timestamp : Payload) {bidSide askSide : Option Payload}
    (hbids : depth.field? "bids" = .ok bidSide) (hasks : depth.field? "asks" = .ok askSide) :
    ∃ time, ofDepth symbol depth timestamp = (do
      let bids ← readSide symbol bidSide
      let asks ← readSide symbol askSide
      return { symbol := Text.upper symbol, bids := bids.mergeSort (priority .sell),
               asks := asks.mergeSort (priority .buy), timestamp := time }) := by
  unfold ofDepth
  split
  · -- a timestamp of the data is looked up first, which a record never refuses
    obtain ⟨fields, hfields, -⟩ := map_eq_ok hbids
    have htime : depth.field? "timestamp" = .ok (Payload.lookup? fields "timestamp") := by
      rw [Payload.field?, hfields]
      rfl
    refine ⟨(Payload.lookup? fields "timestamp").getD .null, ?_⟩
    rw [htime, hbids, hasks]
    rfl
  · refine ⟨timestamp, ?_⟩
    rw [hbids, hasks]
    rfl

/-! ## Sorting -/

/-- Sorting keeps the order of what it does not tell apart. -/
theorem filter_mergeSort {α : Type} {le : α → α → Bool} (htrans : ∀ a b c, le a b → le b c → le a c)
    (htotal : ∀ a b, le a b || le b a) (xs : List α) {p : α → Bool}
    (hp : ∀ a b, p a → p b → le a b) : (xs.mergeSort le).filter p = xs.filter p := by
  have hpairwise : (xs.filter p).Pairwise fun a b => le a b :=
    List.pairwise_of_forall_mem_list fun a ha b hb =>
      hp a b (List.mem_filter.1 ha).2 (List.mem_filter.1 hb).2
  have hsublist : (xs.filter p).Sublist (xs.mergeSort le) :=
    List.sublist_mergeSort htrans htotal hpairwise List.filter_sublist
  have hfilter := hsublist.filter p
  rw [List.filter_filter, funext fun a => Bool.and_self (p a)] at hfilter
  -- a sublist of the same length is the whole list
  refine (hfilter.eq_of_length ?_).symm
  exact (List.Perm.filter p (List.mergeSort_perm xs le)).length_eq.symm

/-- Entries are sorted by the places of their prices. -/
theorem priority_eq_place (side : Side) {a b : Level} (ha : a.price.IsNumber)
    (hb : b.price.IsNumber) :
    priority side a b = decide (side.Before a.price.place b.price.place) := by
  have hle {a b : Level} (ha : a.price.IsNumber) (hb : b.price.IsNumber) :
      priceLe a b = decide (a.price.place ≤ b.price.place) := by
    rw [priceLe, order?_eq ha hb, Bool.eq_iff_iff]
    simp [compare_gt_iff_gt]
  cases side with
  | buy => exact hle ha hb
  | sell => exact hle hb ha

/-- Where all prices have a place, sorting goes by places. -/
theorem mergeSort_priority (side : Side) (h : ∀ level ∈ levels, level.price.IsNumber) :
    levels.mergeSort (priority side) =
      levels.mergeSort fun a b => decide (side.Before a.price.place b.price.place) := by
  have hmap := List.map_mergeSort (f := id)
    (s := fun a b : Level => decide (side.Before a.price.place b.price.place))
    fun a ha b hb => priority_eq_place side (h a ha) (h b hb)
  rwa [List.map_id, List.map_id] at hmap

/-! ## The sides of a book -/

/-- A side that holds exactly the entries with a quantity. -/
structure Holds (side : Side) (entries levels : List Level) : Prop where
  /-- None is lost or added, and each is held as often as it came. -/
  perm : levels.Perm (entries.filter fun level => ¬ level.IsEmpty)
  /-- The levels come in the order of the side. -/
  pairwise : levels.Pairwise fun first later => side.Before first.price.place later.price.place
  /-- The levels of one price come in the order of the entries. -/
  filter_eq : ∀ place, levels.filter (fun level => level.price.place = place) =
    (entries.filter fun level => ¬ level.IsEmpty).filter fun level => level.price.place = place
  /-- Prices are positive. -/
  price_pos : ∀ level ∈ levels, 0 < level.price.place
  /-- Quantities are positive. -/
  quantity_pos : ∀ level ∈ levels, 0 < level.quantity.place

/-- The places of the prices at which entries have a quantity. -/
def prices (entries : List Level) : Set (WithBot (WithTop ℚ)) :=
  {place | ∃ level ∈ entries, ¬ level.IsEmpty ∧ level.price.place = place}

/-- A book that holds what depth data says. -/
structure Faithful (bids asks : List Level) (book : Book) : Prop where
  /-- The bids, the highest price first. -/
  holds_bids : Holds .sell bids book.bids
  /-- The asks, the lowest price first. -/
  holds_asks : Holds .buy asks book.asks
  /-- The best bid is the highest one. -/
  isGreatest_bestBid : ∀ price, book.bestBid? = some price → IsGreatest (prices bids) price.place
  /-- There is no best bid exactly if there are no bids. -/
  bestBid_eq_none : book.bestBid? = none ↔ prices bids = ∅
  /-- The best ask is the lowest one. -/
  isLeast_bestAsk : ∀ price, book.bestAsk? = some price → IsLeast (prices asks) price.place
  /-- There is no best ask exactly if there are no asks. -/
  bestAsk_eq_none : book.bestAsk? = none ↔ prices asks = ∅

namespace Holds

variable {quoted : List Level} {price : Decimal}

/-- A price at which entries have a quantity is one of the levels that hold them. -/
theorem mem_prices_iff (h : Holds side quoted levels) {place : WithBot (WithTop ℚ)} :
    place ∈ prices quoted ↔ ∃ level ∈ levels, level.price.place = place := by
  simp [prices, h.perm.mem_iff, and_assoc]

/-- The first price of a side is before all others. -/
theorem head (h : Holds side quoted levels) (hbest : levels.head?.map (·.price) = some price) :
    price.place ∈ prices quoted ∧ ∀ place ∈ prices quoted, side.Before price.place place := by
  obtain ⟨best, hhead, rfl⟩ := Option.map_eq_some_iff.1 hbest
  obtain ⟨rest, rfl⟩ := List.head?_eq_some_iff.1 hhead
  refine ⟨h.mem_prices_iff.2 ⟨best, List.mem_cons_self, rfl⟩, fun place hplace => ?_⟩
  obtain ⟨level, hlevel, rfl⟩ := h.mem_prices_iff.1 hplace
  rcases List.mem_cons.1 hlevel with rfl | hrest
  · exact .refl _ _
  · exact (List.pairwise_cons.1 h.pairwise).1 level hrest

/-- A side has no best price if its entries have no quantity. -/
theorem head_eq_none_iff (h : Holds side quoted levels) :
    levels.head?.map (·.price) = none ↔ prices quoted = ∅ := by
  rw [Option.map_eq_none_iff, List.head?_eq_none_iff, Set.eq_empty_iff_forall_notMem]
  simp only [h.mem_prices_iff]
  constructor
  · rintro rfl place ⟨level, hlevel, -⟩
    cases hlevel
  · intro hnone
    rw [List.eq_nil_iff_forall_not_mem]
    exact fun level hlevel => hnone _ ⟨level, hlevel, rfl⟩

/-- Sorting the entries with a quantity gives a side that holds them. -/
theorem mergeSort (side : Side) (hnumber : ∀ level ∈ quoted, level.price.IsNumber)
    (hkept : ∀ level ∈ quoted, ¬ level.Refused) :
    Holds side quoted ((quoted.filter fun level => ¬ level.IsEmpty).mergeSort (priority side)) := by
  have hmem {level : Level}
      (hlevel : level ∈ (quoted.filter fun level => ¬ level.IsEmpty).mergeSort (priority side)) :
      ¬ level.Refused ∧ ¬ level.IsEmpty := by
    rw [List.mem_mergeSort, List.mem_filter] at hlevel
    exact ⟨hkept level hlevel.1, of_decide_eq_true hlevel.2⟩
  -- the order by places is total and transitive on all levels, unlike the one by prices
  have htrans (a b c : Level) (hab : decide (side.Before a.price.place b.price.place) = true)
      (hbc : decide (side.Before b.price.place c.price.place) = true) :
      decide (side.Before a.price.place c.price.place) = true :=
    decide_eq_true ((of_decide_eq_true hab).trans (of_decide_eq_true hbc))
  have htotal (a b : Level) : (decide (side.Before a.price.place b.price.place) ||
      decide (side.Before b.price.place a.price.place)) = true := by
    simpa using Side.Before.total side a.price.place b.price.place
  have hsort : (quoted.filter fun level => ¬ level.IsEmpty).mergeSort (priority side) = _ :=
    mergeSort_priority side fun level hlevel => hnumber level (List.mem_filter.1 hlevel).1
  refine ⟨List.mergeSort_perm _ _, ?_, fun place => ?_, fun level hlevel => ?_,
    fun level hlevel => ?_⟩
  · rw [hsort]
    exact (List.pairwise_mergeSort htrans htotal _).imp of_decide_eq_true
  · rw [hsort]
    refine filter_mergeSort htrans htotal _ fun a b ha hb => ?_
    rw [of_decide_eq_true ha, of_decide_eq_true hb]
    exact decide_eq_true (.refl _ _)
  · exact not_le.1 fun hle => (hmem hlevel).1 (.inl hle)
  · obtain ⟨hlevel, hempty⟩ := hmem hlevel
    exact lt_of_le_of_ne (not_lt.1 fun hlt => hlevel (.inr hlt)) (Ne.symm hempty)

end Holds

/-- The prices of entries that are read are numbers. -/
theorem SideQuotes.isNumber {side : Option Payload} (h : SideQuotes side levels) :
    ∀ level ∈ levels, level.price.IsNumber := by
  cases side with
  | none =>
    obtain rfl : levels = [] := h
    simp
  | some side =>
    obtain ⟨entries, -, hquotes⟩ := h
    induction hquotes with
    | nil => simp
    | cons hentry _ ih => exact List.forall_mem_cons.2 ⟨hentry.price_isNumber, ih⟩

/-- The book of data of which nothing is refused. -/
theorem exists_book_of_quotes (h : DepthQuotes depth bids asks) (symbol : String)
    (timestamp : Payload) (hkept : ∀ level ∈ bids ++ asks, ¬ level.Refused) :
    ∃ book, ofDepth symbol depth timestamp = .ok book ∧ Holds .sell bids book.bids ∧
      Holds .buy asks book.asks := by
  obtain ⟨bidSide, hbidSide, hbids⟩ := h.bids
  obtain ⟨askSide, haskSide, hasks⟩ := h.asks
  obtain ⟨time, hdepth⟩ := exists_ofDepth_eq symbol timestamp hbidSide haskSide
  obtain ⟨hkeptBids, hkeptAsks⟩ := List.forall_mem_append.1 hkept
  rw [hdepth, readSide_of_quotes symbol hbids hkeptBids, readSide_of_quotes symbol hasks hkeptAsks]
  exact ⟨_, rfl, .mergeSort .sell hbids.isNumber hkeptBids,
    .mergeSort .buy hasks.isNumber hkeptAsks⟩

/-- Data of which something is refused. -/
theorem ofDepth_eq_error (h : DepthQuotes depth bids asks) (symbol : String) (timestamp : Payload)
    (hrefused : ∃ level ∈ bids ++ asks, level.Refused) :
    ∃ entry level, Quotes entry level ∧ level.Refused ∧
      ofDepth symbol depth timestamp = .error (.badLevel symbol entry) := by
  obtain ⟨bidSide, hbidSide, hbids⟩ := h.bids
  obtain ⟨askSide, haskSide, hasks⟩ := h.asks
  obtain ⟨time, hdepth⟩ := exists_ofDepth_eq symbol timestamp hbidSide haskSide
  rw [hdepth]
  by_cases hbidsRefused : ∃ level ∈ bids, level.Refused
  · obtain ⟨entry, level, hentry, hlevel, herror⟩ := readSide_eq_error symbol hbids hbidsRefused
    refine ⟨entry, level, hentry, hlevel, ?_⟩
    rw [herror]
    rfl
  · -- bids are read first, so the asks come to be looked at
    obtain ⟨bad, hbad, hbadRefused⟩ := hrefused
    have hask : bad ∈ asks :=
      (List.mem_append.1 hbad).resolve_left fun hbid => hbidsRefused ⟨bad, hbid, hbadRefused⟩
    obtain ⟨entry, level, hentry, hlevel, herror⟩ :=
      readSide_eq_error symbol hasks ⟨bad, hask, hbadRefused⟩
    refine ⟨entry, level, hentry, hlevel, ?_⟩
    rw [readSide_of_quotes symbol hbids fun level hlevel hrefused =>
      hbidsRefused ⟨level, hlevel, hrefused⟩, herror]
    rfl

/-- A book that was made from depth data holds what the data says. -/
theorem holds_of_ofDepth (h : DepthQuotes depth bids asks)
    (hbook : ofDepth symbol depth timestamp = .ok book) :
    Holds .sell bids book.bids ∧ Holds .buy asks book.asks := by
  have hkept : ∀ level ∈ bids ++ asks, ¬ level.Refused := fun level hlevel hrefused => by
    obtain ⟨entry, _, -, -, herror⟩ := ofDepth_eq_error h symbol timestamp ⟨level, hlevel, hrefused⟩
    rw [hbook] at herror
    cases herror
  obtain ⟨held, hheld, hholds⟩ := exists_book_of_quotes h symbol timestamp hkept
  obtain rfl := Except.ok.inj (hbook.symm.trans hheld)
  exact hholds

/-- Depth data is refused exactly if one of its entries is, and the failure names such an entry.
Otherwise there is a book, and it holds what the data says. -/
theorem ofDepth_faithful (h : DepthQuotes depth bids asks) (symbol : String) (timestamp : Payload) :
    ((∃ entry level, Quotes entry level ∧ level.Refused ∧
        ofDepth symbol depth timestamp = .error (.badLevel symbol entry)) ↔
      ∃ level ∈ bids ++ asks, level.Refused) ∧
    ((∀ level ∈ bids ++ asks, ¬ level.Refused) →
      ∃ book, ofDepth symbol depth timestamp = .ok book ∧ book.Faithful bids asks) := by
  refine ⟨⟨fun ⟨entry, level, _, _, herror⟩ => ?_, ofDepth_eq_error h symbol timestamp⟩,
    fun hkept => ?_⟩
  · by_contra hkept
    obtain ⟨book, hbook, -⟩ := exists_book_of_quotes h symbol timestamp
      fun level hlevel hrefused => hkept ⟨level, hlevel, hrefused⟩
    rw [herror] at hbook
    cases hbook
  · obtain ⟨book, hbook, hbids, hasks⟩ := exists_book_of_quotes h symbol timestamp hkept
    exact ⟨book, hbook, hbids, hasks, fun _ => hbids.head, hbids.head_eq_none_iff,
      fun _ => hasks.head, hasks.head_eq_none_iff⟩

/-! ## Depth data with equal prices -/

/-- An entry is not refused if its price is positive and its quantity is not negative. -/
theorem not_refused_iff (hprice : level.price.IsNumber) (hquantity : level.quantity.IsNumber) :
    ¬ level.Refused ↔ level.price.le 0 = .ok false ∧ level.quantity.lt 0 = .ok false := by
  rw [le_eq_place hprice (y := 0) trivial, lt_eq_place hquantity (y := 0) trivial, place_zero,
    Level.Refused, not_or]
  simp

namespace Sample

/-- Depth data with two bids of the same price, an empty one above them, and an ask without end. -/
def pairedDepth : Payload :=
  .object [("bids", .list [.list ["98", "1"], .list ["99", "2"], .list ["100", "0"],
    .list ["99.0", "3"]]), ("asks", .list [.list ["101", "Infinity"]])]

/-- The bids that the paired depth quotes. -/
def pairedBids : List Level :=
  [⟨98, 1⟩, ⟨99, 2⟩, ⟨100, 0⟩, ⟨.finite false 990 (-1), 3⟩]

/-- The asks that the paired depth quotes. -/
def pairedAsks : List Level :=
  [⟨101, .infinity false⟩]

/-- The paired depth quotes the paired bids and asks. -/
theorem pairedDepth_quotes : DepthQuotes pairedDepth pairedBids pairedAsks := by
  refine ⟨⟨_, rfl, _, rfl, ?_⟩, ⟨_, rfl, _, rfl, ?_⟩⟩
  · refine .cons ?_ (.cons ?_ (.cons ?_ (.cons ?_ .nil))) <;>
      exact ⟨⟨_, rfl, rfl⟩, ⟨_, rfl, rfl⟩, trivial, trivial⟩
  · exact .cons ⟨⟨_, rfl, rfl⟩, ⟨_, rfl, rfl⟩, trivial, trivial⟩ .nil

end Sample

/-- The paired depth is read as a book that holds what it says. -/
theorem ofDepth_faithful_paired : ∃ book, ofDepth "BTCUSDT" Sample.pairedDepth .null = .ok book ∧
    book.Faithful Sample.pairedBids Sample.pairedAsks := by
  refine (ofDepth_faithful Sample.pairedDepth_quotes "BTCUSDT" .null).2 fun level hlevel => ?_
  simp only [Sample.pairedBids, Sample.pairedAsks, List.cons_append, List.nil_append, List.mem_cons,
    List.not_mem_nil, or_false] at hlevel
  rcases hlevel with rfl | rfl | rfl | rfl | rfl <;>
    refine (not_refused_iff ?_ ?_).2 ⟨rfl, rfl⟩ <;> trivial

end Book

end OrderTicket
