import OrderTicket.Proofs.Command.Decided
import OrderTicket.Proofs.Command.RoundTrip
import OrderTicket.Proofs.Selection

/-!
# What an order holds was given

Every term of an order that was read from a text was given by a clause of the text, which passed the
checks of the setters. So the order can be written as a command again, and all that the command
needs to be read back is a symbol that is read as one.

* `Draft.Holds`: what a draft has stored.
* `Draft.holds_of_apply`: a clause stores what it gives and nothing else;
  `Draft.exists_gives_of_foldlM`: nor do several clauses.
* `fillable_of_read`: the terms of an order that was read pass the checks of a command.
* `readable_of_read`: an order that was read can be read back, if its symbol can.
-/

namespace OrderTicket.Command

variable {settings : CommandSettings}

/-! ## What a draft holds -/

namespace Draft

variable {draft made : Draft} {entry : Entry}

/-- The draft has stored the entry. -/
def Holds (draft : Draft) : Entry → Prop
  | .reduceOnly => draft.reduceOnly = true
  | .market => draft.market = true
  | .limit price => draft.limitPrice = some price
  | .leverage leverage => draft.leverage = some leverage
  | .protection kind distance => draft.protection kind = some distance
  | .size size => draft.size = some size
  | .symbol symbol => draft.symbol = some symbol

@[simp]
theorem not_holds_empty (side : Side) (entry : Entry) : ¬ Holds { side } entry := by
  rcases entry with _ | _ | _ | _ | ⟨_ | _ | _, _⟩ | _ | _ <;> simp [Holds, protection]

/-- A problem stores nothing. -/
@[simp]
theorem holds_fail {problem : Problem} : (draft.fail problem).Holds entry ↔ draft.Holds entry := by
  rcases entry with _ | _ | _ | _ | ⟨_ | _ | _, _⟩ | _ | _ <;> rfl

/-- A check does not change what a draft holds. -/
@[simp]
theorem holds_failIf {condition : Bool} {problem : Problem} :
    (draft.failIf condition problem).Holds entry ↔ draft.Holds entry := by
  cases condition with
  | false => rfl
  | true => exact holds_fail

/-- The mark of a limit order does not change what a draft holds, as it is no price. -/
theorem holds_limited : Holds { draft with limit := true } entry ↔ draft.Holds entry := by
  rcases entry with _ | _ | _ | _ | ⟨_ | _ | _, _⟩ | _ | _ <;> rfl

/-- A draft with one more entry holds that and what it held before. -/
theorem holds_of_fill {added : Entry} (h : (draft.fill added).Holds entry) :
    draft.Holds entry ∨ entry = added := by
  rcases added with _ | _ | _ | _ | ⟨_ | _ | _, _⟩ | _ | _ <;>
    rcases entry with _ | _ | _ | _ | ⟨_ | _ | _, _⟩ | _ | _ <;>
      simp_all [Holds, fill, withProtection, protection]

/-- A price that a limit order takes was given, or it was there before. -/
theorem holds_of_setLimitPrice {number : String} {clause : Clause}
    (hgives : ∀ {price : Decimal}, Accepted number price → 0 < price.value →
      clause.Gives settings (.limit price))
    (h : setLimitPrice { draft with limit := true } number = .ok made)
    (hholds : made.Holds entry) : draft.Holds entry ∨ clause.Gives settings entry := by
  obtain ⟨problem, rfl⟩ | ⟨price, hprice, hpos, rfl⟩ := setLimitPrice_ok h
  · exact .inl (holds_limited.1 (holds_fail.1 hholds))
  · have hprices : draft.Holds entry ∨ entry = .limit price := holds_of_fill hholds
    refine hprices.imp_right ?_
    rintro rfl
    exact hgives hprice hpos

/-- What a draft holds after a clause it held before, or the clause gives it. -/
theorem holds_of_apply {clause : Clause} (h : draft.apply settings clause = .ok made)
    (hholds : made.Holds entry) : draft.Holds entry ∨ clause.Gives settings entry := by
  -- a clause that adds an entry holds what it gives
  have hfill {before : Draft} {added : Entry} (hgives : clause.Gives settings added)
      (hholds : (before.fill added).Holds entry) :
      before.Holds entry ∨ clause.Gives settings entry := by
    refine (holds_of_fill hholds).imp_right ?_
    rintro rfl
    exact hgives
  cases clause with
  | reduce =>
    cases h
    exact (hfill .reduce hholds).imp_left holds_failIf.1
  | market =>
    cases h
    exact (hfill .market hholds).imp_left holds_failIf.1
  | limit price =>
    cases price with
    | none =>
      cases h
      exact .inl (holds_failIf.1 (holds_limited.1 hholds))
    | some number => exact (holds_of_setLimitPrice .limit h hholds).imp_left holds_failIf.1
  | atPrice number => exact (holds_of_setLimitPrice .atPrice h hholds).imp_left holds_failIf.1
  | leverage number =>
    obtain ⟨problem, rfl⟩ | ⟨-, x, k, hx, hvalue, hone, hmax, rfl⟩ := setLeverage_ok h
    · exact .inl (holds_fail.1 hholds)
    · exact hfill (.leverage hx hvalue hone hmax) hholds
  | protection kind number =>
    obtain ⟨problem, rfl⟩ | ⟨-, distance, hdistance, hpos, hlt, rfl⟩ := setProtection_ok h
    · exact .inl (holds_fail.1 hholds)
    · exact hfill (.protection hdistance hpos hlt) hholds
  | size number unit =>
    obtain ⟨problem, rfl⟩ | ⟨-, amount, hamount, hpos, hshare, rfl⟩ := setSize_ok h
    · exact .inl (holds_fail.1 hholds)
    · exact hfill (.size hamount hpos hshare) hholds
  | symbol word =>
    obtain rfl := Except.ok.inj h
    obtain ⟨problem, hproblem⟩ | ⟨market, hmarket, hfits⟩ := setSymbol_ok settings draft word
    · exact .inl (holds_fail.1 (hproblem ▸ hholds))
    · rw [setSymbol_eq hmarket hfits] at hholds
      exact hfill (.symbol hmarket) hholds
  | leverageMissing | protectionMissing | protectionInvalid | notFinite | unrecognized =>
    cases h
    exact .inl (holds_fail.1 hholds)

/-- What a draft holds after clauses it held before, or one of them gives it. -/
theorem exists_gives_of_foldlM {clauses : List Clause}
    (h : clauses.foldlM (Draft.apply settings) draft = .ok made) (hholds : made.Holds entry) :
    draft.Holds entry ∨ ∃ clause ∈ clauses, clause.Gives settings entry := by
  -- on the clauses; what the rest did not give was there in front of it
  induction clauses generalizing draft with
  | nil =>
    cases h
    exact .inl hholds
  | cons clause rest ih =>
    rw [List.foldlM_cons] at h
    obtain ⟨next, hnext, h⟩ := bind_eq_ok h
    rcases ih h with hheld | ⟨other, hother, hgives⟩
    · refine (holds_of_apply hnext hheld).imp_right fun hgives => ?_
      exact ⟨clause, List.mem_cons_self, hgives⟩
    · exact .inr ⟨other, List.mem_cons_of_mem _ hother, hgives⟩

end Draft

/-! ## Orders that were read -/

variable {text : String} {reading : Reading} {order : Order}

/-- Whatever has an order is accepted. -/
theorem ok_of_order (h : read settings text = .ok reading) (horder : reading.order = some order) :
    reading.ok = true := by
  cases decided_of_read h with
  | accepted => rfl
  | refused => cases horder

/-- An order that was read is that of a draft which passed all checks and holds what the clauses of
the text give. -/
theorem exists_given_of_read (h : read settings text = .ok reading)
    (horder : reading.order = some order) :
    ∃ (action : String) (words : List String) (draft : Draft), Text.words text = action :: words ∧
      draft.Sound settings text ∧ draft.finished settings = .ok draft ∧
        draft.order? = some order ∧ ∀ entry, draft.Holds entry →
          ∃ clause ∈ Clause.readAll words, clause.Gives settings entry := by
  cases hwords : Text.words text with
  | nil =>
    rw [read, hwords] at h
    cases h
    cases horder
  | cons action words =>
    have hok := ok_of_order h horder
    obtain ⟨side, draft, -, hdraft, hreading⟩ := exists_draft_of_ok hwords h hok
    obtain ⟨made, hfinished, hmade, heq⟩ := exists_order_of_ok hreading hok
    obtain rfl := Option.some.inj (horder.symm.trans heq)
    refine ⟨action, words, draft, rfl, Draft.sound_of_words hwords hdraft, hfinished, hmade, ?_⟩
    intro entry hholds
    have hgiven := Draft.exists_gives_of_foldlM hdraft hholds
    exact hgiven.resolve_left (Draft.not_holds_empty side entry)

/-- The market of an order that was read is named by a symbol clause. -/
theorem exists_symbol_of_read (h : read settings text = .ok reading)
    (horder : reading.order = some order) :
    ∃ front raw behind word, Text.words text = front ++ raw :: behind ∧
      (Clause.read raw behind).1 = .symbol word ∧
        resolveSymbol? settings word = some order.symbol := by
  obtain ⟨action, words, draft, hwords, -, -, hmade, hgiven⟩ := exists_given_of_read h horder
  obtain ⟨-, symbol, size, hsymbol, -, rfl⟩ := order?_eq_some hmade
  obtain ⟨clause, hclause, hgives⟩ := hgiven (.symbol symbol) hsymbol
  cases hgives with
  | @symbol word _ hmarket =>
    obtain ⟨front, raw, behind, rfl, hread⟩ := Clause.exists_read_of_mem hclause
    exact ⟨action :: front, raw, behind, word, by simpa using hwords, hread, hmarket⟩

/-- A typed number is held in full. -/
theorem Accepted.holdable {number : String} {x : Decimal} (h : Accepted number x) : Holdable x := by
  have hread := h.read
  unfold Decimal.ofText? at hread
  split at hread
  · rename_i y hy
    split at hread
    · cases hread
      exact Selection.holdable_of_ofText hy ‹_›
    · cases hread
  · cases hread

/-- A positive number that was accepted can be written. -/
theorem Accepted.writable {number : String} {x : Decimal} (h : Accepted number x)
    (hpos : 0 < x.value) : Writable x :=
  writable_of_holdable h.holdable hpos h.lt_limit

/-- The terms of an order that was read pass the checks that are made when they are read again. -/
theorem fillable_of_read (h : read settings text = .ok reading)
    (horder : reading.order = some order) : Fillable settings order := by
  obtain ⟨action, words, draft, hwords, -, -, hmade, hgiven⟩ := exists_given_of_read h horder
  obtain ⟨-, symbol, size, -, hsize, rfl⟩ := order?_eq_some hmade
  -- each number of the order comes from a clause that has checked it
  have hprotection (kind : Protection) {x : Decimal} (hx : draft.protection kind = some x) :
      Writable x ∧ (kind ≠ .takeProfit → x.value < 100) := by
    obtain ⟨clause, -, hgives⟩ := hgiven (.protection kind x) hx
    cases hgives with
    | protection haccepted hpos hlt => exact ⟨haccepted.writable hpos, hlt⟩
  have hamount : Writable size.amount ∧ (size.unit = .percent → size.amount.value ≤ 100) := by
    obtain ⟨clause, -, hgives⟩ := hgiven (.size size) hsize
    cases hgives with
    | size haccepted hpos hshare => exact ⟨haccepted.writable hpos, hshare⟩
  constructor
  case size => exact hamount.1
  case share => exact hamount.2
  case leverage =>
    intro k hk
    obtain ⟨clause, -, hgives⟩ := hgiven (.leverage k) hk
    cases hgives with
    | leverage haccepted hvalue hone hmax =>
      have hlt := (abs_lt.1 haccepted.abs_lt_limit).2
      rw [hvalue] at hlt
      exact ⟨hone, hmax, by exact_mod_cast hlt⟩
  case limitPrice =>
    intro x hx
    obtain ⟨clause, -, hgives⟩ := hgiven (.limit x) hx
    cases hgives with
    | limit haccepted hpos | atPrice haccepted hpos => exact haccepted.writable hpos
  case stopLoss =>
    intro x hx
    obtain ⟨hwritable, hlt⟩ := hprotection .stopLoss hx
    exact ⟨hwritable, hlt (by decide)⟩
  case takeProfit => exact fun x hx => (hprotection .takeProfit hx).1
  case trailing =>
    intro x hx
    obtain ⟨hwritable, hlt⟩ := hprotection .trailing hx
    exact ⟨hwritable, hlt (by decide)⟩

/-- The terms of an order that was read are consistent. -/
theorem consistent_of_read (h : read settings text = .ok reading)
    (horder : reading.order = some order) : Consistent settings order := by
  obtain ⟨-, -, draft, -, hsound, hfinished, hmade, -⟩ := exists_given_of_read h horder
  obtain ⟨hnone, symbol, size, -, hsize, rfl⟩ := order?_eq_some hmade
  obtain ⟨-, -, hreduce, hspot, htarget⟩ := Draft.finished_ok hfinished hnone
  -- the checks of the whole command speak of shares
  have hshare (hunit : size.unit = .percent) : draft.isShare = true := by
    simp [Draft.isShare, hsize, hunit]
  refine ⟨fun hside x hx => ?_, fun hunit => hreduce (hshare hunit),
    fun hunit => hspot (hshare hunit)⟩
  have htyped := hsound.protection .takeProfit x hx
  exact Draft.lt_hundred htyped.isFinite (Draft.targetTooHigh?_eq_none htarget hside hx)

/-- An order that was read is a limit order exactly if it has a limit price. -/
theorem limit_iff_of_read (h : read settings text = .ok reading)
    (horder : reading.order = some order) :
    order.type = .limit ↔ order.limitPrice.isSome = true := by
  obtain ⟨-, -, draft, -, hsound, hfinished, hmade, -⟩ := exists_given_of_read h horder
  obtain ⟨hnone, symbol, size, -, -, rfl⟩ := order?_eq_some hmade
  obtain ⟨-, hprice, -⟩ := Draft.finished_ok hfinished hnone
  refine ⟨fun htype => hprice (by simpa using htype), fun hsome => ?_⟩
  obtain ⟨price, hsome⟩ := Option.isSome_iff_exists.1 hsome
  simp [hsound.limit price hsome]

/-- An order that was read can be read back from its command, if its symbol is read as one and
resolved to itself. -/
theorem readable_of_read (h : read settings text = .ok reading)
    (horder : reading.order = some order)
    (hsymbol : (Clause.read order.symbol []).1 = .symbol order.symbol)
    (hresolved : resolveSymbol? settings order.symbol = some order.symbol) :
    Readable settings order where
  toFillable := fillable_of_read h horder
  toConsistent := consistent_of_read h horder
  symbol_read := hsymbol
  symbol_resolved := hresolved
  limit_iff := limit_iff_of_read h horder

end OrderTicket.Command
