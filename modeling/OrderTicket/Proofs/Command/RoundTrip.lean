import OrderTicket.Command.Reading
import OrderTicket.Proofs.Command.Entry
import OrderTicket.Proofs.Command.Rendered

/-!
# Reading undoes writing

This module shows that an order that was written as a command is read back from it. The command is a
list of words (`words_command`), the words are read as the clauses of the order (`readAll_command`),
and the clauses fill a draft with the terms of the order (`foldlM_symbol_clausesOf`), numbers with
the same values. The draft has no problems, and the order in it is the same as the one that was
written.

The checks of a command are of two kinds. Those of single terms decide whether the clauses fill a
draft at all, and those of the whole order decide whether the draft is one without problems.

* `Writable`: numbers that can be written into a command.
* `Fillable`, `Consistent`: orders that pass the checks of each kind; `fillable_of_gives` and
  `consistent_of_finished` show that nothing less is enough.
* `Readable`: orders whose commands can be read.
* `read_command`: the order of a command is the order that it was written from.
-/

namespace OrderTicket.Command

open Decimal

/-! ## Numbers -/

/-- A number that can be written into a command and is accepted where it is read. -/
structure Writable (x : Decimal) : Prop where
  /-- The number is finite. -/
  isFinite : x.isFinite = true
  /-- It is positive. -/
  pos : 0 < x.value
  /-- Its exponent is one that a number can have at all. -/
  exponent : ∀ n c e, x = finite n c e → -(2 * exponentLimit - 1) ≤ e
  /-- Rounded to the precision it is below the limit of typed numbers. -/
  lt_limit : ∃ y, x.abs = .ok y ∧ y.value < 10 ^ 15

namespace Writable

variable {x : Decimal}

theorem holdable (h : Writable x) : Holdable x := by
  obtain ⟨n, c, e, rfl⟩ := isFinite_iff.1 h.isFinite
  exact ⟨n, c, e, rfl, h.exponent n c e rfl⟩

theorem belowLimit (h : Writable x) : BelowLimit x :=
  h.lt_limit

end Writable

/-- A positive number that can be held and is below the limit can be written. -/
theorem writable_of_holdable {x : Decimal} (hx : Holdable x) (hpos : 0 < x.value)
    (hlimit : BelowLimit x) : Writable x := by
  refine ⟨hx.isFinite, hpos, ?_, hlimit⟩
  intro n c e heq
  obtain ⟨n', c', e', heq', hexponent⟩ := hx
  cases heq.symm.trans heq'
  exact hexponent

/-- A number that is accepted as a positive one where it is read can be written. -/
theorem writable_of_accepted {x y : Decimal} (hx : Holdable x) (hy : Accepted x.canonical y)
    (hpos : 0 < y.value) : Writable x := by
  have hwrites := writes_canonical hx
  exact writable_of_holdable hx (hwrites.value_eq hy.read ▸ hpos)
    (hwrites.belowLimit hx.isFinite hy)

/-- An integer below the limit is written and accepted; it is representable, so that rounding leaves
it as it is. -/
theorem writable_ofInt {i : ℤ} (hone : 1 ≤ i) (hlt : i < 10 ^ 15) : Writable (.ofInt i) := by
  have hvalue : (ofInt i).value = i := value_ofInt i
  have hpos : (0 : ℚ) < (ofInt i).value := by
    rw [hvalue]
    exact_mod_cast (by omega : 0 < i)
  have hsmall : (ofInt i).value < 10 ^ 15 := by
    rw [hvalue]
    exact_mod_cast hlt
  have habs : |(ofInt i).value| = (ofInt i).value := abs_of_pos hpos
  -- Fifteen digits fit into the context, so taking the absolute value loses none of them.
  have hrep : Representable |(ofInt i).value| := by
    rw [habs, hvalue]
    refine representable_intCast ?_
    rw [abs_of_pos (by omega)]
    exact hlt.le.trans (by decide)
  refine ⟨rfl, hpos, ?_, ?_⟩
  · rintro n c e heq
    cases heq
    decide
  · obtain ⟨y, hy, hround⟩ := (abs_computes (x := ofInt i) rfl).exists_ok (by
      rw [abs_abs, habs]
      exact lt_maxExponent (hsmall.le.trans (by norm_num)))
    refine ⟨y, hy, ?_⟩
    rw [hround.eq_of_representable hrep, habs]
    exact hsmall

/-! ## Orders that can be read -/

/-- The terms of the order pass the checks that are made when its clauses are applied. -/
structure Fillable (settings : CommandSettings) (order : Order) : Prop where
  /-- The amount can be written. -/
  size : Writable order.size.amount
  /-- A share is at most `100`. -/
  share : order.size.unit = .percent → order.size.amount.value ≤ 100
  /-- The leverage lies within the bounds. -/
  leverage : ∀ x, order.leverage = some x → 1 ≤ x ∧ x ≤ settings.maxLeverage ∧ x < 10 ^ 15
  /-- The limit price can be written. -/
  limitPrice : ∀ x, order.limitPrice = some x → Writable x
  /-- The stop loss can be written and is less than the whole price. -/
  stopLoss : ∀ x, order.stopLoss = some x → Writable x ∧ x.value < 100
  /-- The profit target can be written. -/
  takeProfit : ∀ x, order.takeProfit = some x → Writable x
  /-- The trailing stop can be written and is less than the whole price. -/
  trailing : ∀ x, order.trailing = some x → Writable x ∧ x.value < 100

/-- The order passes the checks that are made when all clauses have been applied. -/
structure Consistent (settings : CommandSettings) (order : Order) : Prop where
  /-- The profit target of a sale is less than the whole price. -/
  target : order.side = .sell → ∀ x, order.takeProfit = some x → x.value < 100
  /-- A share of the balance does not make a position smaller. -/
  share_reduceOnly : order.size.unit = .percent → order.reduceOnly = false
  /-- A share of the balance takes no leverage on a spot market. -/
  share_leverage : order.size.unit = .percent → settings.market = .spot → order.leverage = none

/-- An order whose command can be read: its symbol is read as one and resolved to itself, and all
terms pass the checks of a command. -/
structure Readable (settings : CommandSettings) (order : Order) : Prop
    extends Fillable settings order, Consistent settings order where
  /-- The symbol is read by the rule for symbols. -/
  symbol_read : (Clause.read order.symbol []).1 = .symbol order.symbol
  /-- It is resolved to itself. -/
  symbol_resolved : resolveSymbol? settings order.symbol = some order.symbol
  /-- The order is a limit order exactly if it has a limit price. -/
  limit_iff : order.type = .limit ↔ order.limitPrice.isSome = true

variable {settings : CommandSettings} {order : Order} {text : String}

/-- A leverage within the bounds is short. -/
theorem Fillable.isShort_leverage (h : Fillable settings order) :
    ∀ x, order.leverage = some x → Integer.IsShort x := by
  intro x hx
  obtain ⟨hone, -, hlt⟩ := h.leverage x hx
  rw [← abs_of_pos (by omega : 0 < x)] at hlt
  exact Integer.isShort_of_lt (by decide) hlt

/-- The numbers of an order that can be filled in can be held. -/
theorem Fillable.holdable (h : Fillable settings order) : ∀ x ∈ numbersOf order, Holdable x := by
  intro x hx
  simp only [numbersOf, List.mem_cons, List.mem_append, Option.mem_toList] at hx
  rcases hx with rfl | ((hx | hx) | hx) | hx
  · exact h.size.holdable
  · exact (h.limitPrice x hx).holdable
  · exact (h.stopLoss x hx).1.holdable
  · exact (h.takeProfit x hx).holdable
  · exact (h.trailing x hx).1.holdable

/-- If all clauses of an order make entries, then its terms pass their checks. -/
theorem fillable_of_gives (h : ∀ x ∈ numbersOf order, Holdable x) {entries : List Entry}
    (hgives : List.Forall₂ (Clause.Gives settings) (clausesOf order) entries) :
    Fillable settings order := by
  have hentry {clause : Clause} (hclause : clause ∈ clausesOf order) :
      ∃ entry, clause.Gives settings entry := by
    obtain ⟨entry, -, hentry⟩ := Clause.exists_mem_of_forall₂ hgives hclause
    exact ⟨entry, hentry⟩
  have hprotection (kind : Protection) (x : Decimal) (hx : x ∈ numbersOf order)
      (hclause : Clause.protection kind x.canonical ∈ clausesOf order) :
      Writable x ∧ (kind ≠ .takeProfit → x.value < 100) := by
    obtain ⟨entry, hentry⟩ := hentry hclause
    cases hentry with
    | protection hy hpos hlt =>
      refine ⟨writable_of_accepted (h x hx) hy hpos, fun hkind => ?_⟩
      rw [← (writes_canonical (h x hx)).value_eq hy.read]
      exact hlt hkind
  have hsize : Writable order.size.amount ∧
      (order.size.unit = .percent → order.size.amount.value ≤ 100) := by
    have hx : Holdable order.size.amount := h _ List.mem_cons_self
    obtain ⟨entry, hentry⟩ := hentry List.mem_cons_self
    cases hentry with
    | size hy hpos hshare =>
      refine ⟨writable_of_accepted hx hy hpos, fun hunit => ?_⟩
      rw [← (writes_canonical hx).value_eq hy.read]
      exact hshare hunit
  constructor
  case size => exact hsize.1
  case share => exact hsize.2
  case leverage =>
    intro x hx
    have hclause : Clause.leverage (toString x) ∈ clausesOf order := by simp [clausesOf, hx]
    obtain ⟨entry, hentry⟩ := hentry hclause
    cases hentry with
    | @leverage _ y k hy hvalue hone hmax =>
      -- the typed integer is the one that was written
      have hk : (k : ℚ) = x := by
        rw [← hvalue, (writes_toString x).value_eq hy.read, value_ofInt]
      obtain rfl : k = x := by exact_mod_cast hk
      have hlt := (abs_lt.1 hy.abs_lt_limit).2
      rw [hvalue] at hlt
      exact ⟨hone, hmax, by exact_mod_cast hlt⟩
  case limitPrice =>
    intro x hx
    have hclause : Clause.limit (some x.canonical) ∈ clausesOf order := by simp [clausesOf, hx]
    obtain ⟨entry, hentry⟩ := hentry hclause
    cases hentry with
    | limit hy hpos => exact writable_of_accepted (h x (by simp [numbersOf, hx])) hy hpos
  case stopLoss =>
    intro x hx
    obtain ⟨hwritable, hlt⟩ :=
      hprotection .stopLoss x (by simp [numbersOf, hx]) (by simp [clausesOf, hx])
    exact ⟨hwritable, hlt (by decide)⟩
  case takeProfit =>
    intro x hx
    exact (hprotection .takeProfit x (by simp [numbersOf, hx]) (by simp [clausesOf, hx])).1
  case trailing =>
    intro x hx
    obtain ⟨hwritable, hlt⟩ :=
      hprotection .trailing x (by simp [numbersOf, hx]) (by simp [clausesOf, hx])
    exact ⟨hwritable, hlt (by decide)⟩

/-! ## Words -/

/-- A symbol word is one word. -/
theorem words_symbol {word : String} (h : Clause.isSymbol word = true) :
    Text.words word = [word] := by
  simp only [Clause.isSymbol, Bool.and_eq_true, Bool.not_eq_true', List.isEmpty_eq_false_iff,
    List.all_eq_true, Bool.or_eq_true] at h
  obtain ⟨hne, hall⟩ := h
  refine Text.words_of_not_isBlank (by simpa using hne) fun c hc => ?_
  rcases hall c hc with hupper | hdigit
  · obtain ⟨hlow, hhigh⟩ := Text.toNat_of_isUpper hupper
    exact Text.not_isBlank_of_visible (by omega) (by omega)
  · obtain ⟨hlow, hhigh⟩ := Text.toNat_of_isDigit hdigit
    exact Text.not_isBlank_of_visible (by omega) (by omega)

/-- The limit price is written as two words, if there is one. -/
theorem flatMap_words_limitTerm (h : Fillable settings order)
    (hlimit : order.type = .limit ↔ order.limitPrice.isSome = true) :
    order.limitTerm.flatMap Text.words = limitOf order := by
  cases hprice : order.limitPrice with
  | none =>
    have hterm : order.limitTerm = [] := by
      unfold Order.limitTerm
      rw [hprice]
      cases order.type <;> rfl
    simp [hterm, limitOf, hprice]
  | some x =>
    have htype : order.type = .limit := hlimit.2 (by simp [hprice])
    have hblank : "limit " = "limit" ++ " " := by decide +kernel
    simp only [Order.limitTerm, htype, hprice, limitOf, List.flatMap_cons, List.flatMap_nil,
      List.append_nil, Option.map_some, Option.getD_some]
    rw [hblank, Text.words_append_blank, isPlain_limit.words_eq,
      (isTerm_price (h.limitPrice x hprice).holdable).isPlain.words_eq]
    rfl

/-- An order whose terms pass their checks can be written as a command. -/
theorem exists_command (h : Fillable settings order) : ∃ text, order.command = .ok text := by
  obtain ⟨terms, hterms⟩ := exists_commonTerms order order.symbol h.isShort_leverage
  exact ⟨_, bind_of_eq_ok hterms⟩

/-- The words of a written command: the action, the symbol, and the terms. The symbol is one word,
whatever it is read as. -/
theorem words_command (h : Fillable settings order)
    (hlimit : order.type = .limit ↔ order.limitPrice.isSome = true)
    (hsymbol : Clause.isSymbol order.symbol = true) (htext : order.command = .ok text) :
    Text.words text =
      ("/" ++ order.side.name) :: order.symbol :: (termsOf order ++ limitOf order) := by
  obtain ⟨terms, hterms, htext⟩ := bind_eq_ok htext
  obtain rfl := Except.ok.inj htext
  rw [Text.words_intercalate, List.flatMap_append, flatMap_words_limitTerm h hlimit,
    words_commonTerms h.holdable (words_symbol hsymbol) hterms]
  rfl

/-- The words of a written command are read as the clauses of its order. -/
theorem readAll_command (h : Readable settings order) :
    Clause.readAll (order.symbol :: (termsOf order ++ limitOf order)) =
      .symbol order.symbol :: clausesOf order := by
  have hread := readAll_written h.holdable (Clause.read_alone_of_symbol h.symbol_read)
    (nofun : ∀ first next, ([] : List String).head? = some next → _)
  simpa using hread

/-! ## Terms -/

/-- A number as it is read from the text that it is written as. -/
def reread (x : Decimal) : Decimal :=
  (ofText? x.canonical).getD x

namespace Writable

variable {x : Decimal}

/-- The canonical text of a number that can be written is accepted. -/
theorem accepted_canonical (h : Writable x) : Accepted x.canonical (reread x) := by
  obtain ⟨y, hy⟩ := (writes_canonical h.holdable).accepted h.isFinite h.belowLimit
  rwa [reread, hy.read, Option.getD_some]

/-- A number that is written and read again has the same value. -/
theorem reread_value (h : Writable x) : (reread x).value = x.value :=
  (writes_canonical h.holdable).value_eq h.accepted_canonical.read

theorem reread_pos (h : Writable x) : 0 < (reread x).value := by
  rw [h.reread_value]
  exact h.pos

/-- A number that is written and read again is equal to the number. -/
theorem equal_reread (h : Writable x) : x.equal (reread x) = .ok true := by
  rw [equal_eq h.isFinite h.accepted_canonical.isFinite, h.reread_value, decide_eq_true rfl]

end Writable

/-- An order as it is read from the command that it is written as. -/
def rereadOrder (order : Order) : Order :=
  { order with
    size := ⟨order.size.unit, reread order.size.amount⟩
    limitPrice := order.limitPrice.map reread
    stopLoss := order.stopLoss.map reread
    takeProfit := order.takeProfit.map reread
    trailing := order.trailing.map reread }

/-! ## Drafts -/

section Draft

variable {draft : Draft} {x : Decimal}

/-- A leverage is read as the integer that was written, which has no decimals to lose. -/
theorem setLeverage_toString {i : ℤ} (hdraft : draft.leverage = none) (hone : 1 ≤ i)
    (hmax : i ≤ settings.maxLeverage) (hlt : i < 10 ^ 15) :
    draft.setLeverage settings (toString i) = .ok { draft with leverage := some i } := by
  have hwritable := writable_ofInt hone hlt
  obtain ⟨x, hx⟩ := (writes_toString i).accepted hwritable.isFinite hwritable.belowLimit
  have hvalue : x.value = i := ((writes_toString i).value_eq hx.read).trans (value_ofInt i)
  exact Draft.setLeverage_eq hdraft hx hvalue hone hmax

/-- The clause of a term changes a draft, if the order has the term. -/
theorem foldlM_term {α : Type} {value : Option α} {clause : α → Clause} {made : Draft}
    (hnone : value = none → made = draft)
    (hsome : ∀ a, value = some a → draft.apply settings (clause a) = .ok made) :
    (value.map clause).toList.foldlM (Draft.apply settings) draft = .ok made := by
  cases value with
  | none =>
    rw [hnone rfl]
    rfl
  | some a =>
    simp only [Option.map_some, Option.toList_some, List.foldlM_cons, hsome a rfl]
    rfl

theorem foldlM_leverage (h : Fillable settings order) (hdraft : draft.leverage = none) :
    (order.leverage.map fun x => Clause.leverage (toString x)).toList.foldlM (Draft.apply settings)
      draft = .ok { draft with leverage := order.leverage } := by
  refine foldlM_term (fun hnone => by rw [hnone, ← hdraft]) fun x hx => ?_
  obtain ⟨hone, hmax, hlt⟩ := h.leverage x hx
  rw [hx]
  exact setLeverage_toString hdraft hone hmax hlt

/-- A draft with another distance of a protection, or without one. -/
def protect (draft : Draft) (value : Option Decimal) : Protection → Draft
  | .stopLoss => { draft with stopLoss := value }
  | .takeProfit => { draft with takeProfit := value }
  | .trailing => { draft with trailing := value }

theorem foldlM_protection {kind : Protection} {value : Option Decimal}
    (hdraft : draft.protection kind = none)
    (h : ∀ x, value = some x → Writable x ∧ (kind ≠ .takeProfit → x.value < 100)) :
    (value.map fun x => Clause.protection kind x.canonical).toList.foldlM (Draft.apply settings)
      draft = .ok (protect draft (value.map reread) kind) := by
  refine foldlM_term (fun hnone => ?_) fun x hx => ?_
  · rw [hnone, Option.map_none, ← hdraft]
    cases kind <;> rfl
  · obtain ⟨hwritable, hlt⟩ := h x hx
    rw [← hwritable.reread_value] at hlt
    rw [hx, Draft.apply, Draft.setProtection_eq hdraft hwritable.accepted_canonical
      hwritable.reread_pos hlt]
    cases kind <;> rfl

/-- The clause of a limit price fills it in and marks the order as a limit order. -/
theorem foldlM_limitPrice (h : Fillable settings order) (hprice : draft.limitPrice = none)
    (hlimit : draft.limit = false) :
    (order.limitPrice.map fun x => Clause.limit (some x.canonical)).toList.foldlM
      (Draft.apply settings) draft =
        .ok { draft with
          limit := order.limitPrice.isSome, limitPrice := order.limitPrice.map reread } := by
  refine foldlM_term (fun hnone => ?_) fun x hx => ?_
  · rw [hnone, Option.isSome_none, Option.map_none, ← hprice, ← hlimit]
  · have hwritable := h.limitPrice x hx
    rw [hx]
    simp only [Draft.apply, Draft.failIf, hlimit, Bool.false_eq_true, if_false]
    exact Draft.setLimitPrice_eq hwritable.accepted_canonical hwritable.reread_pos

/-- Clauses that give a draft leave the rest of the clauses to be applied to it. -/
theorem foldlM_append_ok {clauses rest : List Clause} {made : Draft}
    (h : clauses.foldlM (Draft.apply settings) draft = .ok made) :
    (clauses ++ rest).foldlM (Draft.apply settings) draft =
      rest.foldlM (Draft.apply settings) made := by
  rw [List.foldlM_append, h]
  rfl

theorem foldlM_cons_ok {clause : Clause} {rest : List Clause} {made : Draft}
    (h : draft.apply settings clause = .ok made) :
    (clause :: rest).foldlM (Draft.apply settings) draft =
      rest.foldlM (Draft.apply settings) made := by
  rw [List.foldlM_cons, h]
  rfl

end Draft

/-- A draft with the terms of an order, with the numbers as they are read. -/
def draftOf (order : Order) : Draft where
  side := order.side
  symbol := some order.symbol
  size := some ⟨order.size.unit, reread order.size.amount⟩
  leverage := order.leverage
  limit := order.limitPrice.isSome
  limitPrice := order.limitPrice.map reread
  stopLoss := order.stopLoss.map reread
  takeProfit := order.takeProfit.map reread
  trailing := order.trailing.map reread
  reduceOnly := order.reduceOnly

/-- A word for the symbol and the clauses of an order fill an empty draft with its terms, one after
the other. -/
theorem foldlM_symbol_clausesOf (h : Fillable settings order) {word : String}
    (hword : resolveSymbol? settings word = some order.symbol) :
    (Clause.symbol word :: clausesOf order).foldlM (Draft.apply settings)
      { side := order.side } = .ok (draftOf order) := by
  have hsymbol : Draft.apply settings { side := order.side } (.symbol word) =
      .ok { side := order.side, symbol := some order.symbol } := by
    simp only [Draft.apply, Draft.setSymbol, hword]
  have hsize {draft : Draft} (hdraft : draft.size = none) :
      draft.apply settings (.size order.size.amount.canonical order.size.unit) =
        .ok { draft with size := some ⟨order.size.unit, reread order.size.amount⟩ } := by
    refine Draft.setSize_eq hdraft h.size.accepted_canonical h.size.reread_pos ?_
    rw [h.size.reread_value]
    exact h.share
  have hreduce {draft : Draft} (hdraft : draft.reduceOnly = false) :
      (if order.reduceOnly then [Clause.reduce] else []).foldlM (Draft.apply settings) draft =
        .ok { draft with reduceOnly := order.reduceOnly } := by
    cases order.reduceOnly with
    | false =>
      rw [if_neg (by decide), ← hdraft]
      rfl
    | true => simp [Draft.apply, Draft.failIf, hdraft]
  -- each clause is applied to the draft that the clauses in front of it have made
  rw [clausesOf, foldlM_cons_ok hsymbol, foldlM_cons_ok (hsize rfl),
    foldlM_append_ok (foldlM_leverage h rfl),
    foldlM_append_ok
      (foldlM_protection rfl fun x hx => ⟨(h.stopLoss x hx).1, fun _ => (h.stopLoss x hx).2⟩),
    foldlM_append_ok
      (foldlM_protection rfl fun x hx => ⟨h.takeProfit x hx, fun hkind => absurd rfl hkind⟩),
    foldlM_append_ok
      (foldlM_protection rfl fun x hx => ⟨(h.trailing x hx).1, fun _ => (h.trailing x hx).2⟩),
    foldlM_append_ok (hreduce rfl), foldlM_limitPrice h rfl rfl]
  rfl

/-- The draft of a consistent order passes the last checks. -/
theorem finished_of_consistent (h : Fillable settings order)
    (hconsistent : Consistent settings order) :
    (draftOf order).finished settings = .ok (draftOf order) := by
  have htarget : (draftOf order).targetTooHigh? = .ok none := by
    cases hside : order.side with
    | buy => simp only [Draft.targetTooHigh?, draftOf, hside]; rfl
    | sell =>
      cases hprofit : order.takeProfit with
      | none => simp only [Draft.targetTooHigh?, draftOf, hside, hprofit, Option.map_none]; rfl
      | some x =>
        have hlt := hconsistent.target hside x hprofit
        have hwritable := h.takeProfit x hprofit
        have hle : Decimal.le 100 (reread x) = .ok false := by
          rw [le_eq rfl hwritable.accepted_canonical.isFinite, hwritable.reread_value]
          simpa using hlt
        simp only [Draft.targetTooHigh?, draftOf, hside, hprofit, Option.map_some, hle]
        rfl
  -- no check of the whole command finds a problem
  have hlast : (draftOf order).lastProblems settings none = [] := by
    have hprice : order.limitPrice.isSome = true → ¬ order.limitPrice = none := by
      intro hsome hnone
      simp [hnone] at hsome
    by_cases hshare : order.size.unit = .percent
    · have hleverage : order.leverage.isSome = true → settings.market ≠ .spot := by
        intro hsome hmarket
        simp [hconsistent.share_leverage hshare hmarket] at hsome
      simpa [Draft.lastProblems, Draft.isShare, draftOf, hshare,
        hconsistent.share_reduceOnly hshare, and_iff_right hprice] using hleverage
    · simpa [Draft.lastProblems, Draft.isShare, draftOf, hshare] using hprice
  rw [Draft.finished_eq, htarget, Except.map, hlast, List.append_nil]

/-- Only the draft of a consistent order passes the last checks. -/
theorem consistent_of_finished (h : Fillable settings order) {made : Draft}
    (hmade : (draftOf order).finished settings = .ok made) (hnone : made.problems = []) :
    Consistent settings order := by
  obtain ⟨-, -, hreduce, hspot, htarget⟩ := Draft.finished_ok hmade hnone
  have hshare (hunit : order.size.unit = .percent) : (draftOf order).isShare = true := by
    simp [Draft.isShare, draftOf, hunit]
  refine ⟨fun hside x hx => ?_, fun hunit => hreduce (hshare hunit),
    fun hunit => hspot (hshare hunit)⟩
  have hwritable := h.takeProfit x hx
  have hprofit : (draftOf order).takeProfit = some (reread x) := by simp [draftOf, hx]
  have hle := Draft.targetTooHigh?_eq_none htarget hside hprofit
  rw [← hwritable.reread_value]
  exact Draft.lt_hundred hwritable.accepted_canonical.isFinite hle

/-- The draft of an order holds that order, with the numbers as they are read. -/
theorem order?_draftOf (hlimit : order.type = .limit ↔ order.limitPrice.isSome = true) :
    (draftOf order).order? = some (rereadOrder order) := by
  cases hprice : order.limitPrice with
  | none =>
    have htype : order.type = .market := by
      cases htype : order.type with
      | market => rfl
      | limit =>
        have hsome := hlimit.1 htype
        simp [hprice] at hsome
    simp [Draft.order?, draftOf, rereadOrder, hprice, htype]
  | some x =>
    have htype : order.type = .limit := hlimit.2 (by simp [hprice])
    simp [Draft.order?, draftOf, rereadOrder, hprice, htype]

/-! ## The way back -/

/-- Numbers that are written and read again are the same to an order. -/
theorem sameNumber_reread {value : Option Decimal} (h : ∀ x, value = some x → Writable x) :
    Order.sameNumber value (value.map reread) = .ok true := by
  cases value with
  | none => rfl
  | some x =>
    rw [Option.map_some, Order.sameNumber, (h x rfl).equal_reread]

/-- Numbers are read with their values, so the order is the same. -/
theorem same_rereadOrder (h : Fillable settings order) :
    order.same (rereadOrder order) = .ok true := by
  simp only [Order.same, rereadOrder, h.size.equal_reread, sameNumber_reread h.limitPrice,
    sameNumber_reread fun x hx => (h.stopLoss x hx).1, sameNumber_reread h.takeProfit,
    sameNumber_reread fun x hx => (h.trailing x hx).1, bind, Except.bind, beq_self_eq_true,
    Bool.and_self, if_true]
  rfl

/-- The name of a side is read as that side. -/
theorem sideOf?_name (side : Side) : sideOf? ("/" ++ side.name) = some side := by
  cases side <;> decide +kernel

/-- The command of an order is read as the draft with its terms. -/
theorem read_command_eq (h : Readable settings order) (htext : order.command = .ok text) :
    read settings text = .ok (.ofDraft (draftOf order)) := by
  have hwords := words_command h.toFillable h.limit_iff (Clause.isSymbol_of_read h.symbol_read).1
    htext
  have hdraft := foldlM_symbol_clausesOf h.toFillable h.symbol_resolved
  have hfinished := finished_of_consistent h.toFillable h.toConsistent
  simp only [read, hwords, sideOf?_name, readAll_command h, hdraft, hfinished, bind, Except.bind]
  rfl

/-- An order can be written as a command, and the command is read as that order. -/
theorem read_command (h : Readable settings order) :
    ∃ text reading parsed, order.command = .ok text ∧ read settings text = .ok reading ∧
      reading.ok = true ∧ reading.order = some parsed ∧ order.same parsed = .ok true := by
  obtain ⟨text, htext⟩ := exists_command h.toFillable
  refine ⟨text, _, rereadOrder order, htext, read_command_eq h htext, ?_, ?_,
    same_rereadOrder h.toFillable⟩
  · rw [Reading.ofDraft, order?_draftOf h.limit_iff]
    rfl
  · rw [Reading.ofDraft, order?_draftOf h.limit_iff]

/-- A sale of a share of the balance, with trailing zeros and exponents in its numbers. -/
def sampleSale : Order where
  symbol := "ETHUSDT"
  side := .sell
  size := ⟨.percent, .finite false 1 1⟩
  leverage := some 20
  type := .limit
  limitPrice := some (.finite false 25 2)
  stopLoss := some (.finite false 150 (-2))
  takeProfit := some (.finite false 999 (-1))
  trailing := some (.finite false 7 (-9))

/-- A positive number that rounding leaves as it is can be written, if it is below the limit. -/
theorem writable_finite {c : ℕ} {e : ℤ} (hpos : 0 < c) (hexp : -(2 * exponentLimit - 1) ≤ e)
    (hround : (finite false c e).abs = .ok (finite false c e))
    (hlt : (finite false c e).value < 10 ^ 15) : Writable (finite false c e) where
  isFinite := rfl
  pos := by
    have hcast : (0 : ℚ) < c := by exact_mod_cast hpos
    simp only [value, magnitude, Bool.false_eq_true, if_false]
    positivity
  exponent := by
    rintro n c' e' heq
    cases heq
    exact hexp
  lt_limit := ⟨_, hround, hlt⟩

theorem readable_sampleSale : Readable {} sampleSale where
  symbol_read := by decide +kernel
  symbol_resolved := by decide +kernel
  size :=
    writable_finite (by decide) (by decide) (by decide +kernel) (by norm_num [value, magnitude])
  share := by
    intro _
    norm_num [sampleSale, value, magnitude]
  leverage := by
    rintro x ⟨⟩
    decide
  limit_iff := by decide
  limitPrice := by
    rintro x ⟨⟩
    exact writable_finite (by decide) (by decide) (by decide +kernel)
      (by norm_num [value, magnitude])
  stopLoss := by
    rintro x ⟨⟩
    refine ⟨writable_finite (by decide) (by decide) (by decide +kernel) ?_, ?_⟩ <;>
      norm_num [value, magnitude]
  takeProfit := by
    rintro x ⟨⟩
    exact writable_finite (by decide) (by decide) (by decide +kernel)
      (by norm_num [value, magnitude])
  target := by
    rintro - x ⟨⟩
    norm_num [value, magnitude]
  trailing := by
    rintro x ⟨⟩
    refine ⟨writable_finite (by decide) (by decide) (by decide +kernel) ?_, ?_⟩ <;>
      norm_num [value, magnitude]
  share_reduceOnly := by
    intro _
    rfl
  share_leverage := by
    rintro - ⟨⟩

/-- The command of the sample sale is read as the same order. -/
theorem read_command_sale : Readable {} sampleSale ∧ ∃ text reading parsed,
    sampleSale.command = .ok text ∧ read {} text = .ok reading ∧ reading.ok = true ∧
      reading.order = some parsed ∧ sampleSale.same parsed = .ok true :=
  ⟨readable_sampleSale, read_command readable_sampleSale⟩

end OrderTicket.Command
