import OrderTicket.Selection
import OrderTicket.Proofs.Command.RoundTrip
import OrderTicket.Proofs.Command.Sound
import OrderTicket.Proofs.Form.Reader

/-!
# Orders chosen with buttons

A selection is written as a command and read like a typed one. Its symbol is a text from outside: it
may be any word, also one of the grammar, which could take the size behind it for its value or be
taken for a term itself. This module shows that nothing comes of that. The command is accepted
exactly if the symbol is claimed by the rule for symbols and the fields pass the checks of the
grammar, and then the order is the one that was chosen.

The reason is that no word behind the symbol is ever read as a symbol, whatever the symbol takes of
them. So a symbol that is read as something else leaves the order without one.

* `Selection.Valid`: what the check of a form makes sure of (`Selection.valid_of_check`).
* `Selection.Acceptable`: the selections that the grammar accepts.
* `Selection.acceptable_of_ok`, `Selection.reading_of_acceptable`: the two directions.
* `Selection.reading_ok_iff`: both together.
-/

namespace OrderTicket.Selection

open Command Decimal

variable {settings : CommandSettings} {selection : Selection} {market : String}

/-- The order that was chosen, for the market that the symbol names. -/
def order (selection : Selection) (market : String) : Order where
  symbol := market
  side := selection.action
  size := ⟨selection.sizeUnit, selection.size⟩
  leverage := selection.leverage
  type := selection.type
  limitPrice := selection.limitPrice
  stopLoss := selection.stopLoss
  takeProfit := selection.takeProfit
  trailing := selection.trailing
  reduceOnly := selection.reduceOnly

/-- The numbers of a selection, other than its leverage. -/
def numbers (selection : Selection) : List Decimal :=
  selection.size :: (selection.limitPrice.toList ++ selection.stopLoss.toList ++
    selection.takeProfit.toList ++ selection.trailing.toList)

/-! ## Selections of forms -/

/-- The symbol is one word and all numbers are finite. -/
structure Valid (selection : Selection) : Prop where
  /-- The symbol is not empty. -/
  symbol_ne_empty : selection.symbol ≠ ""
  /-- It has no blanks. -/
  symbol_word : ∀ c ∈ selection.symbol.toList, Text.isBlank c = false
  /-- The numbers are finite, with exponents that a number can have. -/
  numbers : ∀ x ∈ selection.numbers, Holdable x

/-- The numbers of a valid selection can be held. -/
theorem Valid.holdable (h : selection.Valid) (market : String) :
    ∀ x ∈ numbersOf (selection.order market), Holdable x :=
  h.numbers

/-- A finite number that is read from a text has an exponent that a number can have. -/
theorem holdable_of_ofText {s : String} {x : Decimal} (h : ofText s = .ok x)
    (hx : x.isFinite = true) : Holdable x := by
  obtain ⟨n, c, e, hchecked⟩ := held_of_ofText h hx
  obtain ⟨heq, hexponent, -⟩ := checked_eq_ok hchecked
  exact ⟨n, c, e, heq, hexponent⟩

/-- A number that is read from a form can be held. -/
theorem holdable_of_decimal {x : Payload} {a : Decimal} (h : Form.decimal x = .ok a) :
    Holdable a := by
  have hfinite {s : String} (h : Form.decimal.finite s = .ok a) : Holdable a := by
    unfold Form.decimal.finite at h
    split at h
    · rename_i y hy
      split at h
      · cases h
        exact holdable_of_ofText hy ‹_›
      · cases h
    · cases h
  unfold Form.decimal at h
  split at h
  · cases h
    exact ⟨_, _, 0, rfl, by decide⟩
  · exact hfinite h
  · exact hfinite h
  · cases h

/-- The reader of symbols refuses what is empty or has blanks. -/
theorem not_isBlank_of_symbolField {x : Payload} {symbol : String}
    (h : symbolField x = .ok symbol) :
    symbol ≠ "" ∧ ∀ c ∈ symbol.toList, Text.isBlank c = false := by
  obtain ⟨s, -, h⟩ := bind_eq_ok h
  simp only at h
  split at h
  · cases h
  · rename_i hgood
    cases h
    simpa using hgood

/-- A form gives valid selections only. -/
theorem valid_of_check {fields : List (String × Payload)} (h : check fields = .ok selection) :
    selection.Valid := by
  have hoptional {name : String} {field : Option Payload} {value : Option Decimal}
      (h : Form.withDefault name (Form.optional Form.decimal) none field = .ok value) :
      ∀ x ∈ value.toList, Holdable x := by
    intro x hx
    obtain rfl := Option.mem_toList.1 hx
    rcases Form.withDefault_eq_ok h with hnone | ⟨p, hp⟩
    · cases hnone
    · exact holdable_of_decimal (Form.optional_eq_ok hp)
  unfold check at h
  obtain ⟨h, -⟩ := Form.Checked.also_eq_ok h
  obtain ⟨_, reduceOnly, h, -, h₁⟩ := Form.Checked.ap_eq_ok h
  obtain ⟨_, trailing, h, htrailing, h₂⟩ := Form.Checked.ap_eq_ok h
  obtain ⟨_, takeProfit, h, htarget, h₃⟩ := Form.Checked.ap_eq_ok h
  obtain ⟨_, stopLoss, h, hstop, h₄⟩ := Form.Checked.ap_eq_ok h
  obtain ⟨_, limitPrice, h, hprice, h₅⟩ := Form.Checked.ap_eq_ok h
  obtain ⟨_, type, h, -, h₆⟩ := Form.Checked.ap_eq_ok h
  obtain ⟨_, leverage, h, -, h₇⟩ := Form.Checked.ap_eq_ok h
  obtain ⟨_, sizeUnit, h, -, h₈⟩ := Form.Checked.ap_eq_ok h
  obtain ⟨_, size, h, hsize, h₉⟩ := Form.Checked.ap_eq_ok h
  obtain ⟨_, symbol, h, hsymbol, h₁₀⟩ := Form.Checked.ap_eq_ok h
  obtain ⟨_, action, h, -, h₁₁⟩ := Form.Checked.ap_eq_ok h
  -- the selection is put together from the first field on
  obtain rfl := Except.ok.inj h
  subst h₁₁ h₁₀ h₉ h₈ h₇ h₆ h₅ h₄ h₃ h₂ h₁
  obtain ⟨p, -, hsize⟩ := Form.required_eq_ok hsize
  obtain ⟨q, -, hsymbol⟩ := Form.required_eq_ok hsymbol
  obtain ⟨hne, hword⟩ := not_isBlank_of_symbolField hsymbol
  refine ⟨hne, hword, ?_⟩
  intro x hx
  simp only [numbers, List.mem_cons, List.mem_append] at hx
  rcases hx with rfl | ((hx | hx) | hx) | hx
  · exact holdable_of_decimal hsize
  · exact hoptional hprice x hx
  · exact hoptional hstop x hx
  · exact hoptional htarget x hx
  · exact hoptional htrailing x hx

/-! ## Selections that are accepted -/

/-- The selection passes the checks of the grammar, and its symbol names the market. -/
structure Acceptable (settings : CommandSettings) (selection : Selection) (market : String) :
    Prop where
  /-- The symbol is claimed by the rule for symbols. -/
  symbol_read : (Clause.read selection.symbol []).1 = .symbol (Text.upper selection.symbol)
  /-- In upper case it names the market. -/
  symbol_resolved : resolveSymbol? settings (Text.upper selection.symbol) = some market
  /-- The size is positive. -/
  size : 0 < selection.size.value
  /-- A share is at most `100`. -/
  share : selection.sizeUnit = .percent → selection.size.value ≤ 100
  /-- The leverage lies within the bounds. -/
  leverage : ∀ x, selection.leverage = some x → 1 ≤ x ∧ x ≤ settings.maxLeverage
  /-- The stop loss is positive and less than the whole price. -/
  stopLoss : ∀ x, selection.stopLoss = some x → 0 < x.value ∧ x.value < 100
  /-- The trailing stop is positive and less than the whole price. -/
  trailing : ∀ x, selection.trailing = some x → 0 < x.value ∧ x.value < 100
  /-- The profit target is positive, and for a sale it is less than the whole price. -/
  takeProfit : ∀ x, selection.takeProfit = some x →
    0 < x.value ∧ (selection.action = .sell → x.value < 100)
  /-- A limit order has a positive price. -/
  limitPrice : selection.type = .limit → ∃ x, selection.limitPrice = some x ∧ 0 < x.value
  /-- All numbers are below the limit of typed numbers when they are rounded to the precision. -/
  belowLimit : ∀ x ∈ selection.numbers ++ (selection.leverage.map ofInt).toList, BelowLimit x
  /-- A share of the balance does not make a position smaller. -/
  share_reduceOnly : ¬ (selection.sizeUnit = .percent ∧ selection.reduceOnly = true)
  /-- A share of the balance takes no leverage on a spot market. -/
  share_leverage : ¬ (selection.sizeUnit = .percent ∧ selection.leverage.isSome = true ∧
    settings.market = .spot)

/-- The keyword of a limit order without a price. -/
def openLimit (selection : Selection) : List String :=
  if selection.type = .limit ∧ selection.limitPrice = none then ["limit"] else []

/-- A selection whose leverage is short can be written as a command. -/
theorem exists_command (h : ∀ x, selection.leverage = some x → Integer.IsShort x) :
    ∃ text, selection.command = .ok text := by
  obtain ⟨terms, hterms⟩ :=
    exists_commonTerms (selection.order selection.symbol) selection.symbol h
  exact ⟨_, bind_of_eq_ok hterms⟩

/-- The words of a selection's command are those of its order, and at the end a limit keyword that
has no price. -/
theorem words_command (hvalid : selection.Valid)
    (hlimit : selection.limitPrice.isSome = true → selection.type = .limit) (market : String)
    {text : String} (htext : selection.command = .ok text) :
    Text.words text = ("/" ++ selection.action.name) :: selection.symbol ::
      (termsOf (selection.order market) ++ limitOf (selection.order market) ++
        selection.openLimit) := by
  have hsymbol : Text.words selection.symbol = [selection.symbol] :=
    Text.words_of_not_isBlank hvalid.symbol_ne_empty hvalid.symbol_word
  obtain ⟨terms, hterms, htext⟩ := bind_eq_ok htext
  obtain rfl := Except.ok.inj htext
  have hcommon : terms.flatMap Text.words =
      ("/" ++ selection.action.name) :: selection.symbol :: termsOf (selection.order market) :=
    words_commonTerms (hvalid.holdable market) hsymbol hterms
  have hlimitTerms : selection.limitTerms.flatMap Text.words =
      limitOf (selection.order market) ++ selection.openLimit := by
    -- With no price the word for a limit may stand alone, which is the open limit at the end.
    cases hprice : selection.limitPrice with
    | none =>
      cases htype : selection.type <;>
        simp [limitTerms, htype, hprice, limitOf, order, openLimit, isPlain_limit.words_eq]
    | some x =>
      have htype : selection.type = .limit := hlimit (by simp [hprice])
      have hx : Holdable x := hvalid.numbers x (by simp [numbers, hprice])
      simp [limitTerms, htype, hprice, limitOf, order, openLimit, isPlain_limit.words_eq,
        (isTerm_price hx).isPlain.words_eq]
  rw [Text.words_intercalate, List.flatMap_append, hlimitTerms, hcommon, List.append_assoc]
  rfl

/-- Whatever the symbol is: if a symbol is read at all, then it is the symbol. -/
theorem read_symbol_of_mem (hvalid : selection.Valid) {word : String}
    (h : .symbol word ∈ Clause.readAll (selection.symbol ::
      (termsOf (selection.order market) ++ limitOf (selection.order market) ++
        selection.openLimit))) :
    Clause.read selection.symbol [] = (.symbol (Text.upper selection.symbol), 0) := by
  obtain ⟨front, raw, behind, hwords, hread⟩ := Clause.exists_read_of_mem h
  cases front with
  | nil =>
    obtain ⟨rfl, -⟩ := List.cons.inj hwords
    obtain ⟨-, rfl⟩ := Clause.isSymbol_of_read hread
    exact Clause.read_alone_of_symbol hread
  | cons first front =>
    -- the words behind the symbol are never read as one
    obtain ⟨-, hwords⟩ := List.cons.inj hwords
    have hmem : raw ∈ termsOf (selection.order market) ++ limitOf (selection.order market) ++
        ["limit"] := by
      have hraw : raw ∈ termsOf (selection.order market) ++
          limitOf (selection.order market) ++ selection.openLimit := by simp [hwords]
      unfold openLimit at hraw
      split at hraw
      · exact hraw
      · exact List.mem_append_left _ (by simpa using hraw)
    exact absurd hread (read_ne_symbol (hvalid.holdable market) hmem)

/-- The clauses of a symbol and the words behind it. -/
theorem readAll_words (hvalid : selection.Valid) (market : String)
    (hsymbol : Clause.read selection.symbol [] = (.symbol (Text.upper selection.symbol), 0)) :
    Clause.readAll (selection.symbol ::
      (termsOf (selection.order market) ++ limitOf (selection.order market) ++
        selection.openLimit)) =
      .symbol (Text.upper selection.symbol) :: clausesOf (selection.order market) ++
        Clause.readAll selection.openLimit := by
  refine readAll_written (hvalid.holdable market) hsymbol ?_
  intro first next hnext hjoins
  unfold openLimit at hnext
  split at hnext
  · cases hnext
    rw [isPlain_limit.lower_eq_self] at hjoins
    have hnone : "limit" ∉ Clause.quoteUnits ++ ["loss", "profit"] := by decide +kernel
    exact hnone (Clause.mem_of_joins hjoins)
  · cases hnext

/-! ### What is accepted is acceptable -/

/-- A draft with a symbol was made by clauses one of which is a symbol. -/
theorem exists_symbol_of_foldlM {side : Side} {clauses : List Clause} {draft : Draft}
    (h : clauses.foldlM (Draft.apply settings) { side } = .ok draft)
    (hsymbol : draft.symbol = some market) : ∃ word, .symbol word ∈ clauses := by
  by_contra hnone
  rw [not_exists] at hnone
  -- without a symbol clause the draft is sound for the empty text, which names no market
  have hempty : Draft.Sound settings "" { side } := Draft.sound_empty side
  have hsound := Draft.foldlM_sound hempty (fun word hword => absurd hword (hnone word)) h
  obtain ⟨raw, hraw, -⟩ := hsound.symbol market hsymbol
  simp [Text.words_empty] at hraw

/-- A limit order without a price is not accepted. -/
theorem openLimit_eq_nil {side : Side} {clauses : List Clause} {draft : Draft}
    (hclauses : .limit none ∉ clauses)
    (h : (clauses ++ Clause.readAll selection.openLimit).foldlM (Draft.apply settings) { side } =
      .ok draft)
    (hfinished : draft.finished settings = .ok draft) (hnone : draft.problems = []) :
    selection.openLimit = [] := by
  by_contra hopen
  have hlimit : Clause.readAll selection.openLimit = [.limit none] := by
    unfold openLimit at hopen ⊢
    split at hopen
    · rw [if_pos ‹_›]
      decide +kernel
    · exact absurd rfl hopen
  rw [hlimit, List.foldlM_append] at h
  obtain ⟨earlier, hearlier, h⟩ := bind_eq_ok h
  obtain ⟨last, hlast, h⟩ := bind_eq_ok h
  cases h
  -- in front of the keyword the draft is closed, so it has no price either
  have hproblems := Draft.problems_of_apply hlast hnone
  obtain ⟨entries, -, henter⟩ := Draft.exists_entries_of_foldlM (Draft.closed_empty side) hclauses
    hearlier hproblems
  have hclosed : earlier.limit = earlier.limitPrice.isSome :=
    Draft.closed_of_foldlM (Draft.closed_empty side) henter
  cases hlast
  obtain ⟨-, hfree⟩ := Draft.problems_failIf.1 hnone
  obtain ⟨-, hprice, -⟩ := Draft.finished_ok hfinished hnone
  have hsome : earlier.limitPrice.isSome = true := by simpa [Draft.failIf, hfree] using hprice rfl
  rw [← hclosed, hfree] at hsome
  cases hsome

/-- An order that passes the checks of a command was chosen by an acceptable selection. -/
theorem acceptable_of_fillable
    (hsymbol : Clause.read selection.symbol [] = (.symbol (Text.upper selection.symbol), 0))
    (hmarket : resolveSymbol? settings (Text.upper selection.symbol) = some market)
    (hopen : selection.openLimit = []) (hfillable : Fillable settings (selection.order market))
    (hconsistent : Consistent settings (selection.order market)) :
    Acceptable settings selection market where
  symbol_read := congrArg Prod.fst hsymbol
  symbol_resolved := hmarket
  size := hfillable.size.pos
  share := hfillable.share
  leverage := fun x hx => ⟨(hfillable.leverage x hx).1, (hfillable.leverage x hx).2.1⟩
  stopLoss := fun x hx => ⟨(hfillable.stopLoss x hx).1.pos, (hfillable.stopLoss x hx).2⟩
  trailing := fun x hx => ⟨(hfillable.trailing x hx).1.pos, (hfillable.trailing x hx).2⟩
  takeProfit := fun x hx =>
    ⟨(hfillable.takeProfit x hx).pos, fun hside => hconsistent.target hside x hx⟩
  limitPrice := by
    intro htype
    cases hprice : selection.limitPrice with
    | none => simp [openLimit, htype, hprice] at hopen
    | some x => exact ⟨x, rfl, (hfillable.limitPrice x hprice).pos⟩
  belowLimit := by
    intro x hx
    -- The bound on magnitudes is asked of every number that is chosen, the leverage included.
    simp only [numbers, List.mem_append, List.mem_cons, Option.mem_toList,
      Option.map_eq_some_iff] at hx
    rcases hx with (rfl | ((hx | hx) | hx) | hx) | ⟨i, hi, rfl⟩
    · exact hfillable.size.belowLimit
    · exact (hfillable.limitPrice x hx).belowLimit
    · exact (hfillable.stopLoss x hx).1.belowLimit
    · exact (hfillable.takeProfit x hx).belowLimit
    · exact (hfillable.trailing x hx).1.belowLimit
    · obtain ⟨hone, -, hlt⟩ := hfillable.leverage i hi
      exact (writable_ofInt hone hlt).belowLimit
  share_reduceOnly := by
    rintro ⟨hunit, hreduce⟩
    have hnot := hconsistent.share_reduceOnly hunit
    rw [show (selection.order market).reduceOnly = true from hreduce] at hnot
    cases hnot
  share_leverage := by
    rintro ⟨hunit, hsome, hspot⟩
    have hnone : selection.leverage = none := hconsistent.share_leverage hunit hspot
    simp [hnone] at hsome

/-- The market of an accepted selection is one for which it is acceptable. -/
theorem acceptable_of_ok (hvalid : selection.Valid)
    (hlimit : selection.limitPrice.isSome = true → selection.type = .limit)
    {reading : Reading} (h : selection.reading settings = .ok reading) (hok : reading.ok = true) :
    ∃ market, Acceptable settings selection market := by
  obtain ⟨text, htext, h⟩ := bind_eq_ok h
  have hwords := words_command hvalid hlimit selection.symbol htext
  obtain ⟨side, draft, hside, hdraft, hreading⟩ := exists_draft_of_ok hwords h hok
  obtain rfl := Option.some.inj ((sideOf?_name selection.action).symm.trans hside)
  obtain ⟨order, hfinished, horder, -⟩ := exists_order_of_ok hreading hok
  obtain ⟨hnone, market, size, hmarket, -, -⟩ := order?_eq_some horder
  -- a symbol was read, and it was the symbol of the selection
  obtain ⟨word, hword⟩ := exists_symbol_of_foldlM hdraft hmarket
  have hsymbol := read_symbol_of_mem hvalid hword
  rw [readAll_words hvalid _ hsymbol] at hdraft
  have hclauses : Clause.limit none ∉
      .symbol (Text.upper selection.symbol) :: clausesOf (selection.order selection.symbol) := by
    simp [clausesOf]
  have hopen := openLimit_eq_nil hclauses hdraft hfinished hnone
  rw [hopen, Clause.readAll_nil, List.append_nil] at hdraft
  -- each clause made an entry, which says that its number passed the checks
  obtain ⟨entries, hgives, -⟩ := Draft.exists_entries_of_foldlM (Draft.closed_empty _) hclauses
    hdraft hnone
  cases hgives with
  | cons hfirst hgives =>
    cases hfirst with
    | @symbol _ resolved hresolved =>
      have hfillable : Fillable settings (selection.order resolved) :=
        fillable_of_gives (hvalid.holdable resolved) hgives
      obtain rfl := Except.ok.inj ((foldlM_symbol_clausesOf hfillable hresolved).symm.trans hdraft)
      exact ⟨resolved, acceptable_of_fillable hsymbol hresolved hopen hfillable
        (consistent_of_finished hfillable hfinished hnone)⟩

/-! ### What is acceptable is accepted -/

namespace Acceptable

/-- An acceptable selection gives an order that can be filled in. -/
theorem fillable (h : Acceptable settings selection market) (hvalid : selection.Valid)
    (hlimit : selection.limitPrice.isSome = true → selection.type = .limit) :
    Fillable settings (selection.order market) := by
  have hwritable {x : Decimal} (hx : x ∈ selection.numbers) (hpos : 0 < x.value) : Writable x :=
    writable_of_holdable (hvalid.numbers x hx) hpos (h.belowLimit x (List.mem_append_left _ hx))
  constructor
  case size => exact hwritable List.mem_cons_self h.size
  case share => exact h.share
  case leverage =>
    intro x hx
    obtain ⟨hone, hmax⟩ := h.leverage x hx
    have hx : selection.leverage = some x := hx
    have hlimit := h.belowLimit (ofInt x) (by simp [hx])
    have hlt := (abs_lt.1 (hlimit.abs_lt rfl)).2
    rw [value_ofInt] at hlt
    exact ⟨hone, hmax, by exact_mod_cast hlt⟩
  case limitPrice =>
    intro x hx
    have hx : selection.limitPrice = some x := hx
    obtain ⟨y, hy, hpos⟩ := h.limitPrice (hlimit (by simp [hx]))
    obtain rfl := Option.some.inj (hx.symm.trans hy)
    exact hwritable (by simp [numbers, hx]) hpos
  case stopLoss =>
    intro x hx
    have hx : selection.stopLoss = some x := hx
    obtain ⟨hpos, hlt⟩ := h.stopLoss x hx
    exact ⟨hwritable (by simp [numbers, hx]) hpos, hlt⟩
  case takeProfit =>
    intro x hx
    have hx : selection.takeProfit = some x := hx
    exact hwritable (by simp [numbers, hx]) (h.takeProfit x hx).1
  case trailing =>
    intro x hx
    have hx : selection.trailing = some x := hx
    obtain ⟨hpos, hlt⟩ := h.trailing x hx
    exact ⟨hwritable (by simp [numbers, hx]) hpos, hlt⟩

theorem consistent (h : Acceptable settings selection market) :
    Consistent settings (selection.order market) := by
  constructor
  case target => exact fun hside x hx => (h.takeProfit x hx).2 hside
  case share_reduceOnly =>
    intro hunit
    cases hreduce : (selection.order market).reduceOnly with
    | false => rfl
    | true => exact absurd ⟨hunit, hreduce⟩ h.share_reduceOnly
  case share_leverage =>
    intro hunit hspot
    cases hleverage : (selection.order market).leverage with
    | none => rfl
    | some x =>
      have hsome : selection.leverage.isSome = true := Option.isSome_iff_exists.2 ⟨x, hleverage⟩
      exact absurd ⟨hunit, hsome, hspot⟩ h.share_leverage

/-- An acceptable selection is a limit order exactly if it has a limit price. -/
theorem limit_iff (h : Acceptable settings selection market)
    (hlimit : selection.limitPrice.isSome = true → selection.type = .limit) :
    selection.type = .limit ↔ selection.limitPrice.isSome = true := by
  refine ⟨fun htype => ?_, hlimit⟩
  obtain ⟨x, hx, -⟩ := h.limitPrice htype
  simp [hx]

/-- An acceptable selection is read as its order, with the numbers as they are read. -/
theorem reading_eq (h : Acceptable settings selection market) (hvalid : selection.Valid)
    (hlimit : selection.limitPrice.isSome = true → selection.type = .limit) :
    selection.reading settings = .ok (.ofDraft (draftOf (selection.order market))) := by
  have hfillable := h.fillable hvalid hlimit
  -- No limit order is accepted without its price, so the command ends with no open limit.
  have hopen : selection.openLimit = [] := by
    unfold openLimit
    split
    · rename_i hopen
      have hsome := (h.limit_iff hlimit).1 hopen.1
      simp [hopen.2] at hsome
    · rfl
  obtain ⟨text, htext⟩ := exists_command hfillable.isShort_leverage
  have hwords := words_command hvalid hlimit market htext
  have hclauses := readAll_words hvalid market (Clause.read_alone_of_symbol h.symbol_read)
  rw [hopen, List.append_nil] at hwords hclauses
  rw [Clause.readAll_nil, List.append_nil] at hclauses
  have hdraft := foldlM_symbol_clausesOf hfillable h.symbol_resolved
  rw [← hclauses] at hdraft
  have hside : (selection.order market).side = selection.action := rfl
  rw [hside] at hdraft
  rw [reading, bind_of_eq_ok htext, Command.read, hwords]
  simp only [sideOf?_name, hdraft, finished_of_consistent hfillable h.consistent, bind,
    Except.bind]
  rfl

end Acceptable

/-- A selection is accepted exactly if its symbol is read as one and names a market, and its fields
pass the checks of the grammar. The order is then the one that was chosen, for that market, whatever
word the symbol is. -/
theorem reading_ok_iff (hvalid : selection.Valid)
    (hlimit : selection.limitPrice.isSome = true → selection.type = .limit) :
    ((∃ reading, selection.reading settings = .ok reading ∧ reading.ok = true) ↔
      ∃ market, Acceptable settings selection market) ∧
    ∀ reading, selection.reading settings = .ok reading → reading.ok = true →
      ∃ market parsed, resolveSymbol? settings (Text.upper selection.symbol) = some market ∧
        reading.order = some parsed ∧ (selection.order market).same parsed = .ok true := by
  have horder {market : String} (h : Acceptable settings selection market) :
      (draftOf (selection.order market)).order? = some (rereadOrder (selection.order market)) :=
    order?_draftOf (h.limit_iff hlimit)
  refine ⟨⟨?_, ?_⟩, ?_⟩
  · rintro ⟨reading, h, hok⟩
    exact acceptable_of_ok hvalid hlimit h hok
  · rintro ⟨market, h⟩
    refine ⟨_, h.reading_eq hvalid hlimit, ?_⟩
    rw [Reading.ofDraft, horder h]
    rfl
  · intro reading h hok
    obtain ⟨market, hacceptable⟩ := acceptable_of_ok hvalid hlimit h hok
    obtain rfl := Except.ok.inj ((hacceptable.reading_eq hvalid hlimit).symm.trans h)
    refine ⟨market, rereadOrder (selection.order market), hacceptable.symbol_resolved, ?_,
      same_rereadOrder (hacceptable.fillable hvalid hlimit)⟩
    rw [Reading.ofDraft, horder hacceptable]

/-- A limit sale with a share of the balance as its size, for a symbol in lower case. -/
def sampleSale : Selection where
  action := .sell
  symbol := "eth"
  size := .finite false 250 (-1)
  sizeUnit := .percent
  leverage := some 5
  type := .limit
  limitPrice := some (.finite false 31 2)
  takeProfit := some (.finite false 40 0)
  trailing := some (.finite false 15 (-1))

theorem valid_sampleSale : sampleSale.Valid where
  symbol_ne_empty := by decide +kernel
  symbol_word c hc := by
    have hblank : sampleSale.symbol.toList.any Text.isBlank = false := by decide +kernel
    simpa using List.any_eq_false.1 hblank c hc
  numbers := by
    simp only [numbers, sampleSale, Option.toList_some, Option.toList_none, List.append_nil,
      List.cons_append, List.nil_append, List.forall_mem_cons, List.not_mem_nil, false_imp_iff,
      implies_true, and_true]
    exact ⟨⟨_, _, _, rfl, by decide⟩, ⟨_, _, _, rfl, by decide⟩, ⟨_, _, _, rfl, by decide⟩,
      ⟨_, _, _, rfl, by decide⟩⟩

/-- A word that takes the size for its value leaves the sale without a symbol. -/
example : (({ sampleSale with symbol := "tp" }).reading {}).toOption.any Reading.ok = false := by
  decide +kernel

/-- The sale is acceptable, and it is accepted. -/
theorem reading_ok_sampleSale :
    sampleSale.Valid ∧ (sampleSale.limitPrice.isSome = true → sampleSale.type = .limit) ∧
      (((∃ reading, sampleSale.reading {} = .ok reading ∧ reading.ok = true) ↔
        ∃ market, Acceptable {} sampleSale market) ∧
      ∀ reading, sampleSale.reading {} = .ok reading → reading.ok = true →
        ∃ market parsed, resolveSymbol? {} (Text.upper sampleSale.symbol) = some market ∧
          reading.order = some parsed ∧ (sampleSale.order market).same parsed = .ok true) ∧
      ∃ reading, sampleSale.reading {} = .ok reading ∧ reading.ok = true :=
  ⟨valid_sampleSale, fun _ => rfl, reading_ok_iff valid_sampleSale fun _ => rfl,
    exists_ok_of_any (by decide +kernel)⟩

end OrderTicket.Selection
