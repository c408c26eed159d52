import Mathlib.Data.List.Forall2
import Mathlib.Data.List.Perm.Basic
import OrderTicket.Command.Reading
import OrderTicket.Proofs.Command.Draft

/-!
# Commands without problems

A clause that has no problem makes an entry in the draft. What the entry is depends on the clause
alone, and whether there is room for it depends on the draft alone. So a command is accepted exactly
if all its clauses have entries and the draft has room for them one after the other, and their order
does not matter.

A limit keyword without a price makes no entry: the draft it leaves can only be completed by a price
that comes later, which is the one place where the order of clauses does matter.

* `Entry`: what is entered; `Clause.Gives` is the entry of a clause.
* `Draft.enter?`: a draft with one more entry, if there is room for it.
* `Draft.foldlM_enter?_perm`: entries may be made in any order.
* `Draft.Outcome`: all that a clause can make of a draft (`Draft.outcome_of_apply`).
* `Draft.exists_entries_of_foldlM`, `Draft.foldlM_apply_of_gives`: a run over clauses without
  problems, as a run over entries.
* `Entered`: the readings of accepted commands (`exists_entered_of_read`, `Entered.read_eq`).
-/

namespace OrderTicket.Command

open Decimal

/-- What a clause enters into a draft. -/
inductive Entry where
  /-- The order may only make a position smaller. -/
  | reduceOnly
  /-- The order is a market order. -/
  | market
  /-- The order is a limit order at a price. -/
  | limit (price : Decimal)
  /-- The leverage. -/
  | leverage (leverage : Int)
  /-- The distance of a protection. -/
  | protection (kind : Protection) (distance : Decimal)
  /-- The size. -/
  | size (size : Size)
  /-- The market. -/
  | symbol (symbol : String)
deriving DecidableEq, Repr

/-- Whether two entries leave room for each other: they are of different kinds, or the same
market. -/
def Entry.agrees : Entry → Entry → Bool
  | .reduceOnly, .reduceOnly | .market, .market | .limit _, .limit _ | .leverage _, .leverage _
  | .size _, .size _ => false
  | .protection kind _, .protection kind' _ => kind != kind'
  | .symbol name, .symbol name' => name == name'
  | _, _ => true

theorem Entry.agrees_comm (e e' : Entry) : e.agrees e' = e'.agrees e := by
  cases e <;> cases e' <;> simp [Entry.agrees, bne, Bool.beq_comm]

/-- The entry that a clause makes. The typed numbers have passed all checks that do not need the
rest of the command. -/
inductive Clause.Gives (settings : CommandSettings) : Clause → Entry → Prop
  | reduce : Gives settings reduce .reduceOnly
  | market : Gives settings market .market
  | limit {number : String} {price : Decimal} (h : Accepted number price) (hpos : 0 < price.value) :
    Gives settings (limit (some number)) (.limit price)
  | atPrice {number : String} {price : Decimal} (h : Accepted number price)
      (hpos : 0 < price.value) : Gives settings (atPrice number) (.limit price)
  | leverage {number : String} {x : Decimal} {k : ℤ} (h : Accepted number x) (hx : x.value = k)
      (hone : 1 ≤ k) (hmax : k ≤ settings.maxLeverage) :
    Gives settings (leverage number) (.leverage k)
  | protection {kind : Protection} {number : String} {distance : Decimal}
      (h : Accepted number distance) (hpos : 0 < distance.value)
      (hlt : kind ≠ .takeProfit → distance.value < 100) :
    Gives settings (protection kind number) (.protection kind distance)
  | size {number : String} {unit : SizeUnit} {amount : Decimal} (h : Accepted number amount)
      (hpos : 0 < amount.value) (hshare : unit = .percent → amount.value ≤ 100) :
    Gives settings (size number unit) (.size ⟨unit, amount⟩)
  | symbol {word market : String} (h : resolveSymbol? settings word = some market) :
    Gives settings (symbol word) (.symbol market)

namespace Draft

variable {settings : CommandSettings} {draft made : Draft}

/-- Whether there is room for an entry. The same market may be entered twice. -/
def fits (draft : Draft) : Entry → Bool
  | .reduceOnly => !draft.reduceOnly
  | .market => !draft.market
  | .limit _ => !draft.limit
  | .leverage _ => draft.leverage.isNone
  | .protection kind _ => (draft.protection kind).isNone
  | .size _ => draft.size.isNone
  | .symbol symbol => draft.symbol.all (· == symbol)

/-- A draft with one more entry. -/
def fill (draft : Draft) : Entry → Draft
  | .reduceOnly => { draft with reduceOnly := true }
  | .market => { draft with market := true }
  | .limit price => { draft with limit := true, limitPrice := some price }
  | .leverage leverage => { draft with leverage := some leverage }
  | .protection kind distance => draft.withProtection distance kind
  | .size size => { draft with size := some size }
  | .symbol symbol => { draft with symbol := some symbol }

/-- A draft with one more entry, if there is room for it. -/
def enter? (draft : Draft) (entry : Entry) : Option Draft :=
  if draft.fits entry then some (draft.fill entry) else none

/-! ## The order of entries -/

/-- An entry takes its own room and no other. -/
theorem fits_fill {e e' : Entry} (h : draft.fits e = true) :
    (draft.fill e).fits e' = (draft.fits e' && e.agrees e') := by
  -- each pair of kinds by itself, with the three protections apart
  rcases e with _ | _ | _ | _ | ⟨_ | _ | _, _⟩ | _ | _ <;>
    rcases e' with _ | _ | _ | _ | ⟨_ | _ | _, _⟩ | _ | _ <;>
      simp_all [fits, fill, Entry.agrees, withProtection, protection]
  -- what is left are two markets: the same one fits again
  rintro rfl
  exact h

/-- Entries that agree can be filled in in either order. -/
theorem fill_comm {e e' : Entry} (h : e.agrees e' = true) :
    (draft.fill e).fill e' = (draft.fill e').fill e := by
  rcases e with _ | _ | _ | _ | ⟨_ | _ | _, _⟩ | _ | _ <;>
    rcases e' with _ | _ | _ | _ | ⟨_ | _ | _, _⟩ | _ | _ <;>
      simp_all [fill, Entry.agrees, withProtection]

/-- Two entries may be made in either order. -/
theorem enter?_comm (draft : Draft) (e e' : Entry) :
    (draft.enter? e).bind (·.enter? e') = (draft.enter? e').bind (·.enter? e) := by
  unfold enter?
  by_cases h : draft.fits e = true <;> by_cases h' : draft.fits e' = true
  · simp only [h, h', if_true, Option.bind_some, fits_fill h, fits_fill h', Bool.true_and,
      Entry.agrees_comm e' e]
    split
    · rw [fill_comm ‹_›]
    · rfl
  · simp [h, h', fits_fill h]
  · simp [h, h', fits_fill h']
  · simp [h, h']

/-- Entries may be made in any order. -/
theorem foldlM_enter?_perm {entries entries' : List Entry} (h : entries.Perm entries')
    (draft : Draft) : entries.foldlM enter? draft = entries'.foldlM enter? draft := by
  induction h generalizing draft with
  | nil => rfl
  | cons e _ ih =>
    simp only [List.foldlM_cons, ih]
  | swap e e' rest =>
    have hcomm := congrArg (·.bind fun next => rest.foldlM enter? next) (draft.enter?_comm e' e)
    simpa [List.foldlM_cons, Option.bind_assoc] using hcomm
  | trans _ _ ih ih' => rw [ih, ih']

/-- Entries are made one after the other exactly if there is room for each of them and they leave
room for each other. -/
theorem foldlM_enter?_iff {entries : List Entry} :
    entries.foldlM enter? draft = some made ↔
      (∀ e ∈ entries, draft.fits e = true) ∧ entries.Pairwise (fun e e' => e.agrees e' = true) ∧
        entries.foldl fill draft = made := by
  induction entries generalizing draft with
  | nil => simp [pure]
  | cons e rest ih =>
    rw [List.foldlM_cons, enter?]
    by_cases h : draft.fits e = true
    · -- the rest fits into the filled draft if it fits into the draft and leaves the entry alone
      rw [if_pos h, Option.bind_eq_bind, Option.bind_some, ih]
      simp only [fits_fill h, Bool.and_eq_true, List.mem_cons, forall_eq_or_imp, h, true_and,
        List.pairwise_cons, List.foldl_cons, imp_and, forall_and]
      tauto
    · rw [if_neg h]
      simp [h]

/-! ## Clauses and entries -/

/-- The draft is one of a limit order exactly if it has a limit price. -/
def Closed (draft : Draft) : Prop :=
  draft.limit = draft.limitPrice.isSome

theorem closed_empty (side : Side) : Closed { side } :=
  rfl

/-- A draft has no problems after a check if it had none before and the check was passed. -/
theorem problems_failIf {condition : Bool} {problem : Problem} :
    (draft.failIf condition problem).problems = [] ↔ draft.problems = [] ∧ condition = false := by
  cases condition <;> simp [failIf, fail]

/-- An entry keeps the problems, and a draft closed. -/
theorem fill_keeps (draft : Draft) (entry : Entry) :
    (draft.fill entry).problems = draft.problems ∧ (draft.Closed → (draft.fill entry).Closed) := by
  rcases entry with _ | _ | _ | _ | ⟨_ | _ | _, _⟩ | _ | _ <;>
    simp [fill, withProtection, Closed]

/-- A closed draft is closed after an entry. -/
theorem closed_of_enter? {entry : Entry} (hclosed : draft.Closed)
    (h : draft.enter? entry = some made) : made.Closed := by
  unfold enter? at h
  split at h
  · cases h
    exact (draft.fill_keeps entry).2 hclosed
  · cases h

/-- A market that is named again leaves the draft as it is. -/
theorem setSymbol_eq {word market : String} (hmarket : resolveSymbol? settings word = some market)
    (hfits : draft.fits (.symbol market) = true) :
    setSymbol settings draft word = draft.fill (.symbol market) := by
  unfold setSymbol
  rw [hmarket]
  cases hsymbol : draft.symbol with
  | none => rfl
  | some earlier =>
    obtain rfl : earlier = market := by simpa [fits, hsymbol] using hfits
    simp [fill, ← hsymbol]

/-- A symbol is refused with a problem, or it names a market that there is room for. -/
theorem setSymbol_ok (settings : CommandSettings) (draft : Draft) (word : String) :
    (∃ problem, setSymbol settings draft word = draft.fail problem) ∨
      ∃ market, resolveSymbol? settings word = some market ∧
        draft.fits (.symbol market) = true := by
  cases hmarket : resolveSymbol? settings word with
  | none => exact .inl ⟨_, by rw [setSymbol, hmarket]⟩
  | some market =>
    cases hfits : draft.fits (.symbol market) with
    | true => exact .inr ⟨market, rfl, hfits⟩
    | false =>
      cases hsymbol : draft.symbol with
      | none => simp [fits, hsymbol] at hfits
      | some earlier =>
        have hne : earlier ≠ market := by simpa [fits, hsymbol] using hfits
        exact .inl ⟨_, by simp only [setSymbol, hmarket, hsymbol]; rw [if_neg (by simpa using hne)]⟩

/-- One draft has the problems of another one and at least one more behind them. -/
def Refused (draft made : Draft) : Prop :=
  ∃ problem more, made.problems = draft.problems ++ problem :: more

theorem refused_fail (draft : Draft) (problem : Problem) : Refused draft (draft.fail problem) :=
  ⟨problem, [], rfl⟩

/-- A refused draft has other problems than before. -/
theorem Refused.problems_ne (h : Refused draft made) : made.problems ≠ draft.problems := by
  obtain ⟨problem, more, hmore⟩ := h
  simp [hmore]

/-- What a clause makes of a draft: it finds problems, it marks a limit order, or it makes an entry
that there is room for. A price in one word needs room for the price only, even if the order is
marked as a limit order. -/
inductive Outcome (settings : CommandSettings) (draft : Draft) : Clause → Draft → Prop
  | refused {clause : Clause} {made : Draft} (h : Refused draft made) :
    Outcome settings draft clause made
  | marked (hfree : draft.limit = false) :
    Outcome settings draft (.limit none) { draft with limit := true }
  | entered {clause : Clause} {entry : Entry} (hgives : clause.Gives settings entry)
      (hfits : draft.fits entry = true) : Outcome settings draft clause (draft.fill entry)
  | priced {number : String} {price : Decimal}
      (hgives : Clause.Gives settings (.atPrice number) (.limit price))
      (hfree : draft.limitPrice = none) :
    Outcome settings draft (.atPrice number) (draft.fill (.limit price))

/-- A limit price is refused, or stored by a clause that comes with no other problem. -/
theorem setLimitPrice_outcome {number : String} {condition : Bool} {problem : Problem}
    (h : setLimitPrice { draft.failIf condition problem with limit := true } number = .ok made) :
    Refused draft made ∨ (condition = false ∧ ∃ price, Accepted number price ∧ 0 < price.value ∧
      made = draft.fill (.limit price)) := by
  cases condition with
  | false =>
    obtain ⟨other, rfl⟩ | ⟨price, hprice, hpos, rfl⟩ := setLimitPrice_ok h
    · exact .inl ⟨other, [], rfl⟩
    · exact .inr ⟨rfl, price, hprice, hpos, rfl⟩
  | true =>
    -- the first problem stays there, whatever becomes of the price
    obtain ⟨other, rfl⟩ | ⟨price, -, -, rfl⟩ := setLimitPrice_ok h
    · exact .inl ⟨problem, [other], by simp [failIf, fail]⟩
    · exact .inl ⟨problem, [], rfl⟩

/-- To apply a clause has one of its outcomes. -/
theorem outcome_of_apply {clause : Clause} (h : draft.apply settings clause = .ok made) :
    Outcome settings draft clause made := by
  -- each clause has its own check for room, and refuses with a problem where there is none
  cases clause with
  | reduce =>
    cases h
    cases hgiven : draft.reduceOnly with
    | true => exact .refused ⟨_, [], rfl⟩
    | false => exact .entered .reduce (by simp [fits, hgiven])
  | market =>
    cases h
    cases hgiven : draft.market with
    | true => exact .refused ⟨_, [], rfl⟩
    | false => exact .entered .market (by simp [fits, hgiven])
  | limit price =>
    cases price with
    | none =>
      cases h
      cases hgiven : draft.limit with
      | true => exact .refused ⟨_, [], rfl⟩
      | false => exact .marked hgiven
    | some number =>
      obtain hrefused | ⟨hfree, price, hprice, hpos, rfl⟩ := setLimitPrice_outcome h
      · exact .refused hrefused
      · exact .entered (.limit hprice hpos) (by simp [fits, hfree])
  | atPrice number =>
    obtain hrefused | ⟨hfree, price, hprice, hpos, rfl⟩ := setLimitPrice_outcome h
    · exact .refused hrefused
    · exact .priced (.atPrice hprice hpos) (by simpa using hfree)
  | leverage number =>
    obtain ⟨problem, rfl⟩ | ⟨hfree, x, k, hx, hvalue, hone, hmax, rfl⟩ := setLeverage_ok h
    · exact .refused (refused_fail draft problem)
    · exact .entered (.leverage hx hvalue hone hmax) (by simp [fits, hfree])
  | protection kind number =>
    obtain ⟨problem, rfl⟩ | ⟨hfree, distance, hdistance, hpos, hlt, rfl⟩ := setProtection_ok h
    · exact .refused (refused_fail draft problem)
    · exact .entered (.protection hdistance hpos hlt) (by simp [fits, hfree])
  | size number unit =>
    obtain ⟨problem, rfl⟩ | ⟨hfree, amount, hamount, hpos, hshare, rfl⟩ := setSize_ok h
    · exact .refused (refused_fail draft problem)
    · exact .entered (.size hamount hpos hshare) (by simp [fits, hfree])
  | symbol word =>
    obtain rfl := Except.ok.inj h
    obtain ⟨problem, hproblem⟩ | ⟨market, hmarket, hfits⟩ := setSymbol_ok settings draft word
    · exact .refused (hproblem ▸ refused_fail draft problem)
    · rw [setSymbol_eq hmarket hfits]
      exact .entered (.symbol hmarket) hfits
  | leverageMissing | protectionMissing | protectionInvalid | notFinite | unrecognized =>
    cases h
    exact .refused (refused_fail draft _)

/-- A clause only adds problems. -/
theorem Outcome.problems_kept {clause : Clause} (h : Outcome settings draft clause made) :
    draft.problems <+: made.problems := by
  cases h with
  | refused hrefused =>
    obtain ⟨problem, more, hmore⟩ := hrefused
    exact ⟨problem :: more, hmore.symm⟩
  | marked => exact List.prefix_rfl
  | entered | priced => rw [(draft.fill_keeps _).1]

/-- A draft has no problems before a clause if it has none afterwards. -/
theorem problems_of_apply {clause : Clause} (h : draft.apply settings clause = .ok made)
    (hmade : made.problems = []) : draft.problems = [] :=
  List.prefix_nil.1 (hmade ▸ (outcome_of_apply h).problems_kept)

/-- A clause that leaves a closed draft without problems has made an entry. -/
theorem exists_entry_of_apply {clause : Clause} (hclosed : draft.Closed)
    (hclause : clause ≠ .limit none) (h : draft.apply settings clause = .ok made)
    (hmade : made.problems = []) :
    ∃ entry, clause.Gives settings entry ∧ draft.enter? entry = some made := by
  cases outcome_of_apply h with
  | refused hrefused =>
    exact absurd (hmade.trans (problems_of_apply h hmade).symm) hrefused.problems_ne
  | marked => exact absurd rfl hclause
  | entered hgives hfits => exact ⟨_, hgives, if_pos hfits⟩
  | priced hgives hfree =>
    -- in a closed draft the price is missing exactly if the keyword is
    have hlimit : draft.limit = false := hclosed.trans (by rw [hfree]; rfl)
    exact ⟨_, hgives, if_pos (by simp [fits, hlimit])⟩

/-- An entry that a closed draft has room for is made by the clause. -/
theorem apply_of_gives {clause : Clause} {entry : Entry} (hclosed : draft.Closed)
    (h : clause.Gives settings entry) (hmade : draft.enter? entry = some made) :
    draft.apply settings clause = .ok made := by
  unfold enter? at hmade
  split at hmade
  · rename_i hfits
    cases hmade
    cases h with
    | reduce => simp_all [apply, fits, fill, failIf]
    | market => simp_all [apply, fits, fill, failIf]
    | limit haccepted hpos =>
      have hfree : draft.limit = false := by simpa [fits] using hfits
      simp only [apply, failIf, hfree, Bool.false_eq_true, if_false]
      exact setLimitPrice_eq haccepted hpos
    | atPrice haccepted hpos =>
      -- a closed draft without the mark of a limit order has no price either
      have hfree : draft.limitPrice.isSome = false :=
        hclosed.symm.trans (by simpa [fits] using hfits)
      simp only [apply, failIf, hfree, Bool.false_eq_true, if_false]
      exact setLimitPrice_eq haccepted hpos
    | leverage haccepted hx hone hmax =>
      exact setLeverage_eq (by simpa [fits] using hfits) haccepted hx hone hmax
    | protection haccepted hpos hlt =>
      exact setProtection_eq (by simpa [fits] using hfits) haccepted hpos hlt
    | size haccepted hpos hshare =>
      exact setSize_eq (by simpa [fits] using hfits) haccepted hpos hshare
    | symbol hmarket => exact congrArg Except.ok (setSymbol_eq hmarket hfits)
  · cases hmade

/-- Clauses only add problems. -/
theorem problems_of_foldlM {clauses : List Clause}
    (h : clauses.foldlM (Draft.apply settings) draft = .ok made) (hmade : made.problems = []) :
    draft.problems = [] := by
  induction clauses generalizing draft with
  | nil =>
    cases h
    exact hmade
  | cons clause rest ih =>
    rw [List.foldlM_cons] at h
    obtain ⟨next, hnext, h⟩ := bind_eq_ok h
    exact problems_of_apply hnext (ih h)

/-- Clauses that leave a closed draft without problems make entries, one after the other. -/
theorem exists_entries_of_foldlM {clauses : List Clause} (hclosed : draft.Closed)
    (hclauses : .limit none ∉ clauses)
    (h : clauses.foldlM (Draft.apply settings) draft = .ok made) (hmade : made.problems = []) :
    ∃ entries, List.Forall₂ (Clause.Gives settings) clauses entries ∧
      entries.foldlM enter? draft = some made := by
  -- on the clauses; each entry leaves a closed draft to the ones behind it
  induction clauses generalizing draft with
  | nil =>
    cases h
    exact ⟨[], .nil, rfl⟩
  | cons clause rest ih =>
    rw [List.foldlM_cons] at h
    obtain ⟨next, hnext, h⟩ := bind_eq_ok h
    rw [List.mem_cons, not_or] at hclauses
    obtain ⟨entry, hgives, henter⟩ :=
      exists_entry_of_apply hclosed (Ne.symm hclauses.1) hnext (problems_of_foldlM h hmade)
    obtain ⟨entries, hrest, hmade⟩ := ih (closed_of_enter? hclosed henter) hclauses.2 h
    refine ⟨entry :: entries, .cons hgives hrest, ?_⟩
    rw [List.foldlM_cons, henter]
    exact hmade

/-- Entries leave a closed draft closed. -/
theorem closed_of_foldlM {entries : List Entry} (hclosed : draft.Closed)
    (h : entries.foldlM enter? draft = some made) : made.Closed := by
  induction entries generalizing draft with
  | nil =>
    cases h
    exact hclosed
  | cons entry rest ih =>
    rw [List.foldlM_cons] at h
    obtain ⟨next, hnext, h⟩ := Option.bind_eq_some_iff.1 h
    exact ih (closed_of_enter? hclosed hnext) h

/-- Entries that are made in a closed draft, one after the other, are made by the clauses. -/
theorem foldlM_apply_of_gives {clauses : List Clause} {entries : List Entry}
    (hclosed : draft.Closed) (h : List.Forall₂ (Clause.Gives settings) clauses entries)
    (hmade : entries.foldlM enter? draft = some made) :
    clauses.foldlM (Draft.apply settings) draft = .ok made := by
  induction h generalizing draft with
  | nil =>
    cases hmade
    rfl
  | cons hgives _ ih =>
    rw [List.foldlM_cons] at hmade
    obtain ⟨next, hnext, hmade⟩ := Option.bind_eq_some_iff.1 hmade
    rw [List.foldlM_cons, apply_of_gives hclosed hgives hnext]
    exact ih (closed_of_enter? hclosed hnext) hmade

end Draft

/-! ## Accepted commands -/

/-- The entries of a command whose action names `side` are made one after the other, and the
finished draft gives the reading. -/
def Entered (settings : CommandSettings) (side : Side) (entries : List Entry) (reading : Reading) :
    Prop :=
  ∃ draft, entries.foldlM Draft.enter? { side } = some draft ∧
    (draft.finished settings).map Reading.ofDraft = .ok reading

section Accepted

variable {settings : CommandSettings} {side : Side} {entries : List Entry} {reading : Reading}
  {text action : String} {words : List String}

/-- The order of the entries does not matter. -/
theorem Entered.perm (h : Entered settings side entries reading) {entries' : List Entry}
    (hperm : entries.Perm entries') : Entered settings side entries' reading := by
  obtain ⟨draft, hdraft, hreading⟩ := h
  exact ⟨draft, Draft.foldlM_enter?_perm hperm _ ▸ hdraft, hreading⟩

/-- A command names one market at most. -/
theorem Entered.symbol_unique (h : Entered settings side entries reading) {first second : String}
    (hfirst : .symbol first ∈ entries) (hsecond : .symbol second ∈ entries) : first = second := by
  obtain ⟨draft, hdraft, -⟩ := h
  obtain ⟨-, hagrees, -⟩ := Draft.foldlM_enter?_iff.1 hdraft
  have hsymm : Std.Symm fun e e' : Entry => e.agrees e' = true :=
    ⟨fun e e' h => e.agrees_comm e' ▸ h⟩
  by_contra hne
  have hagree := hagrees.forall hfirst hsecond (by simpa using hne)
  simp [Entry.agrees, hne] at hagree

/-- A command whose reading passes the check has a reading that is accepted. -/
theorem exists_ok_of_any {x : Except Decimal.Fault Reading}
    (h : x.toOption.any Reading.ok = true) : ∃ reading, x = .ok reading ∧ reading.ok = true := by
  cases x with
  | error fault => cases h
  | ok reading => exact ⟨reading, rfl, h⟩

/-- A draft whose reading has an order is one without problems, and the order is the one in it. -/
theorem exists_order_of_ok {draft : Draft}
    (h : (draft.finished settings).map Reading.ofDraft = .ok reading) (hok : reading.ok = true) :
    ∃ order, draft.finished settings = .ok draft ∧ draft.order? = some order ∧
      reading.order = some order := by
  obtain ⟨finished, hfinished, rfl⟩ := map_eq_ok h
  cases horder : finished.order? with
  | none => simp [Reading.ok, Reading.ofDraft, Reading.refused, horder] at hok
  | some order =>
    obtain ⟨hnone, -⟩ := order?_eq_some horder
    obtain ⟨rfl, -⟩ := Draft.finished_ok hfinished hnone
    exact ⟨order, hfinished, horder, by rw [Reading.ofDraft, horder]⟩

/-- The clauses of an accepted command make a draft, which is finished. -/
theorem exists_draft_of_ok (hwords : Text.words text = action :: words)
    (h : read settings text = .ok reading) (hok : reading.ok = true) :
    ∃ side draft, sideOf? action = some side ∧
      (Clause.readAll words).foldlM (Draft.apply settings) { side } = .ok draft ∧
        (draft.finished settings).map Reading.ofDraft = .ok reading := by
  rw [read, hwords] at h
  simp only at h
  split at h
  · cases h
    simp [Reading.ok, Reading.refused] at hok
  · rename_i side hside
    obtain ⟨draft, hdraft, h⟩ := bind_eq_ok h
    exact ⟨side, draft, hside, hdraft, h⟩

/-- The clauses of an accepted command give entries, unless one of them is a limit keyword without a
price. -/
theorem exists_entered_of_read (hwords : Text.words text = action :: words)
    (h : read settings text = .ok reading) (hok : reading.ok = true)
    (hlimit : .limit none ∉ Clause.readAll words) :
    ∃ side entries, sideOf? action = some side ∧
      List.Forall₂ (Clause.Gives settings) (Clause.readAll words) entries ∧
        Entered settings side entries reading := by
  obtain ⟨side, draft, hside, hdraft, hreading⟩ := exists_draft_of_ok hwords h hok
  obtain ⟨order, -, horder, -⟩ := exists_order_of_ok hreading hok
  obtain ⟨entries, hgives, henter⟩ := Draft.exists_entries_of_foldlM (Draft.closed_empty side)
    hlimit hdraft (order?_eq_some horder).1
  exact ⟨side, entries, hside, hgives, draft, henter, hreading⟩

/-- A command whose clauses give entries is read as they say. -/
theorem Entered.read_eq (h : Entered settings side entries reading)
    (hwords : Text.words text = action :: words) (hside : sideOf? action = some side)
    (hgives : List.Forall₂ (Clause.Gives settings) (Clause.readAll words) entries) :
    read settings text = .ok reading := by
  obtain ⟨draft, henter, hreading⟩ := h
  have hdraft := Draft.foldlM_apply_of_gives (Draft.closed_empty side) hgives henter
  rw [read, hwords]
  simp only [hside, hdraft]
  exact hreading

end Accepted

end OrderTicket.Command
