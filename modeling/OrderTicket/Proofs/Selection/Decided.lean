import OrderTicket.Proofs.Command.Decided
import OrderTicket.Proofs.Selection

/-!
# Every form is decided

A form that gives no selection is refused for its problems, and a selection is read as a command. So
forms are decided as commands are, with the same exceptions. Forms reach the one for huge numbers
easily, for a short text such as `1E+1000000` is written out in the command. Besides, the leverage
of a selection may have too many digits to be written.

Nothing is assumed of what checks a form but that it names a problem where it refuses one.

* `Selection.check_reports`: the checker that runs does so.
* `Selection.FaultOf`: the faults that a selection is to blame for.
* `Selection.reads_decided_or_fault`: texts and forms are decided, unless a number is to blame.
* `Selection.reading_eq_error`: a selection with a huge size is not.
-/

namespace OrderTicket

open Command Decimal

variable {settings : CommandSettings} {selection : Selection}

/-! ## Forms -/

namespace Selection

/-- The checker that runs names at least one problem of a form that gives no selection. -/
theorem check_reports : Form.Checker.Reports check := by
  intro fields
  unfold check
  apply Form.Checked.also_failsOnly
  -- from the last field to the first one
  repeat' apply Form.Checked.ap_failsOnly
  all_goals first
    | exact Form.required_failsOnly
    | exact Form.withDefault_failsOnly
    | exact FailsOnly.ok

/-- The selection that a form gives is read as a command. -/
theorem readForm_of_ok {checker : Form.Checker Selection} {fields : List (String × Payload)}
    (h : checker fields = .ok selection) :
    readForm checker settings fields = selection.reading settings := by
  rw [readForm, h]

/-- A fault that a selection is to blame for. -/
inductive FaultOf (settings : CommandSettings) (selection : Selection) : Fault → Prop
  /-- The leverage has too many digits to be written into the command. -/
  | leverage {x : ℤ} (hleverage : selection.leverage = some x) (hlong : ¬ Integer.IsShort x) :
    FaultOf settings selection .integerTooLong
  /-- One of the clauses of the command is to blame. -/
  | command {text : String} {fault : Fault} (htext : selection.command = .ok text)
    (hfault : Command.FaultOf settings (clausesIn text) fault) :
    FaultOf settings selection fault

/-- A selection is read without a fault, unless it is to blame for one. -/
theorem reading_failsOnly (settings : CommandSettings) (selection : Selection) :
    FailsOnly (selection.reading settings) (selection.FaultOf settings) := by
  have hcommand : FailsOnly selection.command (selection.FaultOf settings) := by
    refine .bind (.bind ?_ fun _ _ => .ok) fun _ _ => .ok
    refine (leverageTerm_failsOnly selection.leverage).mono ?_
    rintro _ ⟨rfl, x, hx, hlong⟩
    exact .leverage hx hlong
  exact hcommand.bind fun text htext => (read_failsOnly settings text).mono fun _ => .command htext

/-- A form without a selection is refused for its problems, a selection is read as a command. -/
theorem readForm_decided_or_fault {checker : Form.Checker Selection} (hreports : checker.Reports)
    (settings : CommandSettings) (fields : List (String × Payload)) :
    Returns (readForm checker settings fields) Reading.Decided ∨
      ∃ selection fault, checker fields = .ok selection ∧
        readForm checker settings fields = .error fault ∧ selection.FaultOf settings fault := by
  cases hcheck : checker fields with
  | error problems =>
    rw [readForm, hcheck]
    cases problems with
    | nil => exact absurd rfl (hreports fields [] hcheck)
    | cons problem rest => exact .inl (.ok (.refused (problemMessage problem) _ []))
  | ok selection =>
    rw [readForm_of_ok hcheck]
    cases hread : selection.reading settings with
    | error fault =>
      exact .inr ⟨selection, fault, rfl, rfl, reading_failsOnly settings selection fault hread⟩
    | ok reading =>
      obtain ⟨text, -, hread⟩ := bind_eq_ok hread
      exact .inl (.ok (decided_of_read hread))

/-- Every text and every form is decided, or its reading fails and a number is to blame: one of the
numbers in its command is huge, a leverage is out of a range whose end cannot be written, or the
leverage of the selection cannot be written itself. -/
theorem reads_decided_or_fault {checker : Form.Checker Selection} (hreports : checker.Reports)
    (settings : CommandSettings) :
    (∀ text, Returns (read settings text) Reading.Decided ∨
      ∃ fault, read settings text = .error fault ∧
        Command.FaultOf settings (clausesIn text) fault) ∧
    ∀ fields, Returns (readForm checker settings fields) Reading.Decided ∨
      ∃ selection fault, checker fields = .ok selection ∧
        readForm checker settings fields = .error fault ∧ selection.FaultOf settings fault :=
  ⟨read_decided_or_fault settings, readForm_decided_or_fault hreports settings⟩

/-- A purchase for a quote amount. -/
def smallPurchase : List (String × Payload) :=
  [("action", .text "buy"), ("symbol", .text "BTCUSDT"), ("size", .text "100")]

/-- The purchase is decided, since its reading does not fail. -/
theorem decided_smallPurchase :
    Form.Checker.Reports check ∧ Returns (readForm check {} smallPurchase) Reading.Decided := by
  refine ⟨check_reports, ?_⟩
  obtain hdecided | ⟨selection, fault, -, hfault, -⟩ :=
    (reads_decided_or_fault check_reports {}).2 smallPurchase
  · exact hdecided
  · have hread : (readForm check {} smallPurchase).toOption.isSome = true := by decide +kernel
    rw [hfault] at hread
    cases hread

end Selection

/-! ## Huge sizes -/

namespace Command

/-- A written number is huge if the number itself is, unless it has too many digits to be read. -/
theorem Writes.huge {s : String} {x : Decimal} (h : Writes s x)
    (hlarge : overflowThreshold ≤ |x.value|) (hread : |x.value| < 10 ^ exponentLimit) : Huge s := by
  obtain ⟨y, hy, hvalue⟩ := h.exists_read hread
  exact ⟨y, hy, by rwa [hvalue]⟩

namespace Draft

/-- A huge size is not taken for one that is too large: its check fails. -/
theorem setSize_eq_error {draft : Draft} {number : String} (hfree : draft.size = none)
    (h : Huge number) (unit : SizeUnit) : draft.setSize number unit = .error .overflow := by
  have hnumber : numberOf "Size" number = .error .overflow := numberOf_eq_error_iff.2 ⟨rfl, h⟩
  simp [setSize, hfree, hnumber, bind, Except.bind]

/-- A symbol does not change the size of a draft. -/
theorem size_setSymbol (settings : CommandSettings) (draft : Draft) (word : String) :
    (setSymbol settings draft word).size = draft.size := by
  unfold setSymbol
  split
  · rfl
  · split
    · split <;> rfl
    · rfl

/-- Where the first size behind a symbol is huge, all reading ends. -/
theorem foldlM_eq_error {number : String} (h : Huge number) (side : Side) (word : String)
    (unit : SizeUnit) (rest : List Clause) :
    (Clause.symbol word :: .size number unit :: rest).foldlM (apply settings) { side } =
      .error .overflow := by
  have hfail : (setSymbol settings { side } word).setSize number unit = .error .overflow :=
    setSize_eq_error (size_setSymbol settings { side } word) h unit
  simp only [List.foldlM_cons, apply, bind, Except.bind, hfail]

end Draft

end Command

namespace Selection

/-- A selection with a huge size has no reading, once it is written as a command. -/
theorem reading_eq_error (hvalid : selection.Valid)
    (hlimit : selection.limitPrice.isSome = true → selection.type = .limit)
    (hshort : ∀ x, selection.leverage = some x → Integer.IsShort x)
    (hsymbol : Clause.read selection.symbol [] = (.symbol (Text.upper selection.symbol), 0))
    (hlarge : overflowThreshold ≤ |selection.size.value|)
    (hread : |selection.size.value| < 10 ^ exponentLimit) :
    selection.reading settings = .error .overflow := by
  have hsize : Holdable selection.size := hvalid.numbers _ List.mem_cons_self
  have hhuge : Huge selection.size.canonical := (writes_canonical hsize).huge hlarge hread
  obtain ⟨text, htext⟩ := exists_command hshort
  rw [reading, bind_of_eq_ok htext, Command.read,
    words_command hvalid hlimit selection.symbol htext]
  -- the size is the first clause behind the symbol
  simp only [sideOf?_name, readAll_words hvalid _ hsymbol, clausesOf, List.cons_append]
  rw [order, Draft.foldlM_eq_error hhuge]
  rfl

/-- A purchase for a quote amount of one and a million zeros. -/
def hugePurchase : List (String × Payload) :=
  [("action", .text "buy"), ("symbol", .text "BTCUSDT"), ("size", .text "1E+1000000")]

/-- The purchase is neither read nor refused, so not every form is decided. -/
theorem not_decided_hugePurchase :
    readForm check {} hugePurchase = .error .overflow ∧
      ¬ ∀ (settings : CommandSettings) (fields : List (String × Payload)),
        Returns (readForm check settings fields) Reading.Decided := by
  have hcheck : check hugePurchase = .ok
      { action := .buy, symbol := "BTCUSDT", size := .finite false 1 1000000 } := by
    rfl
  have hvalue (e : ℤ) : |(finite false 1 e).value| = 10 ^ e := by
    rw [abs_value_finite, Nat.cast_one, one_mul]
  have hoverflow : readForm check {} hugePurchase = .error .overflow := by
    rw [readForm_of_ok hcheck]
    refine reading_eq_error (valid_of_check hcheck) nofun nofun (by decide +kernel) ?_ ?_
    · rw [hvalue]
      exact overflowThreshold_le_pow.trans (zpow_le_zpow_right₀ (by norm_num) (by decide))
    · rw [hvalue]
      exact zpow_lt_zpow_right₀ (by norm_num) (by decide)
  refine ⟨hoverflow, fun hall => ?_⟩
  obtain ⟨reading, hreading, -⟩ := hall {} hugePurchase
  rw [hoverflow] at hreading
  cases hreading

end Selection

end OrderTicket
