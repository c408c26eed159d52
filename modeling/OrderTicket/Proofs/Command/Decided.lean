import OrderTicket.Proofs.Command.Sound
import OrderTicket.Proofs.Decimal.Overflow
import OrderTicket.Proofs.Integer

/-!
# Every command is decided

What is wrong with a command is collected and not raised: its reading is an order with nothing
wrong, or it says what is wrong and ends with the usage. There are two exceptions. The check for
numbers that are too large takes the absolute value first, which is rounded, and a number beyond all
numbers of the context makes that fail. And where a leverage is out of range, the problem names the
highest leverage of the settings, which cannot be written if it has too many digits. This module
shows that nothing else fails.

* `Reading.Decided`: the two kinds of readings.
* `Huge`: the typed numbers that cannot be rounded; `Draft.numberOf_eq_error_iff` shows that these
  are the ones whose check fails. `OutOfRange`: the typed leverages that lie out of range.
* `FaultOf`: the faults that come from these numbers.
* `Draft.apply_failsOnly`: a clause fails only by its number.
* `read_decided_or_fault`: a text is decided, or one of its numbers is to blame.
-/

namespace OrderTicket.Command

open Decimal

/-! ## Decided readings -/

/-- Either there is an order and nothing is wrong, or there is none, something is wrong, and the
usage stands behind all other suggestions. -/
inductive Reading.Decided : Reading → Prop where
  | accepted (order : Order) (hints : List String) : Decided ⟨some order, [], hints⟩
  | refused (error : String) (errors others : List String) :
    Decided ⟨none, error :: errors, others ++ [usage]⟩

/-- No problem comes with the usage as its own suggestion. -/
theorem Problem.suggestion?_ne_usage (problem : Problem) :
    problem.suggestion? ≠ some usage := by
  -- the usage starts with another letter
  have hstart {s : String} (h : s.toList.head? ≠ some 'T') : some s ≠ some usage := by
    rintro ⟨⟩
    exact h (by decide)
  cases problem with
  | protectionInvalid kind word =>
    refine hstart ?_
    simp [String.toList_append]
  | leverageOutside number cap =>
    refine hstart ?_
    simp [String.toList_append]
  | leverageMissing | unknownSymbol | symbolMissing | sizeNotPositive | sizeMissing
    | limitWithoutPrice | shareReduceOnly => exact hstart (by decide +kernel)
  | _ => simp [Problem.suggestion?]

/-- The usage stands behind all other suggestions, since none of them is the usage. -/
theorem Problem.exists_suggestions_eq (problems : List Problem) :
    ∃ others, Problem.suggestions problems = others ++ [usage] := by
  -- every suggestion that is known comes from a problem
  have hknown (given known : List String) :
      ∀ s ∈ given.foldl (fun known s => if known.contains s then known else known ++ [s]) known,
        s ∈ known ∨ s ∈ given := by
    induction given generalizing known with
    | nil => simp
    | cons first rest ih =>
      intro s hs
      rw [List.foldl_cons] at hs
      rcases ih _ s hs with hs | hs
      · split at hs
        · exact .inl hs
        · simp only [List.mem_append, List.mem_singleton] at hs
          rcases hs with hs | rfl
          · exact .inl hs
          · exact .inr List.mem_cons_self
      · exact .inr (List.mem_cons_of_mem _ hs)
  rw [suggestions, List.foldl_append, List.foldl_cons, List.foldl_nil, if_neg]
  · exact ⟨_, rfl⟩
  intro hcontains
  have hmem := hknown (problems.filterMap suggestion?) [] usage (by simpa using hcontains)
  obtain ⟨problem, -, husage⟩ := List.mem_filterMap.1 (hmem.resolve_left (List.not_mem_nil))
  exact problem.suggestion?_ne_usage husage

/-- With at least one problem a command is refused. -/
theorem Reading.decided_refused {problems : List Problem} (h : problems ≠ []) :
    (Reading.refused problems).Decided := by
  obtain ⟨others, hothers⟩ := Problem.exists_suggestions_eq problems
  cases problems with
  | nil => exact absurd rfl h
  | cons problem rest =>
    rw [Reading.refused, hothers]
    exact .refused problem.message _ others

/-- A draft that is finished without problems has all that an order needs. -/
theorem Draft.order?_isSome {settings : CommandSettings} {draft made : Draft}
    (h : draft.finished settings = .ok made) (hnone : made.problems = []) :
    made.order?.isSome = true := by
  obtain ⟨rfl, -⟩ := finished_ok h hnone
  rw [finished_eq] at h
  obtain ⟨target, -, hmade⟩ := map_eq_ok h
  -- a missing symbol or size would be among the last problems
  have hlast := congrArg Draft.problems hmade
  simp only [hnone, List.nil_append, lastProblems, List.append_eq_nil_iff, ite_eq_right_iff,
    List.cons_ne_nil, imp_false, Bool.not_eq_true, Option.isNone_eq_false_iff] at hlast
  obtain ⟨symbol, hsymbol⟩ := Option.isSome_iff_exists.1 hlast.1.1.1.1.1.1
  obtain ⟨size, hsize⟩ := Option.isSome_iff_exists.1 hlast.1.1.1.1.1.2
  simp [order?, hnone, hsymbol, hsize]

/-- A finished draft gives an order, or it is refused for its problems. -/
theorem Reading.decided_ofDraft {settings : CommandSettings} {draft made : Draft}
    (h : draft.finished settings = .ok made) : (Reading.ofDraft made).Decided := by
  rw [Reading.ofDraft]
  split
  · exact .accepted _ _
  · rename_i hnone
    refine decided_refused fun hproblems => ?_
    simpa [hnone] using Draft.order?_isSome h hproblems

/-- What is read is decided. -/
theorem decided_of_read {settings : CommandSettings} {text : String} {reading : Reading}
    (h : read settings text = .ok reading) : reading.Decided := by
  unfold read at h
  split at h
  · cases h
    exact Reading.decided_refused (List.cons_ne_nil _ _)
  · split at h
    · cases h
      exact Reading.decided_refused (List.cons_ne_nil _ _)
    · obtain ⟨draft, -, h⟩ := bind_eq_ok h
      obtain ⟨made, hmade, h⟩ := bind_eq_ok h
      cases h
      exact Reading.decided_ofDraft hmade

/-! ## Faults -/

/-- The typed number is beyond all numbers of the context, also when it is rounded. -/
def Huge (number : String) : Prop :=
  ∃ x, ofText? number = some x ∧ overflowThreshold ≤ |x.value|

/-- The typed leverage is a whole number, but not one of those that may be asked for. -/
def OutOfRange (settings : CommandSettings) (number : String) : Prop :=
  ∃ (x : Decimal) (leverage : ℤ), Accepted number x ∧ x.value = leverage ∧
    ¬ (1 ≤ leverage ∧ leverage ≤ settings.maxLeverage)

/-- The number that a clause holds, as typed. -/
def Clause.typedNumber? : Clause → Option String
  | .limit price => price
  | .atPrice number | .leverage number | .protection _ number | .size number _ => some number
  | _ => none

/-- The clauses behind the action of a text. -/
def clausesIn (text : String) : List Clause :=
  Clause.readAll (Text.words text).tail

/-- A fault that one of some clauses is to blame for. -/
inductive FaultOf (settings : CommandSettings) (clauses : List Clause) : Fault → Prop
  /-- A number is huge, and its check overflows. -/
  | overflow {clause : Clause} {number : String} (hclause : clause ∈ clauses)
    (hnumber : clause.typedNumber? = some number) (hhuge : Huge number) :
    FaultOf settings clauses .overflow
  /-- A leverage is out of range, and the end of the range has too many digits to be written. -/
  | integerTooLong {number : String} (hclause : .leverage number ∈ clauses)
    (hrange : OutOfRange settings number) (hlong : ¬ Integer.IsShort settings.maxLeverage) :
    FaultOf settings clauses .integerTooLong

/-- A fault of some clauses is a fault of more clauses. -/
theorem FaultOf.mono {settings : CommandSettings} {clauses more : List Clause} {fault : Fault}
    (h : FaultOf settings clauses fault) (hmem : ∀ clause ∈ clauses, clause ∈ more) :
    FaultOf settings more fault := by
  cases h with
  | overflow hclause hnumber hhuge => exact .overflow (hmem _ hclause) hnumber hhuge
  | integerTooLong hclause hrange hlong => exact .integerTooLong (hmem _ hclause) hrange hlong

namespace Draft

variable {draft : Draft} {what number : String} {P : Fault → Prop}

/-- The check of a typed number fails exactly if the number is huge. -/
theorem numberOf_eq_error_iff {fault : Fault} :
    numberOf what number = .error fault ↔ fault = .overflow ∧ Huge number := by
  constructor
  · intro h
    unfold numberOf at h
    split at h
    · cases h
    · rename_i x hread
      have hx := isFinite_of_ofText? hread
      cases habs : x.abs with
      | error other =>
        rw [habs] at h
        cases h
        obtain ⟨hfault, hlarge⟩ := (abs_eq_error_iff hx).1 habs
        exact ⟨hfault, x, hread, hlarge⟩
      | ok a =>
        -- the comparison of finite numbers does not fail
        have hround := (abs_computes hx).rounded habs
        simp only [habs, le_eq (show numberLimit.isFinite = true from rfl) hround.isFinite, bind,
          Except.bind] at h
        split at h <;> cases h
  · rintro ⟨rfl, x, hread, hlarge⟩
    have habs := (abs_eq_error_iff (isFinite_of_ofText? hread)).2 ⟨rfl, hlarge⟩
    simp only [numberOf, hread, habs, bind, Except.bind]

/-! ### Setters

A setter fails if the check of its number does. A number that has passed the check is finite, and
finite numbers are compared without a fault, so this is all, but for a leverage that is out of
range. -/

/-- What is done with a typed number fails as its check does, or as it does itself with a problem or
an accepted number. -/
theorem numberOf_bind_failsOnly {next : Except Problem Decimal → Except Fault Draft}
    (hhuge : Huge number → P .overflow)
    (hproblem : ∀ problem, FailsOnly (next (.error problem)) P)
    (hvalue : ∀ x, Accepted number x → FailsOnly (next (.ok x)) P) :
    FailsOnly (numberOf what number >>= next) P := by
  have hcheck : FailsOnly (numberOf what number) P := by
    intro fault h
    obtain ⟨rfl, hlarge⟩ := numberOf_eq_error_iff.1 h
    exact hhuge hlarge
  refine hcheck.bind fun read hread => ?_
  cases read with
  | error problem => exact hproblem problem
  | ok x => exact hvalue x (numberOf_eq_ok_iff.1 hread)

/-- To set a size fails only for a number that is too large to be held. -/
theorem setSize_failsOnly (draft : Draft) (unit : SizeUnit) (hhuge : Huge number → P .overflow) :
    FailsOnly (draft.setSize number unit) P := by
  unfold setSize
  split
  · exact .ok
  refine numberOf_bind_failsOnly hhuge (fun _ => .ok) fun amount hamount => ?_
  refine .bind (.of_returns (le_zero_returns hamount.isFinite)) fun notPositive _ =>
    .ite (fun _ => .ok) fun _ => ?_
  refine .bind (.of_returns (lt_returns rfl hamount.isFinite)) fun tooHigh _ => ?_
  exact .ite (fun _ => .ok) fun _ => .ok

theorem setLimitPrice_failsOnly (draft : Draft) (hhuge : Huge number → P .overflow) :
    FailsOnly (draft.setLimitPrice number) P := by
  unfold setLimitPrice
  refine numberOf_bind_failsOnly hhuge (fun _ => .ok) fun price hprice => ?_
  refine .bind (.of_returns (le_zero_returns hprice.isFinite)) fun notPositive _ => ?_
  exact .ite (fun _ => .ok) fun _ => .ok

theorem setProtection_failsOnly (draft : Draft) (kind : Protection)
    (hhuge : Huge number → P .overflow) : FailsOnly (draft.setProtection kind number) P := by
  unfold setProtection
  split
  · exact .ok
  refine numberOf_bind_failsOnly hhuge (fun _ => .ok) fun distance hdistance => ?_
  refine .bind (.of_returns (le_zero_returns hdistance.isFinite)) fun notPositive _ =>
    .ite (fun _ => .ok) fun _ => ?_
  refine .bind (.of_returns (le_returns rfl hdistance.isFinite)) fun tooHigh _ => ?_
  exact .ite (fun _ => .ok) fun _ => .ok

/-- To set a leverage fails only for a number that is too large to be held, or where a bound is to
be shown that has no text. -/
theorem setLeverage_failsOnly (settings : CommandSettings) (draft : Draft)
    (hhuge : Huge number → P .overflow)
    (hlong : OutOfRange settings number → ¬ Integer.IsShort settings.maxLeverage →
      P .integerTooLong) :
    FailsOnly (draft.setLeverage settings number) P := by
  unfold setLeverage
  split
  · exact .ok
  refine numberOf_bind_failsOnly hhuge (fun _ => .ok) fun x hx => ?_
  have hfin := hx.isFinite
  obtain ⟨nearest, hnearest, hnearfin, hinteger⟩ := toIntegral_halfEven hfin
  dsimp only
  rw [bind_of_eq_ok hnearest]
  refine .bind (.of_returns (equal_returns hfin hnearfin)) fun whole hwhole =>
    .ite (fun _ => .ok) fun hcheck => ?_
  obtain rfl : whole = true := by simpa using hcheck
  refine .bind (.of_returns (le_returns rfl hfin)) fun low hlow => ?_
  refine .bind (.of_returns (le_returns hfin rfl)) fun high hhigh =>
    .ite (fun _ => .ok) fun hbounds => ?_
  -- a whole number is left, and one of the bounds does not hold
  rw [equal_eq hfin hnearfin] at hwhole
  obtain ⟨k, hk⟩ := hinteger.1 (by simpa using hwhole)
  rw [le_eq rfl hfin, hk, value_ofNat] at hlow
  rw [le_eq hfin rfl, value_ofInt, hk] at hhigh
  have hrange : OutOfRange settings number := by
    refine ⟨x, k, hx, hk, fun ⟨hone, hmax⟩ => hbounds ?_⟩
    obtain rfl := Except.ok.inj hlow
    obtain rfl := Except.ok.inj hhigh
    simp only [Bool.and_eq_true, decide_eq_true_eq]
    exact ⟨by exact_mod_cast hone, by exact_mod_cast hmax⟩
  refine .bind (fun fault hfault => ?_) fun _ _ => .ok
  obtain ⟨rfl, h⟩ := Integer.text_eq_error_iff.1 hfault
  exact hlong hrange h

/-! ### Clauses -/

/-- A clause fails only by its number. -/
theorem apply_failsOnly (settings : CommandSettings) (draft : Draft) (clause : Clause) :
    FailsOnly (draft.apply settings clause) (FaultOf settings [clause]) := by
  have hhuge (number : String) (hnumber : clause.typedNumber? = some number) (h : Huge number) :
      FaultOf settings [clause] .overflow := .overflow (List.mem_singleton_self _) hnumber h
  cases clause with
  | limit price =>
    cases price with
    | none => exact .ok
    | some number => exact setLimitPrice_failsOnly _ (hhuge number rfl)
  | atPrice number => exact setLimitPrice_failsOnly _ (hhuge number rfl)
  | leverage number =>
    exact setLeverage_failsOnly settings draft (hhuge number rfl)
      (.integerTooLong (List.mem_singleton_self _))
  | protection kind number => exact setProtection_failsOnly draft kind (hhuge number rfl)
  | size number unit => exact setSize_failsOnly draft unit (hhuge number rfl)
  | reduce | market | leverageMissing | protectionMissing | protectionInvalid | notFinite | symbol
    | unrecognized => exact .ok

/-- The clauses of a command fail only by one of their numbers. -/
theorem foldlM_failsOnly (settings : CommandSettings) (draft : Draft) (clauses : List Clause) :
    FailsOnly (clauses.foldlM (Draft.apply settings) draft) (FaultOf settings clauses) := by
  refine .foldlM (fun before clause hclause => ?_) draft
  refine (apply_failsOnly settings before clause).mono fun fault h => h.mono ?_
  rintro other hother
  rwa [List.mem_singleton.1 hother]

/-- A draft whose distances are finite is finished without a fault. -/
theorem finished_failsOnly {settings : CommandSettings} {text : String}
    (h : draft.Sound settings text) : FailsOnly (draft.finished settings) P := by
  rw [finished_eq]
  refine .map ?_
  unfold targetTooHigh?
  split
  · rename_i target hside htarget
    have htyped := h.protection .takeProfit target htarget
    exact .bind (.of_returns (le_returns rfl htyped.isFinite)) fun _ _ => .ok
  · exact .ok

end Draft

/-! ## Texts -/

/-- A text is read without a fault, unless one of its clauses is to blame for one. -/
theorem read_failsOnly (settings : CommandSettings) (text : String) :
    FailsOnly (read settings text) (FaultOf settings (clausesIn text)) := by
  unfold read clausesIn
  cases hwords : Text.words text with
  | nil => exact .ok
  | cons word words =>
    dsimp only [List.tail_cons]
    cases sideOf? word with
    | none => exact .ok
    | some side =>
      refine (Draft.foldlM_failsOnly settings { side } (Clause.readAll words)).bind ?_
      intro draft hdraft
      have hsound : draft.Sound settings text := Draft.sound_of_words hwords hdraft
      exact (Draft.finished_failsOnly hsound).bind fun _ _ => .ok

/-- The reading of a text is decided, or it fails and one of its clauses is to blame. -/
theorem read_decided_or_fault (settings : CommandSettings) (text : String) :
    Returns (read settings text) Reading.Decided ∨
      ∃ fault, read settings text = .error fault ∧ FaultOf settings (clausesIn text) fault := by
  cases h : read settings text with
  | ok reading => exact .inl (.ok (decided_of_read h))
  | error fault => exact .inr ⟨fault, rfl, read_failsOnly settings text fault h⟩

end OrderTicket.Command
